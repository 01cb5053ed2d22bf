import TradeTalk.Proofs.Decimal.Nearest
import TradeTalk.Proofs.Decimal.Written
import TradeTalk.Proofs.Ledger.Pricing

/-!
# `Proofs.Ledger.Comparison` — prices compared

A price is compared with the exact one, and with another price, which any other ledger may have found. The first distance
is small, whatever the amount and its scale. The second comparison comes out as that of the exact prices of one unit and
of the numbers of units: both roundings keep the order, and so does the one for showing. Hence two quotes by which one
unit costs the same give the same prices, although their quotients may have been found from amounts of different scales.

## Contents
- **`AsksPrice.unique`**: a line asks a ledger for one price.
- **`Reachable.price_close`**: a price is off by `10 ^ -24` and `10 ^ -27` of the exact one at most.
- **`Reachable.price_ordered`**: what costs more by one unit, and is asked for in a larger number, costs no less.
-/

namespace TradeTalk.Ledger

variable {l l' : Ledger} {line line' p p' m m' : String} {cost cost' : Decimal}

/-- **A line asks a ledger for one price.** -/
theorem AsksPrice.unique {phrase phrase' : Phrase} {quote quote' : Quote} {per per' quantity quantity' : Nat}
    (h : l.AsksPrice line phrase m quote per quantity) (h' : l.AsksPrice line phrase' m' quote' per' quantity') :
    phrase = phrase' ∧ m = m' ∧ quote = quote' ∧ per = per' ∧ quantity = quantity' := by
  obtain ⟨rfl, rfl⟩ := Request.priceQuestion.inj (h.asked.symm.trans h'.asked)
  obtain rfl := Option.some.inj (h.quoted.symm.trans h'.quoted)
  obtain rfl := Except.ok.inj (h.worthQuoted.symm.trans h'.worthQuoted)
  obtain rfl := Except.ok.inj (h.worthAsked.symm.trans h'.worthAsked)
  exact ⟨rfl, rfl, rfl, rfl, rfl⟩

/-! ## With the exact price -/

theorem exactPrice_nonneg {quote : Quote} (h : quote.amount.negative = false) (per quantity : Nat) :
    0 ≤ exactPrice quote per quantity := by
  rw [exactPrice, Decimal.toRat_eq_magnitude h]
  exact div_nonneg (mul_nonneg quote.amount.magnitude_nonneg (Nat.cast_nonneg quantity)) (Nat.cast_nonneg per)

/-- **A price is close to the exact one.** Whenever a reachable ledger answers a line by a price, the line asks for so much
    of a metal as some phrase says, and there is a quote for the metal. The price is off the exact one by that quote by no
    more than `10 ^ -24` plus `10 ^ -27` times the exact one, although the quotient and the product that it was found by
    have each been rounded at the last scale where the mantissa had room. -/
theorem Reachable.price_close (h : l.Reachable) (hprice : (l.tell line).1 = .ok (.price p m cost)) :
    ∃ phrase quote per quantity, l.AsksPrice line phrase m quote per quantity ∧ p = phrase.text ∧
      |cost.toRat - exactPrice quote per quantity| ≤ 1 / 10 ^ 24 + 1 / 10 ^ 27 * exactPrice quote per quantity := by
  obtain ⟨phrase, quote, per, quantity, hasks, hp, -, haccuracy⟩ := h.price_accuracy hprice
  refine ⟨phrase, quote, per, quantity, hasks, hp, haccuracy.trans ?_⟩
  obtain ⟨hsign, -⟩ := h.quote_amount hasks.quoted
  have hexact := exactPrice_nonneg hsign per quantity
  -- The error for each unit counts at most as often as the largest numeral says.
  have hquantity : (quantity : ℚ) ≤ 3999 := by exact_mod_cast worth_le_largest hasks.worthAsked
  rw [Decimal.precision]
  linarith

/-- A ledger with a quote by threes, so that one unit costs a number without an end. -/
def byThrees : Ledger :=
  (empty.tellAll ["glob is I", "glob glob glob Gold is 10 Credits"]).2

/-- The price of two is found by a quotient without an end, and a third of its last unit too low. -/
theorem price_close_byThrees :
    byThrees.Reachable ∧
      (byThrees.tell "how many Credits is glob glob Gold ?").1 =
        .ok (.price "glob glob" "Gold" ⟨false, 66666666666666666666666666666, 28, by decide, by decide⟩) ∧
      |Decimal.toRat ⟨false, 66666666666666666666666666666, 28, by decide, by decide⟩ - 20 / 3| ≤
        1 / 10 ^ 24 + 1 / 10 ^ 27 * (20 / 3) := by
  have hreach : byThrees.Reachable := reachable_iff.mpr ⟨_, rfl⟩
  have hprice : (byThrees.tell "how many Credits is glob glob Gold ?").1 =
      .ok (.price "glob glob" "Gold" ⟨false, 66666666666666666666666666666, 28, by decide, by decide⟩) := by
    decide +kernel
  refine ⟨hreach, hprice, ?_⟩
  have hasks : byThrees.AsksPrice "how many Credits is glob glob Gold ?" ["glob", "glob"] "Gold"
      ⟨["glob", "glob", "glob"], ⟨false, 10, 0, by decide, by decide⟩⟩ 3 2 :=
    ⟨by decide +kernel, by decide +kernel, by decide +kernel, by decide +kernel⟩
  have hexact : exactPrice ⟨["glob", "glob", "glob"], ⟨false, 10, 0, by decide, by decide⟩⟩ 3 2 = 20 / 3 := by
    decide +kernel
  obtain ⟨phrase, quote, per, quantity, hasked, -, hclose⟩ := hreach.price_close hprice
  obtain ⟨rfl, -, rfl, rfl, rfl⟩ := hasked.unique hasks
  rwa [hexact] at hclose

/-! ## With other prices -/

/-- **Prices keep the order of the exact prices of one unit.** Whenever two reachable ledgers answer two lines by prices,
    each line asks for a number of units of a metal, and there is a quote for that metal. If one unit costs no more by the
    one quote than by the other, exactly, and the number of units is no larger, then the one price is not above the other,
    and neither is the number shown for it. If both are the same, then the same is shown for the prices, whatever the
    scales of the amounts. -/
theorem Reachable.price_ordered (h : l.Reachable) (h' : l'.Reachable)
    (hprice : (l.tell line).1 = .ok (.price p m cost)) (hprice' : (l'.tell line').1 = .ok (.price p' m' cost')) :
    ∃ phrase quote per quantity phrase' quote' per' quantity',
      l.AsksPrice line phrase m quote per quantity ∧ l'.AsksPrice line' phrase' m' quote' per' quantity' ∧
      (quote.amount.toRat / per ≤ quote'.amount.toRat / per' → quantity ≤ quantity' →
        cost.toRat ≤ cost'.toRat ∧ Decimal.written cost.credits ≤ Decimal.written cost'.credits) ∧
      (quote.amount.toRat / per = quote'.amount.toRat / per' → quantity = quantity' →
        cost.toRat = cost'.toRat ∧ cost.credits = cost'.credits) := by
  obtain ⟨phrase, quote, per, quantity, unit, hasks, -, hunit, hcost, hpos, hsign, hcostSign⟩ :=
    h.tell_price_unsigned hprice
  obtain ⟨phrase', quote', per', quantity', unit', hasks', -, hunit', hcost', hpos', hsign', hcostSign'⟩ :=
    h'.tell_price_unsigned hprice'
  refine ⟨phrase, quote, per, quantity, phrase', quote', per', quantity', hasks, hasks', ?_, ?_⟩
  all_goals
    rw [Decimal.toRat_eq_magnitude hsign, Decimal.toRat_eq_magnitude hsign', Decimal.toRat_eq_magnitude hcostSign,
      Decimal.toRat_eq_magnitude hcostSign']
    intro hratio hquantity
  · have hle := Decimal.price_mono hpos hpos' hunit hunit' hcost hcost' hratio hquantity
    refine ⟨hle, ?_⟩
    have hshown : (cost.hundredths : ℚ) ≤ cost'.hundredths := by exact_mod_cast Decimal.hundredths_mono hle
    rw [Decimal.written_credits hcostSign, Decimal.written_credits hcostSign']
    linarith
  · have hle := Decimal.price_mono hpos hpos' hunit hunit' hcost hcost' hratio.le hquantity.le
    have hge := Decimal.price_mono hpos' hpos hunit' hunit hcost' hcost hratio.ge hquantity.ge
    have hshown : cost.hundredths = cost'.hundredths :=
      Nat.le_antisymm (Decimal.hundredths_mono hle) (Decimal.hundredths_mono hge)
    refine ⟨le_antisymm hle hge, ?_⟩
    rw [Decimal.credits_of_not_negative hcostSign, Decimal.credits_of_not_negative hcostSign', hshown]

/-- A ledger with a quote for one unit, written with two fraction digits. -/
def byOnes : Ledger :=
  (empty.tellAll ["glob is I", "glob Gold is 17.00 Credits"]).2

/-- A ledger with a quote for two units, by which one costs the same. -/
def byTwos : Ledger :=
  (empty.tellAll ["glob is I", "glob glob Gold is 34 Credits"]).2

/-- The price of three is found at two scales, and is one price. -/
theorem price_ordered_byOnes_byTwos :
    byOnes.Reachable ∧ byTwos.Reachable ∧
      (byOnes.tell "how many Credits is glob glob glob Gold ?").1 =
        .ok (.price "glob glob glob" "Gold" ⟨false, 5100, 2, by decide, by decide⟩) ∧
      (byTwos.tell "how many Credits is glob glob glob Gold ?").1 =
        .ok (.price "glob glob glob" "Gold" ⟨false, 51, 0, by decide, by decide⟩) ∧
      (Decimal.toRat ⟨false, 5100, 2, by decide, by decide⟩ ≤ Decimal.toRat ⟨false, 51, 0, by decide, by decide⟩ ∧
        Decimal.written (Decimal.credits ⟨false, 5100, 2, by decide, by decide⟩) ≤
          Decimal.written (Decimal.credits ⟨false, 51, 0, by decide, by decide⟩)) ∧
      Decimal.toRat ⟨false, 5100, 2, by decide, by decide⟩ = Decimal.toRat ⟨false, 51, 0, by decide, by decide⟩ ∧
      Decimal.credits ⟨false, 5100, 2, by decide, by decide⟩ = Decimal.credits ⟨false, 51, 0, by decide, by decide⟩ := by
  have hreach : byOnes.Reachable := reachable_iff.mpr ⟨_, rfl⟩
  have hreach' : byTwos.Reachable := reachable_iff.mpr ⟨_, rfl⟩
  have hprice : (byOnes.tell "how many Credits is glob glob glob Gold ?").1 =
      .ok (.price "glob glob glob" "Gold" ⟨false, 5100, 2, by decide, by decide⟩) := by decide +kernel
  have hprice' : (byTwos.tell "how many Credits is glob glob glob Gold ?").1 =
      .ok (.price "glob glob glob" "Gold" ⟨false, 51, 0, by decide, by decide⟩) := by decide +kernel
  have hasks : byOnes.AsksPrice "how many Credits is glob glob glob Gold ?" ["glob", "glob", "glob"] "Gold"
      ⟨["glob"], ⟨false, 1700, 2, by decide, by decide⟩⟩ 1 3 :=
    ⟨by decide +kernel, by decide +kernel, by decide +kernel, by decide +kernel⟩
  have hasks' : byTwos.AsksPrice "how many Credits is glob glob glob Gold ?" ["glob", "glob", "glob"] "Gold"
      ⟨["glob", "glob"], ⟨false, 34, 0, by decide, by decide⟩⟩ 2 3 :=
    ⟨by decide +kernel, by decide +kernel, by decide +kernel, by decide +kernel⟩
  have hratio : Decimal.toRat ⟨false, 1700, 2, by decide, by decide⟩ / (1 : Nat) =
      Decimal.toRat ⟨false, 34, 0, by decide, by decide⟩ / (2 : Nat) := by decide +kernel
  obtain ⟨_, _, _, _, _, _, _, _, hasked, hasked', horder, hsame⟩ := hreach.price_ordered hreach' hprice hprice'
  obtain ⟨-, -, rfl, rfl, rfl⟩ := hasked.unique hasks
  obtain ⟨-, -, rfl, rfl, rfl⟩ := hasked'.unique hasks'
  exact ⟨hreach, hreach', hprice, hprice', horder hratio.le le_rfl, hsame hratio rfl⟩

end TradeTalk.Ledger
