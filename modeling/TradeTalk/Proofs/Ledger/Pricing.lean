import TradeTalk.Proofs.Decimal.Hundredths
import TradeTalk.Proofs.Ledger.Outcome

/-!
# `Proofs.Ledger.Pricing` — the price that is shown

A price is the amount of a quote over what its phrase is worth now, times what the phrase of the question is worth. It is
rounded as a quotient, again as a product, and once more when it is shown. Within the cap, the first two roundings are
off by less than half a hundredth together; so a price that is a number of hundredths is shown as that.

## Contents
- **`AsksPrice`**, **`Reachable.tell_price`**, **`Reachable.tell_price_unsigned`**: what a price was found by.
- **`exactPrice`**, **`Reachable.price_accuracy`**: the price without any rounding, and how far off it is found.
- **`Reachable.price_exact`**: a price that is a number of hundredths is shown exactly.
-/

namespace TradeTalk

/-- The wording of a price. -/
theorem Answer.text_price (phrase metal : String) (cost : Decimal) :
    (price phrase metal cost).text = phrase ++ " " ++ metal ++ " is " ++ cost.credits ++ " Credits" := rfl

namespace Ledger

/-- A line asks a ledger for a price: for so much of a metal as the phrase says, which is worth `quantity` now. There is a
    quote for the metal, whose phrase is worth `per` now. -/
structure AsksPrice (l : Ledger) (line : String) (phrase : Phrase) (metal : String) (quote : Quote)
    (per quantity : Nat) : Prop where
  asked : Request.ofLine (dropLineEnds line) = .priceQuestion phrase metal
  quoted : l.quote? metal = some quote
  worthQuoted : l.worth quote.phrase = .ok per
  worthAsked : l.worth phrase = .ok quantity

variable {l : Ledger} {line p m : String} {cost : Decimal}

/-- **What a price was found by.** A reachable ledger answers a line by a price only if it asks for one, and the price is
    the quotient of the amount, times the number of units. -/
theorem Reachable.tell_price (h : l.Reachable) (hprice : (l.tell line).1 = .ok (.price p m cost)) :
    ∃ phrase quote per quantity unit, l.AsksPrice line phrase m quote per quantity ∧ p = phrase.text ∧
      quote.amount.over? per = some unit ∧ unit.times? quantity = some cost := by
  have hout := (respond_eq_iff h fun _ => ne_nil_of_phrase?).mp hprice
  have hne : ∀ phrase, (Request.ofLine (dropLineEnds line)).phrase? = some phrase → phrase ≠ [] :=
    fun _ => ne_nil_of_phrase?
  generalize hq : Request.ofLine (dropLineEnds line) = q at hout hne
  cases hout with
  | phraseFirst hout _ => cases hout
  | price hv hm hqv hu hc =>
    exact ⟨_, _, _, _, _, ⟨hq, hm, (worth_eq_iff (h.quote_phrase hm)).mpr hqv, (worth_eq_iff (hne _ rfl)).mpr hv⟩, rfl,
      hu, hc⟩

/-- What a price was found by. The phrase of the quote is worth something, and neither the amount nor the price has a
    sign. -/
theorem Reachable.tell_price_unsigned (h : l.Reachable) (hprice : (l.tell line).1 = .ok (.price p m cost)) :
    ∃ phrase quote per quantity unit, l.AsksPrice line phrase m quote per quantity ∧ p = phrase.text ∧
      quote.amount.over? per = some unit ∧ unit.times? quantity = some cost ∧
      0 < per ∧ quote.amount.negative = false ∧ cost.negative = false := by
  obtain ⟨phrase, quote, per, quantity, unit, hasks, hp, hunit, hcost⟩ := h.tell_price hprice
  obtain ⟨hpos, -⟩ := worth_pos_le (h.quote_phrase hasks.quoted) hasks.worthQuoted
  obtain ⟨hsign, -⟩ := h.quote_amount hasks.quoted
  have hcostSign := Decimal.negative_times? hcost (Decimal.negative_over? hunit hsign)
  exact ⟨phrase, quote, per, quantity, unit, hasks, hp, hunit, hcost, hpos, hsign, hcostSign⟩

/-- The exact price of `quantity` units by a quote, if `per` of them cost the amount. -/
def exactPrice (quote : Quote) (per quantity : Nat) : ℚ :=
  quote.amount.toRat * quantity / per

/-- **How far a price is off.** -/
theorem Reachable.price_accuracy (h : l.Reachable) (hprice : (l.tell line).1 = .ok (.price p m cost)) :
    ∃ phrase quote per quantity, l.AsksPrice line phrase m quote per quantity ∧ p = phrase.text ∧
      cost.negative = false ∧
      |cost.toRat - exactPrice quote per quantity| ≤
        3 * Decimal.precision * (quantity + exactPrice quote per quantity) := by
  obtain ⟨phrase, quote, per, quantity, unit, hasks, hp, hunit, hcost, hpos, hsign, hcostSign⟩ :=
    h.tell_price_unsigned hprice
  refine ⟨phrase, quote, per, quantity, hasks, hp, hcostSign, ?_⟩
  rw [exactPrice, Decimal.toRat_eq_magnitude hsign, Decimal.toRat_eq_magnitude hcostSign]
  exact Decimal.price_accuracy hpos hunit hcost

/-- Within the cap, a price of as many units as a numeral can write is less than half a hundredth off. -/
theorem near_of_le_cap {price exact : ℚ} {quantity : Nat}
    (h : |price - exact| ≤ 3 * Decimal.precision * (quantity + exact)) (hquantity : quantity ≤ Numeral.largest)
    (hcap : exact ≤ Request.maxAmount.toRat) : |price - exact| < 1 / 200 := by
  have hquantity' : (quantity : ℚ) ≤ 3999 := by exact_mod_cast hquantity
  rw [Decimal.toRat_eq_magnitude Request.negative_maxAmount, Decimal.magnitude_maxAmount] at hcap
  rw [Decimal.precision] at h
  linarith

/-- **A price that is a number of hundredths is shown exactly.** Whenever a reachable ledger answers a line by a price, the
    line asks for so much of a metal as some phrase says, and there is a quote for the metal. If then the exact price by
    that quote is a number of hundredths and within the cap, it is shown with two decimals as just that number, although
    the quotient and the product that it was found by have been rounded. -/
theorem Reachable.price_exact (h : l.Reachable) (hprice : (l.tell line).1 = .ok (.price p m cost)) :
    ∃ phrase quote per quantity, l.AsksPrice line phrase m quote per quantity ∧
      ∀ n : Nat, exactPrice quote per quantity = n / 100 → exactPrice quote per quantity ≤ Request.maxAmount.toRat →
        (Answer.price p m cost).text =
          phrase.text ++ " " ++ m ++ " is " ++ Decimal.inHundredths n ++ " Credits" := by
  obtain ⟨phrase, quote, per, quantity, hasks, rfl, hsign, haccuracy⟩ := h.price_accuracy hprice
  refine ⟨phrase, quote, per, quantity, hasks, ?_⟩
  intro n hn hcap
  have hnear := near_of_le_cap haccuracy (worth_le_largest hasks.worthAsked) hcap
  rw [hn, Decimal.toRat_eq_magnitude hsign] at hnear
  rw [Answer.text_price, Decimal.credits_of_not_negative hsign, Decimal.hundredths_eq_of_near hnear]

/-- A ledger with a quote by the sevens, whose quotient has room for four fraction digits only. -/
def bySevens : Ledger :=
  (empty.tellAll ["glob is I", "prok is V", "pish is X",
    "prok glob glob Gold is 5600000000000000000000003 Credits"]).2

/-- The price of twenty-one is found a thousandth too high, and shown exactly. -/
theorem price_exact_bySevens :
    bySevens.Reachable ∧
      (bySevens.tell "how many Credits is pish pish glob Gold ?").1 =
        .ok (.price "pish pish glob" "Gold" ⟨false, 16800000000000000000000009001, 3, by decide, by decide⟩) ∧
      (Answer.price "pish pish glob" "Gold" ⟨false, 16800000000000000000000009001, 3, by decide, by decide⟩).text =
        "pish pish glob Gold is 16800000000000000000000009.00 Credits" := by
  have hreach : bySevens.Reachable := reachable_iff.mpr ⟨_, rfl⟩
  have hprice : (bySevens.tell "how many Credits is pish pish glob Gold ?").1 =
      .ok (.price "pish pish glob" "Gold" ⟨false, 16800000000000000000000009001, 3, by decide, by decide⟩) := by
    decide +kernel
  refine ⟨hreach, hprice, ?_⟩
  obtain ⟨phrase, quote, per, quantity, ⟨hasked, hquoted, hper, hquantity⟩, hexact⟩ := hreach.price_exact hprice
  have hline : Request.ofLine (dropLineEnds "how many Credits is pish pish glob Gold ?") =
      .priceQuestion ["pish", "pish", "glob"] "Gold" := by decide +kernel
  have hquote : bySevens.quote? "Gold" =
      some ⟨["prok", "glob", "glob"], ⟨false, 5600000000000000000000003, 0, by decide, by decide⟩⟩ := by decide +kernel
  have hseven : bySevens.worth ["prok", "glob", "glob"] = .ok 7 := by decide +kernel
  have hcount : bySevens.worth ["pish", "pish", "glob"] = .ok 21 := by decide +kernel
  obtain ⟨rfl, -⟩ := Request.priceQuestion.inj (hasked.symm.trans hline)
  obtain rfl := Option.some.inj (hquoted.symm.trans hquote)
  obtain rfl := Except.ok.inj (hper.symm.trans hseven)
  obtain rfl := Except.ok.inj (hquantity.symm.trans hcount)
  rw [hexact 1680000000000000000000000900 (by decide +kernel) (by decide +kernel)]
  decide +kernel

end Ledger

end TradeTalk
