import TradeTalk.Proofs.Decimal.Shown
import TradeTalk.Proofs.Ledger.Locality
import TradeTalk.Proofs.Ledger.Pricing
import TradeTalk.Proofs.Ledger.Restated

/-!
# `Proofs.Ledger.OwnQuote` — a metal priced by its own quote

So much of a metal has just been quoted, and the same is asked for. The price is the amount divided by what the phrase is
worth and multiplied by it again, and both results are rounded. So the amount comes back if the quotient is a decimal, and
otherwise nearly so. What is shown is the same for amounts in hundredths. For others there is one place where a small error
shows: half way between two hundredths, where an amount is rounded up and a price that is just below it is not.

## Contents
- **`QuotesKnown`**: a line quotes a metal, and all words of its phrase are known.
- **`Reachable.own_price`**: the question that follows is answered by a price, and what that is found by.
- **`Reachable.own_quote_shown`**: how near the price is, and when it is shown as the amount.
- **`own_quote_at_tie`**: an amount half way between two hundredths that is not.
-/

namespace TradeTalk.Ledger

variable {l : Ledger} {line metal : String} {phrase : Phrase} {amount : Decimal}

/-! ## The question after the quote -/

/-- A line quotes a metal: so much of it as the phrase says costs the amount. The quote is noted, and all words of the
    phrase are known. -/
structure QuotesKnown (l : Ledger) (line : String) (phrase : Phrase) (metal : String) (amount : Decimal) : Prop where
  stated : Request.ofLine (dropLineEnds line) = .priceFact phrase metal amount
  noted : (l.tell line).1 = .ok .noted
  known : l.knowsAll phrase = true

/-- What the phrase is worth, since the quote was not refused. -/
theorem QuotesKnown.exists_worth (h : l.QuotesKnown line phrase metal amount) : ∃ per, l.worth phrase = .ok per := by
  have hnoted := h.noted
  rw [tell, h.stated] at hnoted
  cases hworth : l.worth phrase with
  | ok per => exact ⟨per, rfl⟩
  | error f => cases f <;> simp [respond, accepts, h.known, hworth, settle] at hnoted

/-- The ledger after the quote. -/
theorem QuotesKnown.tell_snd (h : l.QuotesKnown line phrase metal amount) :
    (l.tell line).2 = l.record metal ⟨phrase, amount⟩ := by
  obtain ⟨per, hworth⟩ := h.exists_worth
  rw [tell, h.stated]
  simp only [respond, accepts, h.known, hworth, if_true]

/-- The question has the form of one, and ends with its mark. -/
theorem tell_question (hp : IsPhrase phrase) (hm : isMetal metal.toList = true) :
    l.tell (Sentence.priceQuestion phrase metal).line = l.respond (.priceQuestion phrase metal) := by
  apply tell_of_hasForm
  · exact ⟨hp, hm, " ?", by simp [Request.questionEndings], rfl⟩
  · exact dropLineEnds_append (c := '?') _ (by decide) (by decide)

/-- **The question after the quote is answered by a price**, which is found by the amount and the phrase of the quote. -/
theorem Reachable.own_price (h : l.Reachable) (hq : l.QuotesKnown line phrase metal amount) :
    ∃ per unit cost, l.worth phrase = .ok per ∧ 0 < per ∧ per ≤ Numeral.largest ∧
      amount.negative = false ∧ amount ≤ Request.maxAmount ∧
      amount.over? per = some unit ∧ unit.times? per = some cost ∧ cost.negative = false ∧
      ((l.tell line).2.tell (Sentence.priceQuestion phrase metal).line).1 = .ok (.price phrase.text metal cost) := by
  obtain ⟨per, hworth⟩ := hq.exists_worth
  have hreach : (l.tell line).2.Reachable := h.tell line
  rw [hq.tell_snd] at hreach ⊢
  have hquote : (l.record metal ⟨phrase, amount⟩).quote? metal = some ⟨phrase, amount⟩ := by
    rw [quote?_record, if_pos rfl]
  have hworth' : (l.record metal ⟨phrase, amount⟩).worth phrase = .ok per := by
    rw [← hworth]
    exact worth_congr fun _ _ => rfl
  obtain ⟨-, hphrase, hmetal, -⟩ := Request.hasForm_iff.mpr ⟨hq.stated, by simp⟩
  obtain ⟨hpos, hle⟩ := worth_pos_le hphrase.1 hworth
  obtain ⟨hsign, hcap⟩ := hreach.quote_amount hquote
  obtain ⟨unit, hunit, hby, htimes⟩ := (hreach.inRange hquote).unitPriceBy hworth'
  obtain ⟨cost, hcost⟩ := htimes per hle
  refine ⟨per, unit, cost, hworth, hpos, hle, hsign, hcap, hunit, hcost,
    Decimal.negative_times? hcost (Decimal.negative_over? hunit hsign), ?_⟩
  rw [tell_question hphrase hmetal]
  simp only [respond, price, hworth', unitPrice, hquote, hby, hcost, settle]

/-! ## What is shown -/

/-- **A metal priced by its own quote.** Right after a quote has been noted whose words are all known, the same number of
    units of the metal is priced. The price is off the amount by little, and shown one hundredth off at most. It is shown
    as the amount exactly if no tie lies between them. So it is if the amount is a number of hundredths; and if one unit
    costs a decimal, the price is the amount. -/
theorem Reachable.own_quote_shown (h : l.Reachable) (hq : l.QuotesKnown line phrase metal amount) :
    ∃ per cost, l.worth phrase = .ok per ∧
      ((l.tell line).2.tell (Sentence.priceQuestion phrase metal).line).1 = .ok (.price phrase.text metal cost) ∧
      |cost.toRat - amount.toRat| ≤ 3 * Decimal.precision * (per + amount.toRat) ∧
      |Decimal.written cost.credits - Decimal.written amount.credits| ≤ 1 / 100 ∧
      (cost.credits = amount.credits ↔ ∀ tie, Decimal.IsTie tie → (tie ≤ cost.toRat ↔ tie ≤ amount.toRat)) ∧
      (amount.scale ≤ 2 → cost.credits = amount.credits) ∧
      ((∃ unit : Decimal, unit.toRat * per = amount.toRat) →
        cost.toRat = amount.toRat ∧ cost.credits = amount.credits) := by
  obtain ⟨per, unit, cost, hworth, hpos, hle, hsign, hcap, hunit, hcost, hcostSign, hanswer⟩ := h.own_price hq
  have hshown := Decimal.credits_eq_iff hcostSign hsign
  have hper : (per : ℚ) ≠ 0 := by exact_mod_cast hpos.ne'
  have haccuracy : |cost.toRat - amount.toRat| ≤ 3 * Decimal.precision * (per + amount.toRat) := by
    have hprice := Decimal.price_accuracy hpos hunit hcost
    rwa [mul_div_cancel_right₀ _ hper, ← Decimal.toRat_eq_magnitude hsign, ← Decimal.toRat_eq_magnitude hcostSign]
      at hprice
  have hnear : |cost.toRat - amount.toRat| < 1 / 200 := by
    apply near_of_le_cap haccuracy hle
    have hcapSign := Request.negative_maxAmount
    rwa [Decimal.toRat_eq_magnitude hsign, Decimal.toRat_eq_magnitude hcapSign, ← Decimal.le_iff_magnitude hsign hcapSign]
  refine ⟨per, cost, hworth, hanswer, haccuracy, Decimal.abs_written_sub_le hcostSign hsign hnear, hshown,
    fun hscale => Decimal.credits_eq_of_near hcostSign hsign hscale hnear, ?_⟩
  rintro ⟨v, hv⟩
  have hunits : v.magnitude * per = amount.magnitude := by
    rw [← Decimal.abs_toRat, ← Decimal.abs_toRat, ← hv, abs_mul, Nat.abs_cast]
  have hexact : cost.toRat = amount.toRat := by
    rw [Decimal.toRat_eq_magnitude hcostSign, Decimal.toRat_eq_magnitude hsign]
    exact Decimal.over_times_exact hpos hunits hunit hcost
  exact ⟨hexact, hshown.mpr fun tie _ => by rw [hexact]⟩

/-- A ledger that knows one word. -/
def knowsGlob : Ledger :=
  (empty.tellAll ["glob is I"]).2

/-- A third of one times three is found a little below one, and shown as one. -/
theorem own_quote_shown_one :
    knowsGlob.Reachable ∧
      knowsGlob.QuotesKnown "glob glob glob Tin is 1 Credits" ["glob", "glob", "glob"] "Tin"
        ⟨false, 1, 0, by decide, by decide⟩ ∧
      ∃ cost : Decimal, cost.toRat < 1 ∧ cost.credits = Decimal.credits ⟨false, 1, 0, by decide, by decide⟩ ∧
        ((knowsGlob.tell "glob glob glob Tin is 1 Credits").2.tell
          (Sentence.priceQuestion ["glob", "glob", "glob"] "Tin").line).1 = .ok (.price "glob glob glob" "Tin" cost) := by
  have hreach : knowsGlob.Reachable := reachable_iff.mpr ⟨_, rfl⟩
  have hquotes : knowsGlob.QuotesKnown "glob glob glob Tin is 1 Credits" ["glob", "glob", "glob"] "Tin"
      ⟨false, 1, 0, by decide, by decide⟩ := ⟨by decide +kernel, by decide +kernel, by decide +kernel⟩
  obtain ⟨per, cost, -, hanswer, -, -, -, hshown, -⟩ := hreach.own_quote_shown hquotes
  have hfound : ((knowsGlob.tell "glob glob glob Tin is 1 Credits").2.tell
      (Sentence.priceQuestion ["glob", "glob", "glob"] "Tin").line).1 =
        .ok (.price "glob glob glob" "Tin" ⟨false, 9999999999999999999999999999, 28, by decide, by decide⟩) := by
    decide +kernel
  obtain ⟨-, -, rfl⟩ := Answer.price.inj (Except.ok.inj (hanswer.symm.trans hfound))
  exact ⟨hreach, hquotes, _, by decide +kernel, hshown (by decide), hfound⟩

/-- **Half way between two hundredths** the price is shown one hundredth too low: a third of the amount has been rounded
    down, and three times that is just below the tie. -/
theorem own_quote_at_tie :
    knowsGlob.Reachable ∧
      knowsGlob.QuotesKnown "glob glob glob Tin is 0.025 Credits" ["glob", "glob", "glob"] "Tin"
        ⟨false, 25, 3, by decide, by decide⟩ ∧
      ∃ cost : Decimal,
        ((knowsGlob.tell "glob glob glob Tin is 0.025 Credits").2.tell
          (Sentence.priceQuestion ["glob", "glob", "glob"] "Tin").line).1 = .ok (.price "glob glob glob" "Tin" cost) ∧
        cost.credits = "0.02" ∧ Decimal.credits ⟨false, 25, 3, by decide, by decide⟩ = "0.03" := by
  refine ⟨reachable_iff.mpr ⟨_, rfl⟩, ⟨by decide +kernel, by decide +kernel, by decide +kernel⟩,
    ⟨false, 249999999999999999999999999, 28, by decide, by decide⟩, ?_, ?_, ?_⟩
  · decide +kernel
  · decide +kernel
  · decide +kernel

end TradeTalk.Ledger
