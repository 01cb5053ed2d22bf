import TradeTalk.Proofs.Decimal.Range
import TradeTalk.Proofs.Ledger.Reachable
import TradeTalk.Proofs.Ledger.Worth

/-!
# `Proofs.Ledger.InRange` — no price of a reachable ledger is out of range

A price takes a quotient and a product of decimals, and either could fail: the one by zero, both by a result that is too
large. In a reachable ledger neither does, whatever its words have come to mean since a quote was recorded: a phrase
with words in it is worth one at least, no phrase is worth more than 3999, and every amount is within the cap.

## Contents
- **`InRange`**: every price by a quote is a decimal.
- **`Reachable.inRange`**: so it is for the quotes of a reachable ledger.
- **`InRange.unitPriceBy`**: a unit price is the quotient.
- **`Reachable.unitPrice_ne_outOfRange`**: no unit price is out of range.
-/

namespace TradeTalk.Ledger

/-- Every price by a quote is a decimal: whatever its phrase is worth now, there is a quotient by that, and a product of
    the quotient with any number that a numeral can write. -/
def InRange (l : Ledger) (quote : Quote) : Prop :=
  ∀ q, l.worth quote.phrase = .ok q → q ≠ 0 ∧ ∃ unit, quote.amount.over? q = some unit ∧
    ∀ n ≤ Numeral.largest, ∃ cost, unit.times? n = some cost

/-- **The prices by the quotes of a reachable ledger are decimals.** -/
theorem Reachable.inRange {l : Ledger} (h : l.Reachable) {metal : String} {quote : Quote}
    (hquote : l.quote? metal = some quote) : l.InRange quote := by
  intro q hq
  obtain ⟨hpos, -⟩ := worth_pos_le (h.quote_phrase hquote) hq
  obtain ⟨hsign, hcap⟩ := h.quote_amount hquote
  exact ⟨by omega, Decimal.exists_price hsign hcap hpos⟩

/-! ## Prices -/

variable {l : Ledger} {quote : Quote}

/-- A unit price has the faults of its phrase. -/
theorem unitPriceBy_error {f : Fault} (h : l.worth quote.phrase = .error f) : l.unitPriceBy quote = .error f := by
  simp only [unitPriceBy, h]

/-- A unit price is the quotient of the amount by what the phrase is worth. -/
theorem InRange.unitPriceBy (hin : l.InRange quote) {q : Nat} (hq : l.worth quote.phrase = .ok q) :
    ∃ unit, quote.amount.over? q = some unit ∧ l.unitPriceBy quote = .ok unit ∧
      ∀ n ≤ Numeral.largest, ∃ cost, unit.times? n = some cost := by
  obtain ⟨hne, unit, hunit, htimes⟩ := hin q hq
  obtain ⟨p, rfl⟩ := Nat.exists_eq_succ_of_ne_zero hne
  exact ⟨unit, hunit, by simp only [Ledger.unitPriceBy, hq, hunit], htimes⟩

theorem Reachable.unitPrice_ne_outOfRange (h : l.Reachable) (metal : String) :
    l.unitPrice metal ≠ .error .outOfRange := by
  rw [unitPrice]
  cases hquote : l.quote? metal with
  | none => simp
  | some quote =>
    cases hq : l.worth quote.phrase with
    | error f =>
      have hf : f ≠ .outOfRange := fun he => l.worth_ne_outOfRange quote.phrase (he ▸ hq)
      simpa [unitPriceBy_error hq] using hf
    | ok q =>
      obtain ⟨unit, -, hunit, -⟩ := (h.inRange hquote).unitPriceBy hq
      simp [hunit]

end TradeTalk.Ledger
