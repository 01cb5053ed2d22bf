import TradeTalk.Decimal.Reader

/-!
# `Proofs.Decimal.Reading` — decimals read from text

## Contents
- **`negative_of_ofString?`**: only a text that starts with a minus sign is read as a decimal with one.
-/

namespace TradeTalk.Decimal

theorem negative_of_ofParts? {m s : Nat} {d : Decimal} (h : ofParts? false m s = some d) : d.negative = false := by
  rw [(parts_of_ofParts? h).2.2, Bool.false_and]

theorem negative_of_roundBy {m s : Nat} {rest : List Char} {d : Decimal} (h : roundBy false m s rest = some d) :
    d.negative = false := by
  unfold roundBy at h
  split at h
  · dsimp only at h
    generalize (if 5 ≤ decidingDigit m rest then m + 1 else m) = kept at h
    split at h
    · exact negative_of_ofParts? h
    · exact negative_of_ofParts? h
  · contradiction

/-- What is read without a minus sign has none. -/
theorem negative_of_scan {cs : List Char} {afterPoint anyDigit : Bool} {m s : Nat} {d : Decimal}
    (h : scan false afterPoint anyDigit m s cs = some d) : d.negative = false := by
  induction cs generalizing afterPoint anyDigit m s with
  | nil =>
    rw [scan, Option.ite_none_right_eq_some] at h
    exact negative_of_ofParts? h.2
  | cons c cs ih =>
    rw [scan] at h
    split at h
    · exact negative_of_roundBy h
    · split at h
      · split at h
        · exact ih h
        · split at h
          · exact negative_of_roundBy h
          · contradiction
      · split at h
        · exact ih h
        · split at h
          · exact ih h
          · contradiction

/-- **Only a text that starts with a minus sign is read as a decimal with one.** -/
theorem negative_of_ofString? {text : String} {d : Decimal} (h : ofString? text = some d)
    (hhead : text.toList.head? ≠ some '-') : d.negative = false := by
  rw [ofString?, ofChars?.eq_def] at h
  split at h
  · rename_i hcs
    rw [hcs] at hhead
    simp at hhead
  · exact negative_of_scan h
  · exact negative_of_scan h

end TradeTalk.Decimal
