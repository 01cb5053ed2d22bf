/-!
# `TradeTalk.Text.Ranges` — classes of characters

## Contents
- **`Ranges`**: a class of characters, given by the ranges of their code points.
- **`Ranges.has`**: membership.
-/

namespace TradeTalk.Text

/-- Inclusive ranges of code points. -/
abbrev Ranges := List (Nat × Nat)

/-- Whether a character lies in one of some ranges. -/
def Ranges.has (rs : Ranges) (c : Char) : Bool :=
  rs.any fun (first, last) => decide (first ≤ c.toNat) && decide (c.toNat ≤ last)

theorem Ranges.has_eq_true_iff {rs : Ranges} {c : Char} :
    rs.has c = true ↔ ∃ r ∈ rs, r.1 ≤ c.toNat ∧ c.toNat ≤ r.2 := by
  simp [Ranges.has]

end TradeTalk.Text
