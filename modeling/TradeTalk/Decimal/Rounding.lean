/-!
# `TradeTalk.Decimal.Rounding` — quotients rounded to whole numbers

## Contents
- **`roundHalfEven`**: to the nearest whole number, a tie to the even one.
- **`roundHalfUp`**: to the nearest whole number, a tie to the larger one.
-/

namespace TradeTalk.Decimal

/-- The whole number nearest to `a / b`; half way between two it is the even one. -/
def roundHalfEven (a b : Nat) : Nat :=
  if b < 2 * (a % b) ∨ b = 2 * (a % b) ∧ a / b % 2 = 1 then a / b + 1 else a / b

/-- The whole number nearest to `a / b`; half way between two it is the larger one. -/
def roundHalfUp (a b : Nat) : Nat :=
  if b ≤ 2 * (a % b) then a / b + 1 else a / b

/-! ## Small laws -/

theorem le_roundHalfEven (a b : Nat) : a / b ≤ roundHalfEven a b := by
  unfold roundHalfEven
  split <;> omega

theorem roundHalfEven_le (a b : Nat) : roundHalfEven a b ≤ a / b + 1 := by
  unfold roundHalfEven
  split <;> omega

theorem le_roundHalfUp (a b : Nat) : a / b ≤ roundHalfUp a b := by
  unfold roundHalfUp
  split <;> omega

theorem roundHalfUp_le (a b : Nat) : roundHalfUp a b ≤ a / b + 1 := by
  unfold roundHalfUp
  split <;> omega

/-- Rounding never goes above the dividend. -/
theorem roundHalfUp_le_self (a : Nat) {b : Nat} (hb : 0 < b) : roundHalfUp a b ≤ a := by
  have hdiv : b * (a / b) + a % b = a := Nat.div_add_mod a b
  have hmul : a / b ≤ b * (a / b) := Nat.le_mul_of_pos_left (a / b) hb
  unfold roundHalfUp
  split <;> omega

@[simp] theorem roundHalfEven_one (a : Nat) : roundHalfEven a 1 = a := by
  simp [roundHalfEven, Nat.mod_one]

@[simp] theorem roundHalfUp_one (a : Nat) : roundHalfUp a 1 = a := by
  simp [roundHalfUp, Nat.mod_one]

end TradeTalk.Decimal
