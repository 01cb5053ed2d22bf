import TradeTalk.Decimal.Credits
import TradeTalk.Proofs.Decimal.Accuracy

/-!
# `Proofs.Decimal.Hundredths` — amounts of money as they are shown

An amount is shown in hundredths, off by half of one at most. So an amount that is less than half a hundredth away from
some number of them is shown as that number: small errors do not show.

## Contents
- **`abs_hundredths_sub_le`**: rounding to hundredths is off by half of one at most.
- **`le_roundHalfUp_iff`**, **`le_hundredths_iff`**: a tie is rounded up; so **`hundredths_mono`**: the order is kept.
- **`hundredths_eq_of_near`**: small errors do not show.
- **`inHundredths`**, **`credits_of_not_negative`**: the digits that are shown.
-/

namespace TradeTalk.Decimal

/-! ## Rounding to hundredths -/

/-- Rounding half up is off by one half at most. -/
theorem abs_roundHalfUp_sub_le (a : Nat) {b : Nat} (hb : 0 < b) : |(roundHalfUp a b : ℚ) - a / b| ≤ 1 / 2 := by
  have hdiv : a / b * b + a % b = a := Nat.div_add_mod' a b
  have hmod : a % b < b := Nat.mod_lt a hb
  unfold roundHalfUp
  split
  · apply abs_sub_div_le hb
    · rw [Nat.add_one_mul (a / b) b]
      omega
    · rw [Nat.add_one_mul (a / b) b]
      omega
  · apply abs_sub_div_le hb
    · omega
    · omega

theorem cast_tenTo_two : (tenTo 2 : ℚ) = 100 := by
  rw [cast_tenTo]
  norm_num

/-- Up to two digits are a whole number of hundredths, -/
theorem hundredths_exact {d : Decimal} (h : d.scale ≤ 2) :
    100 * d.magnitude = (d.mantissa * tenTo (2 - d.scale) : Nat) := by
  have hs := cast_tenTo_pos d.scale
  have hsplit : (tenTo (2 - d.scale) : ℚ) * tenTo d.scale = 100 := by
    rw [← cast_tenTo_two]
    exact_mod_cast (tenTo_add _ _).symm.trans (congrArg tenTo (Nat.sub_add_cancel h))
  rw [magnitude, Nat.cast_mul, ← hsplit]
  field_simp

/-- and of more digits the others make the fraction. -/
theorem hundredths_units {d : Decimal} (h : 2 < d.scale) : 100 * d.magnitude = d.mantissa / tenTo (d.scale - 2) := by
  have hr := cast_tenTo_pos (d.scale - 2)
  have hsplit : (tenTo d.scale : ℚ) = tenTo (d.scale - 2) * 100 := by
    rw [← cast_tenTo_two]
    exact_mod_cast (congrArg tenTo (by omega : d.scale = d.scale - 2 + 2)).trans (tenTo_add _ _)
  rw [magnitude, hsplit]
  field_simp

/-- **Rounding to hundredths** is off by half of one at most. -/
theorem abs_hundredths_sub_le (d : Decimal) : |(d.hundredths : ℚ) - 100 * d.magnitude| ≤ 1 / 2 := by
  unfold hundredths
  split
  · rename_i hle
    rw [hundredths_exact hle, sub_self, abs_zero]
    norm_num
  · rename_i hlt
    rw [hundredths_units (by omega)]
    exact abs_roundHalfUp_sub_le _ (tenTo_pos _)

/-! ## Ties are rounded up -/

/-- A whole number is not above one that was rounded half up if it is half a unit above the exact one at most. -/
theorem le_roundHalfUp_iff {n a b : Nat} (hb : 0 < b) : n ≤ roundHalfUp a b ↔ 2 * (n * b) ≤ 2 * a + b := by
  have hdiv : a / b * b + a % b = a := Nat.div_add_mod' a b
  have hmod : a % b < b := Nat.mod_lt a hb
  rcases Nat.lt_trichotomy n (a / b + 1) with hlt | rfl | hgt
  · have hle : n ≤ a / b := Nat.le_of_lt_succ hlt
    have hmul : n * b ≤ a / b * b := Nat.mul_le_mul_right b hle
    exact iff_of_true (hle.trans (le_roundHalfUp a b)) (by omega)
  · -- One more than the quotient: here the rule decides.
    unfold roundHalfUp
    rw [Nat.add_one_mul (a / b) b]
    split <;> omega
  · have hmul : (a / b + 2) * b ≤ n * b := Nat.mul_le_mul_right b hgt
    have hround := roundHalfUp_le a b
    rw [Nat.add_mul] at hmul
    exact iff_of_false (by omega) (by omega)

theorem le_roundHalfUp_iff_div {n a b : Nat} (hb : 0 < b) : n ≤ roundHalfUp a b ↔ (n : ℚ) - 1 / 2 ≤ a / b := by
  have hb' : (0 : ℚ) < b := by exact_mod_cast hb
  rw [le_roundHalfUp_iff hb, le_div_iff₀ hb', ← Nat.cast_le (α := ℚ)]
  push_cast
  constructor <;> intro h <;> linarith

/-- **What is not above a number of hundredths shown.** -/
theorem le_hundredths_iff {d : Decimal} {n : Nat} : n ≤ d.hundredths ↔ (n : ℚ) - 1 / 2 ≤ 100 * d.magnitude := by
  rw [hundredths]
  split
  · rename_i hle
    -- Up to two digits are shown as they are.
    rw [hundredths_exact hle]
    constructor
    · intro h
      have h' : (n : ℚ) ≤ (d.mantissa * tenTo (2 - d.scale) : Nat) := by exact_mod_cast h
      linarith
    · intro h
      have hlt : (n : ℚ) < (d.mantissa * tenTo (2 - d.scale) : Nat) + 1 := by linarith
      have hlt' : n < d.mantissa * tenTo (2 - d.scale) + 1 := by exact_mod_cast hlt
      omega
  · rename_i hlt
    rw [le_roundHalfUp_iff_div (tenTo_pos _), hundredths_units (by omega)]

/-- **The larger of two amounts is not shown as the smaller one.** -/
theorem hundredths_mono {d d' : Decimal} (h : d.magnitude ≤ d'.magnitude) : d.hundredths ≤ d'.hundredths := by
  have hself := le_hundredths_iff.mp (le_refl d.hundredths)
  exact le_hundredths_iff.mpr (by linarith)

/-! ## Small errors -/

/-- **Small errors do not show**: what is less than half a hundredth away from a number of hundredths is shown as that. -/
theorem hundredths_eq_of_near {d : Decimal} {n : Nat} (h : |d.magnitude - n / 100| < 1 / 200) : d.hundredths = n := by
  have hround := abs_le.mp d.abs_hundredths_sub_le
  have hnear := abs_lt.mp h
  have hlt : (d.hundredths : ℚ) < n + 1 := by linarith
  have hgt : (n : ℚ) < d.hundredths + 1 := by linarith
  have hlt' : d.hundredths < n + 1 := by exact_mod_cast hlt
  have hgt' : n < d.hundredths + 1 := by exact_mod_cast hgt
  omega

/-! ## The digits shown -/

/-- A number of hundredths with a point and two digits after it. -/
def inHundredths (n : Nat) : String :=
  toString (n / 100) ++ "." ++ toString (n / 10 % 10) ++ toString (n % 10)

/-- **An amount without a sign** is shown as its hundredths. -/
theorem credits_of_not_negative {d : Decimal} (h : d.negative = false) : d.credits = inHundredths d.hundredths := by
  have hdigit (k : Nat) : Nat.toDigits 10 (k % 10) = [Nat.digitChar (k % 10)] :=
    Nat.toDigits_of_lt_base (Nat.mod_lt k (by decide))
  rw [credits, h, Bool.false_and, inHundredths, ← String.toList_inj]
  simp only [Nat.toString_eq_repr, Nat.repr_eq_ofList_toDigits, String.toList_append, String.toList_ofList, hdigit]
  simp [positional, sign, tenTo, lastDigits]

end TradeTalk.Decimal
