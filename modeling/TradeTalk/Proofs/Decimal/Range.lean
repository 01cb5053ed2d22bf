import Mathlib.Algebra.Order.AbsoluteValue.Basic
import Mathlib.Tactic.GCongr
import Mathlib.Tactic.NormNum
import TradeTalk.Proofs.Decimal.Quotient
import TradeTalk.Request

/-!
# `Proofs.Decimal.Range` — prices that decimals can hold

A price is a quotient times a whole number, each rounded by itself. With an amount within the cap and numbers up to
3999 it stays a decimal, and only just: the cap times 3999 is 0.411 below the largest decimal, from where it is rounded
up to it.

## Contents
- **`magnitude`**: the value of a decimal without its sign.
- **`abs_sub_div_le`**, **`abs_fit_sub_le`**: what is rounded is off by half a unit at most.
- **`magnitude_over?_le`**: how large a quotient can be.
- **`exists_times?`**: a product that is not too large exists.
- **`exists_price`**: the quotients of an amount within the cap exist, and so do their products with numbers up to
  3999.
-/

namespace TradeTalk.Decimal

/-- The value of a decimal without its sign. -/
def magnitude (d : Decimal) : ℚ :=
  d.mantissa / tenTo d.scale

theorem cast_tenTo_pos (k : Nat) : (0 : ℚ) < tenTo k := by
  exact_mod_cast tenTo_pos k

theorem cast_tenTo (k : Nat) : (tenTo k : ℚ) = 10 ^ k := by
  rw [tenTo]
  norm_cast

theorem cast_tenTo_zero : (tenTo 0 : ℚ) = 1 :=
  Nat.cast_one

theorem magnitude_nonneg (d : Decimal) : 0 ≤ d.magnitude :=
  div_nonneg (Nat.cast_nonneg _) (cast_tenTo_pos _).le

/-- Dropping zeros keeps the magnitude. -/
theorem magnitude_of_shortens {u : Decimal} {m t : Nat} (h : Shortens (m, t) (u.mantissa, u.scale)) :
    u.magnitude = m / tenTo t := by
  obtain ⟨hle, he⟩ := h
  have hsum : t = u.scale + (t - u.scale) := by
    simp only at hle
    omega
  have hpos := cast_tenTo_pos u.scale
  have hpos' := cast_tenTo_pos (t - u.scale)
  simp only at he
  rw [magnitude, he, hsum, tenTo_add, Nat.add_sub_cancel_left]
  push_cast
  field_simp

theorem magnitude_zero : zero.magnitude = 0 := by
  simp [magnitude, zero]

theorem magnitude_eq_zero {d : Decimal} (h : d.mantissa = 0) : d.magnitude = 0 := by
  rw [magnitude, h, Nat.cast_zero, zero_div]

theorem cast_mantissaBound : (mantissaBound : ℚ) = 79228162514264337593543950336 := by
  rw [mantissaBound]
  norm_num

/-! ## Half a unit -/

/-- A whole number is off by one half at most if its multiple is off by half the divisor. -/
theorem abs_sub_div_le {r a b : Nat} (hb : 0 < b) (hup : 2 * (r * b) ≤ 2 * a + b) (hdown : 2 * a ≤ 2 * (r * b) + b) :
    |(r : ℚ) - a / b| ≤ 1 / 2 := by
  have hb' : (0 : ℚ) < b := by exact_mod_cast hb
  have hup' : 2 * ((r : ℚ) * b) ≤ 2 * a + b := by exact_mod_cast hup
  have hdown' : 2 * (a : ℚ) ≤ 2 * (r * b) + b := by exact_mod_cast hdown
  have hdiff : (r : ℚ) - a / b = (r * b - a) / b := by field_simp
  rw [hdiff, abs_div, abs_of_pos hb', div_le_iff₀ hb', abs_le]
  constructor <;> linarith

theorem abs_roundHalfEven_sub_le (a : Nat) {b : Nat} (hb : 0 < b) : |(roundHalfEven a b : ℚ) - a / b| ≤ 1 / 2 :=
  abs_sub_div_le hb (roundHalfEven_mul_le a b) (le_roundHalfEven_mul a hb)

/-- The exact quotient in units of the scale at which it was fitted. -/
theorem div_tenTo_eq {a b s t : Nat} (hts : t ≤ s) :
    (a : ℚ) / (b * tenTo s) = a / (b * tenTo (s - t) : Nat) / tenTo t := by
  have hsplit : (tenTo s : ℚ) = tenTo (s - t) * tenTo t := by
    exact_mod_cast (congrArg tenTo (by omega : s = s - t + t)).trans (tenTo_add _ _)
  rw [hsplit, div_div, Nat.cast_mul, mul_assoc]

/-- **What is fitted is off by half a unit at most.** -/
theorem abs_fit_sub_le {a b s m t : Nat} (hb : 0 < b) (h : fit a b s = some (m, t)) :
    |(m : ℚ) / tenTo t - a / (b * tenTo s)| ≤ 1 / 2 / tenTo t := by
  obtain ⟨hts, rfl, -⟩ := fit_eq_some h
  have ht := cast_tenTo_pos t
  rw [div_tenTo_eq hts, ← sub_div, abs_div, abs_of_pos ht]
  have hround := abs_roundHalfEven_sub_le a (Nat.mul_pos hb (tenTo_pos (s - t)))
  gcongr

/-! ## Quotients and products -/

/-- The quotient of zero is zero. -/
theorem over?_of_mantissa_eq_zero {d : Decimal} {n : Nat} (hn : 0 < n) (hd : d.mantissa = 0) :
    d.over? n = some zero := by
  rw [over?, if_neg hn.ne', if_pos hd]

/-- The quotient by one is the decimal itself. -/
theorem magnitude_over?_one {d u : Decimal} (h : d.over? 1 = some u) : u.magnitude = d.magnitude := by
  by_cases hd : d.mantissa = 0
  · rw [over?_of_mantissa_eq_zero Nat.one_pos hd] at h
    rw [← Option.some.inj h, magnitude_zero, magnitude_eq_zero hd]
  · rw [over?, if_neg (by decide), if_neg hd, if_pos (Nat.mod_one _), Nat.div_one] at h
    obtain ⟨hm, hs, -⟩ := parts_of_ofParts? h
    rw [magnitude, hm, hs, magnitude]

/-- A quotient is the same when the dividend has been expanded. -/
theorem expanded_div_eq (d : Decimal) {n : Nat} (hn : 0 < n) (k : Nat) :
    (d.mantissa * tenTo k : Nat) / (n * tenTo (d.scale + k)) = d.magnitude / n := by
  have hs := cast_tenTo_pos d.scale
  have hk := cast_tenTo_pos k
  have hn' : (0 : ℚ) < n := by exact_mod_cast hn
  rw [magnitude, tenTo_add]
  push_cast
  field_simp

/-- **A quotient is half a unit too large at most.** -/
theorem magnitude_over?_le {d u : Decimal} {n : Nat} (hn : 0 < n) (h : d.over? n = some u) :
    u.magnitude ≤ d.magnitude / n + 1 / 2 := by
  by_cases hd : d.mantissa = 0
  · rw [over?_of_mantissa_eq_zero hn hd] at h
    rw [← Option.some.inj h, magnitude_zero, magnitude_eq_zero hd]
    norm_num
  · obtain ⟨u', k, m, t, hu, -, hfit, hshort, -⟩ := exists_over? hd hn
    obtain rfl : u' = u := Option.some.inj (hu.symm.trans h)
    have hround := (abs_le.mp (abs_fit_sub_le hn hfit)).2
    have hone : (1 : ℚ) ≤ tenTo t := by exact_mod_cast tenTo_pos t
    have hhalf : (1 : ℚ) / 2 / tenTo t ≤ 1 / 2 := div_le_self (by norm_num) hone
    rw [expanded_div_eq d hn] at hround
    rw [magnitude_of_shortens hshort]
    linarith

/-- **A product that is not too large exists.** -/
theorem exists_times? {u : Decimal} {n : Nat} (h : u.magnitude * n + 1 / 2 < mantissaBound) :
    ∃ d, u.times? n = some d := by
  rw [times?]
  split
  · exact ⟨_, rfl⟩
  · have hs := cast_tenTo_pos u.scale
    have hlt : 2 * (u.mantissa * n) + 1 * tenTo u.scale < 2 * (mantissaBound * (1 * tenTo u.scale)) := by
      have hmul : (u.magnitude * n + 1 / 2) * tenTo u.scale < mantissaBound * tenTo u.scale := by gcongr
      have hm : u.magnitude * tenTo u.scale = u.mantissa := by
        rw [magnitude]
        field_simp
      have hcast : 2 * ((u.mantissa : ℚ) * n) + 1 * tenTo u.scale < 2 * (mantissaBound * (1 * tenTo u.scale)) := by
        rw [← hm]
        linarith
      exact_mod_cast hcast
    obtain ⟨m, t, hfit⟩ := exists_fit (roundHalfEven_lt hlt)
    obtain ⟨hts, -, hm⟩ := fit_eq_some hfit
    obtain ⟨d, hd, -⟩ := exists_ofParts? u.negative hm (Nat.le_trans hts u.scale_le)
    exact ⟨d, by rw [hfit]; exact hd⟩

/-- Without signs the order is that of the magnitudes. -/
theorem le_iff_magnitude {a b : Decimal} (ha : a.negative = false) (hb : b.negative = false) :
    a ≤ b ↔ a.magnitude ≤ b.magnitude := by
  have hle : a ≤ b ↔ a.signed * tenTo b.scale ≤ b.signed * tenTo a.scale := Iff.rfl
  have hsa : a.signed = a.mantissa := by simp [signed, ha]
  have hsb : b.signed = b.mantissa := by simp [signed, hb]
  rw [hle, hsa, hsb, magnitude, magnitude, div_le_div_iff₀ (cast_tenTo_pos _) (cast_tenTo_pos _)]
  exact_mod_cast Iff.rfl

theorem magnitude_maxAmount : Request.maxAmount.magnitude = 19811993626972827605287309411 / 1000 := by
  rw [Request.maxAmount_eq]
  show (19811993626972827605287309411 : ℚ) / tenTo 3 = _
  rw [cast_tenTo]
  norm_num

/-- **A price of an amount within the cap exists**, whatever the amount was stated for and whatever is asked for. -/
theorem exists_price {d : Decimal} (hsign : d.negative = false) (hcap : d ≤ Request.maxAmount) {q : Nat}
    (hq : 0 < q) : ∃ u, d.over? q = some u ∧ ∀ n ≤ Numeral.largest, ∃ cost, u.times? n = some cost := by
  have hd : d.magnitude ≤ 19811993626972827605287309411 / 1000 :=
    magnitude_maxAmount ▸ (le_iff_magnitude hsign Request.negative_maxAmount).mp hcap
  have hexists : ∃ u, d.over? q = some u := by
    by_cases hm : d.mantissa = 0
    · exact ⟨zero, over?_of_mantissa_eq_zero hq hm⟩
    · obtain ⟨u, _, _, _, hu, -⟩ := exists_over? hm hq
      exact ⟨u, hu⟩
  obtain ⟨u, hu⟩ := hexists
  -- Only the quotient by one can be near the cap: by two or more it is half of that, and half a unit does no harm.
  have hle : u.magnitude ≤ 19811993626972827605287309411 / 1000 := by
    by_cases hone : q = 1
    · subst hone
      rwa [magnitude_over?_one hu]
    · have htwo : (2 : ℚ) ≤ q := by exact_mod_cast (by omega : 2 ≤ q)
      have hhalf : d.magnitude / q ≤ d.magnitude / 2 := div_le_div_of_nonneg_left d.magnitude_nonneg (by norm_num) htwo
      have := magnitude_over?_le hq hu
      linarith
  refine ⟨u, hu, fun n hn => exists_times? ?_⟩
  have hn' : (n : ℚ) ≤ 3999 := by exact_mod_cast hn
  have hmul : u.magnitude * n ≤ 19811993626972827605287309411 / 1000 * 3999 :=
    mul_le_mul hle hn' (Nat.cast_nonneg n) (by norm_num)
  rw [cast_mantissaBound]
  linarith

end TradeTalk.Decimal
