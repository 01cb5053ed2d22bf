import TradeTalk.Proofs.Decimal.Nearest

/-!
# `Proofs.Decimal.Value` — decimals of one value

Decimals that differ in their scales, or in the sign of a zero, may have one value. Quotients and products are rounded
from the exact result, so that decimals of one value have quotients of one value, and products too. A value that a decimal
has is not changed by rounding.

## Contents
- **`toRat_eq`**, **`abs_toRat`**: the value is the magnitude with its sign.
- **`SameValue`**, **`sameValue_iff`**: one magnitude, and one sign where it is not zero.
- **`SameValue.over?`**, **`SameValue.times?`**: arithmetic keeps it.
- **`nearest?_magnitude`**: a value that a decimal has is not rounded.
- **`over_times_exact`**: so a quotient that is a decimal is multiplied back to the dividend.
-/

namespace TradeTalk.Decimal

variable {d d' v u c : Decimal}

/-- The value is the magnitude, or its negation below zero. -/
theorem toRat_eq (d : Decimal) : d.toRat = if d.negative then -d.magnitude else d.magnitude := by
  rw [toRat, Rat.mkRat_eq_div, signed]
  split
  · rw [Int.cast_neg, Int.cast_natCast, neg_div, magnitude]
  · rw [Int.cast_natCast, magnitude]

theorem abs_toRat (d : Decimal) : |d.toRat| = d.magnitude := by
  rw [toRat_eq]
  split
  · rw [abs_neg, abs_of_nonneg d.magnitude_nonneg]
  · exact abs_of_nonneg d.magnitude_nonneg

theorem magnitude_eq_zero_iff : d.magnitude = 0 ↔ d.mantissa = 0 := by
  rw [magnitude, div_eq_zero_iff, Nat.cast_eq_zero, or_iff_left (cast_tenTo_pos d.scale).ne']

/-- Two decimals have one value. -/
def SameValue (d d' : Decimal) : Prop :=
  d.toRat = d'.toRat

/-- **Two decimals have one value exactly if they have one magnitude**, and one sign unless they are zero. -/
theorem sameValue_iff :
    d.SameValue d' ↔ d.magnitude = d'.magnitude ∧ (d.mantissa = 0 ∨ d.negative = d'.negative) := by
  have hd := d.magnitude_nonneg
  have hd' := d'.magnitude_nonneg
  rw [SameValue, toRat_eq, toRat_eq, ← magnitude_eq_zero_iff]
  cases d.negative <;> cases d'.negative <;> simp
  · constructor
    · intro h
      exact ⟨by linarith, by linarith⟩
    · rintro ⟨h, h0⟩
      linarith
  · constructor
    · intro h
      exact ⟨by linarith, by linarith⟩
    · rintro ⟨h, h0⟩
      linarith

/-- Results of one magnitude, with the signs of decimals of one value, have one value. -/
theorem SameValue.of_signs {u u' : Decimal} (h : d.SameValue d') (hmagnitude : u.magnitude = u'.magnitude)
    (hzero : d.mantissa = 0 → u.mantissa = 0) (hsign : u.negative = (d.negative && u.mantissa != 0))
    (hsign' : u'.negative = (d'.negative && u'.mantissa != 0)) : u.SameValue u' := by
  obtain ⟨-, hd⟩ := sameValue_iff.mp h
  refine sameValue_iff.mpr ⟨hmagnitude, hd.imp hzero fun hd => ?_⟩
  have hboth : u.mantissa = 0 ↔ u'.mantissa = 0 := by
    rw [← magnitude_eq_zero_iff, ← magnitude_eq_zero_iff, hmagnitude]
  have hne : (u.mantissa != 0) = (u'.mantissa != 0) := by rw [Bool.eq_iff_iff, bne_iff_ne, bne_iff_ne, Ne, Ne, hboth]
  rw [hsign, hsign', hd, hne]

/-- Results that have their magnitudes in common, or are both missing. -/
theorem rel_of_map_eq {out out' : Option Decimal} (h : out.map magnitude = out'.map magnitude)
    (hsame : ∀ u u', out = some u → out' = some u' → u.magnitude = u'.magnitude → u.SameValue u') :
    Option.Rel SameValue out out' := by
  cases out with
  | none =>
    cases out' with
    | none => exact .none
    | some u' => contradiction
  | some u =>
    cases out' with
    | none => contradiction
    | some u' => exact .some (hsame u u' rfl rfl (Option.some.inj h))

/-- **Decimals of one value have quotients of one value.** -/
theorem SameValue.over? (h : d.SameValue d') {n : Nat} (hn : 0 < n) : Option.Rel SameValue (d.over? n) (d'.over? n) := by
  have hmagnitude := (sameValue_iff.mp h).1
  apply rel_of_map_eq
  · rw [map_magnitude_over? d hn, map_magnitude_over? d' hn, hmagnitude]
  · intro u u' hu hu' hm
    refine h.of_signs hm (fun hd => ?_) (sign_over? hu) (sign_over? hu')
    rw [over?_of_mantissa_eq_zero hn hd, Option.some.injEq] at hu
    rw [← hu, zero]

/-- **Decimals of one value have products of one value.** -/
theorem SameValue.times? (h : d.SameValue d') (n : Nat) : Option.Rel SameValue (d.times? n) (d'.times? n) := by
  have hmagnitude := (sameValue_iff.mp h).1
  apply rel_of_map_eq
  · rw [map_magnitude_times?, map_magnitude_times?, hmagnitude]
  · intro u u' hu hu' hm
    refine h.of_signs hm (fun hd => ?_) (sign_times? hu) (sign_times? hu')
    rw [Decimal.times?, if_pos (Or.inl hd), Option.some.injEq] at hu
    rw [← hu, zero]

/-- **A value that a decimal has is not rounded.** -/
theorem nearest?_magnitude (d : Decimal) : nearest? d.magnitude = some d.magnitude := by
  have hone : d.magnitude = (d.mantissa : ℚ) / ((1 : Nat) * tenTo d.scale) := by rw [magnitude, Nat.cast_one, one_mul]
  have hround : roundHalfEven d.mantissa 1 = d.mantissa := roundHalfEven_one d.mantissa
  have hfit : fit d.mantissa 1 d.scale = some (d.mantissa, d.scale) := by
    have hfits := fit_of_lt (s := d.scale) (hround.symm ▸ d.mantissa_lt)
    rw [hfits, hround]
  conv_lhs => rw [hone]
  rw [nearest?_eq_map_fit Nat.one_pos d.scale_le (Or.inl (Nat.one_dvd _)), hfit]
  rfl

/-- **A quotient that is a decimal is multiplied back to the dividend.** -/
theorem over_times_exact {n : Nat} (hn : 0 < n) (hv : v.magnitude * n = d.magnitude) (hu : d.over? n = some u)
    (hc : u.times? n = some c) : c.magnitude = d.magnitude := by
  have hn' : (n : ℚ) ≠ 0 := by exact_mod_cast hn.ne'
  obtain ⟨hquotient, hproduct⟩ := nearest?_of_price hn hu hc
  have hunit : d.magnitude / n = v.magnitude := by rw [← hv, mul_div_cancel_right₀ _ hn']
  rw [hunit, nearest?_magnitude, Option.some.injEq] at hquotient
  rw [← hquotient, hv, nearest?_magnitude, Option.some.injEq] at hproduct
  exact hproduct.symm

end TradeTalk.Decimal
