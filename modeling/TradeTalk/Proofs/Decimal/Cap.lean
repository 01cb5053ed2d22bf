import TradeTalk.Proofs.Decimal.Nearest

/-!
# `Proofs.Decimal.Cap` — the cap on amounts is tight

The cap is the largest decimal over 3999, and that quotient is rounded. Still it is exactly the largest amount that can be
priced whatever it is stated for and whatever is asked for. The next larger amount is a thousandth more, since a mantissa
of that size has room for three fraction digits; stated for one unit, it cannot be priced for 3999.

## Contents
- **`zero_le_iff`**: the decimals that are not negative.
- **`above_maxAmount`**: what is above the cap is so by a thousandth at least.
- **`no_price_above_maxAmount`**: it has no price for the largest numeral.
- **`le_maxAmount_iff_priced`**: within the cap is what has a price for any two numerals.
-/

namespace TradeTalk.Decimal

/-- Not negative are the decimals without a sign, and the zeros. -/
theorem zero_le_iff {d : Decimal} : zero ≤ d ↔ d.mantissa = 0 ∨ d.negative = false := by
  have hle : zero ≤ d ↔ 0 * (tenTo d.scale : Int) ≤ d.signed * tenTo 0 := Iff.rfl
  have hone : tenTo 0 = 1 := rfl
  rw [hle, hone, zero_mul, Nat.cast_one, mul_one, signed]
  cases d.negative <;> simp

/-- **The next amount above the cap** is a thousandth more, since there is no room for a fourth fraction digit. -/
theorem above_maxAmount {d : Decimal} (hsign : d.negative = false) (h : ¬ d ≤ Request.maxAmount) :
    d.scale ≤ 3 ∧ Request.maxAmount.magnitude + 1 / 1000 ≤ d.magnitude := by
  have hlt : Request.maxAmount.magnitude < d.magnitude :=
    not_le.mp fun hle => h ((le_iff_magnitude hsign Request.negative_maxAmount).mpr hle)
  have hs := cast_tenTo_pos d.scale
  rw [magnitude_maxAmount] at hlt ⊢
  rw [magnitude, div_lt_div_iff₀ (by norm_num) hs] at hlt
  have hunits : 19811993626972827605287309411 * tenTo d.scale < d.mantissa * 1000 := by exact_mod_cast hlt
  have hscale : d.scale ≤ 3 := by
    by_contra hgt
    obtain ⟨k, hk⟩ := Nat.exists_eq_add_of_le (by omega : 4 ≤ d.scale)
    have hten : tenTo d.scale = 10000 * tenTo k := by rw [hk, tenTo_add]; rfl
    have hpos := tenTo_pos k
    have hroom : d.mantissa < 79228162514264337593543950336 := d.mantissa_lt
    omega
  refine ⟨hscale, ?_⟩
  -- In thousandths the amount is a whole number.
  have hsplit : 1000 = tenTo (3 - d.scale) * tenTo d.scale := by
    rw [← tenTo_add, Nat.sub_add_cancel hscale]
    rfl
  rw [hsplit, ← Nat.mul_assoc] at hunits
  have hnext : 19811993626972827605287309412 ≤ d.mantissa * tenTo (3 - d.scale) := Nat.lt_of_mul_lt_mul_right hunits
  have hvalue : d.magnitude = (d.mantissa * tenTo (3 - d.scale) : Nat) / 1000 := by
    have hsplit' : (1000 : ℚ) = tenTo (3 - d.scale) * tenTo d.scale := by exact_mod_cast hsplit
    have hr := cast_tenTo_pos (3 - d.scale)
    rw [magnitude, hsplit', Nat.cast_mul]
    field_simp
  have hnext' : (19811993626972827605287309412 : ℚ) ≤ (d.mantissa * tenTo (3 - d.scale) : Nat) := by exact_mod_cast hnext
  rw [hvalue]
  linarith

/-- **An amount above the cap has no price** for the largest numeral, if it is stated for one unit. -/
theorem no_price_above_maxAmount {d u : Decimal} (hsign : d.negative = false) (h : ¬ d ≤ Request.maxAmount)
    (hu : d.over? 1 = some u) : u.times? Numeral.largest = none := by
  obtain ⟨-, hnext⟩ := above_maxAmount hsign h
  have hlarge : (mantissaBound : ℚ) - 1 / 2 ≤ u.magnitude * (Numeral.largest : Nat) := by
    rw [magnitude_over?_one hu, Numeral.largest, cast_mantissaBound]
    rw [magnitude_maxAmount] at hnext
    push_cast
    linarith
  have hnone := (nearest?_eq_none_iff (mul_nonneg u.magnitude_nonneg (Nat.cast_nonneg _))).mpr hlarge
  rwa [← map_magnitude_times?, Option.map_eq_none_iff] at hnone

/-- Zero has a price, whatever its sign. -/
theorem exists_price_zero {d : Decimal} (hd : d.mantissa = 0) {q : Nat} (hq : 0 < q) (n : Nat) :
    ∃ u, d.over? q = some u ∧ ∃ cost, u.times? n = some cost :=
  ⟨zero, over?_of_mantissa_eq_zero hq hd, zero, if_pos (Or.inl rfl)⟩

/-- **The cap is tight.** An amount that is not negative is within the cap exactly if it has a price whatever it is stated
    for and whatever is asked for, as long as numerals can write both: none of its quotients and none of their products
    is too large for a decimal. -/
theorem le_maxAmount_iff_priced {d : Decimal} (h : zero ≤ d) :
    d ≤ Request.maxAmount ↔
      ∀ q n, 1 ≤ q → q ≤ Numeral.largest → 1 ≤ n → n ≤ Numeral.largest →
        ∃ unit, d.over? q = some unit ∧ ∃ cost, unit.times? n = some cost := by
  constructor
  · intro hcap q n hq _ _ hn
    rcases zero_le_iff.mp h with hzero | hsign
    · exact exists_price_zero hzero hq n
    · obtain ⟨unit, hunit, htimes⟩ := exists_price hsign hcap hq
      exact ⟨unit, hunit, htimes n hn⟩
  · intro hpriced
    by_contra hcap
    -- One unit and the largest numeral refuse whatever is above the cap.
    obtain ⟨unit, hunit, cost, hcost⟩ := hpriced 1 Numeral.largest (by decide) (by decide) (by decide) (by decide)
    rcases zero_le_iff.mp h with hzero | hsign
    · refine hcap ?_
      have hsigned : d.signed = 0 := by simp [signed, hzero]
      rw [Request.maxAmount_eq]
      show d.signed * tenTo 3 ≤ 19811993626972827605287309411 * tenTo d.scale
      rw [hsigned, zero_mul]
      exact mul_nonneg (by norm_num) (Int.natCast_nonneg _)
    · rw [no_price_above_maxAmount hsign hcap hunit] at hcost
      contradiction

/-- A thousandth above the cap some price is missing. -/
theorem le_maxAmount_iff_priced_next :
    zero ≤ ⟨false, 19811993626972827605287309412, 3, by decide, by decide⟩ ∧
      ¬ ∀ q n, 1 ≤ q → q ≤ Numeral.largest → 1 ≤ n → n ≤ Numeral.largest →
        ∃ unit, over? ⟨false, 19811993626972827605287309412, 3, by decide, by decide⟩ q = some unit ∧
          ∃ cost, unit.times? n = some cost := by
  have hzero : zero ≤ ⟨false, 19811993626972827605287309412, 3, by decide, by decide⟩ := by decide
  refine ⟨hzero, fun h => absurd ((le_maxAmount_iff_priced hzero).mpr h) ?_⟩
  rw [Request.maxAmount_eq]
  decide

end TradeTalk.Decimal
