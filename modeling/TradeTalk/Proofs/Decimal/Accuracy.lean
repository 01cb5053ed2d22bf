import TradeTalk.Proofs.Decimal.Range

/-!
# `Proofs.Decimal.Accuracy` — how close a price is

A price is rounded twice: once as a quotient, and once more as a product. Each time the result is the nearest one at some
scale. If that is the last scale, the error is half a unit of it. Otherwise the mantissa had no room for a digit more, so
that the error is small against the value itself: half a unit against the 28 digits that a mantissa has at least. Both
errors of the quotient grow with the number that it is multiplied by.

## Contents
- **`fit_exact`**: what comes out even is exact.
- **`digit_given_up`**: what has been fitted by giving up digits would not have fitted with the last of them.
- **`precision`**, **`fit_accuracy`**, **`expanded_accuracy`**: so the error is small against the value.
- **`over?_accuracy`**, **`times?_accuracy`**, **`price_accuracy`**: quotients, products and prices.
- **`negative_over?`**, **`negative_times?`**: they have no sign of their own.
-/

namespace TradeTalk.Decimal

/-! ## No digit given up -/

/-- What comes out even and keeps its scale is exact. -/
theorem fit_exact {a b s m : Nat} (hb : 0 < b) (hdvd : b ∣ a) (h : fit a b s = some (m, s)) :
    (m : ℚ) / tenTo s = a / (b * tenTo s) := by
  obtain ⟨c, rfl⟩ := hdvd
  obtain ⟨-, hm, -⟩ := fit_eq_some h
  have hone : b * tenTo (s - s) = b := by
    rw [Nat.sub_self]
    exact Nat.mul_one b
  rw [hone, Nat.mul_comm, roundHalfEven_mul_self c hb] at hm
  have hb' : (b : ℚ) ≠ 0 := by exact_mod_cast hb.ne'
  rw [hm, Nat.cast_mul, mul_div_mul_left _ _ hb']

/-! ## No room for a digit more -/

/-- **What has been fitted by giving up digits** would not have fitted with the last of them. -/
theorem digit_given_up {a b s m t : Nat} (h : fit a b s = some (m, t)) :
    t = s ∨ t < s ∧ mantissaBound ≤ roundHalfEven a (b * tenTo (s - (t + 1))) := by
  induction s generalizing b with
  | zero => exact Or.inl (Nat.le_zero.mp (fit_eq_some h).1)
  | succ s ih =>
    rw [fit] at h
    split at h
    · exact Or.inl (Prod.mk.inj (Option.some.inj h)).2.symm
    · rename_i hno
      rcases ih h with rfl | ⟨hts, hbound⟩
      · -- The last digit given up is the only one.
        refine Or.inr ⟨Nat.lt_succ_self t, ?_⟩
        rw [Nat.sub_self]
        show mantissaBound ≤ roundHalfEven a (b * 1)
        rw [Nat.mul_one]
        omega
      · have hsucc : s + 1 - (t + 1) = s - (t + 1) + 1 := by omega
        refine Or.inr ⟨by omega, ?_⟩
        rwa [hsucc, tenTo_succ, Nat.mul_comm (tenTo _), ← Nat.mul_assoc]

/-- What a rounding is off at most, relative to the value, if a digit more had no room. Half a unit of the last scale is
    no more than that either. -/
def precision : ℚ := 7 / 10 ^ 29

theorem precision_pos : 0 < precision := by
  norm_num [precision]

/-- Half a unit is small against a value that has as many digits as a mantissa, but for one half. -/
theorem half_unit_le {x : ℚ} {t : Nat} (h : mantissaBound - 1 / 2 ≤ x * tenTo (t + 1)) :
    1 / 2 / tenTo t ≤ precision * x := by
  have ht := cast_tenTo_pos t
  rw [tenTo_succ, cast_mantissaBound] at h
  push_cast at h
  rw [div_le_iff₀ ht, precision]
  linarith

/-- What is fitted has the scale asked for, or is off by little of the value. -/
theorem fit_accuracy {a b s m t : Nat} (hb : 0 < b) (h : fit a b s = some (m, t)) :
    t = s ∨ |(m : ℚ) / tenTo t - a / (b * tenTo s)| ≤ precision * (a / (b * tenTo s)) := by
  rcases digit_given_up h with hts | ⟨hts, hbound⟩
  · exact Or.inl hts
  · refine Or.inr ((abs_fit_sub_le hb h).trans (half_unit_le ?_))
    have hround := abs_roundHalfEven_sub_le a (Nat.mul_pos hb (tenTo_pos (s - (t + 1))))
    have hbound' : (mantissaBound : ℚ) ≤ roundHalfEven a (b * tenTo (s - (t + 1))) := by exact_mod_cast hbound
    have ht := cast_tenTo_pos (t + 1)
    rw [div_tenTo_eq hts, div_mul_cancel₀ _ ht.ne']
    linarith [(abs_le.mp hround).2]

/-- What is fitted of a quotient that has been expanded as far as possible is off by little of the value, or by half a
    unit of the last scale. -/
theorem expanded_accuracy {a n s m t : Nat} (hn : 0 < n) (h : fit a n s = some (m, t))
    (hend : n ∣ a ∨ s = maxScale ∨ mantissaBound ≤ 10 * (a / n)) :
    |(m : ℚ) / tenTo t - a / (n * tenTo s)| ≤ precision * (1 + a / (n * tenTo s)) := by
  have hx : 0 ≤ (a : ℚ) / (n * tenTo s) := by positivity
  have hprecision := precision_pos
  have hhalf := abs_fit_sub_le hn h
  rcases fit_accuracy hn h with rfl | hsmall
  · rcases hend with hdvd | rfl | hroom
    · -- The quotient comes out even.
      rw [fit_exact hn hdvd h, sub_self, abs_zero]
      positivity
    · -- The scale is used up.
      have hlast : (1 : ℚ) / 2 / tenTo maxScale ≤ precision := by
        rw [maxScale, tenTo, precision]
        norm_num
      linarith [mul_nonneg hprecision.le hx]
    · -- There is no room for a digit more.
      have hroom' : (mantissaBound : ℚ) ≤ 10 * ((a / n : Nat) : ℚ) := by exact_mod_cast hroom
      have hfloor : ((a / n : Nat) : ℚ) ≤ a / (n * tenTo t) * tenTo t := by
        rw [← div_div, div_mul_cancel₀ _ (cast_tenTo_pos t).ne']
        exact Nat.cast_div_le
      have hlast : 1 / 2 / tenTo t ≤ precision * (a / (n * tenTo t)) := by
        apply half_unit_le
        rw [tenTo_succ, Nat.cast_mul, Nat.cast_ofNat]
        linarith
      linarith
  · linarith

/-! ## Quotients, products, prices -/

/-- **A quotient** is off by little of its value, or by half a unit of the last scale. -/
theorem over?_accuracy {d u : Decimal} {n : Nat} (hn : 0 < n) (h : d.over? n = some u) :
    |u.magnitude - d.magnitude / n| ≤ precision * (1 + d.magnitude / n) := by
  by_cases hd : d.mantissa = 0
  · rw [over?_of_mantissa_eq_zero hn hd] at h
    rw [← Option.some.inj h, magnitude_zero, magnitude_eq_zero hd, zero_div, sub_zero, abs_zero, add_zero, mul_one]
    exact precision_pos.le
  · obtain ⟨u', k, m, t, hu, -, hfit, hshort, hend⟩ := exists_over? hd hn
    obtain rfl : u' = u := Option.some.inj (hu.symm.trans h)
    rw [magnitude_of_shortens hshort, ← expanded_div_eq d hn k]
    exact expanded_accuracy hn hfit hend

/-- **A product** is exact, or off by little of its value. -/
theorem times?_accuracy {u c : Decimal} {n : Nat} (h : u.times? n = some c) :
    |c.magnitude - u.magnitude * n| ≤ precision * (u.magnitude * n) := by
  have hx : 0 ≤ u.magnitude * n := mul_nonneg u.magnitude_nonneg (Nat.cast_nonneg n)
  have hprecision := precision_pos
  rw [times?] at h
  split at h
  · rename_i hzero
    have hproduct : u.magnitude * n = 0 := by
      rcases hzero with hm | rfl
      · rw [magnitude_eq_zero hm, zero_mul]
      · rw [Nat.cast_zero, mul_zero]
    rw [← Option.some.inj h, magnitude_zero, hproduct, sub_zero, abs_zero, mul_zero]
  · obtain ⟨⟨m, t⟩, hfit, hparts⟩ := Option.bind_eq_some_iff.mp h
    obtain ⟨hm, hs, -⟩ := parts_of_ofParts? hparts
    have hexact : (u.mantissa * n : Nat) / ((1 : Nat) * tenTo u.scale) = u.magnitude * n := by
      rw [magnitude]
      push_cast
      ring
    have hfits := fit_accuracy Nat.one_pos hfit
    rw [hexact] at hfits
    rw [magnitude, hm, hs]
    rcases hfits with rfl | hfits
    · rw [fit_exact Nat.one_pos (Nat.one_dvd _) hfit, hexact, sub_self, abs_zero]
      positivity
    · exact hfits

/-- **A price** is off by little of its value, and by little for each unit. -/
theorem price_accuracy {d u c : Decimal} {q n : Nat} (hq : 0 < q) (hu : d.over? q = some u)
    (hc : u.times? n = some c) :
    |c.magnitude - d.magnitude * n / q| ≤ 3 * precision * (n + d.magnitude * n / q) := by
  have hquotient := over?_accuracy hq hu
  have hproduct := times?_accuracy hc
  have hn : (0 : ℚ) ≤ n := Nat.cast_nonneg n
  have hx : 0 ≤ d.magnitude / q := div_nonneg d.magnitude_nonneg (Nat.cast_nonneg q)
  have hprice : d.magnitude * n / q = d.magnitude / q * n := by ring
  rw [hprice]
  generalize d.magnitude / q = x at *
  have hscaled : |u.magnitude * n - x * n| ≤ precision * (n + x * n) := by
    rw [← sub_mul, abs_mul, abs_of_nonneg hn]
    calc |u.magnitude - x| * n ≤ precision * (1 + x) * n := by gcongr
      _ = precision * (n + x * n) := by ring
  have hxn : 0 ≤ x * n := mul_nonneg hx hn
  have htriangle := abs_sub_le c.magnitude (u.magnitude * n) (x * n)
  have hupper := (abs_le.mp hscaled).2
  rw [precision] at *
  linarith

/-! ## Signs -/

/-- A quotient has the sign of the dividend, unless it is zero. -/
theorem sign_over? {d u : Decimal} {n : Nat} (h : d.over? n = some u) :
    u.negative = (d.negative && u.mantissa != 0) := by
  unfold over? at h
  split at h
  · contradiction
  · split at h
    · rw [← Option.some.inj h, zero]
      exact (Bool.and_false d.negative).symm
    · split at h
      · obtain ⟨hm, -, hsign⟩ := parts_of_ofParts? h
        rw [hsign, hm]
      · obtain ⟨q, -, hq⟩ := Option.bind_eq_some_iff.mp h
        obtain ⟨hm, -, hsign⟩ := parts_of_ofParts? hq
        rw [hsign, hm]

/-- So has a product. -/
theorem sign_times? {u c : Decimal} {n : Nat} (h : u.times? n = some c) :
    c.negative = (u.negative && c.mantissa != 0) := by
  unfold times? at h
  split at h
  · rw [← Option.some.inj h, zero]
    exact (Bool.and_false u.negative).symm
  · obtain ⟨q, -, hq⟩ := Option.bind_eq_some_iff.mp h
    obtain ⟨hm, -, hsign⟩ := parts_of_ofParts? hq
    rw [hsign, hm]

theorem negative_over? {d u : Decimal} {n : Nat} (h : d.over? n = some u) (hd : d.negative = false) :
    u.negative = false := by
  rw [sign_over? h, hd, Bool.false_and]

theorem negative_times? {u c : Decimal} {n : Nat} (h : u.times? n = some c) (hu : u.negative = false) :
    c.negative = false := by
  rw [sign_times? h, hu, Bool.false_and]

/-- The value of a decimal without a sign. -/
theorem toRat_eq_magnitude {d : Decimal} (h : d.negative = false) : d.toRat = d.magnitude := by
  have hsigned : d.signed = d.mantissa := by simp [signed, h]
  rw [toRat, hsigned, Rat.mkRat_eq_div, Int.cast_natCast, magnitude]

end TradeTalk.Decimal
