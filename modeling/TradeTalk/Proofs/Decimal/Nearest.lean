import TradeTalk.Proofs.Decimal.Accuracy

/-!
# `Proofs.Decimal.Nearest` — one rounding for quotients and products

A quotient is expanded from the scale of the dividend, and a product is cut from the scale of the factor. Still the value
of either depends on nothing but the exact result: it is rounded half to even at the last scale where the rounded
mantissa has room. How the operands are written does not matter, since more digits that come out even add nothing, and
more digits that have no room are not kept. The rounding keeps the order of numbers, also where the larger one has lost
a digit more.

## Contents
- **`roundEven`**, **`le_roundEven_iff`**, **`roundEven_mono`**: the nearest whole number, a tie to the even one.
- **`nearestFrom?`**, **`nearest?`**: a number rounded at the last scale where it has room.
- **`map_value_fit`**, **`nearest?_eq_map_fit`**: what is fitted is rounded so, whatever the scale it was fitted from.
- **`map_magnitude_over?`**, **`map_magnitude_times?`**: quotients and products are.
- **`nearest?_eq_none_iff`**: only what is too large has no rounded value.
- **`nearest?_mono`**, **`price_mono`**: the rounding keeps the order, and so do prices.
-/

namespace TradeTalk.Decimal

/-! ## Rounding to whole numbers -/

/-- A whole number is not above a rounded quotient if it is less than half a unit above the exact one, or half a unit
    above and even. -/
theorem le_roundHalfEven_iff {n a b : Nat} (hb : 0 < b) :
    n ≤ roundHalfEven a b ↔ 2 * (n * b) < 2 * a + b ∨ 2 * (n * b) = 2 * a + b ∧ n % 2 = 0 := by
  have hdiv : a / b * b + a % b = a := Nat.div_add_mod' a b
  have hmod : a % b < b := Nat.mod_lt a hb
  rcases Nat.lt_trichotomy n (a / b + 1) with hlt | rfl | hgt
  · have hle : n ≤ a / b := Nat.le_of_lt_succ hlt
    have hmul : n * b ≤ a / b * b := Nat.mul_le_mul_right b hle
    exact iff_of_true (hle.trans (le_roundHalfEven a b)) (Or.inl (by omega))
  · -- One more than the quotient: here the rule decides.
    unfold roundHalfEven
    rw [Nat.add_one_mul (a / b) b]
    split <;> omega
  · have hmul : (a / b + 2) * b ≤ n * b := Nat.mul_le_mul_right b hgt
    have hround := roundHalfEven_le a b
    rw [Nat.add_mul] at hmul
    exact iff_of_false (by omega) (by omega)

/-- The whole number nearest to a number that is not negative; half way between two it is the even one. -/
def roundEven (x : ℚ) : Nat :=
  roundHalfEven x.num.toNat x.den

theorem le_roundHalfEven_iff_div {n a b : Nat} (hb : 0 < b) :
    n ≤ roundHalfEven a b ↔ (n : ℚ) - 1 / 2 < a / b ∨ (n : ℚ) - 1 / 2 = a / b ∧ n % 2 = 0 := by
  have hb' : (0 : ℚ) < b := by exact_mod_cast hb
  have hlt : (n : ℚ) - 1 / 2 < a / b ↔ 2 * (n * b) < 2 * a + b := by
    rw [lt_div_iff₀ hb', ← Nat.cast_lt (α := ℚ)]
    push_cast
    constructor <;> intro h <;> linarith
  have heq : (n : ℚ) - 1 / 2 = a / b ↔ 2 * (n * b) = 2 * a + b := by
    rw [eq_div_iff hb'.ne', ← Nat.cast_inj (R := ℚ)]
    push_cast
    constructor <;> intro h <;> linarith
  rw [le_roundHalfEven_iff hb, hlt, heq]

theorem num_toNat_div_den {x : ℚ} (hx : 0 ≤ x) : (x.num.toNat : ℚ) / x.den = x := by
  have hnum : ((x.num.toNat : ℤ) : ℚ) = x.num := by rw [Int.toNat_of_nonneg (Rat.num_nonneg.mpr hx)]
  rw [← Int.cast_natCast, hnum, Rat.num_div_den]

/-- **What is not above a rounded number.** -/
theorem le_roundEven_iff {x : ℚ} (hx : 0 ≤ x) {n : Nat} :
    n ≤ roundEven x ↔ (n : ℚ) - 1 / 2 < x ∨ (n : ℚ) - 1 / 2 = x ∧ n % 2 = 0 := by
  rw [roundEven, le_roundHalfEven_iff_div x.den_pos, num_toNat_div_den hx]

/-- A rounded quotient depends on the exact one only. -/
theorem roundHalfEven_eq_roundEven (a : Nat) {b : Nat} (hb : 0 < b) : roundHalfEven a b = roundEven (a / b) := by
  have hx : (0 : ℚ) ≤ a / b := by positivity
  exact eq_of_forall_le_iff fun n => (le_roundHalfEven_iff_div hb).trans (le_roundEven_iff hx).symm

theorem roundEven_natCast (n : Nat) : roundEven n = n := by
  have hone := roundHalfEven_eq_roundEven n Nat.one_pos
  rwa [roundHalfEven_one, Nat.cast_one, div_one, eq_comm] at hone

/-- **Rounding keeps the order.** -/
theorem roundEven_mono {x y : ℚ} (hx : 0 ≤ x) (hxy : x ≤ y) : roundEven x ≤ roundEven y := by
  rw [le_roundEven_iff (hx.trans hxy)]
  rcases (le_roundEven_iff hx).mp le_rfl with hlt | ⟨heq, heven⟩
  · exact Or.inl (hlt.trans_le hxy)
  · -- A tie stays one or is passed.
    rcases (heq.trans_le hxy).lt_or_eq with hlt | heq'
    · exact Or.inl hlt
    · exact Or.inr ⟨heq', heven⟩

/-! ## The last scale with room -/

/-- A number, rounded, has room in a mantissa of scale `s`. -/
def HasRoom (x : ℚ) (s : Nat) : Prop :=
  roundEven (x * tenTo s) < mantissaBound

instance (x : ℚ) (s : Nat) : Decidable (HasRoom x s) :=
  inferInstanceAs (Decidable (roundEven (x * tenTo s) < mantissaBound))

/-- A number rounded at scale `s`. -/
def roundedAt (x : ℚ) (s : Nat) : ℚ :=
  roundEven (x * tenTo s) / tenTo s

/-- A number rounded at scale `s`, or at the nearest lower one where it has room. -/
def nearestFrom? (x : ℚ) : (s : Nat) → Option ℚ
  | 0 => if HasRoom x 0 then some (roundedAt x 0) else none
  | s + 1 => if HasRoom x (s + 1) then some (roundedAt x (s + 1)) else nearestFrom? x s

/-- A number rounded at the last scale where it has room, if there is one. -/
def nearest? (x : ℚ) : Option ℚ :=
  nearestFrom? x maxScale

theorem nearestFrom?_of_hasRoom {x : ℚ} {s : Nat} (h : HasRoom x s) : nearestFrom? x s = some (roundedAt x s) := by
  cases s <;> rw [nearestFrom?, if_pos h]

theorem mul_tenTo_le_succ {x : ℚ} (hx : 0 ≤ x) (s : Nat) : x * tenTo s ≤ x * tenTo (s + 1) := by
  have hle : (tenTo s : ℚ) ≤ tenTo (s + 1) := by
    rw [tenTo_succ]
    exact_mod_cast Nat.le_mul_of_pos_right (tenTo s) (by decide)
  exact mul_le_mul_of_nonneg_left hle hx

/-- What has no room at some scale has none at a higher one. -/
theorem not_hasRoom_succ {x : ℚ} (hx : 0 ≤ x) {s : Nat} (h : ¬ HasRoom x s) : ¬ HasRoom x (s + 1) := by
  have hmono := roundEven_mono (mul_nonneg hx (cast_tenTo_pos s).le) (mul_tenTo_le_succ hx s)
  unfold HasRoom at *
  omega

/-- A whole number of units of a scale. -/
def IsWhole (x : ℚ) (s : Nat) : Prop :=
  ∃ n : Nat, x * tenTo s = n

theorem IsWhole.succ {x : ℚ} {s : Nat} (h : IsWhole x s) : IsWhole x (s + 1) := by
  obtain ⟨n, hn⟩ := h
  exact ⟨n * 10, by rw [tenTo_succ, Nat.cast_mul, ← mul_assoc, hn, Nat.cast_mul]⟩

/-- What is a whole number of units is not changed. -/
theorem IsWhole.roundedAt {x : ℚ} {s : Nat} (h : IsWhole x s) : roundedAt x s = x := by
  obtain ⟨n, hn⟩ := h
  rw [Decimal.roundedAt, hn, roundEven_natCast, ← hn, mul_div_cancel_right₀ _ (cast_tenTo_pos s).ne']

/-- **A digit more changes nothing** if the number comes out even without it, or if there is no room for it. -/
theorem nearestFrom?_succ {x : ℚ} (hx : 0 ≤ x) {s : Nat} (h : IsWhole x s ∨ ¬ HasRoom x (s + 1)) :
    nearestFrom? x (s + 1) = nearestFrom? x s := by
  by_cases hroom : HasRoom x (s + 1)
  · have hwhole : IsWhole x s := h.resolve_right (not_not_intro hroom)
    have hroom' : HasRoom x s := not_not.mp fun hno => not_hasRoom_succ hx hno hroom
    rw [nearestFrom?_of_hasRoom hroom, nearestFrom?_of_hasRoom hroom', hwhole.succ.roundedAt, hwhole.roundedAt]
  · rw [nearestFrom?, if_neg hroom]

theorem nearestFrom?_add {x : ℚ} (hx : 0 ≤ x) {s : Nat} (h : IsWhole x s ∨ ¬ HasRoom x (s + 1)) (k : Nat) :
    nearestFrom? x (s + k) = nearestFrom? x s := by
  have hkeep : ∀ k, IsWhole x (s + k) ∨ ¬ HasRoom x (s + k + 1) := by
    intro k
    induction k with
    | zero => exact h
    | succ k ih => exact ih.imp IsWhole.succ (not_hasRoom_succ hx)
  induction k with
  | zero => rfl
  | succ k ih => exact (nearestFrom?_succ hx (hkeep k)).trans ih

/-! ## What is fitted -/

/-- The value of a mantissa and its scale. -/
def value (p : Nat × Nat) : ℚ :=
  p.1 / tenTo p.2

/-- What a quotient is rounded to at the scale where it is fitted. -/
theorem roundEven_units (a : Nat) {b : Nat} (hb : 0 < b) (s : Nat) :
    roundEven (a / (b * tenTo s) * tenTo s) = roundHalfEven a b := by
  rw [roundHalfEven_eq_roundEven a hb, ← div_div, div_mul_cancel₀ _ (cast_tenTo_pos s).ne']

/-- **What is fitted** is the exact quotient rounded at the last scale where it has room. -/
theorem map_value_fit (a : Nat) {b : Nat} (hb : 0 < b) (s : Nat) :
    (fit a b s).map value = nearestFrom? (a / (b * tenTo s)) s := by
  induction s generalizing b with
  | zero =>
    have hround := roundEven_units a hb 0
    have hroom : HasRoom (a / (b * tenTo 0)) 0 ↔ roundHalfEven a b < mantissaBound := by rw [HasRoom, hround]
    simp only [fit, nearestFrom?, hroom, roundedAt, hround]
    split <;> rfl
  | succ s ih =>
    have hround := roundEven_units a hb (s + 1)
    have hroom : HasRoom (a / (b * tenTo (s + 1))) (s + 1) ↔ roundHalfEven a b < mantissaBound := by
      rw [HasRoom, hround]
    have hten : (b : ℚ) * tenTo (s + 1) = (b * 10 : Nat) * tenTo s := by
      rw [tenTo_succ]
      push_cast
      ring
    simp only [fit, nearestFrom?, hroom, roundedAt, hround]
    split
    · rfl
    · rw [ih (Nat.mul_pos hb (by decide)), hten]

/-- **The scale that it is fitted from does not matter**, if more digits come out even or have no room. -/
theorem nearest?_eq_map_fit {a b s : Nat} (hb : 0 < b) (hs : s ≤ maxScale)
    (hend : b ∣ a ∨ s = maxScale ∨ mantissaBound ≤ 10 * (a / b)) :
    nearest? (a / (b * tenTo s)) = (fit a b s).map value := by
  have hpos := cast_tenTo_pos s
  have hb' : (0 : ℚ) < b := by exact_mod_cast hb
  have hx : (0 : ℚ) ≤ a / (b * tenTo s) := by positivity
  have hunits : (a : ℚ) / (b * tenTo s) * tenTo s = a / b := by rw [← div_div, div_mul_cancel₀ _ hpos.ne']
  obtain ⟨k, hk⟩ := Nat.exists_eq_add_of_le hs
  rw [map_value_fit a hb, nearest?, hk]
  rcases hend with hdvd | rfl | hroom
  · obtain ⟨c, rfl⟩ := hdvd
    refine nearestFrom?_add hx (Or.inl ⟨c, ?_⟩) k
    rw [hunits, Nat.cast_mul, mul_div_cancel_left₀ _ hb'.ne']
  · obtain rfl : k = 0 := by omega
    rfl
  · -- The whole part alone, with a digit more, has no room.
    refine nearestFrom?_add hx (Or.inr ?_) k
    have hfloor : ((a / b : Nat) : ℚ) ≤ a / b := Nat.cast_div_le
    have htimes : ((10 * (a / b) : Nat) : ℚ) ≤ a / (b * tenTo s) * tenTo (s + 1) := by
      rw [tenTo_succ, Nat.cast_mul (tenTo s), ← mul_assoc, hunits]
      push_cast
      linarith
    have hround := roundEven_mono (Nat.cast_nonneg _) htimes
    rw [roundEven_natCast] at hround
    unfold HasRoom
    omega

/-! ## Quotients and products -/

theorem nearest?_zero : nearest? 0 = some 0 := by
  have hround : roundEven 0 = 0 := roundEven_natCast 0
  have hroom : HasRoom 0 maxScale := by
    rw [HasRoom, zero_mul, hround]
    decide
  rw [nearest?, nearestFrom?_of_hasRoom hroom, roundedAt, zero_mul, hround, Nat.cast_zero, zero_div]

/-- **A quotient is the exact one, rounded.** -/
theorem map_magnitude_over? (d : Decimal) {n : Nat} (hn : 0 < n) :
    (d.over? n).map magnitude = nearest? (d.magnitude / n) := by
  by_cases hd : d.mantissa = 0
  · rw [over?_of_mantissa_eq_zero hn hd, magnitude_eq_zero hd, zero_div, nearest?_zero, Option.map_some, magnitude_zero]
  · obtain ⟨u, k, m, t, hu, hk, hfit, hshort, hend⟩ := exists_over? hd hn
    have hnearest := nearest?_eq_map_fit hn hk hend
    rw [expanded_div_eq d hn k, hfit] at hnearest
    rw [hu, hnearest, Option.map_some, magnitude_of_shortens hshort]
    rfl

/-- **A product is the exact one, rounded.** -/
theorem map_magnitude_times? (d : Decimal) (n : Nat) :
    (d.times? n).map magnitude = nearest? (d.magnitude * n) := by
  rw [times?]
  split
  · rename_i hzero
    have hproduct : d.magnitude * n = 0 := by
      rcases hzero with hm | rfl
      · rw [magnitude_eq_zero hm, zero_mul]
      · rw [Nat.cast_zero, mul_zero]
    rw [hproduct, nearest?_zero, Option.map_some, magnitude_zero]
  · have hexact : (d.mantissa * n : Nat) / ((1 : Nat) * tenTo d.scale) = d.magnitude * n := by
      rw [magnitude]
      push_cast
      ring
    rw [← hexact, nearest?_eq_map_fit Nat.one_pos d.scale_le (Or.inl (Nat.one_dvd _))]
    cases hfit : fit (d.mantissa * n) 1 d.scale with
    | none => rfl
    | some p =>
      obtain ⟨m, t⟩ := p
      obtain ⟨hts, -, hm⟩ := fit_eq_some hfit
      obtain ⟨c, hc, hcm, hcs⟩ := exists_ofParts? d.negative hm (Nat.le_trans hts d.scale_le)
      rw [Option.bind_some, Option.map_some, value]
      show (ofParts? d.negative m t).map magnitude = _
      rw [hc, Option.map_some, magnitude, hcm, hcs]

/-! ## What is too large -/

theorem nearestFrom?_eq_none_iff {x : ℚ} (hx : 0 ≤ x) (s : Nat) : nearestFrom? x s = none ↔ ¬ HasRoom x 0 := by
  have hup : ¬ HasRoom x 0 → ∀ s, ¬ HasRoom x s := by
    intro h s
    induction s with
    | zero => exact h
    | succ s ih => exact not_hasRoom_succ hx ih
  induction s with
  | zero => rw [nearestFrom?, ite_eq_right_iff, imp_iff_not (Option.some_ne_none _)]
  | succ s ih =>
    rw [nearestFrom?]
    split
    · rename_i hroom
      exact iff_of_false (Option.some_ne_none _) fun hno => hup hno (s + 1) hroom
    · exact ih

/-- A rounded number reaches the bound of mantissas from half a unit below it, since the bound is even. -/
theorem mantissaBound_le_roundEven_iff {x : ℚ} (hx : 0 ≤ x) :
    mantissaBound ≤ roundEven x ↔ (mantissaBound : ℚ) - 1 / 2 ≤ x := by
  rw [le_roundEven_iff hx, le_iff_lt_or_eq]
  exact or_congr Iff.rfl (and_iff_left (by decide))

/-- **Only what is too large has no rounded value.** -/
theorem nearest?_eq_none_iff {x : ℚ} (hx : 0 ≤ x) : nearest? x = none ↔ (mantissaBound : ℚ) - 1 / 2 ≤ x := by
  rw [nearest?, nearestFrom?_eq_none_iff hx, HasRoom, cast_tenTo_zero, mul_one, not_lt, mantissaBound_le_roundEven_iff hx]

/-! ## Order -/

/-- What a number without room for its last digit is rounded to, without that digit: at least the bound. -/
theorem mantissaBound_le_ten_mul {x : ℚ} (hx : 0 ≤ x) (h : mantissaBound ≤ roundEven (x * 10)) :
    mantissaBound ≤ 10 * roundEven x := by
  have hten := (mantissaBound_le_roundEven_iff (mul_nonneg hx (by norm_num))).mp h
  -- The bound ends in a six, so that a tenth of it is rounded up.
  have hround : 7922816251426433759354395034 ≤ roundEven x := by
    rw [le_roundEven_iff hx]
    rw [cast_mantissaBound] at hten
    left
    push_cast
    linarith
  have hbound : mantissaBound ≤ 10 * 7922816251426433759354395034 := by decide
  omega

/-- **What has lost a digit is not below what has not**: rounded, it is at least the bound of mantissas. -/
theorem mantissaBound_le_nearestFrom? {x v : ℚ} (hx : 0 ≤ x) {s : Nat} (hroom : ¬ HasRoom x (s + 1))
    (h : nearestFrom? x s = some v) : (mantissaBound : ℚ) ≤ v * tenTo (s + 1) := by
  have hfit : ∀ s, ¬ HasRoom x (s + 1) → (mantissaBound : ℚ) ≤ roundedAt x s * tenTo (s + 1) := by
    intro s hroom
    have hten : x * tenTo (s + 1) = x * tenTo s * 10 := by
      rw [tenTo_succ]
      push_cast
      ring
    rw [HasRoom, not_lt, hten] at hroom
    have hle : (mantissaBound : ℚ) ≤ 10 * roundEven (x * tenTo s) := by
      exact_mod_cast mantissaBound_le_ten_mul (mul_nonneg hx (cast_tenTo_pos s).le) hroom
    have hvalue : roundedAt x s * tenTo (s + 1) = 10 * roundEven (x * tenTo s) := by
      rw [roundedAt, tenTo_succ, Nat.cast_mul, ← mul_assoc, div_mul_cancel₀ _ (cast_tenTo_pos s).ne', mul_comm]
      norm_num
    rwa [hvalue]
  induction s with
  | zero =>
    rw [nearestFrom?, Option.ite_none_right_eq_some] at h
    exact Option.some.inj h.2 ▸ hfit 0 hroom
  | succ s ih =>
    rw [nearestFrom?] at h
    split at h
    · exact Option.some.inj h ▸ hfit (s + 1) hroom
    · rename_i hno
      have hlow := ih hno h
      have hv : 0 ≤ v := nonneg_of_mul_nonneg_left ((Nat.cast_nonneg _).trans hlow) (cast_tenTo_pos (s + 1))
      exact hlow.trans (mul_tenTo_le_succ hv (s + 1))

theorem nearestFrom?_mono {x y v w : ℚ} (hx : 0 ≤ x) (hxy : x ≤ y) {s : Nat} (hv : nearestFrom? x s = some v)
    (hw : nearestFrom? y s = some w) : v ≤ w := by
  have hmono : ∀ s, roundEven (x * tenTo s) ≤ roundEven (y * tenTo s) := fun s =>
    roundEven_mono (mul_nonneg hx (cast_tenTo_pos s).le) (mul_le_mul_of_nonneg_right hxy (cast_tenTo_pos s).le)
  have hsame : ∀ s, roundedAt x s ≤ roundedAt y s := fun s =>
    div_le_div_of_nonneg_right (by exact_mod_cast hmono s) (cast_tenTo_pos s).le
  induction s with
  | zero =>
    rw [nearestFrom?, Option.ite_none_right_eq_some] at hv hw
    exact Option.some.inj hv.2 ▸ Option.some.inj hw.2 ▸ hsame 0
  | succ s ih =>
    rw [nearestFrom?] at hv hw
    split at hv
    · rename_i hroom
      split at hw
      · exact Option.some.inj hv ▸ Option.some.inj hw ▸ hsame (s + 1)
      · -- The larger number has lost the last digit, and its rounded value is out of reach of the mantissas that have it.
        rename_i hno
        have hlow := mantissaBound_le_nearestFrom? (hx.trans hxy) hno hw
        have hlt : roundEven (x * tenTo (s + 1)) < mantissaBound := hroom
        have hlt' : (roundEven (x * tenTo (s + 1)) : ℚ) ≤ mantissaBound := by exact_mod_cast hlt.le
        rw [← Option.some.inj hv, roundedAt, div_le_iff₀ (cast_tenTo_pos (s + 1))]
        exact hlt'.trans hlow
    · rename_i hno
      split at hw
      · -- The smaller number has no room where the larger one has.
        rename_i hroom
        exact absurd ((hmono (s + 1)).trans_lt hroom) hno
      · exact ih hv hw

/-- **Rounding at the last scale with room keeps the order.** -/
theorem nearest?_mono {x y v w : ℚ} (hx : 0 ≤ x) (hxy : x ≤ y) (hv : nearest? x = some v) (hw : nearest? y = some w) :
    v ≤ w :=
  nearestFrom?_mono hx hxy hv hw

/-- What a price is found by: two roundings. -/
theorem nearest?_of_price {d u c : Decimal} {q n : Nat} (hq : 0 < q) (hu : d.over? q = some u)
    (hc : u.times? n = some c) :
    nearest? (d.magnitude / q) = some u.magnitude ∧ nearest? (u.magnitude * n) = some c.magnitude := by
  rw [← map_magnitude_over? d hq, ← map_magnitude_times? u n, hu, hc]
  exact ⟨rfl, rfl⟩

/-- **Prices keep the order** of the exact prices of one unit, and of the numbers of units. -/
theorem price_mono {d d' u u' c c' : Decimal} {q q' n n' : Nat} (hq : 0 < q) (hq' : 0 < q')
    (hu : d.over? q = some u) (hu' : d'.over? q' = some u') (hc : u.times? n = some c) (hc' : u'.times? n' = some c')
    (hunit : d.magnitude / q ≤ d'.magnitude / q') (hn : n ≤ n') : c.magnitude ≤ c'.magnitude := by
  obtain ⟨hquotient, hproduct⟩ := nearest?_of_price hq hu hc
  obtain ⟨hquotient', hproduct'⟩ := nearest?_of_price hq' hu' hc'
  have hle : u.magnitude ≤ u'.magnitude :=
    nearest?_mono (div_nonneg d.magnitude_nonneg (Nat.cast_nonneg q)) hunit hquotient hquotient'
  have hn' : (n : ℚ) ≤ n' := by exact_mod_cast hn
  have hmul : u.magnitude * n ≤ u'.magnitude * n' :=
    mul_le_mul hle hn' (Nat.cast_nonneg n) u'.magnitude_nonneg
  exact nearest?_mono (mul_nonneg u.magnitude_nonneg (Nat.cast_nonneg n)) hmul hproduct hproduct'

end TradeTalk.Decimal
