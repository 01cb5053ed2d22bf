import Mathlib.Algebra.Order.Field.Rat
import Mathlib.Data.Nat.Cast.Order.Field
import Mathlib.Tactic.FieldSimp
import Mathlib.Tactic.Linarith
import Mathlib.Tactic.Ring
import TradeTalk.Decimal.Arithmetic

/-!
# `Proofs.Decimal.Quotient` — how far a quotient is off

The digits of a quotient are found nine at a time, may be rounded on the way, and lose some zeros in the end. All of it
amounts to one rounding: `expand` gives what `fit` makes of the exact quotient at the scale where the expansion ended,
and that is the exact quotient itself unless the room was used up.

## Contents
- **`roundHalfEven_mul_le`**, **`le_roundHalfEven_mul`**: rounding is off by half a unit at most.
- **`fit_eq_some`**, **`exists_fit`**: what is fitted is a rounded quotient, and it exists if the whole part fits.
- **`expand_eq_fit`**: an expansion is one rounding.
- **`Shortens`**, **`tidy_shortens`**: dropping zeros keeps the value.
- **`exists_over?`**: a quotient by a number other than zero exists, and is a rounded one.
-/

namespace TradeTalk.Decimal

/-! ## Rounding -/

/-- Rounding goes up by half a unit at most. -/
theorem roundHalfEven_mul_le (a b : Nat) : 2 * (roundHalfEven a b * b) ≤ 2 * a + b := by
  have hdiv : a / b * b + a % b = a := Nat.div_add_mod' a b
  unfold roundHalfEven
  split
  · rw [Nat.add_one_mul (a / b) b]
    omega
  · omega

/-- Rounding goes down by half a unit at most. -/
theorem le_roundHalfEven_mul (a : Nat) {b : Nat} (hb : 0 < b) : 2 * a ≤ 2 * (roundHalfEven a b * b) + b := by
  have hdiv : a / b * b + a % b = a := Nat.div_add_mod' a b
  have hmod : a % b < b := Nat.mod_lt a hb
  unfold roundHalfEven
  split
  · rw [Nat.add_one_mul (a / b) b]
    omega
  · omega

/-- A number that is less than half a unit above a whole one is not rounded past it. -/
theorem roundHalfEven_lt {a b n : Nat} (h : 2 * a + b < 2 * (n * b)) : roundHalfEven a b < n := by
  have hle := roundHalfEven_mul_le a b
  have hlt : roundHalfEven a b * b < n * b := by omega
  exact Nat.lt_of_mul_lt_mul_right hlt

theorem roundHalfEven_mul_self (m : Nat) {b : Nat} (hb : 0 < b) : roundHalfEven (m * b) b = m := by
  rw [roundHalfEven, Nat.mul_mod_left, Nat.mul_div_cancel m hb]
  rw [if_neg (by omega)]

/-! ## Fitting -/

/-- What fits as it is keeps its scale. -/
theorem fit_of_lt {a b s : Nat} (h : roundHalfEven a b < mantissaBound) : fit a b s = some (roundHalfEven a b, s) := by
  cases s <;> rw [fit, if_pos h]

/-- **What is fitted is a rounded quotient**, at the scale asked for or at a lower one. -/
theorem fit_eq_some {a b s m t : Nat} (h : fit a b s = some (m, t)) :
    t ≤ s ∧ m = roundHalfEven a (b * tenTo (s - t)) ∧ m < mantissaBound := by
  induction s generalizing b with
  | zero =>
    rw [fit, Option.ite_none_right_eq_some] at h
    obtain ⟨hlt, he⟩ := h
    obtain ⟨rfl, rfl⟩ := Prod.mk.inj (Option.some.inj he)
    exact ⟨Nat.le_refl 0, by simp [tenTo], hlt⟩
  | succ s ih =>
    rw [fit] at h
    split at h
    · rename_i hlt
      obtain ⟨rfl, rfl⟩ := Prod.mk.inj (Option.some.inj h)
      exact ⟨Nat.le_refl _, by simp [tenTo], hlt⟩
    · obtain ⟨hts, hm, hlt⟩ := ih h
      have hsucc : s + 1 - t = s - t + 1 := by omega
      refine ⟨by omega, ?_, hlt⟩
      rw [hm, hsucc, tenTo_succ, Nat.mul_assoc, Nat.mul_comm 10]

/-- **A quotient can be fitted if its whole part can.** -/
theorem exists_fit {a b s : Nat} (h : roundHalfEven a (b * tenTo s) < mantissaBound) :
    ∃ m t, fit a b s = some (m, t) := by
  induction s generalizing b with
  | zero =>
    have hb : b * tenTo 0 = b := Nat.mul_one b
    rw [hb] at h
    exact ⟨_, 0, by rw [fit, if_pos h]⟩
  | succ s ih =>
    rw [fit]
    split
    · exact ⟨_, _, rfl⟩
    · refine ih ?_
      rwa [Nat.mul_assoc, Nat.mul_comm 10, ← tenTo_succ]

/-! ## Expanding -/

theorem tenTo_add (j k : Nat) : tenTo (j + k) = tenTo j * tenTo k := Nat.pow_add 10 j k

/-- Without room for any digit the scale is used up or the next digit would be too much. -/
theorem of_room_eq_zero {m s k : Nat} (h : room m s (k + 1) = 0) : maxScale ≤ s ∨ mantissaBound ≤ 10 * m := by
  induction k with
  | zero =>
    unfold room at h
    split at h
    · contradiction
    · rename_i hno
      have h10 : tenTo 1 = 10 := rfl
      simp only [Nat.zero_add, h10] at hno
      omega
  | succ k ih =>
    unfold room at h
    split at h
    · contradiction
    · exact ih h

/-- The digits found and what is left of the remainder are the quotient with as many digits more. -/
theorem found_mul_add_left (m r n x : Nat) :
    (m * tenTo x + r * tenTo x / n) * n + r * tenTo x % n = (m * n + r) * tenTo x := by
  have hdiv : r * tenTo x / n * n + r * tenTo x % n = r * tenTo x := Nat.div_add_mod' _ n
  rw [Nat.add_mul, Nat.add_assoc, hdiv, Nat.add_mul]
  ring

/-- **An expansion is one rounding**: it gives what is fitted of the exact quotient with some more digits, and more
    digits were not needed or had no room. -/
theorem expand_eq_fit {n m r s : Nat} (hm : m < mantissaBound) (hr : r < n) (hs : s ≤ maxScale) :
    ∃ k, s + k ≤ maxScale ∧ expand n m r s = fit ((m * n + r) * tenTo k) n (s + k) ∧
      (n ∣ (m * n + r) * tenTo k ∨ s + k = maxScale ∨ mantissaBound ≤ 10 * ((m * n + r) * tenTo k / n)) := by
  have hn : 0 < n := by omega
  fun_induction expand n m r s with
  | case1 m s =>
    -- Nothing remains: the digits found are the quotient.
    have hround : roundHalfEven (m * n) n = m := roundHalfEven_mul_self m hn
    have hfit : fit (m * n) n s = some (m, s) := by
      rw [fit_of_lt (by rwa [hround]), hround]
    have htimes : (m * n + 0) * tenTo 0 = m * n := Nat.mul_one _
    exact ⟨0, hs, by rw [htimes, Nat.add_zero, hfit], Or.inl (by rw [htimes]; exact Nat.dvd_mul_left n m)⟩
  | case2 m r s hne x hx =>
    have htimes : (m * n + r) * tenTo 0 = m * n + r := Nat.mul_one _
    have hdiv : (m * n + r) / n = m := by
      rw [Nat.mul_comm, Nat.mul_add_div hn, Nat.div_eq_of_lt hr, Nat.add_zero]
    refine ⟨0, hs, by rw [htimes, Nat.add_zero], Or.inr ?_⟩
    rw [htimes, hdiv]
    rcases of_room_eq_zero hx with hmax | hmax
    · exact Or.inl (by omega)
    · exact Or.inr hmax
  | case3 m r s hne x hx found left hlt ih =>
    obtain ⟨k, hk, he, hend⟩ := ih hlt (Nat.mod_lt _ hn) (add_room_le hx)
    have hsum : (found * n + left) * tenTo k = (m * n + r) * tenTo (x + k) := by
      rw [found_mul_add_left, tenTo_add, Nat.mul_assoc]
    rw [hsum, Nat.add_assoc] at he
    rw [hsum, Nat.add_assoc] at hend
    exact ⟨x + k, by omega, he, hend⟩
  | case4 m r s hne x hx found left hge =>
    have hsum : found * n + left = (m * n + r) * tenTo x := found_mul_add_left m r n x
    have hdiv : (m * n + r) * tenTo x / n = found := by
      rw [← hsum, Nat.mul_comm, Nat.mul_add_div hn, Nat.div_eq_of_lt (Nat.mod_lt _ hn), Nat.add_zero]
    refine ⟨x, add_room_le hx, by rw [hsum], Or.inr (Or.inr ?_)⟩
    rw [hdiv]
    omega

/-! ## Dropping zeros -/

/-- A mantissa and its scale, and the same with some zeros at the end of the fraction dropped. -/
def Shortens (p q : Nat × Nat) : Prop :=
  q.2 ≤ p.2 ∧ p.1 = q.1 * tenTo (p.2 - q.2)

theorem Shortens.refl (p : Nat × Nat) : Shortens p p :=
  ⟨Nat.le_refl _, by rw [Nat.sub_self]; exact (Nat.mul_one _).symm⟩

theorem Shortens.trans {p q r : Nat × Nat} (hpq : Shortens p q) (hqr : Shortens q r) : Shortens p r := by
  obtain ⟨hle, he⟩ := hpq
  obtain ⟨hle', he'⟩ := hqr
  have hsub : p.2 - r.2 = q.2 - r.2 + (p.2 - q.2) := by omega
  exact ⟨Nat.le_trans hle' hle, by rw [he, he', hsub, tenTo_add, Nat.mul_assoc]⟩

theorem dropZeros_shortens (k : Nat) (p : Nat × Nat) : Shortens p (dropZeros k p) := by
  obtain ⟨m, s⟩ := p
  rw [dropZeros]
  split
  · rename_i h
    have hsub : s - (s - k) = k := by omega
    refine ⟨Nat.sub_le s k, ?_⟩
    show m = m / tenTo k * tenTo (s - (s - k))
    rw [hsub]
    exact (Nat.div_mul_cancel (Nat.dvd_of_mod_eq_zero h.2)).symm
  · exact Shortens.refl _

theorem dropEight_shortens (p : Nat × Nat) : Shortens p (dropEight p) := by
  obtain ⟨m, s⟩ := p
  rw [dropEight]
  split
  · exact dropZeros_shortens 8 _
  · exact Shortens.refl _

/-- **Dropping zeros keeps the value.** -/
theorem tidy_shortens (p : Nat × Nat) : Shortens p (tidy p) := by
  have h8 : Shortens p (dropEight (dropEight (dropEight p))) :=
    ((dropEight_shortens p).trans (dropEight_shortens _)).trans (dropEight_shortens _)
  exact ((h8.trans (dropZeros_shortens 4 _)).trans (dropZeros_shortens 2 _)).trans (dropZeros_shortens 1 _)

/-! ## Quotients -/

/-- The parts of a decimal are those given to it, if they are in range. -/
theorem exists_ofParts? (negative : Bool) {m s : Nat} (hm : m < mantissaBound) (hs : s ≤ maxScale) :
    ∃ d, ofParts? negative m s = some d ∧ d.mantissa = m ∧ d.scale = s := by
  cases hd : ofParts? negative m s with
  | none =>
    rcases ofParts?_eq_none_iff.mp hd with h | h <;> omega
  | some d => exact ⟨d, rfl, (parts_of_ofParts? hd).1, (parts_of_ofParts? hd).2.1⟩

theorem Shortens.mantissa_lt {p q : Nat × Nat} (h : Shortens p q) (hp : p.1 < mantissaBound) : q.1 < mantissaBound := by
  obtain ⟨-, he⟩ := h
  have := Nat.le_mul_of_pos_right q.1 (tenTo_pos (p.2 - q.2))
  omega

/-- A quotient by two or more, at whatever scale, has a whole part that fits. -/
theorem roundHalfEven_quotient_lt {m n : Nat} (hm : m < mantissaBound) (hn : 2 ≤ n) (s k : Nat) :
    roundHalfEven (m * tenTo k) (n * tenTo (s + k)) < mantissaBound := by
  have hdiv : m * tenTo k / (n * tenTo (s + k)) = m / (n * tenTo s) := by
    rw [tenTo_add, ← Nat.mul_assoc, Nat.mul_div_mul_right _ _ (tenTo_pos k)]
  have htwo : 2 ≤ n * tenTo s := Nat.le_trans hn (Nat.le_mul_of_pos_right n (tenTo_pos s))
  have hhalf : m / (n * tenTo s) ≤ m / 2 := Nat.div_le_div_left htwo (by decide)
  have hround := roundHalfEven_le (m * tenTo k) (n * tenTo (s + k))
  have hbound : 4 ≤ mantissaBound := by decide
  omega

/-- **A quotient exists and is a rounded one**: the exact quotient with some more digits, fitted, less some zeros; and
    more digits were not needed or had no room. -/
theorem exists_over? {d : Decimal} {n : Nat} (hd : d.mantissa ≠ 0) (hn : 0 < n) :
    ∃ u k m t, d.over? n = some u ∧ d.scale + k ≤ maxScale ∧
      fit (d.mantissa * tenTo k) n (d.scale + k) = some (m, t) ∧ Shortens (m, t) (u.mantissa, u.scale) ∧
      (n ∣ d.mantissa * tenTo k ∨ d.scale + k = maxScale ∨ mantissaBound ≤ 10 * (d.mantissa * tenTo k / n)) := by
  have hle : d.mantissa / n < mantissaBound := Nat.lt_of_le_of_lt (Nat.div_le_self _ _) d.mantissa_lt
  rw [over?, if_neg (by omega), if_neg hd]
  by_cases hmod : d.mantissa % n = 0
  · -- The quotient comes out at once.
    have hdvd := Nat.dvd_of_mod_eq_zero hmod
    have hzero : d.mantissa * tenTo 0 = d.mantissa := Nat.mul_one _
    have hround : roundHalfEven d.mantissa n = d.mantissa / n := by
      conv_lhs => rw [← Nat.div_mul_cancel hdvd]
      exact roundHalfEven_mul_self _ hn
    have hfit : fit d.mantissa n d.scale = some (d.mantissa / n, d.scale) := by
      rw [fit_of_lt (by rwa [hround]), hround]
    obtain ⟨u, hu, hum, hus⟩ := exists_ofParts? d.negative hle d.scale_le
    refine ⟨u, 0, d.mantissa / n, d.scale, by rw [if_pos hmod, hu], d.scale_le, by rw [hzero, Nat.add_zero, hfit], ?_,
      Or.inl (by rwa [hzero])⟩
    rw [hum, hus]
    exact Shortens.refl _
  · have htwo : 2 ≤ n := by
      by_contra hlt
      obtain rfl : n = 1 := by omega
      exact hmod (Nat.mod_one _)
    obtain ⟨k, hk, he, hend⟩ := expand_eq_fit hle (Nat.mod_lt d.mantissa hn) d.scale_le
    rw [Nat.div_add_mod'] at he hend
    obtain ⟨m, t, hfit⟩ := exists_fit (roundHalfEven_quotient_lt d.mantissa_lt htwo d.scale k)
    obtain ⟨hts, -, hm⟩ := fit_eq_some hfit
    have hshort := tidy_shortens (m, t)
    obtain ⟨u, hu, hum, hus⟩ := exists_ofParts? d.negative (hshort.mantissa_lt hm)
      (Nat.le_trans hshort.1 (Nat.le_trans hts hk))
    refine ⟨u, k, m, t, by rw [if_neg hmod, he, hfit]; exact hu, hk, hfit, ?_, hend⟩
    rw [hum, hus]
    exact hshort

end TradeTalk.Decimal
