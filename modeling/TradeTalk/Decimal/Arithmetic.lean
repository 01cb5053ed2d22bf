import TradeTalk.Decimal.Basic
import TradeTalk.Decimal.Rounding

/-!
# `TradeTalk.Decimal.Arithmetic` — decimals times and divided by whole numbers

A result that fits is exact. Otherwise it is rounded half to even at the last place that the mantissa has room for:
`Decimal.fit` gives up as few fraction digits as it can. A quotient is expanded digit by digit until it comes out
even or the room is used up, and loses some of its trailing zeros afterwards; so its scale tells how it was found
(`1 / 2` is `0.50`).

## Contents
- **`Decimal.fit`**: a quotient at a scale, or at the nearest lower one where it has room.
- **`Decimal.times?`**: the product with a whole number, unless it is too large.
- **`Decimal.expand`**, **`Decimal.dropZeros`**: the digits of a quotient, and the zeros it loses.
- **`Decimal.over?`**: the quotient by a whole number, unless that is zero.
-/

namespace TradeTalk.Decimal

/-- The quotient `a / b` as a mantissa of scale `s`, rounded half to even; while that is too large, with one
    fraction digit less. The result is a mantissa and its scale. -/
def fit (a b : Nat) : (s : Nat) → Option (Nat × Nat)
  | 0 => if roundHalfEven a b < mantissaBound then some (roundHalfEven a b, 0) else none
  | s + 1 => if roundHalfEven a b < mantissaBound then some (roundHalfEven a b, s + 1) else fit a (b * 10) s

/-! ## Products -/

/-- A decimal times a whole number. A product that no decimal can hold has no result; zero has no fraction
    digits. -/
def times? (d : Decimal) (n : Nat) : Option Decimal :=
  if d.mantissa = 0 ∨ n = 0 then some zero
  else (fit (d.mantissa * n) 1 d.scale).bind fun (m, s) => ofParts? d.negative m s

/-! ## Quotients -/

/-- How many digits, `k` at most, a mantissa at some scale has room for. -/
def room (m s : Nat) : (k : Nat) → Nat
  | 0 => 0
  | k + 1 => if s + (k + 1) ≤ maxScale ∧ m * tenTo (k + 1) < mantissaBound then k + 1 else room m s k

theorem add_room_le {m s k : Nat} (h : room m s k ≠ 0) : s + room m s k ≤ maxScale := by
  induction k with
  | zero => simp [room] at h
  | succ k ih =>
    unfold room at h ⊢
    split
    · rename_i hk
      exact hk.1
    · rename_i hk
      rw [if_neg hk] at h
      exact ih h

/-- Expands a quotient by `n` of which `m` at scale `s` has been found and the remainder `r` is left: nine
    digits at a time, or as many as there is room for. It ends when nothing remains, or rounds when there is
    no more room. -/
def expand (n m r s : Nat) : Option (Nat × Nat) :=
  if r = 0 then some (m, s)
  else
    let x := room m s 9
    if x = 0 then fit (m * n + r) n s
    else
      let found := m * tenTo x + r * tenTo x / n
      let left := r * tenTo x % n
      if found < mantissaBound then expand n found left (s + x)
      -- The digits found may carry the mantissa past its bound although there was room for them.
      else fit (found * n + left) n (s + x)
  termination_by maxScale - s
  decreasing_by
    rename_i hx _
    have := add_room_le hx
    omega

/-- Drops `k` fraction digits if they are all zero. -/
def dropZeros (k : Nat) : Nat × Nat → Nat × Nat
  | (m, s) => if k ≤ s ∧ m % tenTo k = 0 then (m / tenTo k, s - k) else (m, s)

/-- Drops eight fraction digits if they are all zero and the mantissa is a multiple of 2³². -/
def dropEight : Nat × Nat → Nat × Nat
  | (m, s) => if m % Nat.pow 2 32 = 0 then dropZeros 8 (m, s) else (m, s)

/-- Drops trailing zeros of an expanded quotient: by eights at first, three times at most, then four, two and
    one of what is left. -/
def tidy (q : Nat × Nat) : Nat × Nat :=
  dropZeros 1 (dropZeros 2 (dropZeros 4 (dropEight (dropEight (dropEight q)))))

/-- A decimal divided by a whole number other than zero. A quotient that comes out at once keeps the scale; the
    quotient of zero has no fraction digits. -/
def over? (d : Decimal) (n : Nat) : Option Decimal :=
  if n = 0 then none
  else if d.mantissa = 0 then some zero
  else if d.mantissa % n = 0 then ofParts? d.negative (d.mantissa / n) d.scale
  else
    (expand n (d.mantissa / n) (d.mantissa % n) d.scale).bind fun q =>
      ofParts? d.negative (tidy q).1 (tidy q).2

end TradeTalk.Decimal
