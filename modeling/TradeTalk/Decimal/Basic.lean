/-!
# `TradeTalk.Decimal.Basic` — decimal amounts of 96 bits

A decimal is a signed mantissa below 2⁹⁶ with at most 28 fraction digits. The number of fraction digits is part of
it: `0.5` and `0.50` are different decimals of one value. So is the sign, even that of a zero: a zero with a minus sign
is what remains of a negative number when its digits have been rounded away.

## Contents
- **`Decimal.tenTo`**: powers of ten.
- **`Decimal`**: sign, mantissa and scale, with their bounds; `Decimal.ofParts?` checks them.
- **`Decimal.toRat`**: the exact value, and the order of decimals by it.
- **`Decimal.text`**: the decimal as text, with as many fraction digits as its scale says.
- **`Decimal.zero`** and **`Decimal.greatest`**.
-/

namespace TradeTalk

namespace Decimal

/-- The number that a one with `k` zeros writes. -/
def tenTo (k : Nat) : Nat := Nat.pow 10 k

/-- The first mantissa that is too large. -/
def mantissaBound : Nat := Nat.pow 2 96

/-- The largest number of fraction digits. -/
def maxScale : Nat := 28

end Decimal

/-- A decimal number: `mantissa / tenTo scale`, with a minus sign if `negative`. -/
structure Decimal where
  negative : Bool
  mantissa : Nat
  scale : Nat
  mantissa_lt : mantissa < Decimal.mantissaBound
  scale_le : scale ≤ Decimal.maxScale
  deriving DecidableEq, Repr

namespace Decimal

/-- The decimal with the given parts, if they are in range; the sign of a zero is dropped. -/
def ofParts? (negative : Bool) (mantissa scale : Nat) : Option Decimal :=
  if h : mantissa < mantissaBound ∧ scale ≤ maxScale then
    some ⟨negative && mantissa != 0, mantissa, scale, h.1, h.2⟩
  else none

/-- Zero, without fraction digits. -/
def zero : Decimal := ⟨false, 0, 0, by decide, by decide⟩

instance : Inhabited Decimal := ⟨zero⟩

/-- The largest decimal. -/
def greatest : Decimal := ⟨false, mantissaBound - 1, 0, by decide, by decide⟩

/-! ## Value and order -/

/-- The mantissa with its sign. -/
def signed (d : Decimal) : Int :=
  if d.negative then -d.mantissa else d.mantissa

/-- The exact value of a decimal. -/
def toRat (d : Decimal) : Rat :=
  mkRat d.signed (tenTo d.scale)

/-- Decimals are ordered by value, whatever their scales. -/
instance : LE Decimal where
  le a b := a.signed * tenTo b.scale ≤ b.signed * tenTo a.scale

instance (a b : Decimal) : Decidable (a ≤ b) :=
  inferInstanceAs (Decidable (a.signed * tenTo b.scale ≤ b.signed * tenTo a.scale))

/-! ## Text -/

/-- The last `k` decimal digits of a number, with leading zeros where it has fewer. -/
def lastDigits : Nat → Nat → List Char
  | 0, _ => []
  | k + 1, n => lastDigits k (n / 10) ++ [Nat.digitChar (n % 10)]

/-- A minus sign or nothing. -/
def sign (negative : Bool) : List Char :=
  if negative then ['-'] else []

/-- A number of units, of which `tenTo scale` make one, in positional notation. -/
def positional (scale units : Nat) : List Char :=
  Nat.toDigits 10 (units / tenTo scale) ++ if scale = 0 then [] else '.' :: lastDigits scale units

/-- The decimal as text: at least one digit before the point, and exactly `scale` digits after it. -/
def text (d : Decimal) : String :=
  String.ofList (sign d.negative ++ positional d.scale d.mantissa)

instance : ToString Decimal := ⟨text⟩

/-! ## Small laws -/

theorem ext_parts {a b : Decimal} (hn : a.negative = b.negative) (hm : a.mantissa = b.mantissa)
    (hs : a.scale = b.scale) : a = b := by
  cases a
  cases b
  simp_all

/-- The parts of a decimal give it back, unless it is a zero with a sign. -/
theorem ofParts?_self {d : Decimal} (h : d.mantissa = 0 → d.negative = false) :
    ofParts? d.negative d.mantissa d.scale = some d := by
  have hsign : (d.negative && d.mantissa != 0) = d.negative := by
    by_cases hz : d.mantissa = 0
    · simp [hz, h hz]
    · simp [hz]
  unfold ofParts?
  rw [dif_pos ⟨d.mantissa_lt, d.scale_le⟩]
  exact congrArg some (ext_parts hsign rfl rfl)

theorem ofParts?_eq_none_iff {negative : Bool} {m s : Nat} :
    ofParts? negative m s = none ↔ mantissaBound ≤ m ∨ maxScale < s := by
  unfold ofParts?
  split <;> simp <;> omega

theorem parts_of_ofParts? {negative : Bool} {m s : Nat} {d : Decimal} (h : ofParts? negative m s = some d) :
    d.mantissa = m ∧ d.scale = s ∧ d.negative = (negative && m != 0) := by
  unfold ofParts? at h
  split at h
  · injection h with h
    subst h
    exact ⟨rfl, rfl, rfl⟩
  · contradiction

theorem tenTo_pos (k : Nat) : 0 < tenTo k := Nat.pow_pos (by decide)

theorem tenTo_succ (k : Nat) : tenTo (k + 1) = tenTo k * 10 := rfl

@[simp] theorem length_lastDigits (k n : Nat) : (lastDigits k n).length = k := by
  induction k generalizing n with
  | zero => rfl
  | succ k ih => simp [lastDigits, ih]

end Decimal

end TradeTalk
