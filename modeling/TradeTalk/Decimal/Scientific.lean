import TradeTalk.Decimal.Reader
import TradeTalk.Decimal.Rounding

/-!
# `TradeTalk.Decimal.Scientific` — decimals with an exponent

After its digits a text may have the letter `e` and a whole number: the point is moved by as many places, to the
right, or to the left after a minus sign. Moved to the right, a number that has become too large is refused. Moved to
the left, fraction digits for which there is no room are rounded away. The sign stays, even where no digit is left.

## Contents
- **`Decimal.raise?`**, **`Decimal.lower`**: a decimal with its point moved to the right or to the left.
- **`Decimal.ofScientific?`**: a text with an exponent.
- **`Decimal.ofNotation?`**: a text with an exponent or without.
-/

namespace TradeTalk.Decimal

/-- A decimal with its point moved to the right: past the last digit zeros are put. -/
def raise? (d : Decimal) (places : Nat) : Option Decimal :=
  if places ≤ d.scale then
    some { d with scale := d.scale - places, scale_le := Nat.le_trans (Nat.sub_le ..) d.scale_le }
  else if h : d.mantissa * tenTo (places - d.scale) < mantissaBound then
    some { d with
      mantissa := d.mantissa * tenTo (places - d.scale)
      scale := 0
      mantissa_lt := h
      scale_le := Nat.zero_le _ }
  else none

/-- A decimal with its point moved to the left. Digits beyond the last place are rounded away, a half away from zero. -/
def lower (d : Decimal) (places : Nat) : Decimal :=
  if h : d.scale + places ≤ maxScale then { d with scale := d.scale + places, scale_le := h }
  else { d with
    mantissa := roundHalfUp d.mantissa (tenTo (d.scale + places - maxScale))
    scale := maxScale
    mantissa_lt := Nat.lt_of_le_of_lt (roundHalfUp_le_self _ (tenTo_pos _)) d.mantissa_lt
    scale_le := Nat.le_refl _ }

/-- The number that some digits write, of which there is at least one. -/
def natural? (cs : List Char) : Option Nat :=
  if cs.isEmpty then none
  else cs.foldlM (fun n c => (digitValue? c).map (n * 10 + ·)) 0

/-- A number of places: digits, perhaps after a plus sign. The point is never moved further than there can be
    fraction digits. -/
def places? (cs : List Char) : Option Nat :=
  let digits := match cs with
    | '+' :: cs => cs
    | cs => cs
  (natural? digits).filter (· ≤ maxScale)

/-- Whether a letter announces an exponent. -/
def startsExponent (c : Char) : Bool :=
  c = 'e' ∨ c = 'E'

/-- A decimal with its point moved as an exponent says. -/
def applyExponent? (d : Decimal) : List Char → Option Decimal
  | '-' :: cs => (places? cs).map d.lower
  | cs => (places? cs).bind d.raise?

/-- The decimal that a text with an exponent spells. -/
def ofScientific? (s : String) : Option Decimal :=
  match s.toList.span fun c => !startsExponent c with
  | (_, []) => none
  | (digits, _ :: exponent) => (ofChars? digits).bind (applyExponent? · exponent)

/-- The decimal that a text spells, with an exponent or without. -/
def ofNotation? (s : String) : Option Decimal :=
  (ofString? s).or (ofScientific? s)

end TradeTalk.Decimal
