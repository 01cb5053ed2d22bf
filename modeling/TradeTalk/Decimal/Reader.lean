import TradeTalk.Decimal.Basic

/-!
# `TradeTalk.Decimal.Reader` — decimals from text

A text is read from the left, one digit at a time. Digits before the point must all fit the mantissa. After the
point, digits are kept up to the first place that cannot be, either because the scale is used up or because the
mantissa would grow too large. From that place on the text may only hold more digits and separators; the first digit
there rounds what was kept, and the others are dropped. A separator there is skipped behind a long mantissa, and stands
for a zero behind a short one.

## Contents
- **`Decimal.scan`**: the reading loop.
- **`Decimal.decidingDigit`**: the digit that rounds what was kept.
- **`Decimal.roundBy`**: the last step where a text has more digits than a decimal can keep.
- **`Decimal.ofString?`**: an optional sign, digits with at most one point, underscores after the first digit.
-/

namespace TradeTalk.Decimal

/-- The value of a decimal digit. -/
def digitValue? (c : Char) : Option Nat :=
  if '0' ≤ c ∧ c ≤ '9' then some (c.toNat - '0'.toNat) else none

/-- Whether a character may stand beyond the last place: a digit or a separator. -/
def canDrop (c : Char) : Bool :=
  c = '_' ∨ (digitValue? c).isSome

/-- The first mantissa that is a long one. It lies a little below 2⁶⁴. -/
def longBound : Nat := 18446744073709549060

/-- The digit that decides how a mantissa is rounded, given the characters that it has no room for. A separator in
    front of them stands for a zero if the mantissa is short, and otherwise is skipped. -/
def decidingDigit (m : Nat) (rest : List Char) : Nat :=
  if m < longBound ∧ rest.head? = some '_' then 0 else (rest.findSome? digitValue?).getD 0

/-- Rounds a mantissa by the characters that it has no room for. If that makes it too large, its last digit is given
    up. -/
def roundBy (negative : Bool) (m s : Nat) (rest : List Char) : Option Decimal :=
  if rest.all canDrop then
    let m := if 5 ≤ decidingDigit m rest then m + 1 else m
    if m = mantissaBound ∧ s ≠ 0 then ofParts? negative ((m + 4) / 10) (s - 1)
    else ofParts? negative m s
  else none

/-- Reads the rest of a decimal of which `m` is the mantissa so far and `s` its scale. The flags say whether a
    point and whether a digit has been read. -/
def scan (negative : Bool) : (afterPoint anyDigit : Bool) → (m s : Nat) → List Char → Option Decimal
  | _, anyDigit, m, s, [] => if anyDigit then ofParts? negative m s else none
  | afterPoint, anyDigit, m, s, c :: cs =>
    if afterPoint ∧ s = maxScale then roundBy negative m s (c :: cs)
    else
      match digitValue? c with
      | some digit =>
        if m * 10 + digit < mantissaBound then
          scan negative afterPoint true (m * 10 + digit) (if afterPoint then s + 1 else s) cs
        else if afterPoint then roundBy negative m s (c :: cs)
        -- A whole part cannot be rounded away.
        else none
      | none =>
        if c = '.' ∧ !afterPoint then scan negative true anyDigit m s cs
        else if c = '_' ∧ anyDigit then scan negative afterPoint anyDigit m s cs
        else none

/-- The decimal that a list of characters spells. -/
def ofChars? : List Char → Option Decimal
  | '-' :: cs => scan true false false 0 0 cs
  | '+' :: cs => scan false false false 0 0 cs
  | cs => scan false false false 0 0 cs

/-- The decimal that a text spells, rounded where the text has more digits than a decimal can keep. -/
def ofString? (s : String) : Option Decimal :=
  ofChars? s.toList

/-! ## Small laws -/

@[simp] theorem roundBy_nil (negative : Bool) {m s : Nat} (h : m < mantissaBound) :
    roundBy negative m s [] = ofParts? negative m s := by
  simp [roundBy, decidingDigit, Nat.ne_of_lt h]

theorem digitValue?_lt {c : Char} {n : Nat} (h : digitValue? c = some n) : n < 10 := by
  unfold digitValue? at h
  split at h
  · rename_i hc
    injection h with h
    have h9 : c.toNat ≤ 57 := hc.2
    have h0 : '0'.toNat = 48 := rfl
    omega
  · contradiction

end TradeTalk.Decimal
