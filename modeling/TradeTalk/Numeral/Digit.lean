/-!
# `TradeTalk.Numeral.Digit` — the seven Roman digits

## Contents
- **`Digit`**: the digits, each with its `letter` and its `value`.
- **`Digit.ofChar?`**: the digit a letter of either case stands for.
-/

namespace TradeTalk

/-- A Roman digit. -/
inductive Digit where
  | one | five | ten | fifty | hundred | fiveHundred | thousand
  deriving DecidableEq, Repr, Inhabited

namespace Digit

/-- The capital letter that a digit is written with. -/
def letter : Digit → Char
  | .one => 'I'
  | .five => 'V'
  | .ten => 'X'
  | .fifty => 'L'
  | .hundred => 'C'
  | .fiveHundred => 'D'
  | .thousand => 'M'

/-- What a digit counts for on its own. -/
def value : Digit → Nat
  | .one => 1
  | .five => 5
  | .ten => 10
  | .fifty => 50
  | .hundred => 100
  | .fiveHundred => 500
  | .thousand => 1000

/-- The digit written with a letter, in either case of the ASCII letters. -/
def ofChar? (c : Char) : Option Digit :=
  match c.toUpper with
  | 'I' => some .one
  | 'V' => some .five
  | 'X' => some .ten
  | 'L' => some .fifty
  | 'C' => some .hundred
  | 'D' => some .fiveHundred
  | 'M' => some .thousand
  | _ => none

/-- Whether a character is a Roman digit in either case. -/
def isDigit (c : Char) : Bool :=
  (ofChar? c).isSome

/-! ## Small laws -/

@[simp] theorem ofChar?_letter (a : Digit) : ofChar? a.letter = some a := by
  cases a <;> rfl

/-- The letter of a digit is the upper case of whatever it was read from. -/
theorem letter_of_ofChar? {c : Char} {a : Digit} (h : ofChar? c = some a) : a.letter = c.toUpper := by
  unfold ofChar? at h
  split at h <;> simp_all [letter] <;> subst h <;> rfl

theorem ofChar?_eq_some_iff {c : Char} {a : Digit} : ofChar? c = some a ↔ c.toUpper = a.letter := by
  constructor
  · intro h
    exact (letter_of_ofChar? h).symm
  · intro h
    unfold ofChar?
    rw [h]
    cases a <;> rfl

theorem value_pos (a : Digit) : 0 < a.value := by
  cases a <;> decide

end Digit

end TradeTalk
