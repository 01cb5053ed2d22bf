import TradeTalk.Fault
import TradeTalk.Numeral.Digit
import TradeTalk.Numeral.Pattern
import TradeTalk.Text.Blank

/-!
# `TradeTalk.Numeral` — Roman numerals, read and written

A numeral is a sequence of Roman digits. Reading one takes two steps: `Numeral.shape` says which sequences are well
formed, and `Numeral.consume` takes the thirteen groups of `Numeral.groups` off the front, the largest first, and
adds up their values. Writing a number goes down the same groups.

## Contents
- **`Numeral.shape`**: thousands, hundreds, tens and units, each in one of its ten spellings.
- **`Numeral.value?`**: the value of a well-formed sequence of digits.
- **`Numeral.ofNat?`**: the shortest numeral of a number between 1 and 3999, and `Numeral.write?`, its text.
- **`Numeral.read`**: the value of a text; blanks around it and the case of its letters do not matter.
-/

namespace TradeTalk

/-- A numeral as the sequence of its digits. -/
abbrev Numeral := List Digit

/-- Digits that stand for one value together: a digit alone, or a smaller one taken off a larger. -/
structure DigitGroup where
  digits : List Digit
  value : Nat
  deriving DecidableEq, Repr

namespace Numeral

open Digit (one five ten fifty hundred fiveHundred thousand)

/-- The largest number that has a numeral. -/
def largest : Nat := 3999

/-- The text of a numeral, in capital letters. -/
def text (ds : Numeral) : String :=
  String.ofList (ds.map Digit.letter)

/-! ## Well-formed numerals -/

/-- The spellings of one decimal place, from nothing to nine, given the digits for one of it, for five, and for
    one of the next place. -/
def place (unit half next : Digit) : Pattern Digit :=
  .orElse (.text [unit, next]) <| .orElse (.text [unit, half]) <|
    .andThen (.upTo 1 (.symbol half)) (.upTo 3 (.symbol unit))

/-- The well-formed numerals: at most three thousands, and then a spelling of each lower place. -/
def shape : Pattern Digit :=
  .andThen (.upTo 3 (.symbol thousand)) <| .andThen (place hundred fiveHundred thousand) <|
    .andThen (place ten fifty hundred) (place one five ten)

/-! ## Values -/

/-- The groups that numerals are made of, in descending order of their values. -/
def groups : List DigitGroup :=
  [⟨[thousand], 1000⟩, ⟨[hundred, thousand], 900⟩, ⟨[fiveHundred], 500⟩, ⟨[hundred, fiveHundred], 400⟩,
   ⟨[hundred], 100⟩, ⟨[ten, hundred], 90⟩, ⟨[fifty], 50⟩, ⟨[ten, fifty], 40⟩,
   ⟨[ten], 10⟩, ⟨[one, ten], 9⟩, ⟨[five], 5⟩, ⟨[one, five], 4⟩, ⟨[one], 1⟩]

/-- Takes some digits off the front of a numeral as often as they stand there: how often, and what is left. -/
def strip (front : List Digit) (ds : Numeral) : Nat × Numeral :=
  match front.isPrefixOf? ds with
  | some rest =>
    -- Nothing stands at the front of every numeral, and is not taken off it.
    if rest.length < ds.length then
      let (times, left) := strip front rest
      (times + 1, left)
    else (0, ds)
  | none => (0, ds)
  termination_by ds.length

/-- Takes each group in turn off the front of a numeral: the sum of the values taken, and what is left. -/
def consume : List DigitGroup → Numeral → Nat × Numeral
  | [], ds => (0, ds)
  | g :: gs, ds =>
    let (times, rest) := strip g.digits ds
    let (n, left) := consume gs rest
    (times * g.value + n, left)

/-- The value of a well-formed numeral. -/
def value? (ds : Numeral) : Option Nat :=
  if shape.admits ds then
    match consume groups ds with
    | (n, []) => some n
    | (_, _ :: _) => none
  else none

/-- A number in the given groups, as many of each as fit before the next. -/
def spell : List DigitGroup → Nat → Numeral
  | [], _ => []
  | g :: gs, n => (List.replicate (n / g.value) g.digits).flatten ++ spell gs (n % g.value)

/-- The numeral of a number between 1 and 3999. -/
def ofNat? (n : Nat) : Option Numeral :=
  if 0 < n ∧ n ≤ largest then some (spell groups n) else none

/-- The numeral of a number as text. -/
def write? (n : Nat) : Option String :=
  (ofNat? n).map text

/-! ## Texts -/

/-- The numeral that a text spells in letters of either case. -/
def ofChars? (cs : List Char) : Option Numeral :=
  cs.mapM Digit.ofChar?

/-- The value of a text: 0 for a blank one, that of the numeral between its blanks otherwise. -/
def read (s : String) : Except Fault Nat :=
  match Text.trim s.toList with
  | [] => .ok 0
  | cs =>
    match (ofChars? cs).bind value? with
    | some n => .ok n
    | none => .error (.notANumeral s)

/-! ## Small laws -/

@[simp] theorem text_nil : text [] = "" := rfl

@[simp] theorem toList_text (ds : Numeral) : (text ds).toList = ds.map Digit.letter := by
  simp [text]

/-- Reading back the letters of a numeral. -/
theorem ofChars?_letters (ds : Numeral) : ofChars? (ds.map Digit.letter) = some ds := by
  induction ds with
  | nil => rfl
  | cons a ds ih =>
    simp only [ofChars?] at ih
    simp [ofChars?, List.mapM_cons, ih]

/-- A digit is no blank. -/
theorem isBlank_letter (a : Digit) : Text.isBlank a.letter = false := by
  cases a <;> rfl

end Numeral

end TradeTalk
