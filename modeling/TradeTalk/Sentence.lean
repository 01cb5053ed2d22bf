import TradeTalk.Numeral.Digit
import TradeTalk.Phrase

/-!
# `TradeTalk.Sentence` — the four forms of a line

A line is a sentence when it has one of four forms. It is cut into pieces at its spaces, and each form has a rule
of its own that reads the pieces from the left: words are taken as long as the rest does not close the form, and
then the rest has to close it.

```text
glob is I                            a word stands for a digit
glob prok Gold is 57800 Credits      so much of a metal has a price
how much is pish tegj ?              what does a phrase stand for
how many Credits is glob Silver ?    what does so much of a metal cost
```

## Contents
- **`Sentence`**: the forms, with the words of the line.
- **`isGuarded`**: a line that opens like a question, in whatever letter case, states no fact.
- **`digitFact?`**, **`priceFact?`**, **`valueQuestion?`**, **`priceQuestion?`**: the four rules.
- **`Sentence.ofLine?`**: the first rule that reads the whole line.
- **`Sentence.line`**: a sentence written down.
-/

namespace TradeTalk

/-- What a line says, before any name in it is looked up. -/
inductive Sentence where
  /-- Each of some words stands for a Roman digit. -/
  | digitFact (words : Phrase) (digit : Digit)
  /-- So much of a metal as a phrase says costs an amount, here as it is written. -/
  | priceFact (phrase : Phrase) (metal : String) (amount : String)
  /-- What a phrase is worth as a number. -/
  | valueQuestion (phrase : Phrase)
  /-- What so much of a metal as a phrase says costs. -/
  | priceQuestion (phrase : Phrase) (metal : String)
  deriving DecidableEq, Repr, Inhabited

namespace Sentence

/-- A stretch of a line between two spaces. -/
abbrev Piece := List Char

/-! ## Parts of a line -/

/-- The openings of a question, in lower case. -/
def openings : List String :=
  ["how much is ", "how many credits is "]

/-- Whether a line opens like a question, whatever the case of its letters. -/
def isGuarded (line : List Char) : Bool :=
  openings.any fun opening => opening.toList.isPrefixOf (line.map Char.toLower)

/-- Takes words up to the first place where the pieces close the form; a piece before it that is no word ends
    the reading. -/
def takeWords (closes : List Piece → Bool) : List Piece → Option (List Piece × List Piece)
  | [] => some ([], [])
  | p :: ps =>
    -- The closing goes first: its own words are words too.
    if closes (p :: ps) then some ([], p :: ps)
    else if isWord p then (takeWords closes ps).map fun (ws, rest) => (p :: ws, rest)
    else none

/-- The last piece of a question without the question mark that may end it. -/
def dropMark (p : Piece) : Piece :=
  if p.getLast? = some '?' then p.dropLast else p

/-- The pieces of a question without its ending, which is a space, a question mark, both in this order, or
    nothing. -/
def dropEnding : List Piece → List Piece
  | [] => []
  | [p] => if dropMark p = [] then [] else [dropMark p]
  | p :: q :: ps => p :: dropEnding (q :: ps)

/-- Whether some characters write an amount: digits, and perhaps a point and more digits. -/
def isAmount (cs : List Char) : Bool :=
  match cs.dropWhile Char.isDigit with
  | [] => !cs.isEmpty
  | c :: fraction =>
    c == '.' && (cs.head?.any Char.isDigit) && !fraction.isEmpty && fraction.all Char.isDigit

/-! ## The closings of the forms -/

/-- The word that the statement of a fact turns on. -/
def verb : Piece := "is".toList

/-- The pieces start with the verb, and the line goes on after it. -/
def closesDigitFact : List Piece → Bool
  | p :: _ :: _ => p == verb
  | _ => false

/-- The pieces start with a metal and the verb, and the line goes on after them. -/
def closesPriceFact : List Piece → Bool
  | m :: p :: _ :: _ => isMetal m && p == verb
  | _ => false

/-- Nothing but a metal is left. -/
def closesPriceQuestion : List Piece → Bool
  | [m] => isMetal m
  | _ => false

/-! ## The four rules -/

/-- Words in the spelling of the line. -/
def words (ws : List Piece) : Phrase :=
  ws.map String.ofList

/-- Reads `<words> is <digit>`. No word but the first may be the verb. -/
def digitFact? (line : List Char) : Option Sentence :=
  if isGuarded line then none
  else
    match Text.pieces line with
    | [] => none
    | w :: ps =>
      if isWord w then
        match takeWords closesDigitFact ps with
        | some (ws, [_, [c]]) => (Digit.ofChar? c).map fun digit => .digitFact (words (w :: ws)) digit
        | _ => none
      else none

/-- Reads `<words> <Metal> is <amount> Credits`. -/
def priceFact? (line : List Char) : Option Sentence :=
  if isGuarded line then none
  else
    match takeWords closesPriceFact (Text.pieces line) with
    | some (w :: ws, [m, _, amount, unit]) =>
      if isAmount amount ∧ unit = "Credits".toList then
        some (.priceFact (words (w :: ws)) (String.ofList m) (String.ofList amount))
      else none
    | _ => none

/-- Reads `how much is <words>` and an ending. -/
def valueQuestion? (line : List Char) : Option Sentence :=
  match Text.pieces line with
  | how :: much :: is :: ps =>
    if how = "how".toList ∧ much = "much".toList ∧ is = verb then
      match takeWords (fun _ => false) (dropEnding ps) with
      | some (w :: ws, []) => some (.valueQuestion (words (w :: ws)))
      | _ => none
    else none
  | _ => none

/-- Reads `how many Credits is <words> <Metal>` and an ending. -/
def priceQuestion? (line : List Char) : Option Sentence :=
  match Text.pieces line with
  | how :: many :: credits :: is :: ps =>
    if how = "how".toList ∧ many = "many".toList ∧ credits = "Credits".toList ∧ is = verb then
      match takeWords closesPriceQuestion (dropEnding ps) with
      | some (w :: ws, [m]) => some (.priceQuestion (words (w :: ws)) (String.ofList m))
      | _ => none
    else none
  | _ => none

/-- The rules in the order in which they are tried. -/
def rules : List (List Char → Option Sentence) :=
  [digitFact?, priceFact?, valueQuestion?, priceQuestion?]

/-- The sentence that a line is, by the first rule that reads it. -/
def ofLine? (line : String) : Option Sentence :=
  rules.findSome? fun rule => rule line.toList

/-! ## Sentences written down -/

/-- A line that says a sentence. Questions end with a space and a question mark. -/
def line : Sentence → String
  | .digitFact ws digit => Phrase.text ws ++ " is " ++ String.singleton digit.letter
  | .priceFact ws metal amount => Phrase.text ws ++ " " ++ metal ++ " is " ++ amount ++ " Credits"
  | .valueQuestion ws => "how much is " ++ Phrase.text ws ++ " ?"
  | .priceQuestion ws metal => "how many Credits is " ++ Phrase.text ws ++ " " ++ metal ++ " ?"

end Sentence

end TradeTalk
