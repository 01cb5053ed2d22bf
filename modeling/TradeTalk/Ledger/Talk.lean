import TradeTalk.Answer
import TradeTalk.Ledger
import TradeTalk.Request

/-!
# `TradeTalk.Ledger.Talk` — telling a ledger and asking it

Each line that a ledger is told is answered before the next, and only a recorded fact changes the ledger. That
nothing is known about a name is an answer; a fault is left for numerals that are none.

## Contents
- **`Ledger.interpret`**, **`Ledger.price`**: the two kinds of question.
- **`Ledger.accepts`**: whether a quote may be recorded.
- **`Ledger.respond`**: the answer to a request, and the ledger after it.
- **`Ledger.tell`**: the same for a line; **`Ledger.tellAll`** for line after line.
-/

namespace TradeTalk

namespace Ledger

/-- What a phrase is worth. -/
def interpret (l : Ledger) (phrase : Phrase) : Except Fault Answer :=
  match l.worth phrase with
  | .error f => .error f
  | .ok value => .ok (.number phrase.text value)

/-- What so much of a metal costs. A fault of the question's phrase goes before one of the metal. -/
def price (l : Ledger) (phrase : Phrase) (metal : String) : Except Fault Answer :=
  match l.worth phrase with
  | .error f => .error f
  | .ok quantity =>
    match l.unitPrice metal with
    | .error f => .error f
    | .ok unit =>
      match unit.times? quantity with
      | some cost => .ok (.price phrase.text metal cost)
      | none => .error .outOfRange

/-- Whether a quote with this phrase may be recorded: once all its words are known it has to spell a numeral. -/
def accepts (l : Ledger) (phrase : Phrase) : Except Fault Unit :=
  if l.knowsAll phrase then
    match l.worth phrase with
    | .error f => .error f
    | .ok _ => .ok ()
  else .ok ()

/-- A name nothing is known about is an answer and no fault. -/
def settle : Except Fault Answer → Except Fault Answer
  | .error (.unknownName name) => .ok (.unknownName name)
  | outcome => outcome

/-- The answer to a request, and the ledger after it. -/
def respond (l : Ledger) : Request → Except Fault Answer × Ledger
  | .digitFact words digit => (.ok .noted, l.assignAll words digit)
  | .priceFact phrase metal amount =>
    -- A quote with unknown words is accepted as it stands: its phrase is valued when the metal is priced.
    match l.accepts phrase with
    | .error f => (settle (.error f), l)
    | .ok () => (.ok .noted, l.record metal ⟨phrase, amount⟩)
  | .valueQuestion phrase => (settle (l.interpret phrase), l)
  | .priceQuestion phrase metal => (settle (l.price phrase metal), l)
  | .unknown _ => (.ok .notUnderstood, l)

/-- Whether a character ends a line. -/
def isLineEnd (c : Char) : Bool :=
  c == '\r' || c == '\n'

/-- A line without the line ends that it closes with. -/
def dropLineEnds (line : String) : String :=
  String.ofList (line.toList.reverse.dropWhile isLineEnd).reverse

/-- The answer to a line, and the ledger after it. -/
def tell (l : Ledger) (line : String) : Except Fault Answer × Ledger :=
  l.respond (Request.ofLine (dropLineEnds line))

/-- The answers to some lines, each told after the one before it, and the ledger after all of them. -/
def tellAll (l : Ledger) : List String → List (Except Fault Answer) × Ledger
  | [] => ([], l)
  | line :: lines =>
    let (answer, l) := l.tell line
    let (answers, l) := l.tellAll lines
    (answer :: answers, l)

/-! ## Small laws -/

@[simp] theorem tellAll_nil (l : Ledger) : l.tellAll [] = ([], l) := rfl

theorem tellAll_append (l : Ledger) (lines more : List String) :
    l.tellAll (lines ++ more) =
      ((l.tellAll lines).1 ++ ((l.tellAll lines).2.tellAll more).1, ((l.tellAll lines).2.tellAll more).2) := by
  induction lines generalizing l with
  | nil => rfl
  | cons line lines ih => simp [tellAll, ih]

end Ledger

end TradeTalk
