import TradeTalk.Overview.Display
import TradeTalk.Transcript

/-!
# `TradeTalk.Dialogue` — a conversation that outlives its faults

In a dialogue the lines of an input are answered as they come. A line with a fault is reported and the dialogue goes
on. Two lines are commands to the dialogue itself: one shows what has been learned, one ends it.

## Contents
- **`Command`**: the lines that are not told to the ledger.
- **`Dialogue`**: how far an input has been answered, and the ledger by then.
- **`Dialogue.next`**: one more line; **`Dialogue.ofInput`**: all lines of an input.
-/

namespace TradeTalk

/-- A line that is meant for the dialogue and not for the ledger. -/
inductive Command where
  /-- A blank line, which is passed over. -/
  | pass
  /-- The facts are to be shown. -/
  | showFacts
  /-- The dialogue is to end. -/
  | quit
  deriving DecidableEq, Repr

/-- The command that a line gives, whatever blanks stand around it. -/
def Command.ofLine? (line : String) : Option Command :=
  match String.ofList (Text.trim line.toList) with
  | "" => some .pass
  | ":facts" => some .showFacts
  | ":quit" => some .quit
  | _ => none

/-- Why a dialogue takes no more lines. -/
inductive Farewell where
  | quit
  /-- A line was not UTF-8. -/
  | unreadable
  deriving DecidableEq, Repr

/-- An input as far as it has been answered. -/
structure Dialogue where
  /-- What the ledger has learned. -/
  ledger : Ledger
  /-- The texts printed, each with its line ends. -/
  printed : Array String := #[]
  /-- The faults reported. -/
  faults : Array Fault := #[]
  /-- Why it takes no more lines, if it does not. -/
  farewell : Option Farewell := none

namespace Dialogue

/-- Answers a line that is text. -/
def nextText (d : Dialogue) (line : String) : Dialogue :=
  match Command.ofLine? line with
  | some .pass => d
  | some .quit => { d with farewell := some .quit }
  | some .showFacts => { d with printed := d.printed.push d.ledger.overview.tables }
  | none =>
    match d.ledger.tell line with
    | (.ok answer, ledger) =>
      { d with ledger, printed := if answer.text = "" then d.printed else d.printed.push (answer.text ++ "\n") }
    | (.error fault, ledger) => { d with ledger, faults := d.faults.push fault }

/-- Answers one more line, unless the dialogue is over. -/
def next (d : Dialogue) (raw : Text.RawLine) : Dialogue :=
  if d.farewell.isSome then d
  else
    match raw.text? with
    | none => { d with farewell := some .unreadable }
    | some text => d.nextText (Ledger.dropLineEnds text)

/-- The dialogue over an input, told to a ledger. -/
def ofInput (ledger : Ledger) (bytes : List UInt8) : Dialogue :=
  (Text.rawLines bytes).foldl next { ledger }

/-- What a dialogue prints. -/
def text (d : Dialogue) : String :=
  String.join d.printed.toList

/-! ## Small laws -/

@[simp] theorem ofInput_nil (ledger : Ledger) : ofInput ledger [] = { ledger } := rfl

theorem next_of_farewell {d : Dialogue} {f : Farewell} (h : d.farewell = some f) (raw : Text.RawLine) :
    d.next raw = d := by
  simp [next, h]

theorem foldl_next_of_farewell {d : Dialogue} {f : Farewell} (h : d.farewell = some f)
    (raws : List Text.RawLine) : raws.foldl next d = d := by
  induction raws with
  | nil => rfl
  | cons raw raws ih => rw [List.foldl_cons, next_of_farewell h, ih]

end Dialogue

end TradeTalk
