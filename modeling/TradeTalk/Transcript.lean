import TradeTalk.Ledger.Talk
import TradeTalk.Text.Blank
import TradeTalk.Text.Lines

/-!
# `TradeTalk.Transcript` — a whole input, answered line by line

The lines of an input are told to a ledger one after the other, and each answer that says something is printed.
Blank lines are passed over, but they count where lines are numbered. The first line that has a fault, or cannot be
read, stops the transcript.

## Contents
- **`Stop`**: why a transcript ends before its input does; **`Stop.message`** is the wording.
- **`Transcript`**: how far an input has been answered, and the ledger by then.
- **`Transcript.next`**: one more line; **`Transcript.ofInput`**: all lines of an input.
-/

namespace TradeTalk

/-- Why an input was not answered to its end. -/
inductive Stop where
  /-- A line that is not UTF-8. -/
  | unreadable
  /-- A line with a fault, with its number, counted from one. -/
  | rejected (number : Nat) (line : String) (fault : Fault)
  deriving DecidableEq, Repr

/-- What is said about bytes that are not UTF-8. -/
def unreadableMessage : String :=
  "Failed to read input: stream did not contain valid UTF-8"

/-- The wording of a stop. -/
def Stop.message : Stop → String
  | .unreadable => unreadableMessage
  | .rejected number line fault => "line " ++ toString number ++ ": " ++ line ++ ": " ++ fault.message

/-- An input as far as it has been answered. -/
structure Transcript where
  /-- What the ledger has learned. -/
  ledger : Ledger
  /-- How many lines have been read, blank ones included. -/
  lines : Nat := 0
  /-- How many lines have been answered, facts included. -/
  answered : Nat := 0
  /-- The answers that say something, in order. -/
  printed : Array String := #[]
  /-- Why it ended early, if it did. -/
  stop : Option Stop := none

namespace Transcript

/-- A line without the carriage return that stands before its newline. -/
def dropReturn (raw : Text.RawLine) (text : String) : String :=
  if raw.ended ∧ text.toList.getLast? = some '\r' then String.ofList text.toList.dropLast else text

/-- The transcript with one more answer. -/
def withAnswer (t : Transcript) (answer : Answer) : Transcript :=
  { t with
    answered := t.answered + 1
    printed := if answer.text = "" then t.printed else t.printed.push answer.text }

/-- Answers a line that is text. -/
def nextText (t : Transcript) (line : String) : Transcript :=
  let t := { t with lines := t.lines + 1 }
  -- A blank line has been counted by now, but is not told to the ledger.
  if Text.allBlank line.toList then t
  else
    match t.ledger.tell line with
    | (.ok answer, ledger) => { t with ledger }.withAnswer answer
    | (.error fault, ledger) => { t with ledger, stop := some (.rejected t.lines line fault) }

/-- Answers one more line, unless the transcript has stopped. -/
def next (t : Transcript) (raw : Text.RawLine) : Transcript :=
  if t.stop.isSome then t
  else
    match raw.text? with
    | none => { t with stop := some .unreadable }
    | some text => t.nextText (dropReturn raw text)

/-- The transcript of an input, told to a ledger. -/
def ofInput (ledger : Ledger) (bytes : List UInt8) : Transcript :=
  (Text.rawLines bytes).foldl next { ledger }

/-- What a transcript prints, each answer on a line of its own. -/
def text (t : Transcript) : String :=
  String.join (t.printed.toList.map (· ++ "\n"))

/-! ## Small laws -/

@[simp] theorem ofInput_nil (ledger : Ledger) : ofInput ledger [] = { ledger } := rfl

theorem next_of_stop {t : Transcript} {s : Stop} (h : t.stop = some s) (raw : Text.RawLine) : t.next raw = t := by
  simp [next, h]

theorem foldl_next_of_stop {t : Transcript} {s : Stop} (h : t.stop = some s) (raws : List Text.RawLine) :
    raws.foldl next t = t := by
  induction raws with
  | nil => rfl
  | cons raw raws ih => rw [List.foldl_cons, next_of_stop h, ih]

end Transcript

end TradeTalk
