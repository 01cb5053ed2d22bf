import TradeTalk.CommandLine
import TradeTalk.Dialogue
import TradeTalk.Files

/-!
# `TradeTalk.Program` — the program as a function

What the program prints and how it exits depends on its arguments, its standard input and the file that it is asked
to read. Here it is a function of these three; the outer layer only fetches and prints.

## Contents
- **`Outcome`**: exit code, output, and the errors reported.
- **`Task.perform`**: a task on a source.
- **`Program.outcome`**: the whole program.
-/

namespace TradeTalk

/-- What the program leaves behind: an exit code, what it has printed, and the errors it has reported. -/
structure Outcome where
  exit : Nat
  output : String := ""
  errors : List String := []
  deriving DecidableEq, Repr

/-- The name and the number of the program. -/
def nameAndVersion : String := "merchant 0.1.0"

/-- The exit code for arguments that cannot be understood. -/
def misuseExit : Nat := 2

namespace Transcript

/-- What a run leaves behind. The facts are shown only if it was not stopped. -/
def outcome (t : Transcript) (facts asJson : Bool) : Outcome :=
  match t.stop with
  | some stop => { exit := 1, output := t.text, errors := [stop.message] }
  | none =>
    { exit := 0, output := if facts then t.text ++ t.ledger.overview.display asJson else t.text }

end Transcript

namespace Dialogue

/-- What a dialogue leaves behind. Faults do not make it fail, but bytes that are no text do. -/
def outcome (d : Dialogue) : Outcome :=
  let faults := d.faults.toList.map Fault.message
  match d.farewell with
  | some .unreadable => { exit := 1, output := d.text, errors := faults ++ [unreadableMessage] }
  | some .quit | none => { exit := 0, output := d.text, errors := faults }

end Dialogue

namespace Task

/-- Performs a task, given the standard input and what the names of files stand for. -/
def perform (stdin : List UInt8) (files : String → Source) : Task → Outcome
  | .run none facts asJson => (Transcript.ofInput .empty stdin).outcome facts asJson
  | .run (some name) facts asJson =>
    match files name with
    | .closed reason => { exit := 1, errors := ["Failed to open " ++ name ++ ": " ++ reason] }
    | .unreadable reason => { exit := 1, errors := ["Failed to read input: " ++ reason] }
    | .contents bytes => (Transcript.ofInput .empty bytes).outcome facts asJson
  | .talk => (Dialogue.ofInput .empty stdin).outcome

end Task

/-- How the program is used, in brief. -/
def usage : String :=
  "Learns what alien words mean in Roman numerals and what metals sell for,\n" ++
  "then answers questions about both.\n\n" ++
  "Usage: merchant [-v] run [FILE] [-f] [--json]\n" ++
  "       merchant [-v] repl\n" ++
  "       merchant help\n" ++
  "       merchant --version\n"

/-- What an invocation leaves behind. -/
def Invocation.outcome (stdin : List UInt8) (files : String → Source) : Invocation → Outcome
  | .perform task => task.perform stdin files
  | .version => { exit := 0, output := nameAndVersion ++ "\n" }
  | .help => { exit := 0, output := usage }
  | .misuse => { exit := misuseExit }

/-- What the program leaves behind. -/
def Program.outcome (args : List String) (stdin : List UInt8) (files : String → Source) : Outcome :=
  (Invocation.ofArgs args).outcome stdin files

end TradeTalk
