import TradeTalk.Program

/-!
# `TradeTalk.Main` — the command line

The outer layer: it reads the standard input and the file that is named, and prints what the program has to say.
-/

open TradeTalk

/-- Whether a code is that of an error with some number; some layers report the number below zero. -/
def hasNumber (code number : UInt32) : Bool :=
  code == number || code == 0 - number

/-- A file on disk as a source. -/
def fetch (name : String) : IO Source := do
  try
    return .contents (← IO.FS.readBinFile name).toList
  catch
    | .noFileOrDirectory .. => return .missing
    | .inappropriateType _ code _ => return if hasNumber code 20 then .notAFolder else .folder
    | e@(.invalidArgument _ code _) => return if hasNumber code 36 then .nameTooLong else .closed (toString e)
    | e => return .closed (toString e)

/-- Everything on the standard input. -/
def readAll : IO (List UInt8) := do
  return (← (← IO.getStdin).readBinToEnd).toList

def main (args : List String) : IO UInt32 := do
  let invocation := Invocation.ofArgs args
  let outcome ← match invocation with
    | .perform (.run (some name) facts asJson) =>
      let source ← fetch name
      pure ((Task.run (some name) facts asJson).perform [] fun _ => source)
    | .perform task => pure (task.perform (← readAll) fun _ => .missing)
    | other => pure (other.outcome [] fun _ => .missing)
  let stdout ← IO.getStdout
  stdout.putStr outcome.output
  stdout.flush
  let stderr ← IO.getStderr
  for e in outcome.errors do
    stderr.putStrLn ("Error: " ++ e)
  if outcome.exit = misuseExit then
    stderr.putStr usage
  return outcome.exit.toUInt32
