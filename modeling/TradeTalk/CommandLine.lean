/-!
# `TradeTalk.CommandLine` — the arguments of the program

Arguments are read from the left, and the first that asks for help or the version, or that is a mistake, decides.
Short options may be written together after one dash. After `--` every argument is a plain one. An option is given
at most once where it stands; the one that asks for a log is known before and after the name of the task.

## Contents
- **`Task`**: what the program is to do.
- **`Invocation`**: a task, a request for help or the version, or a misuse.
- **`Invocation.ofArgs`**: what some arguments ask for.
-/

namespace TradeTalk

/-- What the program is to do. -/
inductive Task where
  /-- Answer every line of a file or of the standard input, and perhaps show the facts at the end. -/
  | run (file : Option String) (facts asJson : Bool)
  /-- Hold a dialogue over the standard input. -/
  | talk
  deriving DecidableEq, Repr

/-- What some arguments ask for. -/
inductive Invocation where
  | perform (task : Task)
  | version
  | help
  | misuse
  deriving DecidableEq, Repr

/-- The options. -/
inductive Switch where
  | verbose | version | help | facts | json
  deriving DecidableEq, Repr

namespace Switch

/-- The option with a long name, given after two dashes. -/
def ofLong? : String → Option Switch
  | "verbose" => some .verbose
  | "version" => some .version
  | "help" => some .help
  | "facts" => some .facts
  | "json" => some .json
  | _ => none

/-- The option with a short name. -/
def ofShort? : Char → Option Switch
  | 'v' => some .verbose
  | 'V' => some .version
  | 'h' => some .help
  | 'f' => some .facts
  | _ => none

end Switch

/-- An argument by its form. -/
inductive Argument where
  /-- A word that is no option. -/
  | plain (word : String)
  /-- Two dashes: only plain arguments follow. -/
  | separator
  /-- Options, each by its place among the known ones. -/
  | switches (names : List (Option Switch))
  deriving DecidableEq, Repr

/-- The form of an argument. A dash alone is a plain word. -/
def Argument.ofString (arg : String) : Argument :=
  match arg.toList with
  | ['-', '-'] => .separator
  | '-' :: '-' :: name => .switches [Switch.ofLong? (String.ofList name)]
  | '-' :: c :: cs => .switches ((c :: cs).map Switch.ofShort?)
  | _ => .plain arg

namespace Invocation

/-- Gives some options one after the other, of which `seen` have been given and `known` may be given. The result
    is what has been given by then, unless an option decides the invocation. -/
def give (known seen : List Switch) : List (Option Switch) → Except Invocation (List Switch)
  | [] => .ok seen
  | none :: _ => .error .misuse
  | some s :: rest =>
    if s ∉ known then .error .misuse
    else
      match s with
      | .help => .error .help
      | .version => .error .version
      | s => if s ∈ seen then .error .misuse else give known (s :: seen) rest

/-- A file may be named once, and its name is not empty. -/
def nameFile (file : Option String) (word : String) : Except Invocation (Option String) :=
  if file.isSome ∨ word = "" then .error .misuse else .ok (some word)

/-- The run that some options and a file make up. -/
def run (seen : List Switch) (file : Option String) : Invocation :=
  .perform (.run file (.facts ∈ seen || .json ∈ seen) (.json ∈ seen))

/-- Reads plain arguments of a run. -/
def runPlain (seen : List Switch) (file : Option String) : List String → Invocation
  | [] => run seen file
  | word :: words =>
    match nameFile file word with
    | .ok file => runPlain seen file words
    | .error i => i

/-- Reads the arguments of a run. -/
def runArgs (seen : List Switch) (file : Option String) : List String → Invocation
  | [] => run seen file
  | arg :: args =>
    match Argument.ofString arg with
    | .separator => runPlain seen file args
    | .switches names =>
      match give [.verbose, .help, .facts, .json] seen names with
      | .ok seen => runArgs seen file args
      | .error i => i
    | .plain word =>
      match nameFile file word with
      | .ok file => runArgs seen file args
      | .error i => i

/-- Reads the arguments of a dialogue, which takes options only. -/
def talkArgs (seen : List Switch) : List String → Invocation
  | [] => .perform .talk
  | arg :: args =>
    match Argument.ofString arg with
    | .separator => if args.isEmpty then .perform .talk else .misuse
    | .switches names =>
      match give [.verbose, .help] seen names with
      | .ok seen => talkArgs seen args
      | .error i => i
    | .plain _ => .misuse

/-- Reads what help is asked about: one of the tasks, help itself, or nothing in particular. -/
def helpArgs : List String → Invocation
  | [] => .help
  | [topic] => if topic ∈ ["run", "repl", "help"] then .help else .misuse
  | _ => .misuse

/-- Reads arguments up to the name of a task, and the rest as that task does. -/
def topArgs (seen : List Switch) : List String → Invocation
  | [] => .misuse
  | arg :: args =>
    match Argument.ofString arg with
    | .separator => .misuse
    | .switches names =>
      match give [.verbose, .version, .help] seen names with
      | .ok seen => topArgs seen args
      | .error i => i
    | .plain "run" => runArgs [] none args
    | .plain "repl" => talkArgs [] args
    | .plain "help" => helpArgs args
    | .plain _ => .misuse

/-- What some arguments ask for. -/
def ofArgs (args : List String) : Invocation :=
  topArgs [] args

end Invocation

end TradeTalk
