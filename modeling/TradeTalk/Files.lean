/-!
# `TradeTalk.Files` — what names of files lead to

A name is a path: steps with slashes between them, taken one after the other, from the root if it starts with a slash
and else from the folder one is in. The first step that cannot be taken decides what is wrong with a name.

## Contents
- **`Source`**: a file, as opening and reading it turns out.
- **`FileTree`**: folders and files by their paths.
- **`FileTree.follow`**: some steps, taken one after the other.
- **`FileTree.source`**: what a name leads to.
-/

namespace TradeTalk

/-- A file, as far as it can be read. -/
inductive Source where
  /-- It cannot be opened, for the reason given. -/
  | closed (reason : String)
  /-- It can be opened but not read, for the reason given. -/
  | unreadable (reason : String)
  | contents (bytes : List UInt8)
  deriving DecidableEq, Repr

namespace Source

/-- No file has the name. -/
def missing : Source := .closed "No such file or directory (os error 2)"

/-- The name goes on after that of a file. -/
def notAFolder : Source := .closed "Not a directory (os error 20)"

/-- The name is that of a folder. -/
def folder : Source := .unreadable "Is a directory (os error 21)"

/-- No file can have a name of that length. -/
def nameTooLong : Source := .closed "File name too long (os error 36)"

end Source

/-- What there can be at a path. -/
inductive Place where
  | folder
  | file (bytes : List UInt8)
  deriving DecidableEq, Repr

/-- Folders and files, each with the steps that lead to it from the root. -/
structure FileTree where
  places : List (List String × Place)
  /-- The folder that a name without a slash in front starts from. -/
  here : List String

namespace FileTree

/-- How many bytes one step may have. -/
def longestStep : Nat := 255

/-- How many bytes a whole name may have. -/
def longestName : Nat := 4095

/-- What is at a path. -/
def place? (t : FileTree) (path : List String) : Option Place :=
  t.places.lookup path

/-- Takes some steps, starting from a path. Empty steps and those of a single dot lead nowhere, and two dots lead out
    of a folder; the root has nothing outside it. -/
def follow (t : FileTree) (path : List String) : List String → Source
  | [] =>
    match t.place? path with
    | none => .missing
    | some .folder => .folder
    | some (.file bytes) => .contents bytes
  | step :: steps =>
    match t.place? path with
    | none => .missing
    | some (.file _) => .notAFolder
    | some .folder =>
      if step = "" ∨ step = "." then follow t path steps
      else if step = ".." then follow t path.dropLast steps
      else if longestStep < step.utf8ByteSize then .nameTooLong
      else follow t (path ++ [step]) steps

/-- What a name leads to. -/
def source (t : FileTree) (name : String) : Source :=
  if name = "" then .missing
  else if longestName < name.utf8ByteSize then .nameTooLong
  else t.follow (if "/".isPrefixOf name then [] else t.here) (name.splitOn "/")

end FileTree

end TradeTalk
