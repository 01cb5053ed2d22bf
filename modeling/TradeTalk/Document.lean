/-!
# `TradeTalk.Document` — documents in JSON notation

A document is made of texts, arrays and objects, and is printed over several lines with two blanks for each level.

## Contents
- **`Document`**: the documents.
- **`Document.escape`**: a character inside a quoted text.
- **`Document.pretty`**: a printed document.
-/

namespace TradeTalk

/-- A document. The fields of an object are in the order in which they are printed. -/
inductive Document where
  | text (s : String)
  | array (items : List Document)
  | object (fields : List (String × Document))
  deriving Repr, Inhabited

namespace Document

/-- A hexadecimal digit in lower case. -/
def hexDigit (n : Nat) : Char :=
  Nat.digitChar (n % 16)

/-- A character inside quotes: quotes and backslashes are escaped, and so are control characters, by a letter where
    they have one. -/
def escape (c : Char) : List Char :=
  match c with
  | '"' => ['\\', '"']
  | '\\' => ['\\', '\\']
  | '\x08' => ['\\', 'b']
  | '\x0c' => ['\\', 'f']
  | '\n' => ['\\', 'n']
  | '\r' => ['\\', 'r']
  | '\t' => ['\\', 't']
  | c => if c.toNat < 0x20 then ['\\', 'u', '0', '0', hexDigit (c.toNat / 16), hexDigit c.toNat] else [c]

/-- A text between quotes. -/
def quoted (s : String) : List Char :=
  '"' :: s.toList.flatMap escape ++ ['"']

/-- The start of a line at some depth. -/
def newLine (depth : Nat) : List Char :=
  '\n' :: List.replicate (2 * depth) ' '

mutual

/-- A document whose first line starts elsewhere and whose other lines stand at least at the given depth. -/
def pretty (depth : Nat) : Document → List Char
  | .text s => quoted s
  | .array [] => ['[', ']']
  | .array (item :: items) => '[' :: prettyItems (depth + 1) (item :: items) ++ newLine depth ++ [']']
  | .object [] => ['{', '}']
  | .object (field :: fields) => '{' :: prettyFields (depth + 1) (field :: fields) ++ newLine depth ++ ['}']

/-- The items of an array, each on a line of its own and a comma between each two. -/
def prettyItems (depth : Nat) : List Document → List Char
  | [] => []
  | [item] => newLine depth ++ pretty depth item
  | item :: items => newLine depth ++ pretty depth item ++ ',' :: prettyItems depth items

/-- The fields of an object, each on a line of its own and a comma between each two. -/
def prettyFields (depth : Nat) : List (String × Document) → List Char
  | [] => []
  | [(name, value)] => newLine depth ++ quoted name ++ ':' :: ' ' :: pretty depth value
  | (name, value) :: fields =>
    newLine depth ++ quoted name ++ ':' :: ' ' :: pretty depth value ++ ',' :: prettyFields depth fields

end

end Document

end TradeTalk
