/-!
# `TradeTalk.Json.Token` — JSON notation cut into tokens

A token is a mark, a quoted text, or a bare word, which is a number or one of three names. The scanner takes one
character after another and remembers only where it is. Inside quotes it collects codes and not characters, since a
character beyond the first 65536 may be written as two codes.

## Contents
- **`Token`**: the tokens.
- **`mark?`**, **`isSpace`**, **`unescape?`**, **`hexValue?`**: the characters with a meaning of their own.
- **`ofCodes?`**: the characters that some codes stand for.
- **`Place`**, **`scan`**: the scanner.
-/

namespace TradeTalk.Json

/-- A token. -/
inductive Token where
  | openArray | closeArray | openObject | closeObject | colon | comma
  /-- A text between quotes, as it is meant. -/
  | text (s : String)
  /-- Characters without quotes, up to the next mark or space. -/
  | bare (cs : List Char)
  deriving DecidableEq, Repr

namespace Token

/-! ## Characters -/

/-- The mark that a character is. -/
def mark? : Char → Option Token
  | '[' => some openArray
  | ']' => some closeArray
  | '{' => some openObject
  | '}' => some closeObject
  | ':' => some colon
  | ',' => some comma
  | _ => none

/-- Whether a character may stand between tokens. -/
def isSpace (c : Char) : Bool :=
  c == ' ' || c == '\t' || c == '\n' || c == '\r'

/-- The character that a letter behind a backslash stands for. -/
def unescape? : Char → Option Char
  | '"' => some '"'
  | '\\' => some '\\'
  | '/' => some '/'
  | 'b' => some '\x08'
  | 'f' => some '\x0c'
  | 'n' => some '\n'
  | 'r' => some '\r'
  | 't' => some '\t'
  | _ => none

/-- The value of a hexadecimal digit, in either case. -/
def hexValue? (c : Char) : Option Nat :=
  if '0' ≤ c ∧ c ≤ '9' then some (c.toNat - '0'.toNat)
  else if 'a' ≤ c ∧ c ≤ 'f' then some (c.toNat - 'a'.toNat + 10)
  else if 'A' ≤ c ∧ c ≤ 'F' then some (c.toNat - 'A'.toNat + 10)
  else none

/-! ## Codes -/

/-- Whether a code is the first half of a character. -/
def isLead (code : Nat) : Bool :=
  decide (0xD800 ≤ code) && decide (code < 0xDC00)

/-- Whether a code is the second half of a character. -/
def isTrail (code : Nat) : Bool :=
  decide (0xDC00 ≤ code) && decide (code < 0xE000)

/-- The characters that some codes stand for. No half may be without the other. -/
def ofCodes? : List Nat → Option (List Char)
  | [] => some []
  | [code] => if isLead code || isTrail code then none else some [Char.ofNat code]
  | code :: next :: codes =>
    if isLead code then
      if isTrail next then
        (ofCodes? codes).map (Char.ofNat (0x10000 + (code - 0xD800) * 0x400 + (next - 0xDC00)) :: ·)
      else none
    else if isTrail code then none
    else (ofCodes? (next :: codes)).map (Char.ofNat code :: ·)

/-! ## The scanner -/

/-- Where the scanner is. What it has read of a token stands there in reverse. -/
inductive Place where
  | between
  | inBare (read : List Char)
  | inText (codes : List Nat)
  /-- Behind a backslash. -/
  | inEscape (codes : List Nat)
  /-- In a code of four digits, of which `more` are still to come after the next. -/
  | inCode (codes : List Nat) (more code : Nat)
  deriving DecidableEq, Repr

/-- The tokens of what follows a place. -/
def scan : Place → List Char → Option (List Token)
  | .between, [] => some []
  | .inBare read, [] => some [.bare read.reverse]
  | _, [] => none
  | .between, c :: cs =>
    if isSpace c then scan .between cs
    else
      match mark? c with
      | some t => (scan .between cs).map (t :: ·)
      | none => if c = '"' then scan (.inText []) cs else scan (.inBare [c]) cs
  | .inBare read, c :: cs =>
    if isSpace c then (scan .between cs).map (.bare read.reverse :: ·)
    else
      match mark? c with
      | some t => (scan .between cs).map fun ts => .bare read.reverse :: t :: ts
      | none => if c = '"' then none else scan (.inBare (c :: read)) cs
  | .inText codes, c :: cs =>
    if c = '"' then
      match ofCodes? codes.reverse with
      | some s => (scan .between cs).map (.text (String.ofList s) :: ·)
      | none => none
    else if c = '\\' then scan (.inEscape codes) cs
    -- A control character has to be escaped.
    else if c.toNat < 0x20 then none
    else scan (.inText (c.toNat :: codes)) cs
  | .inEscape codes, c :: cs =>
    if c = 'u' then scan (.inCode codes 3 0) cs
    else
      match unescape? c with
      | some meant => scan (.inText (meant.toNat :: codes)) cs
      | none => none
  | .inCode codes more code, c :: cs =>
    match hexValue? c, more with
    | none, _ => none
    | some digit, 0 => scan (.inText ((16 * code + digit) :: codes)) cs
    | some digit, more + 1 => scan (.inCode codes more (16 * code + digit)) cs

end Token

end TradeTalk.Json
