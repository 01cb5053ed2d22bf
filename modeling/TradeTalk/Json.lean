import TradeTalk.Json.Token

/-!
# `TradeTalk.Json` — JSON notation, read

A value is null, a truth value, a number, a text, an array of values, or an object with named fields. The reader takes
one token after another. It keeps the containers that are still open, the innermost first, and what may come next.

## Contents
- **`Json`**: the values; **`Json.field?`**: a field of an object.
- **`Json.ofBare?`**: what a bare word stands for; **`Json.isNumber`**: the notation of numbers.
- **`Json.Frame`**, **`Json.State`**, **`Json.State.next`**, **`Json.State.run`**: the reader.
- **`Json.read?`**: the value that a text writes.
-/

namespace TradeTalk

/-- A value in JSON notation. A number is kept as it is written. -/
inductive Json where
  | null
  | bool (b : Bool)
  | number (digits : String)
  | text (s : String)
  | array (items : List Json)
  | object (fields : List (String × Json))
  deriving Repr, Inhabited

namespace Json

/-- A field of an object; the first, if there are two of the name. -/
def field? (name : String) : Json → Option Json
  | object fields => fields.lookup name
  | _ => none

/-! ## Bare words -/

/-- What follows some digits, of which there is at least one. -/
def afterDigits? (cs : List Char) : Option (List Char) :=
  if cs.head?.any Char.isDigit then some (cs.dropWhile Char.isDigit) else none

/-- What follows a whole number. No zero stands before another digit. -/
def afterWhole? : List Char → Option (List Char)
  | '-' :: '0' :: cs | '0' :: cs => some cs
  | '-' :: cs | cs => afterDigits? cs

/-- What follows a fraction, which there need not be. -/
def afterFraction? : List Char → Option (List Char)
  | '.' :: cs => afterDigits? cs
  | cs => some cs

/-- What follows an exponent, which there need not be. -/
def afterExponent? : List Char → Option (List Char)
  | 'e' :: '+' :: cs | 'e' :: '-' :: cs | 'E' :: '+' :: cs | 'E' :: '-' :: cs => afterDigits? cs
  | 'e' :: cs | 'E' :: cs => afterDigits? cs
  | cs => some cs

/-- Whether some characters write a number. -/
def isNumber (cs : List Char) : Bool :=
  ((afterWhole? cs).bind afterFraction?).bind afterExponent? == some []

/-- The value of a bare word. -/
def ofBare? (cs : List Char) : Option Json :=
  if cs = "null".toList then some .null
  else if cs = "true".toList then some (.bool true)
  else if cs = "false".toList then some (.bool false)
  else if isNumber cs then some (.number (String.ofList cs))
  else none

/-! ## The reader -/

/-- A container that is still open, with what has been read of it, in reverse. -/
inductive Frame where
  | array (items : List Json)
  /-- The value of the named field is still to come. -/
  | object (fields : List (String × Json)) (name : String)

/-- What may come next, in which containers. -/
inductive State where
  | value (around : List Frame)
  /-- An array has just been opened. -/
  | item (around : List Frame)
  /-- An object has just been opened. -/
  | field (around : List Frame)
  /-- The name of one more field. -/
  | name (fields : List (String × Json)) (around : List Frame)
  | colon (fields : List (String × Json)) (name : String) (around : List Frame)
  /-- A value has been read. -/
  | done (v : Json) (around : List Frame)

namespace State

/-- The first token of a value. -/
def begin (around : List Frame) : Token → Option State
  | .text s => some (.done (.text s) around)
  | .bare cs => (ofBare? cs).map (.done · around)
  | .openArray => some (.item around)
  | .openObject => some (.field around)
  | _ => none

/-- One more token. -/
def next : State → Token → Option State
  | value around, t => begin around t
  | item around, .closeArray => some (.done (.array []) around)
  | item around, t => begin (.array [] :: around) t
  | field around, .closeObject => some (.done (.object []) around)
  | field around, .text s => some (.colon [] s around)
  | name fields around, .text s => some (.colon fields s around)
  | colon fields s around, .colon => some (.value (.object fields s :: around))
  | done v (.array items :: around), .comma => some (.value (.array (v :: items) :: around))
  | done v (.array items :: around), .closeArray => some (.done (.array (v :: items).reverse) around)
  | done v (.object fields s :: around), .comma => some (.name ((s, v) :: fields) around)
  | done v (.object fields s :: around), .closeObject => some (.done (.object ((s, v) :: fields).reverse) around)
  | _, _ => none

/-- Token after token. -/
def run (s : State) (ts : List Token) : Option State :=
  ts.foldlM next s

/-- The value, if that is what has been read and nothing is open. -/
def result? : State → Option Json
  | done v [] => some v
  | _ => none

end State

/-- The value that some tokens write. -/
def ofTokens? (ts : List Token) : Option Json :=
  (State.run (.value []) ts).bind State.result?

/-- The value that a text writes. -/
def read? (s : String) : Option Json :=
  (Token.scan .between s.toList).bind ofTokens?

end Json

end TradeTalk
