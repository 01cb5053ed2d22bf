/-!
# `TradeTalk.Fault` — what can go wrong with a line

A fault is a cause, not a text: its wording is in one place, `Fault.message`.

## Contents
- **`Fault`**: a rejected numeral, a name nothing is known about, an amount out of range.
- **`Fault.message`**: the wording shown to the user.
-/

namespace TradeTalk

/-- Why a text has no value or a question no answer. -/
inductive Fault where
  /-- A text that is no numeral, exactly as it was given. -/
  | notANumeral (input : String)
  /-- A word or a metal that nothing has been recorded about, as it was spelled. -/
  | unknownName (name : String)
  /-- A price that no decimal can hold. -/
  | outOfRange
  deriving DecidableEq, Repr, Inhabited

/-- The wording of a fault. -/
def Fault.message : Fault → String
  | .notANumeral input => input ++ " is not a valid roman numeral number"
  | .unknownName name => "I don't know what " ++ name ++ " is"
  | .outOfRange => "the price is out of range"

end TradeTalk
