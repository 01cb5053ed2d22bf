import TradeTalk.Decimal.Credits

/-!
# `TradeTalk.Answer` — what a line is answered

## Contents
- **`Answer`**: a fact is recorded, a question answered, or a line not understood.
- **`Answer.text`**: the wording. A recorded fact is answered in silence.
-/

namespace TradeTalk

/-- The answer to a line. -/
inductive Answer where
  /-- A fact has been recorded. -/
  | noted
  /-- What a phrase is worth as a number. -/
  | number (phrase : String) (value : Nat)
  /-- What so much of a metal as the phrase says costs. -/
  | price (phrase metal : String) (cost : Decimal)
  /-- Nothing has been recorded about a word or a metal. -/
  | unknownName (name : String)
  /-- The line has none of the known forms. -/
  | notUnderstood
  deriving DecidableEq, Repr, Inhabited

/-- The wording of an answer. -/
def Answer.text : Answer → String
  | .noted => ""
  | .number phrase value => phrase ++ " is " ++ toString value
  | .price phrase metal cost => phrase ++ " " ++ metal ++ " is " ++ cost.credits ++ " Credits"
  | .unknownName name => "I don't know what " ++ name ++ " is"
  | .notUnderstood => "I have no idea what you are talking about"

end TradeTalk
