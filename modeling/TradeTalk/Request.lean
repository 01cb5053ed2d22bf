import TradeTalk.Decimal.Arithmetic
import TradeTalk.Decimal.Reader
import TradeTalk.Numeral
import TradeTalk.Sentence

/-!
# `TradeTalk.Request` — what a line asks for

A request is a sentence whose amount, if it has one, has been read as a decimal. Any other line is unknown, and so is
a price fact whose amount is too large: amounts are capped so that the price of the largest numeral is a decimal.

## Contents
- **`Request`**: the kinds of lines, the unknown ones among them.
- **`Request.maxAmount`**: the cap on amounts, which is a quotient; **`Request.maxAmount_eq`**: its digits.
- **`Request.ofLine`**: every line is a request.
-/

namespace TradeTalk

/-- A line with its meaning. -/
inductive Request where
  /-- Each of some words stands for a Roman digit. -/
  | digitFact (words : Phrase) (digit : Digit)
  /-- So much of a metal as a phrase says costs an amount. -/
  | priceFact (phrase : Phrase) (metal : String) (amount : Decimal)
  /-- What a phrase is worth as a number. -/
  | valueQuestion (phrase : Phrase)
  /-- What so much of a metal as a phrase says costs. -/
  | priceQuestion (phrase : Phrase) (metal : String)
  /-- Any other line, in full. -/
  | unknown (line : String)
  deriving DecidableEq, Repr, Inhabited

namespace Request

/-- The quotient has 29 digits, so it is rounded to thousandths. -/
theorem greatest_over_largest :
    Decimal.greatest.over? Numeral.largest = some ⟨false, 19811993626972827605287309411, 3, by decide, by decide⟩ := by
  decide +kernel

/-- The largest amount that a price fact may state: the largest decimal over the largest numeral. -/
def maxAmount : Decimal :=
  (Decimal.greatest.over? Numeral.largest).get (by rw [greatest_over_largest]; rfl)

theorem maxAmount_eq : maxAmount = ⟨false, 19811993626972827605287309411, 3, by decide, by decide⟩ :=
  Option.get_of_eq_some _ greatest_over_largest

@[simp] theorem negative_maxAmount : maxAmount.negative = false := by
  rw [maxAmount_eq]

/-- Whether a request records something. Questions and unknown lines only ask. -/
def isFact : Request → Bool
  | .digitFact .. | .priceFact .. => true
  | .valueQuestion .. | .priceQuestion .. | .unknown _ => false

/-- The amount that a text states, if it is a decimal within the cap. -/
def amount? (text : String) : Option Decimal :=
  (Decimal.ofString? text).filter (· ≤ maxAmount)

/-- What a line asks for. -/
def ofLine (line : String) : Request :=
  match Sentence.ofLine? line with
  | some (.digitFact words digit) => .digitFact words digit
  | some (.priceFact phrase metal text) =>
    match amount? text with
    | some amount => .priceFact phrase metal amount
    | none => .unknown line
  | some (.valueQuestion phrase) => .valueQuestion phrase
  | some (.priceQuestion phrase metal) => .priceQuestion phrase metal
  | none => .unknown line

end Request

end TradeTalk
