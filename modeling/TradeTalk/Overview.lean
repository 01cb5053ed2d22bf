import TradeTalk.Decimal.Basic

/-!
# `TradeTalk.Overview` — everything known, at a glance

## Contents
- **`WordRow`**: a word and the Roman digit it stands for.
- **`MetalRow`**: a metal, the price stated for it, and what one unit of it costs, where that is known.
- **`Overview`**: the rows of both kinds.
-/

namespace TradeTalk

/-- A word and its digit. -/
structure WordRow where
  word : String
  symbol : Char
  deriving DecidableEq, Repr

/-- A metal, so much of which costs an amount. -/
structure MetalRow where
  metal : String
  phrase : String
  amount : Decimal
  unitPrice : Option Decimal
  deriving DecidableEq, Repr

/-- What is known about words and about metals. -/
structure Overview where
  words : List WordRow
  metals : List MetalRow
  deriving DecidableEq, Repr

/-- Whether nothing is known. -/
def Overview.isEmpty (view : Overview) : Bool :=
  view.words.isEmpty && view.metals.isEmpty

end TradeTalk
