import TradeTalk.Decimal.Credits
import TradeTalk.Document
import TradeTalk.Grid
import TradeTalk.Numeral
import TradeTalk.Overview

/-!
# `TradeTalk.Overview.Display` — an overview as tables or as a document

## Contents
- **`Overview.document`**: the overview as a document; amounts are texts, and an unknown unit price is left out.
- **`Overview.wordGrid`**, **`Overview.metalGrid`**: the two tables.
- **`Overview.display`**: the overview as it is shown, in either form.
-/

namespace TradeTalk

/-! ## As a document -/

/-- A word as an object. -/
def WordRow.document (row : WordRow) : Document :=
  .object [("word", .text row.word), ("symbol", .text (String.singleton row.symbol))]

/-- A metal as an object. -/
def MetalRow.document (row : MetalRow) : Document :=
  .object <|
    [("metal", .text row.metal), ("phrase", .text row.phrase), ("amount", .text row.amount.text)] ++
      match row.unitPrice with
      | some value => [("unit_value", .text value.text)]
      | none => []

/-- An overview as an object. -/
def Overview.document (view : Overview) : Document :=
  .object
    [("symbols", .array (view.words.map WordRow.document)), ("metals", .array (view.metals.map MetalRow.document))]

/-! ## As tables -/

/-- The cells of a word: the value is a question mark if the symbol is no numeral. -/
def WordRow.cells (row : WordRow) : List String :=
  let symbol := String.singleton row.symbol
  [row.word, symbol,
    match Numeral.read symbol with
    | .ok n => toString n
    | .error _ => "?"]

/-- The cells of a metal: the unit price is a question mark if it is not known. -/
def MetalRow.cells (row : MetalRow) : List String :=
  [row.metal, row.phrase ++ " = " ++ row.amount.text ++ " Credits",
    match row.unitPrice with
    | some value => value.credits
    | none => "?"]

namespace Overview

/-- The table of the words. -/
def wordGrid (view : Overview) : Grid where
  columns := [⟨"Word", .left⟩, ⟨"Symbol", .centre⟩, ⟨"Value", .right⟩]
  rows := view.words.map WordRow.cells

/-- The table of the metals. -/
def metalGrid (view : Overview) : Grid where
  columns := [⟨"Metal", .left⟩, ⟨"Hint", .left⟩, ⟨"Credits per unit", .right⟩]
  rows := view.metals.map MetalRow.cells

/-- A table and the end of its last line; nothing at all for a table without rows. -/
def tableText (g : Grid) : List Char :=
  if g.rows.isEmpty then [] else g.text ++ ['\n']

/-- The overview as tables, the words before the metals. -/
def tables (view : Overview) : String :=
  if view.isEmpty then "No facts recorded yet.\n"
  else String.ofList (tableText view.wordGrid ++ tableText view.metalGrid)

/-- The overview as a printed document. -/
def json (view : Overview) : String :=
  String.ofList (view.document.pretty 0 ++ ['\n'])

/-- The overview as it is shown, as a document or as tables. -/
def display (view : Overview) (asJson : Bool) : String :=
  if asJson then view.json else view.tables

end Overview

end TradeTalk
