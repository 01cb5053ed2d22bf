/-!
# `TradeTalk.Grid` — tables in frames

```text
┌──────┬────────┬───────┐
│ Word ┆ Symbol ┆ Value │
╞══════╪════════╪═══════╡
│ glob ┆    I   ┆     1 │
├╌╌╌╌╌╌┼╌╌╌╌╌╌╌╌┼╌╌╌╌╌╌╌┤
│ prok ┆    V   ┆     5 │
└──────┴────────┴───────┘
```

## Contents
- **`Alignment`**, **`Column`**, **`Grid`**: a table with headings.
- **`Grid.widths`**: each column is as wide as its longest cell or heading.
- **`Grid.lines`**, **`Grid.text`**: the framed table.
-/

namespace TradeTalk

/-- Where a cell stands in a column that is wider. -/
inductive Alignment where
  | left | centre | right
  deriving DecidableEq, Repr

/-- The heading of a column and the alignment of its cells. -/
structure Column where
  heading : String
  alignment : Alignment
  deriving DecidableEq, Repr

/-- A table: its columns, and for each row a cell for each column. -/
structure Grid where
  columns : List Column
  rows : List (List String)
  deriving DecidableEq, Repr

/-- The characters of a horizontal line: its ends, what joins two columns, and what fills a column. -/
structure Rule where
  left : Char
  fill : Char
  joint : Char
  right : Char

namespace Rule

/-- The line above the headings. -/
def top : Rule := ⟨'┌', '─', '┬', '┐'⟩

/-- The line below the headings. -/
def belowHeadings : Rule := ⟨'╞', '═', '╪', '╡'⟩

/-- The line between two rows. -/
def betweenRows : Rule := ⟨'├', '╌', '┼', '┤'⟩

/-- The line below the last row. -/
def bottom : Rule := ⟨'└', '─', '┴', '┘'⟩

end Rule

namespace Grid

/-! ## Widths -/

/-- The widths that a row asks for, or the given ones where they are larger. -/
def widen (widths : List Nat) (row : List String) : List Nat :=
  List.zipWith max widths (row.map String.length)

/-- The headings of a grid. -/
def headings (g : Grid) : List String :=
  g.columns.map Column.heading

/-- The widths of the columns. -/
def widths (g : Grid) : List Nat :=
  g.rows.foldl widen (g.headings.map String.length)

/-! ## Lines -/

/-- A cell in a column of the given width, with a blank on either side. In a centred cell that cannot have as many
    blanks on the right as on the left, one more is on the left. -/
def cell (alignment : Alignment) (width : Nat) (content : String) : List Char :=
  let free := width - content.length
  let (before, after) := match alignment with
    | .left => (0, free)
    | .centre => (free - free / 2, free / 2)
    | .right => (free, 0)
  List.replicate (before + 1) ' ' ++ content.toList ++ List.replicate (after + 1) ' '

/-- A line from frame to frame. -/
def framed (left joint right : Char) (parts : List (List Char)) : List Char :=
  left :: List.intercalate [joint] parts ++ [right]

/-- A horizontal line across columns of the given widths. -/
def rule (r : Rule) (widths : List Nat) : List Char :=
  framed r.left r.joint r.right (widths.map fun w => List.replicate (w + 2) r.fill)

/-- The cells of a row, each in its column. -/
def cells : List Column → List Nat → List String → List (List Char)
  | column :: columns, width :: widths, content :: row =>
    cell column.alignment width content :: cells columns widths row
  | _, _, _ => []

/-- A row between its frames. -/
def rowLine (g : Grid) (row : List String) : List Char :=
  framed '│' '┆' '│' (cells g.columns g.widths row)

/-- The lines of the rows, with a horizontal line between each two. -/
def rowLines (g : Grid) : List (List Char) :=
  (g.rows.map g.rowLine).intersperse (rule .betweenRows g.widths)

/-- The lines of the framed table, from top to bottom. -/
def lines (g : Grid) : List (List Char) :=
  [rule .top g.widths, g.rowLine g.headings, rule .belowHeadings g.widths] ++ g.rowLines ++
    [rule .bottom g.widths]

/-- The framed table. No line break follows its last line. -/
def text (g : Grid) : List Char :=
  List.intercalate ['\n'] g.lines

end Grid

end TradeTalk
