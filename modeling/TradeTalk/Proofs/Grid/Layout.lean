import Mathlib.Algebra.GroupWithZero.Nat
import Mathlib.Data.List.Forall2
import TradeTalk.Grid
import TradeTalk.Text.Blank

/-!
# `Proofs.Grid.Layout` — what can be read off a framed table

All lines of a table are as wide as its columns ask for, since each line is put together from parts of the same widths.
And no cell is lost: a line that holds cells is cut at its frame, and without the blanks around them the pieces are the
cells. Both rest on one invariant, that every cell fits its column, which is kept while the columns are widened.

## Contents
- **`IsPrintable`**: texts of which every character is one place wide.
- **`readCells`**, **`Shows`**: a table, read.
- **`Fits`**, **`IsRegular.fits`**: every row fits the widths.
- **`length_line`**: all lines are of one width.
- **`splitOnP_framed`**, **`readCells_rowLine`**: the cells of a line are found again.
- **`shows_lines`**: the lines of a table show it; **`newline_notMem_line`**: and none is broken.
-/

namespace TradeTalk

/-- A text of printable ASCII characters. -/
def IsPrintable (s : String) : Prop :=
  ∀ c ∈ s.toList, 0x20 ≤ c.toNat ∧ c.toNat < 0x7F

instance (s : String) : Decidable (IsPrintable s) :=
  decidable_of_iff (s.toList.all (fun c => 0x20 ≤ c.toNat && c.toNat < 0x7F) = true) (by
    simp [IsPrintable])

namespace Grid

/-! ## Reading a table -/

/-- A character that stands beside a cell. -/
def isFrame (c : Char) : Bool :=
  c == '│' || c == '┆'

/-- Whether a line holds cells; the other lines are rules. -/
def holdsCells (line : List Char) : Bool :=
  line.head? == some '│'

/-- The cells of a line, without the blanks around them. Outside the frame there is nothing. -/
def readCells (line : List Char) : List (List Char) :=
  (line.splitOnP isFrame).tail.dropLast.map Text.trim

/-- Some lines show the headings and the rows of a table: one above the other with a rule between each two, all of one
    width, and the cells can be read off. -/
structure Shows (lines : List (List Char)) (headings : List String) (rows : List (List String)) : Prop where
  length_eq : lines.length = 2 * rows.length + 3
  width_eq : ∀ line ∈ lines, ∀ line' ∈ lines, line.length = line'.length
  cells_eq : (lines.filter holdsCells).map readCells =
    (headings :: rows).map fun row => row.map fun cell => Text.trim cell.toList

/-! ## Every cell fits its column -/

/-- The cells of a row fit some widths. -/
def Fits (row : List String) (widths : List Nat) : Prop :=
  List.Forall₂ (fun cell width => cell.length ≤ width) row widths

theorem fits_lengths (row : List String) : Fits row (row.map String.length) := by
  rw [Fits, List.forall₂_map_right_iff]
  exact List.forall₂_same.mpr fun cell _ => Nat.le_refl cell.length

variable {row other : List String} {widths : List Nat} {rows : List (List String)}

/-- Wider columns fit what fitted before, -/
theorem Fits.widen (h : Fits row widths) (hlen : other.length = widths.length) : Fits row (widen widths other) := by
  induction h generalizing other with
  | nil => exact .nil
  | cons hcell _ ih =>
    obtain ⟨cell, others, rfl⟩ := List.exists_cons_of_length_eq_add_one hlen
    exact .cons (Nat.le_trans hcell (Nat.le_max_left _ _)) (ih (by simpa using hlen))

/-- and they fit what they were widened for. -/
theorem fits_widen (h : row.length = widths.length) : Fits row (widen widths row) := by
  induction widths generalizing row with
  | nil =>
    rw [List.length_eq_zero_iff.mp h]
    exact .nil
  | cons width widths ih =>
    obtain ⟨cell, cells, rfl⟩ := List.exists_cons_of_length_eq_add_one h
    exact .cons (Nat.le_max_right _ _) (ih (by simpa using h))

theorem length_widen (h : row.length = widths.length) : (widen widths row).length = widths.length := by
  rw [Grid.widen, List.length_zipWith, List.length_map, h, Nat.min_self]

/-- **Widened for some rows, columns fit these and all that fitted before.** -/
theorem fits_foldl_widen (h : ∀ row ∈ rows, row.length = widths.length) :
    (∀ row, Fits row widths → Fits row (rows.foldl widen widths)) ∧ ∀ row ∈ rows, Fits row (rows.foldl widen widths) := by
  induction rows generalizing widths with
  | nil => exact ⟨fun _ hfits => hfits, by simp⟩
  | cons row rows ih =>
    have hrow : row.length = widths.length := h row List.mem_cons_self
    have hrest : ∀ r ∈ rows, r.length = (Grid.widen widths row).length := by
      intro r hr
      rw [length_widen hrow]
      exact h r (List.mem_cons_of_mem _ hr)
    obtain ⟨hkeep, hrows⟩ := ih hrest
    refine ⟨fun r hfits => hkeep r (hfits.widen hrow), ?_⟩
    intro r hr
    rcases List.mem_cons.mp hr with rfl | hr
    · exact hkeep r (fits_widen hrow)
    · exact hrows r hr

/-- A table with columns, and a cell for each of them in every row. -/
structure IsRegular (g : Grid) : Prop where
  columns_ne_nil : g.columns ≠ []
  length_row : ∀ row ∈ g.rows, row.length = g.columns.length

variable {g : Grid}

/-- **Every row fits the widths of the table**, and so do the headings. -/
theorem IsRegular.fits (h : g.IsRegular) : ∀ row ∈ g.headings :: g.rows, Fits row g.widths := by
  have hlen : ∀ row ∈ g.rows, row.length = (g.headings.map String.length).length := by
    intro row hrow
    rw [List.length_map, headings, List.length_map, h.length_row row hrow]
  obtain ⟨hkeep, hrows⟩ := fits_foldl_widen hlen
  intro row hrow
  rcases List.mem_cons.mp hrow with rfl | hrow
  · exact hkeep _ (fits_lengths _)
  · exact hrows row hrow

theorem IsRegular.length_widths (h : g.IsRegular) : g.widths.length = g.columns.length := by
  rw [← (h.fits g.headings List.mem_cons_self).length_eq, headings, List.length_map]

/-! ## Cells -/

/-- A cell is its content with blanks on either side. -/
theorem exists_cell_eq (alignment : Alignment) (width : Nat) (content : String) :
    ∃ before after, cell alignment width content =
        List.replicate before ' ' ++ content.toList ++ List.replicate after ' ' ∧
      before + after = width - content.length + 2 := by
  cases alignment with
  | left => exact ⟨_, _, rfl, by omega⟩
  | centre => exact ⟨_, _, rfl, by omega⟩
  | right => exact ⟨_, _, rfl, by omega⟩

theorem length_cell (alignment : Alignment) {width : Nat} {content : String} (h : content.length ≤ width) :
    (cell alignment width content).length = width + 2 := by
  obtain ⟨before, after, hcell, hsum⟩ := exists_cell_eq alignment width content
  rw [hcell, List.length_append, List.length_append, List.length_replicate, List.length_replicate, String.length_toList]
  omega

theorem trim_cell (alignment : Alignment) (width : Nat) (content : String) :
    Text.trim (cell alignment width content) = Text.trim content.toList := by
  obtain ⟨before, after, hcell, -⟩ := exists_cell_eq alignment width content
  have hblank (n : Nat) : Text.allBlank (List.replicate n ' ') = true := by
    rw [Text.allBlank, List.all_eq_true]
    intro c hc
    rw [List.eq_of_mem_replicate hc]
    decide
  rw [hcell, Text.trim_append_of_allBlank (hblank after), Text.trim_allBlank_append (hblank before)]

theorem mem_cell {alignment : Alignment} {width : Nat} {content : String} {c : Char}
    (h : c ∈ cell alignment width content) : c = ' ' ∨ c ∈ content.toList := by
  obtain ⟨before, after, hcell, -⟩ := exists_cell_eq alignment width content
  rw [hcell, List.mem_append, List.mem_append] at h
  rcases h with (h | h) | h
  · exact Or.inl (List.eq_of_mem_replicate h)
  · exact Or.inr h
  · exact Or.inl (List.eq_of_mem_replicate h)

variable {columns : List Column}

theorem Fits.map_length_cells (h : Fits row widths) (hlen : columns.length = row.length) :
    (cells columns widths row).map List.length = widths.map (· + 2) := by
  induction h generalizing columns with
  | nil =>
    rw [List.length_eq_zero_iff.mp hlen]
    rfl
  | cons hcell _ ih =>
    obtain ⟨column, others, rfl⟩ := List.exists_cons_of_length_eq_add_one hlen
    rw [cells, List.map_cons, List.map_cons, length_cell _ hcell, ih (by simpa using hlen)]

theorem Fits.map_trim_cells (h : Fits row widths) (hlen : columns.length = row.length) :
    (cells columns widths row).map Text.trim = row.map fun cell => Text.trim cell.toList := by
  induction h generalizing columns with
  | nil =>
    rw [List.length_eq_zero_iff.mp hlen]
    rfl
  | cons _ _ ih =>
    obtain ⟨column, others, rfl⟩ := List.exists_cons_of_length_eq_add_one hlen
    rw [cells, List.map_cons, List.map_cons, trim_cell, ih (by simpa using hlen)]

theorem mem_of_mem_cells {part : List Char} {c : Char} (hpart : part ∈ cells columns widths row) (hc : c ∈ part) :
    c = ' ' ∨ ∃ cell ∈ row, c ∈ cell.toList := by
  fun_induction cells columns widths row with
  | case1 column columns width widths content row ih =>
    rcases List.mem_cons.mp hpart with rfl | hpart
    · exact (mem_cell hc).imp_right fun hm => ⟨content, List.mem_cons_self, hm⟩
    · exact (ih hpart).imp_right fun ⟨cell, hcell, hm⟩ => ⟨cell, List.mem_cons_of_mem _ hcell, hm⟩
  | case2 => contradiction

/-! ## Lines -/

theorem length_intercalate (joint : Char) (parts : List (List Char)) :
    (List.intercalate [joint] parts).length = (parts.map List.length).sum + (parts.length - 1) := by
  induction parts with
  | nil => rfl
  | cons part parts ih =>
    cases parts with
    | nil => simp
    | cons next parts =>
      rw [List.intercalate_cons_cons, List.length_append, List.length_append, ih]
      simp
      omega

theorem length_framed (left joint right : Char) (parts : List (List Char)) :
    (framed left joint right parts).length = (parts.map List.length).sum + (parts.length - 1) + 2 := by
  rw [framed, List.length_append, List.length_cons, length_intercalate]
  rfl

/-- The width of a table with columns of the given widths. -/
def lineWidth (widths : List Nat) : Nat :=
  (widths.map (· + 2)).sum + (widths.length - 1) + 2

theorem length_rule (r : Rule) (widths : List Nat) : (rule r widths).length = lineWidth widths := by
  rw [rule, length_framed, List.map_map, List.length_map, lineWidth]
  simp [Function.comp_def]

theorem IsRegular.length_rowLine (h : g.IsRegular) (hrow : row ∈ g.headings :: g.rows) :
    (g.rowLine row).length = lineWidth g.widths := by
  have hfits := h.fits row hrow
  have hlen : g.columns.length = row.length := by rw [hfits.length_eq, h.length_widths]
  have hparts := hfits.map_length_cells hlen
  have hcount : (cells g.columns g.widths row).length = g.widths.length := by
    simpa using congrArg List.length hparts
  rw [rowLine, length_framed, hparts, hcount, lineWidth]

/-- What is put between the elements of a list, or an element. -/
theorem mem_intersperse {α : Type} {sep x : α} {xs : List α} (h : x ∈ xs.intersperse sep) : x = sep ∨ x ∈ xs := by
  induction xs with
  | nil => contradiction
  | cons y xs ih =>
    cases xs with
    | nil => exact Or.inr h
    | cons z xs =>
      rw [List.intersperse_cons_cons, List.mem_cons, List.mem_cons] at h
      rcases h with rfl | rfl | h
      · exact Or.inr List.mem_cons_self
      · exact Or.inl rfl
      · exact (ih h).imp_right (List.mem_cons_of_mem y)

theorem filter_intersperse {α : Type} {keep : α → Bool} {sep : α} {xs : List α} (hsep : keep sep = false)
    (hxs : ∀ x ∈ xs, keep x = true) : (xs.intersperse sep).filter keep = xs := by
  induction xs with
  | nil => rfl
  | cons y xs ih =>
    have hy := hxs y List.mem_cons_self
    cases xs with
    | nil => exact List.filter_cons_of_pos hy
    | cons z xs =>
      rw [List.intersperse_cons_cons, List.filter_cons_of_pos hy, List.filter_cons_of_neg (by simp [hsep]),
        ih fun x hx => hxs x (List.mem_cons_of_mem _ hx)]

theorem mem_framed {left joint right c : Char} {parts : List (List Char)} (h : c ∈ framed left joint right parts) :
    c = left ∨ c = joint ∨ c = right ∨ ∃ part ∈ parts, c ∈ part := by
  rw [framed, List.mem_append, List.mem_cons, List.mem_singleton, List.intercalate, List.mem_flatten] at h
  rcases h with (rfl | ⟨part, hpart, hc⟩) | rfl
  · exact Or.inl rfl
  · rcases mem_intersperse hpart with rfl | hpart
    · exact Or.inr (Or.inl (List.mem_singleton.mp hc))
    · exact Or.inr (Or.inr (Or.inr ⟨part, hpart, hc⟩))
  · exact Or.inr (Or.inr (Or.inl rfl))

/-- The rules of a table. -/
def allRules : List Rule :=
  [.top, .belowHeadings, .betweenRows, .bottom]

/-- Every line of a table is a rule, or it holds the headings or a row. -/
theorem mem_lines {line : List Char} (h : line ∈ g.lines) :
    (∃ r ∈ allRules, line = rule r g.widths) ∨ ∃ row ∈ g.headings :: g.rows, line = g.rowLine row := by
  simp only [lines, rowLines, List.mem_append, List.mem_cons, List.not_mem_nil, or_false] at h
  rcases h with ((rfl | rfl | rfl) | h) | rfl
  · exact Or.inl ⟨.top, by simp [allRules], rfl⟩
  · exact Or.inr ⟨g.headings, List.mem_cons_self, rfl⟩
  · exact Or.inl ⟨.belowHeadings, by simp [allRules], rfl⟩
  · rcases mem_intersperse h with rfl | h
    · exact Or.inl ⟨.betweenRows, by simp [allRules], rfl⟩
    · obtain ⟨row, hrow, rfl⟩ := List.mem_map.mp h
      exact Or.inr ⟨row, List.mem_cons_of_mem _ hrow, rfl⟩
  · exact Or.inl ⟨.bottom, by simp [allRules], rfl⟩

/-- **All lines of a table are of one width.** -/
theorem IsRegular.length_line (h : g.IsRegular) {line : List Char} (hline : line ∈ g.lines) :
    line.length = lineWidth g.widths := by
  rcases mem_lines hline with ⟨r, -, rfl⟩ | ⟨row, hrow, rfl⟩
  · exact length_rule r g.widths
  · exact h.length_rowLine hrow

/-- A line for each row and each rule. -/
theorem length_lines (hne : g.rows ≠ []) : g.lines.length = 2 * g.rows.length + 3 := by
  have hpos : 0 < g.rows.length := List.length_pos_iff.mpr hne
  rw [lines, rowLines, List.length_append, List.length_append, List.length_intersperse, List.length_map]
  simp only [List.length_cons, List.length_nil]
  omega

/-! ## Cells found again -/

/-- The cells of a table are printable, and so are its headings. -/
def HasPrintableCells (g : Grid) : Prop :=
  ∀ row ∈ g.headings :: g.rows, ∀ cell ∈ row, IsPrintable cell

theorem isFrame_of_isPrintable {cell : String} (h : IsPrintable cell) {c : Char} (hc : c ∈ cell.toList) :
    isFrame c = false := by
  have hlt := (h c hc).2
  rw [isFrame, Bool.or_eq_false_iff, beq_eq_false_iff_ne, beq_eq_false_iff_ne]
  constructor
  · rintro rfl
    exact absurd hlt (by decide)
  · rintro rfl
    exact absurd hlt (by decide)

theorem splitOnP_intercalate {parts : List (List Char)} (hne : parts ≠ [])
    (hparts : ∀ part ∈ parts, ∀ c ∈ part, isFrame c = false) :
    (List.intercalate ['┆'] parts).splitOnP isFrame = parts := by
  induction parts with
  | nil => contradiction
  | cons part parts ih =>
    have hpart := hparts part List.mem_cons_self
    cases parts with
    | nil => rw [List.intercalate_singleton, List.splitOnP_eq_singleton hpart]
    | cons next parts =>
      rw [List.intercalate_cons_cons, List.append_assoc, List.singleton_append,
        List.splitOnP_append_cons_of_forall_mem hpart '┆' (by decide),
        ih (by simp) fun q hq => hparts q (List.mem_cons_of_mem _ hq)]

/-- **A line is cut into its parts at the frame**, with nothing outside. -/
theorem splitOnP_framed {parts : List (List Char)} (hne : parts ≠ [])
    (hparts : ∀ part ∈ parts, ∀ c ∈ part, isFrame c = false) :
    (framed '│' '┆' '│' parts).splitOnP isFrame = [] :: parts ++ [[]] := by
  have hframe : isFrame '│' = true := by decide
  rw [framed, List.splitOnP_append_cons _ [] hframe]
  have hfront := List.splitOnP_append_cons [] (List.intercalate ['┆'] parts) hframe
  rw [List.nil_append] at hfront
  rw [hfront, splitOnP_intercalate hne hparts, List.splitOnP_nil]
  rfl

/-- **The cells of a line are those of its row.** -/
theorem readCells_rowLine (h : g.IsRegular) (hprintable : g.HasPrintableCells) (hrow : row ∈ g.headings :: g.rows) :
    readCells (g.rowLine row) = row.map fun cell => Text.trim cell.toList := by
  have hfits := h.fits row hrow
  have hlen : g.columns.length = row.length := by rw [hfits.length_eq, h.length_widths]
  have hparts := hfits.map_trim_cells hlen
  have hne : cells g.columns g.widths row ≠ [] := by
    intro hnil
    rw [hnil, List.map_nil, eq_comm, List.map_eq_nil_iff] at hparts
    exact h.columns_ne_nil (List.length_eq_zero_iff.mp (hlen.trans (congrArg List.length hparts)))
  have hcut : ∀ part ∈ cells g.columns g.widths row, ∀ c ∈ part, isFrame c = false := by
    intro part hpart c hc
    rcases mem_of_mem_cells hpart hc with rfl | ⟨cell, hcell, hc⟩
    · decide
    · exact isFrame_of_isPrintable (hprintable row hrow cell hcell) hc
  rw [readCells, rowLine, splitOnP_framed hne hcut, List.cons_append, List.tail_cons, List.dropLast_concat, hparts]

/-- The lines with cells are that of the headings and those of the rows. -/
theorem filter_holdsCells_lines (g : Grid) : g.lines.filter holdsCells = (g.headings :: g.rows).map g.rowLine := by
  have hrows : g.rowLines.filter holdsCells = g.rows.map g.rowLine := by
    refine filter_intersperse rfl fun line hline => ?_
    obtain ⟨row, -, rfl⟩ := List.mem_map.mp hline
    rfl
  rw [lines, List.filter_append, List.filter_append, hrows]
  have hfront : [rule .top g.widths, g.rowLine g.headings, rule .belowHeadings g.widths].filter holdsCells =
      [g.rowLine g.headings] := rfl
  have hlast : [rule .bottom g.widths].filter holdsCells = [] := rfl
  rw [hfront, hlast, List.append_nil]
  rfl

/-- **The lines of a table show it.** -/
theorem shows_lines (h : g.IsRegular) (hprintable : g.HasPrintableCells) (hne : g.rows ≠ []) :
    Shows g.lines g.headings g.rows where
  length_eq := length_lines hne
  width_eq := by
    intro line hline line' hline'
    rw [h.length_line hline, h.length_line hline']
  cells_eq := by
    rw [filter_holdsCells_lines, List.map_map]
    exact List.map_congr_left fun row hrow => readCells_rowLine h hprintable hrow

/-- No line of a table is broken. -/
theorem newline_notMem_line (hprintable : g.HasPrintableCells) {line : List Char} (hline : line ∈ g.lines) :
    '\n' ∉ line := by
  intro hmem
  rcases mem_lines hline with ⟨r, hr, rfl⟩ | ⟨row, hrow, rfl⟩
  · have hcharacters : ∀ r ∈ allRules, '\n' ≠ r.left ∧ '\n' ≠ r.joint ∧ '\n' ≠ r.right ∧ '\n' ≠ r.fill := by decide
    obtain ⟨hleft, hjoint, hright, hfill⟩ := hcharacters r hr
    rcases mem_framed hmem with he | he | he | ⟨part, hpart, hc⟩
    · exact hleft he
    · exact hjoint he
    · exact hright he
    · obtain ⟨width, -, rfl⟩ := List.mem_map.mp hpart
      exact hfill (List.eq_of_mem_replicate hc)
  · rcases mem_framed hmem with he | he | he | ⟨part, hpart, hc⟩
    · exact absurd he (by decide)
    · exact absurd he (by decide)
    · exact absurd he (by decide)
    · rcases mem_of_mem_cells hpart hc with he | ⟨cell, hcell, hc⟩
      · exact absurd he (by decide)
      · exact absurd (hprintable row hrow cell hcell '\n' hc).1 (by decide)

end Grid

end TradeTalk
