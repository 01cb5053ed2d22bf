import TradeTalk.Overview.Display
import TradeTalk.Proofs.Decimal.Printing
import TradeTalk.Proofs.Grid.Layout

/-!
# `Proofs.Overview.Tables` — an overview as tables

An overview is shown as the lines of its tables, the words before the metals, and a table without rows is left out. Its
lines can be told apart and each table can be read, as long as the names in it are printable; what else stands in the
cells is digits, and the few characters that numbers are written with.

## Contents
- **`IsPrintable.append`**, **`isPrintable_toString`**, **`Decimal.isPrintable_positional`**: printable texts.
- **`splitOn_flatMap`**, **`tableText_eq`**: lines are found again in the text they make up.
- **`Tabulates`**: the lines of a table that is left out if it has no rows.
- **`Overview.IsPrintable`**: the names in an overview are printable, and so are all cells of its tables:
  **`IsPrintable.wordGrid`**, **`IsPrintable.metalGrid`**.
- **`Overview.display_tabulates`**: what is shown of an overview.
-/

namespace TradeTalk

/-! ## Printable texts -/

theorem IsPrintable.append {s t : String} (hs : IsPrintable s) (ht : IsPrintable t) : IsPrintable (s ++ t) := by
  intro c hc
  rw [String.toList_append, List.mem_append] at hc
  exact hc.elim (hs c) (ht c)

theorem isPrintable_of_isDigit {c : Char} (h : c.isDigit = true) : 0x20 ≤ c.toNat ∧ c.toNat < 0x7F := by
  rw [Char.isDigit, Bool.and_eq_true, decide_eq_true_eq, decide_eq_true_eq] at h
  have hlow : 48 ≤ c.toNat := h.1
  have hhigh : c.toNat ≤ 57 := h.2
  omega

theorem isPrintable_toString (n : Nat) : IsPrintable (toString n) := by
  intro c hc
  exact isPrintable_of_isDigit (isDigit_of_mem_toString hc)

namespace Decimal

/-- A number with a sign or without one. -/
theorem isPrintable_positional (minus : Bool) (scale units : Nat) :
    IsPrintable (String.ofList (sign minus ++ positional scale units)) := by
  intro c hc
  rcases mem_signed hc with hdigit | rfl | rfl
  · exact isPrintable_of_isDigit hdigit
  · decide
  · decide

theorem isPrintable_text (d : Decimal) : IsPrintable d.text :=
  isPrintable_positional d.negative d.scale d.mantissa

theorem isPrintable_credits (d : Decimal) : IsPrintable d.credits :=
  isPrintable_positional _ 2 d.hundredths

end Decimal

/-! ## The lines of a text -/

/-- The lines of a text are found again, and nothing behind the last of them. -/
theorem splitOn_flatMap {lines : List (List Char)} (h : ∀ line ∈ lines, '\n' ∉ line) :
    (lines.flatMap (· ++ ['\n'])).splitOn '\n' = lines ++ [[]] := by
  induction lines with
  | nil => rfl
  | cons line lines ih =>
    have hline : ∀ c ∈ line, (c == '\n') = false := by
      intro c hc
      rw [beq_eq_false_iff_ne]
      rintro rfl
      exact h line List.mem_cons_self hc
    rw [List.flatMap_cons, List.append_assoc, List.singleton_append, List.splitOn_eq_splitOnP,
      List.splitOnP_append_cons_of_forall_mem hline '\n' (by decide), ← List.splitOn_eq_splitOnP,
      ih fun l hl => h l (List.mem_cons_of_mem _ hl)]
    rfl

theorem intercalate_concat {lines : List (List Char)} (hne : lines ≠ []) :
    List.intercalate ['\n'] lines ++ ['\n'] = lines.flatMap (· ++ ['\n']) := by
  induction lines with
  | nil => contradiction
  | cons line lines ih =>
    cases lines with
    | nil =>
      rw [List.intercalate_singleton, List.flatMap_singleton]
    | cons next lines =>
      rw [List.intercalate_cons_cons, List.append_assoc, ih (List.cons_ne_nil next lines)]
      rfl

namespace Overview

/-- The lines that show a table, if it has rows. -/
def tableLines (g : Grid) : List (List Char) :=
  if g.rows.isEmpty then [] else g.lines

theorem tableText_eq (g : Grid) : tableText g = (tableLines g).flatMap (· ++ ['\n']) := by
  rw [tableText, tableLines]
  split
  · rfl
  · exact intercalate_concat (by simp [Grid.lines])

/-! ## The two tables -/

/-- The lines of a table with some headings and rows; none if it has no rows. -/
inductive Tabulates (headings : List String) : List (List String) → List (List Char) → Prop where
  | leftOut : Tabulates headings [] []
  | shown {rows : List (List String)} {lines : List (List Char)} :
      rows ≠ [] → Grid.Shows lines headings rows → Tabulates headings rows lines

theorem tabulates_tableLines {g : Grid} (h : g.IsRegular) (hprintable : g.HasPrintableCells) :
    Tabulates g.headings g.rows (tableLines g) := by
  rw [tableLines]
  split
  · rename_i hempty
    rw [List.isEmpty_iff.mp hempty]
    exact .leftOut
  · rename_i hne
    rw [List.isEmpty_iff] at hne
    exact .shown hne (Grid.shows_lines h hprintable hne)

theorem newline_notMem_tableLines {g : Grid} (hprintable : g.HasPrintableCells) :
    ∀ line ∈ tableLines g, '\n' ∉ line := by
  intro line hline
  rw [tableLines] at hline
  split at hline
  · contradiction
  · exact Grid.newline_notMem_line hprintable hline

/-- The names in an overview are printable. The other cells of its tables always are. -/
structure IsPrintable (view : Overview) : Prop where
  words : ∀ row ∈ view.words, TradeTalk.IsPrintable row.word ∧ TradeTalk.IsPrintable (String.singleton row.symbol)
  metals : ∀ row ∈ view.metals, TradeTalk.IsPrintable row.metal ∧ TradeTalk.IsPrintable row.phrase

variable {view : Overview}

theorem isRegular_wordGrid (view : Overview) : view.wordGrid.IsRegular where
  columns_ne_nil := List.cons_ne_nil _ _
  length_row := by
    intro cells hcells
    obtain ⟨row, -, rfl⟩ := List.mem_map.mp hcells
    rfl

theorem isRegular_metalGrid (view : Overview) : view.metalGrid.IsRegular where
  columns_ne_nil := List.cons_ne_nil _ _
  length_row := by
    intro cells hcells
    obtain ⟨row, -, rfl⟩ := List.mem_map.mp hcells
    rfl

theorem IsPrintable.wordGrid (h : view.IsPrintable) : view.wordGrid.HasPrintableCells := by
  intro cells hcells
  rcases List.mem_cons.mp hcells with rfl | hcells
  · have hheadings : ∀ heading ∈ ["Word", "Symbol", "Value"], TradeTalk.IsPrintable heading := by decide
    exact hheadings
  · obtain ⟨row, hrow, rfl⟩ := List.mem_map.mp hcells
    obtain ⟨hword, hsymbol⟩ := h.words row hrow
    rw [WordRow.cells]
    refine List.forall_mem_cons.mpr ⟨hword, List.forall_mem_cons.mpr ⟨hsymbol, List.forall_mem_singleton.mpr ?_⟩⟩
    split
    · exact isPrintable_toString _
    · decide

theorem IsPrintable.metalGrid (h : view.IsPrintable) : view.metalGrid.HasPrintableCells := by
  intro cells hcells
  rcases List.mem_cons.mp hcells with rfl | hcells
  · have hheadings : ∀ heading ∈ ["Metal", "Hint", "Credits per unit"], TradeTalk.IsPrintable heading := by decide
    exact hheadings
  · obtain ⟨row, hrow, rfl⟩ := List.mem_map.mp hcells
    obtain ⟨hmetal, hphrase⟩ := h.metals row hrow
    have hhint : TradeTalk.IsPrintable (row.phrase ++ " = " ++ row.amount.text ++ " Credits") :=
      ((hphrase.append (by decide)).append row.amount.isPrintable_text).append (by decide)
    rw [MetalRow.cells]
    refine List.forall_mem_cons.mpr ⟨hmetal, List.forall_mem_cons.mpr ⟨hhint, List.forall_mem_singleton.mpr ?_⟩⟩
    split
    · exact Decimal.isPrintable_credits _
    · decide

/-! ## What is shown -/

/-- The value of a symbol, or a question mark. -/
theorem cells_wordRow (row : WordRow) :
    row.cells = [row.word, String.singleton row.symbol,
      ((Numeral.read (String.singleton row.symbol)).toOption.map toString).getD "?"] := by
  rw [WordRow.cells]
  cases Numeral.read (String.singleton row.symbol) with
  | ok n => rfl
  | error e => rfl

/-- The unit price in credits, or a question mark. -/
theorem cells_metalRow (row : MetalRow) :
    row.cells = [row.metal, row.phrase ++ " = " ++ row.amount.text ++ " Credits",
      (row.unitPrice.map Decimal.credits).getD "?"] := by
  rw [MetalRow.cells]
  cases row.unitPrice with
  | none => rfl
  | some value => rfl

theorem splitOn_tables (h : view.IsPrintable) (hne : view.isEmpty = false) :
    view.tables.toList.splitOn '\n' = tableLines view.wordGrid ++ tableLines view.metalGrid ++ [[]] := by
  have hlines : ∀ line ∈ tableLines view.wordGrid ++ tableLines view.metalGrid, '\n' ∉ line := by
    intro line hline
    rcases List.mem_append.mp hline with hline | hline
    · exact newline_notMem_tableLines h.wordGrid line hline
    · exact newline_notMem_tableLines h.metalGrid line hline
  rw [tables, hne, if_neg Bool.false_ne_true, String.toList_ofList, tableText_eq, tableText_eq, ← List.flatMap_append,
    splitOn_flatMap hlines]

/-- **What is shown of an overview as tables.** First come the lines of the words, then those of the metals. Each table
    has a line for each row and each rule, all lines are of one width, and its cells are found between the frames: all of
    them, in order, and none is cut short. -/
theorem display_tabulates (h : view.IsPrintable) (hne : view.isEmpty = false) :
    ∃ wordLines metalLines : List (List Char),
      (view.display false).toList.splitOn '\n' = wordLines ++ metalLines ++ [[]] ∧
      Tabulates ["Word", "Symbol", "Value"]
        (view.words.map fun row => [row.word, String.singleton row.symbol,
          ((Numeral.read (String.singleton row.symbol)).toOption.map toString).getD "?"]) wordLines ∧
      Tabulates ["Metal", "Hint", "Credits per unit"]
        (view.metals.map fun row => [row.metal, row.phrase ++ " = " ++ row.amount.text ++ " Credits",
          (row.unitPrice.map Decimal.credits).getD "?"]) metalLines := by
  refine ⟨tableLines view.wordGrid, tableLines view.metalGrid, splitOn_tables h hne, ?_, ?_⟩
  · rw [← List.map_congr_left fun row _ => cells_wordRow row]
    exact tabulates_tableLines view.isRegular_wordGrid h.wordGrid
  · rw [← List.map_congr_left fun row _ => cells_metalRow row]
    exact tabulates_tableLines view.isRegular_metalGrid h.metalGrid

/-- An overview with blanks around a word, a symbol that is no digit, and two metals. What one unit costs is known of the
    second only. -/
def withGaps : Overview where
  words := [⟨"glob", 'I'⟩, ⟨" | ", 'Z'⟩]
  metals :=
    [⟨"Gold", "glob prok", ⟨true, 34450, 2, by decide, by decide⟩, none⟩,
      ⟨"Tin", "glob prok", ⟨false, 682200, 4, by decide, by decide⟩,
        some ⟨false, 170550, 4, by decide, by decide⟩⟩]

/-- Its lines and its cells. -/
theorem display_tabulates_gaps :
    withGaps.IsPrintable ∧ withGaps.isEmpty = false ∧
      ∃ wordLines metalLines : List (List Char),
        (withGaps.display false).toList.splitOn '\n' = wordLines ++ metalLines ++ [[]] ∧
        Tabulates ["Word", "Symbol", "Value"] [["glob", "I", "1"], [" | ", "Z", "?"]] wordLines ∧
        Tabulates ["Metal", "Hint", "Credits per unit"]
          [["Gold", "glob prok = -344.50 Credits", "?"], ["Tin", "glob prok = 68.2200 Credits", "17.06"]]
          metalLines := by
  have hprintable : withGaps.IsPrintable := ⟨by decide, by decide⟩
  obtain ⟨wordLines, metalLines, hlines, hwords, hmetals⟩ := display_tabulates hprintable rfl
  refine ⟨hprintable, rfl, wordLines, metalLines, hlines, ?_, ?_⟩
  · convert hwords using 1
    decide +kernel
  · convert hmetals using 1
    decide +kernel

end Overview

end TradeTalk
