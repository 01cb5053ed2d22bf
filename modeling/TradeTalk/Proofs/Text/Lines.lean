import TradeTalk.Text.Lines

/-!
# `Proofs.Text.Lines` — lines put together to an input again

The lines of an input have a shape: none has a newline in it, only the last may be open, and that one is not empty. Lines
of this shape can be put together and are cut the same way again. Leaving some out keeps the shape, so an input without
some of its lines has the other lines and no more.

## Contents
- **`AreCut`**: the shape; **`areCut_rawLines`**: the lines of an input have it.
- **`AreCut.rawLines_flatMap`**: lines of this shape, put together, are cut into themselves.
- **`rawLines_flatMap_of_sublist`**: an input without some of its lines.
- **`length_rawLines`**: as many lines as newlines, if the input is closed.
-/

namespace TradeTalk.Text

/-- The shape of the lines of an input. -/
structure AreCut (ls : List RawLine) : Prop where
  newline_notMem : ∀ l ∈ ls, newline ∉ l.bytes
  /-- Only the last line may be open. -/
  ended : ls.Pairwise fun l _ => l.ended = true
  ne_nil : ∀ l ∈ ls, l.ended = false → l.bytes ≠ []

theorem AreCut.sublist {ls more : List RawLine} (h : AreCut more) (hs : ls.Sublist more) : AreCut ls where
  newline_notMem l hl := h.newline_notMem l (hs.subset hl)
  ended := h.ended.sublist hs
  ne_nil l hl := h.ne_nil l (hs.subset hl)

theorem AreCut.addByte {ls : List RawLine} (h : AreCut ls) (b : UInt8) : AreCut (addByte b ls) := by
  unfold Text.addByte
  by_cases hb : b = newline
  · rw [if_pos hb]
    refine ⟨?_, ?_, ?_⟩
    · exact List.forall_mem_cons.mpr ⟨List.not_mem_nil, h.newline_notMem⟩
    · exact List.pairwise_cons.mpr ⟨fun _ _ => rfl, h.ended⟩
    · exact List.forall_mem_cons.mpr ⟨nofun, h.ne_nil⟩
  · rw [if_neg hb]
    cases ls with
    | nil =>
      refine ⟨?_, List.pairwise_singleton _ _, ?_⟩
      · intro l hl
        rw [List.mem_singleton.mp hl]
        simpa using Ne.symm hb
      · intro l hl _
        rw [List.mem_singleton.mp hl]
        simp
    | cons l ls =>
      -- The byte goes to the front of a line that is there already.
      obtain ⟨hended, hrest⟩ := List.pairwise_cons.mp h.ended
      obtain ⟨hl, hls⟩ := List.forall_mem_cons.mp h.newline_notMem
      refine ⟨?_, ?_, ?_⟩
      · refine List.forall_mem_cons.mpr ⟨?_, hls⟩
        intro hmem
        rcases List.mem_cons.mp hmem with he | hmem
        · exact hb he.symm
        · exact hl hmem
      · exact List.pairwise_cons.mpr ⟨hended, hrest⟩
      · exact List.forall_mem_cons.mpr ⟨fun _ => by simp, (List.forall_mem_cons.mp h.ne_nil).2⟩

/-- **The lines of an input have the shape of lines.** -/
theorem areCut_rawLines (bytes : List UInt8) : AreCut (rawLines bytes) := by
  induction bytes with
  | nil => exact ⟨by simp, by simp, by simp⟩
  | cons b bytes ih =>
    rw [rawLines_cons]
    exact ih.addByte b

/-! ## Lines put together -/

theorem rawLines_append_newline {line : List UInt8} (h : newline ∉ line) (rest : List UInt8) :
    rawLines (line ++ newline :: rest) = ⟨line, true⟩ :: rawLines rest := by
  induction line with
  | nil => rfl
  | cons b line ih =>
    obtain ⟨hb, hline⟩ := not_or.mp fun hm => h (List.mem_cons.mpr hm)
    rw [List.cons_append, rawLines_cons, ih hline, addByte, if_neg (Ne.symm hb)]

theorem rawLines_of_notMem {line : List UInt8} (h : newline ∉ line) (hne : line ≠ []) :
    rawLines line = [⟨line, false⟩] := by
  induction line with
  | nil => contradiction
  | cons b line ih =>
    obtain ⟨hb, hline⟩ := not_or.mp fun hm => h (List.mem_cons.mpr hm)
    rw [rawLines_cons]
    cases line with
    | nil => rw [rawLines_nil, addByte, if_neg (Ne.symm hb)]
    | cons c line => rw [ih hline (by simp), addByte, if_neg (Ne.symm hb)]

/-- **Lines of the shape of lines, put together, are cut into themselves.** -/
theorem AreCut.rawLines_flatMap {ls : List RawLine} (h : AreCut ls) : rawLines (ls.flatMap RawLine.toBytes) = ls := by
  induction ls with
  | nil => rfl
  | cons l ls ih =>
    obtain ⟨hl, -⟩ := List.forall_mem_cons.mp h.newline_notMem
    obtain ⟨hended, -⟩ := List.pairwise_cons.mp h.ended
    have hrest : rawLines (ls.flatMap RawLine.toBytes) = ls := ih (h.sublist (List.sublist_cons_self l ls))
    rw [List.flatMap_cons, RawLine.toBytes]
    cases he : l.ended with
    | true =>
      rw [if_pos rfl, List.append_assoc, List.singleton_append, rawLines_append_newline hl, hrest, ← he]
    | false =>
      -- An open line is the last one.
      have hnil : ls = [] := by
        cases ls with
        | nil => rfl
        | cons next ls => exact absurd (hended next List.mem_cons_self) (by simp [he])
      rw [if_neg (by simp), hnil, List.flatMap_nil, List.append_nil,
        rawLines_of_notMem hl (h.ne_nil l List.mem_cons_self he), ← he]

/-- **An input without some of its lines has the others.** -/
theorem rawLines_flatMap_of_sublist {ls : List RawLine} {bytes : List UInt8} (h : ls.Sublist (rawLines bytes)) :
    rawLines (ls.flatMap RawLine.toBytes) = ls :=
  ((areCut_rawLines bytes).sublist h).rawLines_flatMap

/-! ## How many lines -/

/-- **A closed input has as many lines as newlines.** -/
theorem length_rawLines {bytes : List UInt8} (h : isClosed bytes = true) :
    (rawLines bytes).length = bytes.count newline := by
  induction bytes with
  | nil => rfl
  | cons b bytes ih =>
    by_cases hb : b = newline
    · have hrest : isClosed bytes = true := by
        cases bytes with
        | nil => rfl
        | cons c bytes => simpa [isClosed, List.getLast?_cons_cons] using h
      rw [hb]
      show (rawLines bytes).length + 1 = _
      rw [ih hrest, List.count_cons_self]
    · cases bytes with
      | nil => exact absurd (by simpa [isClosed] using h) hb
      | cons c bytes =>
        have hrest : isClosed (c :: bytes) = true := by simpa [isClosed, List.getLast?_cons_cons] using h
        have hne : rawLines (c :: bytes) ≠ [] := by simp only [ne_eq, rawLines_eq_nil_iff]; simp
        obtain ⟨l, ls, hls⟩ := List.exists_cons_of_ne_nil hne
        have hlen := ih hrest
        rw [hls] at hlen
        rw [rawLines_cons, hls, addByte, if_neg hb, List.count_cons_of_ne hb, ← hlen]
        rfl

end TradeTalk.Text
