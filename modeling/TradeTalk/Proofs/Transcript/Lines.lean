import TradeTalk.Proofs.Ledger.Outcome
import TradeTalk.Transcript

/-!
# `Proofs.Transcript.Lines` — one more line of a transcript

A transcript and a dialogue drop different line ends from a line before they tell it to a ledger. It makes no
difference: two spellings of a line that differ in the line ends they close with have the same answer, and are blank
or a command together. With that, what one more line does to a transcript is one of four things.

## Contents
- **`SameLine`**: spellings of a line; **`SameLine.tell`**, **`SameLine.trim`**: what they have in common.
- **`sameLine_dropReturn`**, **`sameLine_dropLineEnds`**: dropping line ends gives a spelling of the line.
- **`Heard`**: the four things that a line can be to a ledger.
- **`next_of_unreadable`**, **`next_of_blank`**, **`next_of_answer`**, **`next_of_fault`**: one more line.
-/

namespace TradeTalk

open Text (RawLine allBlank trim)

/-! ## Spellings of a line -/

/-- Two spellings of a line: they differ at most in the line ends that they close with. -/
def SameLine (s t : String) : Prop :=
  Ledger.dropLineEnds s = Ledger.dropLineEnds t

namespace SameLine

variable {s t : String}

/-- Two spellings of a line are answered alike. -/
theorem tell (h : SameLine s t) (l : Ledger) : l.tell s = l.tell t := by
  rw [Ledger.tell, Ledger.tell, h]

theorem trim (h : SameLine s t) : trim s.toList = trim t.toList := by
  have hdrop (s : String) : Text.trim s.toList = Text.trim (Ledger.dropLineEnds s).toList := by
    obtain ⟨ends, hs, hends, -⟩ := Ledger.dropsLineEnds_iff.mpr (rfl : Ledger.dropLineEnds s = _)
    have hblank : allBlank ends.toList = true := by
      rw [allBlank, List.all_eq_true]
      intro c hc
      rcases hends c hc with rfl | rfl
      · decide
      · decide
    conv_lhs => rw [hs, String.toList_append, Text.trim_append_of_allBlank hblank]
  rw [hdrop s, hdrop t, h]

/-- Two spellings of a line are blank together. -/
theorem allBlank_eq (h : SameLine s t) : allBlank s.toList = allBlank t.toList := by
  rw [Bool.eq_iff_iff, ← Text.trim_eq_nil_iff, ← Text.trim_eq_nil_iff, h.trim]

end SameLine

/-- A line in which line ends have been dropped closes with none. -/
theorem sameLine_dropLineEnds (s : String) : SameLine (Ledger.dropLineEnds s) s := by
  obtain ⟨-, -, -, hlast⟩ := Ledger.dropsLineEnds_iff.mpr (rfl : Ledger.dropLineEnds s = _)
  exact Ledger.dropsLineEnds_iff.mp ⟨"", String.append_empty.symm, by simp, hlast⟩

theorem sameLine_append_return (s : String) : SameLine (s ++ "\r") s := by
  obtain ⟨ends, hs, hends, hlast⟩ := Ledger.dropsLineEnds_iff.mpr (rfl : Ledger.dropLineEnds s = _)
  show Ledger.dropLineEnds (s ++ "\r") = Ledger.dropLineEnds s
  rw [← Ledger.dropsLineEnds_iff]
  refine ⟨ends ++ "\r", ?_, ?_, hlast⟩
  · rw [← String.append_assoc, ← hs]
  · intro c hc
    rw [String.toList_append, List.mem_append] at hc
    rcases hc with hc | hc
    · exact hends c hc
    · exact Or.inl (List.mem_singleton.mp hc)

theorem sameLine_dropReturn (raw : RawLine) (s : String) : SameLine (Transcript.dropReturn raw s) s := by
  unfold Transcript.dropReturn
  by_cases h : raw.ended = true ∧ s.toList.getLast? = some '\r'
  · rw [if_pos h]
    have hs : s = String.ofList s.toList.dropLast ++ "\r" := by
      rw [← String.toList_inj, String.toList_append, String.toList_ofList]
      exact (List.dropLast_append_getLast? _ h.2).symm
    conv_rhs => rw [hs]
    exact (sameLine_append_return _).symm
  · rw [if_neg h]
    rfl

/-! ## What a line is to a ledger -/

/-- A line of an input cannot be read, or it is blank, or a ledger has an answer or a fault for it. -/
inductive Heard (l : Ledger) (raw : RawLine) : Prop where
  | unreadable (hr : raw.text? = none)
  | blank {line : String} (hr : raw.text? = some line) (hb : allBlank line.toList = true)
  | answer {line : String} {a : Answer} {l' : Ledger} (hr : raw.text? = some line)
      (hb : allBlank line.toList = false) (ha : l.tell line = (.ok a, l'))
  | fault {line : String} {f : Fault} {l' : Ledger} (hr : raw.text? = some line)
      (hb : allBlank line.toList = false) (hf : l.tell line = (.error f, l'))

theorem heard (l : Ledger) (raw : RawLine) : Heard l raw := by
  cases hr : raw.text? with
  | none => exact .unreadable hr
  | some line =>
    cases hb : allBlank line.toList with
    | true => exact .blank hr hb
    | false =>
      cases htell : l.tell line with
      | mk outcome l' =>
        cases outcome with
        | ok a => exact .answer hr hb htell
        | error f => exact .fault hr hb htell

/-! ## One more line of a transcript -/

namespace Transcript

variable {t : Transcript} {raw : RawLine} {line : String}

/-- A line that cannot be read stops a transcript, -/
theorem next_of_unreadable (ht : t.stop = none) (hr : raw.text? = none) :
    t.next raw = { t with stop := some .unreadable } := by
  simp only [next, ht, hr, Option.isSome_none, Bool.false_eq_true, if_false]

theorem next_of_text (ht : t.stop = none) (hr : raw.text? = some line) :
    t.next raw = t.nextText (dropReturn raw line) := by
  simp only [next, ht, hr, Option.isSome_none, Bool.false_eq_true, if_false]

/-- a blank line is counted and no more, -/
theorem next_of_blank (ht : t.stop = none) (hr : raw.text? = some line) (hb : allBlank line.toList = true) :
    t.next raw = { t with lines := t.lines + 1 } := by
  rw [next_of_text ht hr]
  simp only [nextText, (sameLine_dropReturn raw line).allBlank_eq, hb, if_true]

/-- an answer is printed unless it is silent, -/
theorem next_of_answer (ht : t.stop = none) (hr : raw.text? = some line) (hb : allBlank line.toList = false)
    {a : Answer} {l : Ledger} (ha : t.ledger.tell line = (.ok a, l)) :
    t.next raw = ({ t with ledger := l, lines := t.lines + 1 } : Transcript).withAnswer a := by
  rw [next_of_text ht hr]
  simp only [nextText, (sameLine_dropReturn raw line).allBlank_eq, hb, (sameLine_dropReturn raw line).tell, ha,
    Bool.false_eq_true, if_false]

/-- and a fault stops it, with the number of the line. -/
theorem next_of_fault (ht : t.stop = none) (hr : raw.text? = some line) (hb : allBlank line.toList = false)
    {f : Fault} {l : Ledger} (hf : t.ledger.tell line = (.error f, l)) :
    t.next raw =
      { t with ledger := l, lines := t.lines + 1, stop := some (.rejected (t.lines + 1) (dropReturn raw line) f) } := by
  rw [next_of_text ht hr]
  simp only [nextText, (sameLine_dropReturn raw line).allBlank_eq, hb, (sameLine_dropReturn raw line).tell, hf,
    Bool.false_eq_true, if_false]

end Transcript

end TradeTalk
