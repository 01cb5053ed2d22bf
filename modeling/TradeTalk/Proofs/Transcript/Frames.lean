import TradeTalk.Proofs.Ledger.Wording
import TradeTalk.Proofs.Text.Lines
import TradeTalk.Proofs.Transcript.Lines

/-!
# `Proofs.Transcript.Frames` — transcripts in parts

The transcript of an input that comes in two parts is the transcript of the first part and, unless that stopped, what
follows it: the second part told to the ledger that the first has left, with the lines numbered on. And a transcript
prints line by line: each answer that says something has a line of its own, and no line has anything else.

## Contents
- **`Transcript.andThen`**, **`foldl_next_eq_andThen`**: a transcript goes on from where it is.
- **`lines_foldl_next`**: all lines of an input have been counted, unless it stopped.
- **`spoken`**, **`untilFault`**, **`answers`**: what an input is answered, said without a transcript.
- **`foldl_next_answers`**: a transcript prints these answers.
- **`GoesOn`**, **`Frames`**, **`ofInput_append_frames`**: inputs in two parts, and what any input prints.
-/

namespace TradeTalk

open Text (RawLine allBlank newline isClosed rawLines)

/-- A stop that comes so many lines later. -/
def Stop.after (n : Nat) : Stop → Stop
  | .unreadable => .unreadable
  | .rejected number line fault => .rejected (n + number) line fault

namespace Transcript

variable {t u : Transcript}

/-! ## One transcript after another -/

/-- A transcript and what follows it. -/
def andThen (t u : Transcript) : Transcript where
  ledger := u.ledger
  lines := t.lines + u.lines
  answered := t.answered + u.answered
  printed := t.printed ++ u.printed
  stop := u.stop.map (Stop.after t.lines)

theorem andThen_fresh (ht : t.stop = none) : t.andThen { ledger := t.ledger } = t := by
  cases t
  simp_all [andThen]

theorem stop_andThen_of_none (hu : u.stop = none) : (t.andThen u).stop = none := by
  simp [andThen, hu]

/-- One more line goes to what follows. -/
theorem andThen_next (t u : Transcript) (raw : RawLine) : (t.andThen u).next raw = t.andThen (u.next raw) := by
  cases hu : u.stop with
  | some s =>
    have hs : (t.andThen u).stop = some (s.after t.lines) := by simp [andThen, hu]
    rw [next_of_stop hu, next_of_stop hs]
  | none =>
    have hs : (t.andThen u).stop = none := stop_andThen_of_none hu
    cases heard u.ledger raw with
    | unreadable hr =>
      rw [next_of_unreadable hu hr, next_of_unreadable hs hr]
      rfl
    | blank hr hb =>
      rw [next_of_blank hu hr hb, next_of_blank hs hr hb]
      rfl
    | @answer line a l hr hb ha =>
      rw [next_of_answer hu hr hb ha, next_of_answer hs hr hb ha]
      by_cases hsilent : a.text = ""
      · simp only [andThen, withAnswer, hsilent, if_true, Nat.add_assoc]
      · simp only [andThen, withAnswer, hsilent, if_false, Nat.add_assoc, Array.append_push]
    | fault hr hb hf =>
      rw [next_of_fault hu hr hb hf, next_of_fault hs hr hb hf]
      simp only [andThen, Option.map_some, Stop.after, Nat.add_assoc]

/-- **A transcript goes on from where it is**, as a fresh one with its ledger would. -/
theorem foldl_next_eq_andThen (ht : t.stop = none) (raws : List RawLine) :
    raws.foldl next t = t.andThen (raws.foldl next { ledger := t.ledger }) := by
  have hfold (u : Transcript) : raws.foldl next (t.andThen u) = t.andThen (raws.foldl next u) := by
    induction raws generalizing u with
    | nil => rfl
    | cons raw raws ih => rw [List.foldl_cons, List.foldl_cons, andThen_next, ih]
  rw [← hfold, andThen_fresh ht]

theorem text_andThen (t u : Transcript) : (t.andThen u).text = t.text ++ u.text := by
  rw [← String.toList_inj]
  simp [text, andThen, String.toList_join]

/-! ## Lines counted -/

theorem stop_of_stop_foldl_next {raws : List RawLine} (h : (raws.foldl next t).stop = none) : t.stop = none := by
  cases ht : t.stop with
  | none => rfl
  | some s =>
    rw [foldl_next_of_stop ht, ht] at h
    contradiction

theorem lines_next {raw : RawLine} (h : (t.next raw).stop = none) : (t.next raw).lines = t.lines + 1 := by
  have ht : t.stop = none := @stop_of_stop_foldl_next t [raw] h
  cases heard t.ledger raw with
  | unreadable hr => simp [next_of_unreadable ht hr] at h
  | blank hr hb => rw [next_of_blank ht hr hb]
  | answer hr hb ha =>
    rw [next_of_answer ht hr hb ha]
    rfl
  | fault hr hb hf => simp [next_of_fault ht hr hb hf] at h

/-- **All lines have been counted**, unless the transcript has stopped. -/
theorem lines_foldl_next {raws : List RawLine} (h : (raws.foldl next t).stop = none) :
    (raws.foldl next t).lines = t.lines + raws.length := by
  induction raws generalizing t with
  | nil => rfl
  | cons raw raws ih =>
    have hnext : (t.next raw).stop = none := stop_of_stop_foldl_next h
    rw [List.foldl_cons, ih h, lines_next hnext, List.length_cons]
    omega

/-! ## Answers without a transcript -/

/-- The lines that are told to a ledger: those that are not blank, as far as they can be read. -/
def spoken : List RawLine → List String
  | [] => []
  | raw :: raws =>
    match raw.text? with
    | none => []
    | some line => if allBlank line.toList then spoken raws else line :: spoken raws

/-- The answers before the first fault. -/
def untilFault : List (Except Fault Answer) → List Answer
  | .ok a :: outcomes => a :: untilFault outcomes
  | _ => []

/-- The answers of a ledger to the lines of an input, as far as they can be read and up to the first fault. -/
def answers (ledger : Ledger) (bytes : List UInt8) : List Answer :=
  untilFault (ledger.tellAll (spoken (rawLines bytes))).1

/-- What an answer prints. -/
theorem toList_printed_withAnswer (t : Transcript) (a : Answer) :
    (t.withAnswer a).printed.toList = t.printed.toList ++ ([a].filter (· ≠ .noted)).map Answer.text := by
  by_cases ha : a = .noted
  · subst ha
    have hsilent : Answer.noted.text = "" := rfl
    simp [withAnswer, hsilent]
  · have htext : a.text ≠ "" := fun h => ha (Answer.text_eq_empty_iff.mp h)
    simp [withAnswer, ha, htext]

/-- **A transcript prints the answers** that say something, and counts all of them. -/
theorem foldl_next_answers (ledger : Ledger) (raws : List RawLine) :
    (raws.foldl next { ledger }).printed.toList =
        ((untilFault (ledger.tellAll (spoken raws)).1).filter (· ≠ .noted)).map Answer.text ∧
      (raws.foldl next { ledger }).answered = (untilFault (ledger.tellAll (spoken raws)).1).length := by
  induction raws generalizing ledger with
  | nil => exact ⟨rfl, rfl⟩
  | cons raw raws ih =>
    rw [List.foldl_cons]
    cases heard ledger raw with
    | unreadable hr =>
      rw [next_of_unreadable (t := { ledger }) rfl hr, foldl_next_of_stop rfl]
      simp [spoken, hr, untilFault]
    | blank hr hb =>
      rw [next_of_blank (t := { ledger }) rfl hr hb, foldl_next_eq_andThen rfl]
      simpa [andThen, spoken, hr, hb] using ih ledger
    | @answer line a l hr hb ha =>
      obtain ⟨hprinted, hanswered⟩ := ih l
      have hout : untilFault (ledger.tellAll (spoken (raw :: raws))).1 =
          a :: untilFault (l.tellAll (spoken raws)).1 := by
        simp only [spoken, hr, hb, Bool.false_eq_true, if_false, Ledger.tellAll, ha, untilFault]
      have hnext := next_of_answer (t := { ledger }) rfl hr hb ha
      have hledger : (({ ledger } : Transcript).next raw).ledger = l := by rw [hnext]; rfl
      have hstop : (({ ledger } : Transcript).next raw).stop = none := by rw [hnext]; rfl
      rw [foldl_next_eq_andThen hstop, hledger, hout]
      constructor
      · show (_ ++ _ : Array String).toList = _
        rw [Array.toList_append, hprinted, hnext, toList_printed_withAnswer, List.append_assoc, ← List.map_append,
          ← List.filter_append]
        rfl
      · show _ + _ = _
        rw [hanswered, hnext, List.length_cons, Nat.add_comm]
        rfl
    | fault hr hb hf =>
      rw [next_of_fault (t := { ledger }) rfl hr hb hf, foldl_next_of_stop rfl]
      simp [spoken, hr, hb, Ledger.tellAll, hf, untilFault]

/-- The answers of a reachable ledger stay on their lines. -/
theorem onOneLine_of_mem_untilFault {ledger : Ledger} (h : ledger.Reachable) {lines : List String} {a : Answer}
    (ha : a ∈ untilFault (ledger.tellAll lines).1) : OnOneLine a.text := by
  induction lines generalizing ledger with
  | nil => contradiction
  | cons line lines ih =>
    simp only [Ledger.tellAll] at ha
    cases htell : (ledger.tell line).1 with
    | error f =>
      rw [htell] at ha
      contradiction
    | ok b =>
      rw [htell] at ha
      rcases List.mem_cons.mp ha with rfl | hrest
      · exact (h.inWords htell).onOneLine
      · exact ih (.tell line h) hrest

/-- Lines that are printed, each with a newline behind it, have as many newlines as there are lines. -/
theorem count_newline_printed {as : List Answer} (h : ∀ a ∈ as, OnOneLine a.text) :
    (String.join (as.map fun a => a.text ++ "\n")).toList.count '\n' = as.length := by
  induction as with
  | nil => rfl
  | cons a as ih =>
    obtain ⟨ha, has⟩ := List.forall_mem_cons.mp h
    have hnone : a.text.toList.count '\n' = 0 := List.count_eq_zero.mpr fun hmem => (ha _ hmem).1 rfl
    rw [List.map_cons, String.join_cons, String.toList_append, String.toList_append, List.count_append,
      List.count_append, hnone, ih has, List.length_cons]
    show 0 + 1 + as.length = _
    omega

theorem count_noted_add_length (as : List Answer) :
    (as.filter (· ≠ .noted)).length + as.count .noted = as.length := by
  induction as with
  | nil => rfl
  | cons a as ih =>
    by_cases ha : a = .noted
    · simp [ha, ← ih, Nat.add_assoc]
    · simp [ha, ← ih]
      omega

/-! ## Inputs in two parts, and what an input prints -/

/-- Of an input in two parts, `t` is the transcript of the first and `u` that of the second, which starts so many lines
    later from the ledger that the first has left: this is the transcript `v` of both. -/
structure GoesOn (t u v : Transcript) (n : Nat) : Prop where
  text : v.text = t.text ++ u.text
  ledger : v.ledger = u.ledger
  answered : v.answered = t.answered + u.answered
  stop : v.stop = u.stop.map (Stop.after n)

/-- What a transcript prints of some answers: each that was not just noted, on a line of its own. All of them are
    counted. -/
structure Frames (t : Transcript) (as : List Answer) : Prop where
  text : t.text = String.join ((as.filter (· ≠ .noted)).map fun a => a.text ++ "\n")
  onOneLine : ∀ a ∈ as, OnOneLine a.text
  answered : t.answered = as.length
  lines_add_noted : t.text.toList.count '\n' + as.count .noted = t.answered

theorem goesOn_ofInput {ledger : Ledger} {a : List UInt8} (ha : isClosed a = true)
    (hstop : (ofInput ledger a).stop = none) (b : List UInt8) :
    GoesOn (ofInput ledger a) (ofInput (ofInput ledger a).ledger b) (ofInput ledger (a ++ b)) (a.count newline) := by
  have hlines : (ofInput ledger a).lines = a.count newline := by
    rw [← Text.length_rawLines ha, ofInput, lines_foldl_next hstop]
    exact Nat.zero_add _
  have hboth : ofInput ledger (a ++ b) = (ofInput ledger a).andThen (ofInput (ofInput ledger a).ledger b) := by
    rw [ofInput, Text.rawLines_append b ha, List.foldl_append]
    exact foldl_next_eq_andThen hstop _
  rw [hboth, ← hlines]
  exact ⟨text_andThen _ _, rfl, rfl, rfl⟩

theorem ofInput_append_of_stop {ledger : Ledger} {a : List UInt8} (ha : isClosed a = true)
    (hstop : (ofInput ledger a).stop ≠ none) (b : List UInt8) : ofInput ledger (a ++ b) = ofInput ledger a := by
  obtain ⟨s, hs⟩ := Option.ne_none_iff_exists'.mp hstop
  rw [ofInput, Text.rawLines_append b ha, List.foldl_append]
  exact foldl_next_of_stop hs _

theorem frames_ofInput {ledger : Ledger} (h : ledger.Reachable) (bytes : List UInt8) :
    (ofInput ledger bytes).Frames (answers ledger bytes) := by
  obtain ⟨hprinted, hanswered⟩ := foldl_next_answers ledger (rawLines bytes)
  have honline : ∀ a ∈ answers ledger bytes, OnOneLine a.text := fun a ha => onOneLine_of_mem_untilFault h ha
  have htext : (ofInput ledger bytes).text =
      String.join (((answers ledger bytes).filter (· ≠ .noted)).map fun a => a.text ++ "\n") := by
    rw [text, ofInput, hprinted, List.map_map]
    rfl
  refine ⟨htext, honline, hanswered, ?_⟩
  have hsay : ∀ a ∈ (answers ledger bytes).filter (· ≠ .noted), OnOneLine a.text :=
    fun a ha => honline a (List.mem_of_mem_filter ha)
  rw [htext, count_newline_printed hsay, count_noted_add_length]
  exact hanswered.symm

/-- **Inputs in two parts, and what any input prints.** Let the first part be closed. If it stops a transcript, the
    second makes no difference; otherwise the transcript goes on from the ledger that the first part has left, and
    numbers the lines on from the newlines in it. And what a reachable ledger prints is one line for each answer that
    says something, as far as the input could be answered; with those that were noted they make up the count. -/
theorem ofInput_append_frames (ledger : Ledger) :
    (∀ a b, isClosed a = true →
      ((ofInput ledger a).stop = none →
        GoesOn (ofInput ledger a) (ofInput (ofInput ledger a).ledger b) (ofInput ledger (a ++ b)) (a.count newline)) ∧
      ((ofInput ledger a).stop ≠ none → ofInput ledger (a ++ b) = ofInput ledger a)) ∧
    (ledger.Reachable → ∀ bytes, (ofInput ledger bytes).Frames (answers ledger bytes)) := by
  refine ⟨?_, fun h bytes => frames_ofInput h bytes⟩
  intro a b ha
  exact ⟨fun hstop => goesOn_ofInput ha hstop b, fun hstop => ofInput_append_of_stop ha hstop b⟩

/-- A closed input with a line that only its own fact explains, -/
def closedPart : List UInt8 := "glob is I\n\nhow much is glob ?\r\n".toUTF8.toList

/-- and one that is open, and has a fault after that fact. -/
def openPart : List UInt8 := "how much is glob glob glob glob ?".toUTF8.toList

/-- The fault is in the fourth line; and after a line that cannot be read nothing else is. -/
theorem ofInput_append_frames_rejected :
    (ofInput .empty (closedPart ++ openPart)).text = "glob is 1\n" ∧
      (ofInput .empty (closedPart ++ openPart)).stop =
        some (.rejected 4 "how much is glob glob glob glob ?" (.notANumeral "IIII")) ∧
      (ofInput .empty (closedPart ++ openPart)).answered = 2 ∧
      ofInput .empty ([255, newline] ++ closedPart) = ofInput .empty [255, newline] := by
  obtain ⟨happend, hframes⟩ := ofInput_append_frames .empty
  obtain ⟨hon, -⟩ := happend closedPart openPart (by decide +kernel)
  obtain ⟨-, hstopped⟩ := happend [255, newline] closedPart (by decide +kernel)
  have hon := hon (by decide +kernel)
  have hframe := hframes .empty (closedPart ++ openPart)
  refine ⟨hframe.text.trans (by decide +kernel), hon.stop.trans (by decide +kernel),
    hframe.answered.trans (by decide +kernel), hstopped (by decide +kernel)⟩

end Transcript

end TradeTalk
