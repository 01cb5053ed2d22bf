import TradeTalk.Proofs.Text.Lines
import TradeTalk.Proofs.Transcript.Frames
import TradeTalk.Program

/-!
# `Proofs.Dialogue.Agreement` — dialogues and transcripts of one input

A dialogue outlives its faults and a transcript does not. Apart from that they do the same: a dialogue without commands
prints what the transcript prints of the lines that the dialogue reports no fault on, and leaves the same ledger. So a
transcript of all the lines goes as far as the first fault, and stops there with the fault that the dialogue reports.

The proof compares the two line by line. A line with a fault changes nothing but what is reported, so the dialogue after
it still agrees with the transcript before it.

## Contents
- **`IsPlain`**: a line that is no command; **`next_of_answer`** and others: what a plain line does to a dialogue.
- **`reports`**, **`review`**: the faults reported on a line, and on each line of an input.
- **`Agrees`**, **`Agrees.next`**, **`Agrees.foldl`**: agreement, kept by one line and by all that are not rejected.
- **`Rejects`**, **`rejects_of_reports`**: all that a rejected line does.
- **`agreement`**: dialogue and transcript of one input.
-/

namespace TradeTalk

open Text (RawLine allBlank rawLines)

namespace Dialogue

variable {d : Dialogue} {t : Transcript} {raw : RawLine} {line : String}

/-! ## Plain lines -/

/-- A line that is no command. Blank lines, which are passed over, are plain too. -/
def IsPlain (raw : RawLine) : Prop :=
  ∀ line, raw.text? = some line →
    String.ofList (Text.trim line.toList) ≠ ":facts" ∧ String.ofList (Text.trim line.toList) ≠ ":quit"

instance (raw : RawLine) : Decidable (IsPlain raw) :=
  decidable_of_iff ((raw.text?.all fun line => String.ofList (Text.trim line.toList) ≠ ":facts" ∧
    String.ofList (Text.trim line.toList) ≠ ":quit") = true) (by
      cases hr : raw.text? <;> simp [IsPlain, hr])

theorem ofLine?_dropLineEnds (line : String) :
    Command.ofLine? (Ledger.dropLineEnds line) = Command.ofLine? line := by
  rw [Command.ofLine?, (sameLine_dropLineEnds line).trim, Command.ofLine?]

theorem ofLine?_of_allBlank (hb : allBlank line.toList = true) : Command.ofLine? line = some .pass := by
  rw [Command.ofLine?, Text.trim_eq_nil_iff.mpr hb]
  rfl

theorem ofLine?_of_isPlain (hp : IsPlain raw) (hr : raw.text? = some line) (hb : allBlank line.toList = false) :
    Command.ofLine? line = none := by
  obtain ⟨hfacts, hquit⟩ := hp line hr
  have hne : String.ofList (Text.trim line.toList) ≠ "" := by
    intro he
    have hnil : Text.trim line.toList = [] := by simpa using congrArg String.toList he
    rw [Text.trim_eq_nil_iff, hb] at hnil
    exact absurd hnil Bool.false_ne_true
  unfold Command.ofLine?
  split
  · rename_i he
    exact absurd he hne
  · rename_i he
    exact absurd he hfacts
  · rename_i he
    exact absurd he hquit
  · rfl

/-- A line that cannot be read ends a dialogue, -/
theorem next_of_unreadable (hd : d.farewell = none) (hr : raw.text? = none) :
    d.next raw = { d with farewell := some .unreadable } := by
  simp only [next, hd, hr, Option.isSome_none, Bool.false_eq_true, if_false]

/-- a blank line is passed over, -/
theorem next_of_blank (hr : raw.text? = some line) (hb : allBlank line.toList = true) : d.next raw = d := by
  unfold next
  split
  · rfl
  · simp only [hr, nextText, ofLine?_dropLineEnds, ofLine?_of_allBlank hb]

/-- an answer is printed unless it is silent, -/
theorem next_of_answer (hd : d.farewell = none) (hp : IsPlain raw) (hr : raw.text? = some line)
    (hb : allBlank line.toList = false) {a : Answer} {l : Ledger} (ha : d.ledger.tell line = (.ok a, l)) :
    d.next raw =
      { d with ledger := l, printed := if a.text = "" then d.printed else d.printed.push (a.text ++ "\n") } := by
  simp only [next, hd, hr, nextText, ofLine?_dropLineEnds, ofLine?_of_isPlain hp hr hb,
    (sameLine_dropLineEnds line).tell, ha, Option.isSome_none, Bool.false_eq_true, if_false]

/-- and a fault is reported. -/
theorem next_of_fault (hd : d.farewell = none) (hp : IsPlain raw) (hr : raw.text? = some line)
    (hb : allBlank line.toList = false) {f : Fault} {l : Ledger} (hf : d.ledger.tell line = (.error f, l)) :
    d.next raw = { d with ledger := l, faults := d.faults.push f } := by
  simp only [next, hd, hr, nextText, ofLine?_dropLineEnds, ofLine?_of_isPlain hp hr hb,
    (sameLine_dropLineEnds line).tell, hf, Option.isSome_none, Bool.false_eq_true, if_false]

/-! ## What a dialogue reports -/

/-- The faults that a dialogue reports on one more line. -/
def reports (d : Dialogue) (raw : RawLine) : List Fault :=
  (d.next raw).faults.toList.drop d.faults.size

/-- Each of some lines with the faults that a dialogue reports on it. -/
def review (d : Dialogue) : List RawLine → List (RawLine × List Fault)
  | [] => []
  | raw :: raws => (raw, d.reports raw) :: (d.next raw).review raws

/-- The lines that a dialogue reports no fault on. -/
def unrejected (d : Dialogue) (raws : List RawLine) : List RawLine :=
  ((d.review raws).filter fun (_, faults) => faults.isEmpty).map Prod.fst

theorem map_fst_review (d : Dialogue) (raws : List RawLine) : (d.review raws).map Prod.fst = raws := by
  induction raws generalizing d with
  | nil => rfl
  | cons raw raws ih => rw [review, List.map_cons, ih]

theorem unrejected_sublist (d : Dialogue) (raws : List RawLine) : (d.unrejected raws).Sublist raws := by
  have h := (List.filter_sublist (l := d.review raws) (p := fun (_, faults) => faults.isEmpty)).map Prod.fst
  rwa [map_fst_review] at h

theorem unrejected_of_forall {raws : List RawLine} (h : ∀ p ∈ d.review raws, p.2 = []) : d.unrejected raws = raws := by
  have hfilter : (d.review raws).filter (fun (_, faults) => faults.isEmpty) = d.review raws :=
    List.filter_eq_self.mpr fun p hp => List.isEmpty_iff.mpr (h p hp)
  rw [unrejected, hfilter, map_fst_review]

theorem reports_of_faults_eq (h : (d.next raw).faults = d.faults) : d.reports raw = [] := by
  simp [reports, h]

theorem reports_of_push {f : Fault} (h : (d.next raw).faults = d.faults.push f) : d.reports raw = [f] := by
  simp [reports, h]

/-! ## A rejected line -/

/-- All that a line does to a dialogue that reports a fault on it: the ledger has that fault for it, and nothing changes
    but what has been reported. -/
structure Rejects (d : Dialogue) (raw : RawLine) (line : String) (f : Fault) : Prop where
  farewell : d.farewell = none
  text : raw.text? = some line
  not_blank : allBlank line.toList = false
  tell : d.ledger.tell line = (.error f, d.ledger)
  letters : ∃ ds, f = .notANumeral (Numeral.text ds)
  reports : d.reports raw = [f]
  next : d.next raw = { d with faults := d.faults.push f }

/-- A plain line is rejected, or nothing is reported. -/
theorem rejects_or_faults_eq (h : d.ledger.Reachable) (hp : IsPlain raw) :
    (∃ line f, d.Rejects raw line f) ∨ (d.next raw).faults = d.faults := by
  cases hd : d.farewell with
  | some f => exact Or.inr (by rw [next_of_farewell hd])
  | none =>
    cases heard d.ledger raw with
    | unreadable hr => exact Or.inr (by rw [next_of_unreadable hd hr])
    | blank hr hb => exact Or.inr (by rw [next_of_blank hr hb])
    | answer hr hb ha => exact Or.inr (by rw [next_of_answer hd hp hr hb ha])
    | @fault line f l hr hb hf =>
      obtain ⟨rfl, hletters⟩ := h.tell_error hf
      have hnext := next_of_fault hd hp hr hb hf
      exact Or.inl ⟨line, f, hd, hr, hb, hf, hletters, reports_of_push (by rw [hnext]), hnext⟩

theorem rejects_of_reports (h : d.ledger.Reachable) (hp : IsPlain raw) (hne : d.reports raw ≠ []) :
    ∃ line f, d.Rejects raw line f := by
  rcases rejects_or_faults_eq h hp with hrejects | hsame
  · exact hrejects
  · exact absurd (reports_of_faults_eq hsame) hne

/-- **What has been reported** by then is followed by what is reported on each line. -/
theorem faults_next (h : d.ledger.Reachable) (hp : IsPlain raw) :
    (d.next raw).faults.toList = d.faults.toList ++ d.reports raw := by
  rcases rejects_or_faults_eq h hp with ⟨line, f, hr⟩ | hsame
  · rw [hr.reports, hr.next, Array.toList_push]
  · rw [reports_of_faults_eq hsame, hsame, List.append_nil]

/-! ## The ledger stays reachable -/

theorem reachable_next (h : d.ledger.Reachable) (hp : IsPlain raw) : (d.next raw).ledger.Reachable := by
  cases hd : d.farewell with
  | some f => rwa [next_of_farewell hd]
  | none =>
    cases heard d.ledger raw with
    | unreadable hr => rwa [next_of_unreadable hd hr]
    | blank hr hb => rwa [next_of_blank hr hb]
    | @answer line a l hr hb ha =>
      have hl : (d.ledger.tell line).2 = l := by rw [ha]
      rw [next_of_answer hd hp hr hb ha]
      show l.Reachable
      rw [← hl]
      exact .tell line h
    | fault hr hb hf =>
      rw [next_of_fault hd hp hr hb hf]
      exact (h.tell_error hf).1 ▸ h

theorem reachable_foldl {raws : List RawLine} (h : d.ledger.Reachable) (hp : ∀ raw ∈ raws, IsPlain raw) :
    (raws.foldl next d).ledger.Reachable := by
  induction raws generalizing d with
  | nil => exact h
  | cons raw raws ih =>
    obtain ⟨hraw, hraws⟩ := List.forall_mem_cons.mp hp
    exact ih (reachable_next h hraw) hraws

theorem faults_foldl {raws : List RawLine} (h : d.ledger.Reachable) (hp : ∀ raw ∈ raws, IsPlain raw) :
    (raws.foldl next d).faults.toList = d.faults.toList ++ (d.review raws).flatMap Prod.snd := by
  induction raws generalizing d with
  | nil => simp [review]
  | cons raw raws ih =>
    obtain ⟨hraw, hraws⟩ := List.forall_mem_cons.mp hp
    rw [List.foldl_cons, ih (reachable_next h hraw) hraws, faults_next h hraw, review, List.flatMap_cons,
      List.append_assoc]

/-! ## Agreement -/

/-- A dialogue agrees with a transcript: they have printed the same, they know the same, and if no more lines are taken,
    it is since one could not be read. -/
structure Agrees (d : Dialogue) (t : Transcript) : Prop where
  text : t.text = d.text
  ledger : t.ledger = d.ledger
  farewell : d.farewell ≠ some .quit
  stop : t.stop = d.farewell.map fun _ => .unreadable

theorem agrees_fresh (ledger : Ledger) : Agrees { ledger } { ledger } :=
  ⟨rfl, rfl, by simp, rfl⟩

theorem text_push (t : Transcript) (d : Dialogue) (h : t.text = d.text) (a : Answer) :
    (t.withAnswer a).text = String.join (if a.text = "" then d.printed else d.printed.push (a.text ++ "\n")).toList := by
  unfold Transcript.withAnswer
  by_cases ha : a.text = ""
  · rw [if_pos ha, if_pos ha]
    exact h
  · rw [if_neg ha, if_neg ha, ← String.toList_inj]
    have hlist := congrArg String.toList h
    simp only [Transcript.text, text, String.toList_join] at hlist
    simp [Transcript.text, String.toList_join, hlist]

/-- **One line keeps agreement**, unless a fault is reported on it. -/
theorem Agrees.next (h : Agrees d t) (hp : IsPlain raw) (hr : d.reports raw = []) :
    Agrees (d.next raw) (t.next raw) := by
  cases hd : d.farewell with
  | some f =>
    have ht : t.stop = some .unreadable := by rw [h.stop, hd, Option.map_some]
    rwa [next_of_farewell hd, Transcript.next_of_stop ht]
  | none =>
    have ht : t.stop = none := by rw [h.stop, hd, Option.map_none]
    cases heard d.ledger raw with
    | unreadable hu =>
      rw [next_of_unreadable hd hu, Transcript.next_of_unreadable ht hu]
      exact ⟨h.text, h.ledger, by simp, rfl⟩
    | blank hu hb =>
      rw [next_of_blank hu hb, Transcript.next_of_blank ht hu hb]
      exact ⟨h.text, h.ledger, h.farewell, h.stop⟩
    | answer hu hb ha =>
      rw [next_of_answer hd hp hu hb ha, Transcript.next_of_answer ht hu hb (h.ledger ▸ ha)]
      exact ⟨text_push _ d h.text _, rfl, h.farewell, h.stop⟩
    | fault hu hb hf =>
      rw [reports_of_push (by rw [next_of_fault hd hp hu hb hf])] at hr
      exact absurd hr (List.cons_ne_nil _ _)

/-- A rejected line leaves the dialogue in agreement with the transcript before it. -/
theorem Agrees.of_rejects (h : Agrees d t) {f : Fault} (hr : d.Rejects raw line f) : Agrees (d.next raw) t := by
  rw [hr.next]
  exact ⟨h.text, h.ledger, h.farewell, h.stop⟩

/-- **All lines keep agreement**, if the transcript is spared those that a fault is reported on. -/
theorem Agrees.foldl {raws : List RawLine} (h : Agrees d t) (hl : d.ledger.Reachable)
    (hp : ∀ raw ∈ raws, IsPlain raw) :
    Agrees (raws.foldl Dialogue.next d) ((d.unrejected raws).foldl Transcript.next t) := by
  induction raws generalizing d t with
  | nil => exact h
  | cons raw raws ih =>
    obtain ⟨hraw, hraws⟩ := List.forall_mem_cons.mp hp
    have hreach := reachable_next hl hraw
    by_cases hr : d.reports raw = []
    · have hkept : d.unrejected (raw :: raws) = raw :: (d.next raw).unrejected raws := by
        simp [unrejected, review, hr]
      rw [hkept]
      exact ih (h.next hraw hr) hreach hraws
    · -- Only the dialogue takes this line, and it is left as it was but for what it has reported.
      obtain ⟨line, f, hrejects⟩ := rejects_of_reports hl hraw hr
      have hkept : d.unrejected (raw :: raws) = (d.next raw).unrejected raws := by
        simp [unrejected, review, hr]
      rw [hkept]
      exact ih (h.of_rejects hrejects) hreach hraws

/-! ## Dialogue and transcript of one input -/

/-- An input without the lines that a dialogue reports a fault on. -/
def withoutRejected (ledger : Ledger) (bytes : List UInt8) : List UInt8 :=
  (unrejected { ledger } (rawLines bytes)).flatMap RawLine.toBytes

/-- A dialogue and a transcript of one input, told to one ledger. -/
structure Agreement (ledger : Ledger) (bytes : List UInt8) : Prop where
  /-- Without the rejected lines, the transcript prints what the dialogue prints. -/
  agrees : Agrees (ofInput ledger bytes) (Transcript.ofInput ledger (withoutRejected ledger bytes))
  /-- The dialogue reports the fault of each rejected line, and at last a line that cannot be read. -/
  errors : (ofInput ledger bytes).outcome.errors =
    ((review { ledger } (rawLines bytes)).flatMap Prod.snd).map Fault.message ++
      if (ofInput ledger bytes).farewell = some .unreadable then [Stop.unreadable.message] else []
  /-- Each rejected line has one fault, and at the first of them the transcript stops with it. -/
  rejected : ∀ before raw after, rawLines bytes = before ++ raw :: after →
    (before.foldl next { ledger }).reports raw ≠ [] →
      ∃ line f, (before.foldl next { ledger }).Rejects raw line f ∧
        ((∀ p ∈ review { ledger } before, p.2 = []) →
          (Transcript.ofInput ledger bytes).text = (before.foldl next { ledger }).text ∧
          (Transcript.ofInput ledger bytes).ledger = (before.foldl next { ledger }).ledger ∧
          (Transcript.ofInput ledger bytes).stop =
            some (.rejected (before.length + 1) (Transcript.dropReturn raw line) f))
  /-- At the first line that cannot be read the dialogue ends, and so does the transcript if it has come so far. -/
  unreadable : ∀ before raw after, rawLines bytes = before ++ raw :: after → raw.text? = none →
    (∀ r ∈ before, r.text? ≠ none) →
      ofInput ledger bytes = { before.foldl next { ledger } with farewell := some .unreadable } ∧
        ((∀ p ∈ review { ledger } before, p.2 = []) →
          (Transcript.ofInput ledger bytes).text = (before.foldl next { ledger }).text ∧
          (Transcript.ofInput ledger bytes).ledger = (before.foldl next { ledger }).ledger ∧
          (Transcript.ofInput ledger bytes).lines = before.length ∧
          (Transcript.ofInput ledger bytes).stop = some .unreadable)

variable {ledger : Ledger} {bytes : List UInt8}

theorem farewell_next (hd : d.farewell = none) (hp : IsPlain raw) (hr : raw.text? ≠ none) :
    (d.next raw).farewell = none := by
  cases heard d.ledger raw with
  | unreadable hu => exact absurd hu hr
  | blank hu hb =>
    rw [next_of_blank hu hb]
    exact hd
  | answer hu hb ha =>
    rw [next_of_answer hd hp hu hb ha]
    exact hd
  | fault hu hb hf =>
    rw [next_of_fault hd hp hu hb hf]
    exact hd

/-- A dialogue goes on as long as lines can be read. -/
theorem farewell_foldl {raws : List RawLine} (hd : d.farewell = none) (hp : ∀ raw ∈ raws, IsPlain raw)
    (hr : ∀ raw ∈ raws, raw.text? ≠ none) : (raws.foldl next d).farewell = none := by
  induction raws generalizing d with
  | nil => exact hd
  | cons raw raws ih =>
    obtain ⟨hraw, hraws⟩ := List.forall_mem_cons.mp hp
    obtain ⟨hread, hreads⟩ := List.forall_mem_cons.mp hr
    exact ih (farewell_next hd hraw hread) hraws hreads

theorem errors_outcome (h : ledger.Reachable) (hp : ∀ raw ∈ rawLines bytes, IsPlain raw) :
    (ofInput ledger bytes).outcome.errors =
      ((review { ledger } (rawLines bytes)).flatMap Prod.snd).map Fault.message ++
        if (ofInput ledger bytes).farewell = some .unreadable then [Stop.unreadable.message] else [] := by
  have hfaults : (ofInput ledger bytes).faults.toList = (review { ledger } (rawLines bytes)).flatMap Prod.snd :=
    faults_foldl (d := { ledger }) h hp
  rw [← hfaults, outcome]
  cases (ofInput ledger bytes).farewell with
  | none => simp
  | some f =>
    cases f with
    | quit => simp
    | unreadable => rfl

/-- As far as nothing has been rejected, dialogue and transcript agree, and the transcript has counted the lines. -/
theorem agrees_foldl_of_forall {before : List RawLine} (h : ledger.Reachable) (hp : ∀ raw ∈ before, IsPlain raw)
    (hnone : ∀ p ∈ review { ledger } before, p.2 = []) :
    Agrees (before.foldl next { ledger }) (before.foldl Transcript.next { ledger }) := by
  have hagrees := (agrees_fresh ledger).foldl h hp
  rwa [unrejected_of_forall hnone] at hagrees

/-- At the first rejected line a transcript stops. -/
theorem ofInput_of_first_rejected {before after : List RawLine} (hbytes : rawLines bytes = before ++ raw :: after)
    (hagrees : Agrees (before.foldl next { ledger }) (before.foldl Transcript.next { ledger })) {f : Fault}
    (hr : (before.foldl next { ledger }).Rejects raw line f) :
    (Transcript.ofInput ledger bytes).text = (before.foldl next { ledger }).text ∧
      (Transcript.ofInput ledger bytes).ledger = (before.foldl next { ledger }).ledger ∧
      (Transcript.ofInput ledger bytes).stop =
        some (.rejected (before.length + 1) (Transcript.dropReturn raw line) f) := by
  have hstop : (before.foldl Transcript.next { ledger }).stop = none := by
    rw [hagrees.stop, hr.farewell, Option.map_none]
  have hlines : (before.foldl Transcript.next { ledger }).lines = before.length := by
    rw [Transcript.lines_foldl_next hstop]
    exact Nat.zero_add _
  have hnext := Transcript.next_of_fault hstop hr.text hr.not_blank (hagrees.ledger ▸ hr.tell)
  have hinput : Transcript.ofInput ledger bytes = (before.foldl Transcript.next { ledger }).next raw := by
    rw [Transcript.ofInput, hbytes, List.foldl_append, List.foldl_cons]
    exact Transcript.foldl_next_of_stop (by rw [hnext]) after
  rw [hinput, hnext, hlines]
  exact ⟨hagrees.text, hagrees.ledger, rfl⟩

/-- At the first line that cannot be read a dialogue ends. -/
theorem ofInput_of_first_unreadable {before after : List RawLine} (hbytes : rawLines bytes = before ++ raw :: after)
    (hd : (before.foldl next { ledger }).farewell = none) (hr : raw.text? = none) :
    ofInput ledger bytes = { before.foldl next { ledger } with farewell := some .unreadable } := by
  rw [ofInput, hbytes, List.foldl_append, List.foldl_cons, next_of_unreadable hd hr]
  exact foldl_next_of_farewell rfl after

/-- **A dialogue and a transcript of one input agree**, if the input has no commands in it. -/
theorem agreement (h : ledger.Reachable) (hp : ∀ raw ∈ rawLines bytes, IsPlain raw) : Agreement ledger bytes where
  agrees := by
    rw [Transcript.ofInput, withoutRejected, Text.rawLines_flatMap_of_sublist (unrejected_sublist _ _)]
    exact (agrees_fresh ledger).foldl h hp
  errors := errors_outcome h hp
  rejected := by
    intro before raw after hbytes hne
    have hplain : ∀ r ∈ before, IsPlain r := fun r hr => hp r (by simp [hbytes, hr])
    obtain ⟨line, f, hrejects⟩ := rejects_of_reports (reachable_foldl h hplain) (hp raw (by simp [hbytes])) hne
    refine ⟨line, f, hrejects, ?_⟩
    intro hnone
    exact ofInput_of_first_rejected hbytes (agrees_foldl_of_forall h hplain hnone) hrejects
  unreadable := by
    intro before raw after hbytes hr hread
    have hplain : ∀ r ∈ before, IsPlain r := fun r hr => hp r (by simp [hbytes, hr])
    have hd : (before.foldl next { ledger }).farewell = none := farewell_foldl rfl hplain hread
    refine ⟨ofInput_of_first_unreadable hbytes hd hr, ?_⟩
    intro hnone
    have hagrees := agrees_foldl_of_forall h hplain hnone
    have hstop : (before.foldl Transcript.next { ledger }).stop = none := by rw [hagrees.stop, hd, Option.map_none]
    have hlines := Transcript.lines_foldl_next hstop
    have hinput : Transcript.ofInput ledger bytes =
        { before.foldl Transcript.next { ledger } with stop := some .unreadable } := by
      rw [Transcript.ofInput, hbytes, List.foldl_append, List.foldl_cons, Transcript.next_of_unreadable hstop hr]
      exact Transcript.foldl_next_of_stop rfl after
    rw [hinput]
    exact ⟨hagrees.text, hagrees.ledger, hlines.trans (Nat.zero_add _), rfl⟩

/-- An input with a rejected line, a blank one, and one that cannot be read. -/
def mixedInput : List UInt8 :=
  "glob is I\nhow much is glob glob glob glob ?\r\n \nhow much is glob ?\n".toUTF8.toList ++ [255]

/-- The dialogue answers the question after the fault. The transcript does so too without the rejected line, and stops
    there otherwise. -/
theorem agreement_mixed :
    Ledger.empty.Reachable ∧ (∀ raw ∈ rawLines mixedInput, IsPlain raw) ∧
      (Transcript.ofInput .empty (withoutRejected .empty mixedInput)).text = "glob is 1\n" ∧
      (ofInput .empty mixedInput).outcome.errors =
        ["IIII is not a valid roman numeral number", "Failed to read input: stream did not contain valid UTF-8"] ∧
      (∃ line f, (Transcript.ofInput .empty mixedInput).stop = some (.rejected 2 line f)) ∧
      (ofInput .empty mixedInput).farewell = some .unreadable := by
  have hplain : ∀ raw ∈ rawLines mixedInput, IsPlain raw := by decide +kernel
  have h := agreement .empty hplain
  obtain ⟨line, f, -, hfirst⟩ := h.rejected [⟨"glob is I".toUTF8.toList, true⟩]
    ⟨"how much is glob glob glob glob ?\r".toUTF8.toList, true⟩ ((rawLines mixedInput).drop 2) (by decide +kernel)
    (by decide +kernel)
  obtain ⟨-, -, hstop⟩ := hfirst (by decide +kernel)
  have hlast := h.unreadable ((rawLines mixedInput).take 4) ⟨[255], false⟩ [] (by decide +kernel) (by decide +kernel)
    (by decide +kernel)
  exact ⟨.empty, hplain, h.agrees.text.trans (by decide +kernel), h.errors.trans (by decide +kernel), ⟨_, f, hstop⟩,
    by rw [hlast.1]⟩

end Dialogue

end TradeTalk
