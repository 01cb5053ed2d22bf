import TradeTalk.Proofs.Ledger.History
import TradeTalk.Proofs.Ledger.Locality
import TradeTalk.SharedLedger

/-!
# `Proofs.SharedLedger.Noninterference` — clients with names of their own

Two clients of one shared ledger that have no word and no metal in common do not notice each other. However their calls
are interleaved, each gets the answers that it would get from a ledger of its own, and the shared ledger ends up as the
two ledgers of their own put together.

Each client is compared with its own run by agreement on its names: its own calls keep it, and those of the other client
do not touch it.

## Contents
- **`Session`**: the calls of two clients in the order in which they are served, and what each of them tells and hears.
- **`Apart`**: lines of two clients that have no name in common.
- **`vocabularyOf`**, **`outside_of_apart`**: the names in some lines, and the lines that mention none of them.
- **`answersTo_tellAll`**: a client in a session, and its own run.
- **`IsDisjointUnion`**, **`serve_noninterference`**: both clients, and the ledger that they leave.
-/

namespace TradeTalk

open Text (key lower)

/-- One of two clients of a shared ledger. -/
inductive Client where
  | first | second
  deriving DecidableEq, Repr

/-- Calls of two clients in the order in which they are served: an interleaving of the calls of the one and those of the
    other. -/
abbrev Session := List (Client × Call)

namespace Session

/-- The lines of a session, whoever tells them. -/
def lines (s : Session) : List String :=
  s.map fun (_, call) => call.line

/-- The lines that a client tells. -/
def linesOf (who : Client) (s : Session) : List String :=
  lines (s.filter fun (client, _) => client = who)

/-- What a client hears, out of the answers to all calls. -/
def answersTo (who : Client) (s : Session) (answers : List (Except Fault Answer)) : List (Except Fault Answer) :=
  ((s.zip answers).filter fun ((client, _), _) => client = who).map Prod.snd

/-! ### One call more -/

variable {who : Client} {p : Client × Call}

@[simp] theorem lines_cons (p : Client × Call) (s : Session) : lines (p :: s) = p.2.line :: lines s := rfl

theorem linesOf_cons_self (h : p.1 = who) (s : Session) : linesOf who (p :: s) = p.2.line :: linesOf who s := by
  simp [linesOf, h]

theorem linesOf_cons_other (h : p.1 ≠ who) (s : Session) : linesOf who (p :: s) = linesOf who s := by
  simp [linesOf, h]

theorem answersTo_cons_self (h : p.1 = who) (s : Session) (answer : Except Fault Answer)
    (answers : List (Except Fault Answer)) :
    answersTo who (p :: s) (answer :: answers) = answer :: answersTo who s answers := by
  simp [answersTo, h]

theorem answersTo_cons_other (h : p.1 ≠ who) (s : Session) (answer : Except Fault Answer)
    (answers : List (Except Fault Answer)) :
    answersTo who (p :: s) (answer :: answers) = answersTo who s answers := by
  simp [answersTo, h]

theorem mem_linesOf {s : Session} (hp : p ∈ s) (h : p.1 = who) : p.2.line ∈ s.linesOf who :=
  List.mem_map.mpr ⟨p, List.mem_filter.mpr ⟨hp, decide_eq_true h⟩, rfl⟩

/-- Every line is told by one of the two. -/
theorem mem_linesOf_or {s : Session} {line : String} (h : line ∈ s.lines) :
    line ∈ s.linesOf .first ∨ line ∈ s.linesOf .second := by
  obtain ⟨⟨client, call⟩, hp, rfl⟩ := List.mem_map.mp h
  cases client with
  | first => exact Or.inl (mem_linesOf hp rfl)
  | second => exact Or.inr (mem_linesOf hp rfl)

end Session

/-- Two clients have no name in common: no word that the one mentions is a word that the other mentions, whatever the
    case of its letters, nor is a metal of the one a metal of the other. -/
def Apart (a b : List String) : Prop :=
  ∀ p ∈ History.ofLines a, ∀ q ∈ History.ofLines b,
    (∀ v ∈ p.words, ∀ w ∈ q.words, lower v ≠ lower w) ∧ ∀ m ∈ p.metals, ∀ n ∈ q.metals, lower m ≠ lower n

instance (a b : List String) : Decidable (Apart a b) :=
  inferInstanceAs (Decidable (∀ p ∈ History.ofLines a, ∀ q ∈ History.ofLines b, _ ∧ _))

theorem Apart.symm {a b : List String} (h : Apart a b) : Apart b a := by
  intro q hq p hp
  obtain ⟨hwords, hmetals⟩ := h p hp q hq
  exact ⟨fun w hw v hv => (hwords v hv w hw).symm, fun n hn m hm => (hmetals m hm n hn).symm⟩

/-! ## The names in some lines -/

/-- The names in some lines. -/
def vocabularyOf (lines : List String) : Vocabulary where
  words := {k | ∃ q ∈ History.ofLines lines, ∃ w ∈ q.words, key w = k}
  metals := {k | ∃ q ∈ History.ofLines lines, ∃ m ∈ q.metals, key m = k}

theorem within_vocabularyOf {lines : List String} {q : Request} (h : q ∈ History.ofLines lines) :
    q.Within (vocabularyOf lines) :=
  ⟨fun w hw => ⟨q, h, w, hw, rfl⟩, fun m hm => ⟨q, h, m, hm, rfl⟩⟩

/-- **What one client tells mentions no name of the other.** -/
theorem outside_of_apart {a b : List String} (h : Apart a b) {q : Request} (hq : q ∈ History.ofLines b) :
    q.Outside (vocabularyOf a) := by
  obtain ⟨line, hline, rfl⟩ := List.mem_map.mp hq
  constructor
  · rintro w hw ⟨p, hp, v, hv, hkey⟩
    have hapart := (h p hp _ hq).1 v hv w hw
    obtain ⟨other, -, rfl⟩ := List.mem_map.mp hp
    rw [Request.key_of_mem_words hv, Request.key_of_mem_words hw] at hkey
    exact hapart hkey
  · rintro n hn ⟨p, hp, m, hm, hkey⟩
    have hapart := (h p hp _ hq).2 m hm n hn
    obtain ⟨other, -, rfl⟩ := List.mem_map.mp hp
    rw [Request.key_of_mem_metals hm, Request.key_of_mem_metals hn] at hkey
    exact hapart hkey

/-! ## One client -/

open Ledger (AgreeOn Confined dropLineEnds)

variable {l m : Ledger} {s : Session} {who : Client} {v : Vocabulary}

/-- **A client in a session hears what it hears in its own run**, if the two ledgers agree on its names and the other
    client mentions none of them; and they still agree in the end. -/
theorem answersTo_tellAll (h : AgreeOn v l m)
    (hmine : ∀ p ∈ s, p.1 = who → (Request.ofLine (dropLineEnds p.2.line)).Within v)
    (hother : ∀ p ∈ s, p.1 ≠ who → (Request.ofLine (dropLineEnds p.2.line)).Outside v) :
    s.answersTo who (l.tellAll s.lines).1 = (m.tellAll (s.linesOf who)).1 ∧
      AgreeOn v (l.tellAll s.lines).2 (m.tellAll (s.linesOf who)).2 := by
  induction s generalizing l m with
  | nil => exact ⟨rfl, h⟩
  | cons p s ih =>
    obtain ⟨hmine, hmineRest⟩ := List.forall_mem_cons.mp hmine
    obtain ⟨hother, hotherRest⟩ := List.forall_mem_cons.mp hother
    rw [Session.lines_cons, Ledger.tellAll, Ledger.tell]
    by_cases hp : p.1 = who
    · -- The client's own call is answered alike, and keeps the agreement.
      obtain ⟨hanswer, hagree⟩ := h.respond (hmine hp)
      obtain ⟨ihAnswers, ihAgree⟩ := ih hagree hmineRest hotherRest
      rw [Session.linesOf_cons_self hp, Session.answersTo_cons_self hp, Ledger.tellAll, Ledger.tell, hanswer, ihAnswers]
      exact ⟨rfl, ihAgree⟩
    · -- A call of the other client goes unheard, and its own run does not have it.
      obtain ⟨ihAnswers, ihAgree⟩ := ih (h.of_outside (hother hp)) hmineRest hotherRest
      rw [Session.linesOf_cons_other hp, Session.answersTo_cons_other hp, ihAnswers]
      exact ⟨rfl, ihAgree⟩

/-- The lines of a client that has no name in common with the other: what it hears, and what it knows. -/
theorem answersTo_of_apart {other : Client} (hwho : ∀ client, client ≠ who → client = other)
    (h : Apart (s.linesOf who) (s.linesOf other)) :
    s.answersTo who (Ledger.empty.tellAll s.lines).1 = (Ledger.empty.tellAll (s.linesOf who)).1 ∧
      AgreeOn (vocabularyOf (s.linesOf who)) (Ledger.empty.tellAll s.lines).2
        (Ledger.empty.tellAll (s.linesOf who)).2 := by
  apply answersTo_tellAll (Ledger.agreeOn_empty _)
  · intro p hp hmine
    exact within_vocabularyOf (List.mem_map_of_mem (Session.mem_linesOf hp hmine))
  · intro p hp hother
    exact outside_of_apart h (List.mem_map_of_mem (Session.mem_linesOf hp (hwho p.1 hother)))

/-! ## Both clients -/

/-- The entries of a table are those of two others, which have none under the same name. -/
structure IsDisjointUnion {α : Type} (t a b : Std.ExtTreeMap String α) : Prop where
  entries : ∀ (k : String) (x : α), t[k]? = some x ↔ a[k]? = some x ∨ b[k]? = some x
  disjoint : ∀ k : String, k ∈ a → k ∉ b

/-- A table with names of two kinds, which agrees on each kind with a table of that kind, is those two put together. -/
theorem isDisjointUnion_of_agree {α : Type} {t a b : Std.ExtTreeMap String α} {va vb : Set String}
    (hkinds : ∀ k ∈ va, k ∉ vb) (hta : ∀ k ∈ va, t[k]? = a[k]?) (htb : ∀ k ∈ vb, t[k]? = b[k]?)
    (ht : ∀ (k : String) (x : α), t[k]? = some x → k ∈ va ∨ k ∈ vb)
    (ha : ∀ (k : String) (x : α), a[k]? = some x → k ∈ va)
    (hb : ∀ (k : String) (x : α), b[k]? = some x → k ∈ vb) : IsDisjointUnion t a b where
  entries := by
    intro k x
    constructor
    · intro hk
      rcases ht k x hk with hmem | hmem
      · exact Or.inl (hta k hmem ▸ hk)
      · exact Or.inr (htb k hmem ▸ hk)
    · rintro (hk | hk)
      · rw [hta k (ha k x hk), hk]
      · rw [htb k (hb k x hk), hk]
  disjoint := by
    intro k hka hkb
    exact hkinds k (ha k _ (Std.ExtTreeMap.getElem?_eq_some_getElem hka))
      (hb k _ (Std.ExtTreeMap.getElem?_eq_some_getElem hkb))

/-- A run has entries for the names in its lines only. -/
theorem confined_tellAll (lines : List String) : Confined (vocabularyOf lines) (Ledger.empty.tellAll lines).2 :=
  (Ledger.confined_empty _).tellAll fun _ hline => within_vocabularyOf (List.mem_map_of_mem hline)

/-- The names in a session are those of its clients. -/
theorem mem_ofLines_or {q : Request} (h : q ∈ History.ofLines s.lines) :
    q ∈ History.ofLines (s.linesOf .first) ∨ q ∈ History.ofLines (s.linesOf .second) := by
  obtain ⟨line, hline, rfl⟩ := List.mem_map.mp h
  exact (Session.mem_linesOf_or hline).imp List.mem_map_of_mem List.mem_map_of_mem

/-- **The ledger that a session leaves** is what the clients would have left by themselves, put together. -/
theorem isDisjointUnion_tellAll (h : Apart (s.linesOf .first) (s.linesOf .second)) :
    IsDisjointUnion (Ledger.empty.tellAll s.lines).2.digits (Ledger.empty.tellAll (s.linesOf .first)).2.digits
        (Ledger.empty.tellAll (s.linesOf .second)).2.digits ∧
      IsDisjointUnion (Ledger.empty.tellAll s.lines).2.metals (Ledger.empty.tellAll (s.linesOf .first)).2.metals
        (Ledger.empty.tellAll (s.linesOf .second)).2.metals := by
  obtain ⟨-, hfirst⟩ := answersTo_of_apart (fun client => by cases client <;> simp) h
  obtain ⟨-, hsecond⟩ := answersTo_of_apart (fun client => by cases client <;> simp) h.symm
  have hall := confined_tellAll s.lines
  have ha := confined_tellAll (s.linesOf .first)
  have hb := confined_tellAll (s.linesOf .second)
  constructor
  · refine isDisjointUnion_of_agree ?_ hfirst.digit hsecond.digit ?_ (fun _ _ => ha.word) (fun _ _ => hb.word)
    · rintro k hka ⟨q, hq, w, hw, rfl⟩
      exact (outside_of_apart h hq).word w hw hka
    · intro k d hk
      obtain ⟨q, hq, hw⟩ := hall.word hk
      exact (mem_ofLines_or hq).imp (fun hq => ⟨q, hq, hw⟩) (fun hq => ⟨q, hq, hw⟩)
  · refine isDisjointUnion_of_agree ?_ hfirst.metal hsecond.metal ?_ (fun _ _ => ha.metal) (fun _ _ => hb.metal)
    · rintro k hka ⟨q, hq, m, hm, rfl⟩
      exact (outside_of_apart h hq).metal m hm hka
    · intro k listing hk
      obtain ⟨q, hq, hm⟩ := hall.metal hk
      exact (mem_ofLines_or hq).imp (fun hq => ⟨q, hq, hm⟩) (fun hq => ⟨q, hq, hm⟩)

namespace SharedLedger

/-- **Clients with names of their own do not notice each other.** However the lines of the two are interleaved, and
    through whatever handles of a new ledger they are told, each client hears what it would hear if its lines were told
    alone to a ledger of its own; and the shared ledger has in the end the tables of the two, put together. -/
theorem serve_noninterference {a b : List String} (h : Apart a b) {s : Session} (ha : s.linesOf .first = a)
    (hb : s.linesOf .second = b) (handles : Nat) :
    s.answersTo .first (serve { handles } (s.map Prod.snd)).1 = (Ledger.empty.tellAll a).1 ∧
      s.answersTo .second (serve { handles } (s.map Prod.snd)).1 = (Ledger.empty.tellAll b).1 ∧
      IsDisjointUnion (serve { handles } (s.map Prod.snd)).2.ledger.digits (Ledger.empty.tellAll a).2.digits
        (Ledger.empty.tellAll b).2.digits ∧
      IsDisjointUnion (serve { handles } (s.map Prod.snd)).2.ledger.metals (Ledger.empty.tellAll a).2.metals
        (Ledger.empty.tellAll b).2.metals := by
  subst ha hb
  have hserve := serve_eq_tellAll { handles } (s.map Prod.snd)
  rw [List.map_map] at hserve
  obtain ⟨hanswers, hledger⟩ := Prod.ext_iff.mp hserve
  simp only at hanswers hledger
  rw [hanswers, hledger]
  exact ⟨(answersTo_of_apart (fun client => by cases client <;> simp) h).1,
    (answersTo_of_apart (fun client => by cases client <;> simp) h.symm).1, isDisjointUnion_tellAll h⟩

/-- A session in which each client redefines a word between a quote and the question about it, and the lines of the other
    stand between. -/
def crossing : Session :=
  [(.first, ⟨0, "glob glob Silver is 34 Credits"⟩), (.second, ⟨1, "Prok is V\n"⟩), (.first, ⟨0, "GLOB is X"⟩),
    (.second, ⟨2, "prok Gold is 57800 Credits"⟩), (.first, ⟨1, "glob is I"⟩), (.second, ⟨1, "prok prok is L"⟩),
    (.first, ⟨0, "how many Credits is glob glob glob SILVER ?"⟩), (.second, ⟨2, "how much is prok prok?"⟩),
    (.second, ⟨1, "how many Credits is prok Gold"⟩)]

/-- The price of the first client's silver is found by its own words, and the second client's numeral is refused for its
    own. -/
theorem serve_noninterference_crossing :
    Apart (crossing.linesOf .first) (crossing.linesOf .second) ∧
      crossing.answersTo .first (serve { handles := 3 } (crossing.map Prod.snd)).1 =
        [.ok .noted, .ok .noted, .ok .noted,
          .ok (.price "glob glob glob" "SILVER" ⟨false, 51, 0, by decide, by decide⟩)] ∧
      crossing.answersTo .second (serve { handles := 3 } (crossing.map Prod.snd)).1 =
        [.ok .noted, .ok .noted, .ok .noted, .error (.notANumeral "LL"),
          .ok (.price "prok" "Gold" ⟨false, 57800, 0, by decide, by decide⟩)] ∧
      IsDisjointUnion (serve { handles := 3 } (crossing.map Prod.snd)).2.ledger.metals
        (Ledger.empty.tellAll (crossing.linesOf .first)).2.metals
        (Ledger.empty.tellAll (crossing.linesOf .second)).2.metals := by
  have h : Apart (crossing.linesOf .first) (crossing.linesOf .second) := by decide +kernel
  obtain ⟨hfirst, hsecond, -, hmetals⟩ := serve_noninterference h rfl rfl 3
  exact ⟨h, hfirst.trans (by decide +kernel), hsecond.trans (by decide +kernel), hmetals⟩

end SharedLedger

end TradeTalk
