import Mathlib.Data.List.Basic
import TradeTalk.Proofs.Ledger.History
import TradeTalk.Proofs.Ledger.Locality

/-!
# `Proofs.Ledger.Reordering` — facts in another order

Facts about different names may be told in any order. What is filed under a name depends on the facts about that name
alone, and on the order of those; so two orders that keep it leave the same ledger, as long as every fact is noted in
both.

That is shown name by name and not by exchanging neighbours: between two orders in which every quote is noted there may
be others in which some quote is refused, because its words do not spell a numeral yet or not any more.

## Contents
- **`Request.SharesName`**, **`Reordered`**: facts about one name, and orders that keep them in order.
- **`Reordered.filterMap_eq`**: what such orders have in common.
- **`Reordered.append_comm`**: two groups of lines with no name in common may change places.
- **`Notes`**: a ledger notes all of some lines.
- **`Notes.view_tellAll`**: a run is a fold; **`Notes.getElem?_digits`**, **`Notes.getElem?_metals`**: what is filed under
  one name in the end.
- **`Reordered.tellAll_eq`**: such orders leave the same ledger.
- **`tellAll_reordered`**: the order of facts about different names does not matter.
-/

namespace TradeTalk

open Text (key lower)

/-! ## Orders that keep facts about one name in order -/

/-- The metal that a request states a quote for, if it states one. -/
def History.metalsOf : Request → List String
  | .priceFact _ metal _ => [metal]
  | .digitFact .. | .valueQuestion _ | .priceQuestion .. | .unknown _ => []

/-- Two facts about one name: they give a digit to the same word, or state a quote for the same metal, whatever the case
    of the letters. -/
def Request.SharesName (p q : Request) : Prop :=
  (∃ v ∈ History.wordsOf p, ∃ w ∈ History.wordsOf q, lower v = lower w) ∨
    ∃ m ∈ History.metalsOf p, ∃ n ∈ History.metalsOf q, lower m = lower n

instance (p q : Request) : Decidable (p.SharesName q) :=
  inferInstanceAs (Decidable (_ ∨ _))

namespace Ledger

/-- What a line that a ledger is told asks for. It is kept folded, lest the reader be run on a line that is not given. -/
@[irreducible] def requestOf (line : String) : Request :=
  Request.ofLine (dropLineEnds line)

theorem tell_eq (l : Ledger) (line : String) : l.tell line = l.respond (requestOf line) := by
  rw [tell, requestOf]

theorem ofLines_eq (lines : List String) : History.ofLines lines = lines.map requestOf := by
  rw [History.ofLines]
  exact List.map_congr_left fun line _ => by rw [requestOf]

/-- Some lines in another order, which keeps any two facts about one name in order. Each line is listed with the place
    that it had before, since the same line may be there twice. -/
def Reordered (lines others : List String) : Prop :=
  ∃ told : List (String × Nat), told.map Prod.fst = others ∧ told.Perm lines.zipIdx ∧
    told.Pairwise fun p q => (requestOf p.1).SharesName (requestOf q.1) → p.2 < q.2

/-- The places of some lines increase. -/
theorem pairwise_zipIdx (lines : List String) (start : Nat) :
    (lines.zipIdx start).Pairwise fun p q => p.2 < q.2 := by
  rw [← List.pairwise_map (f := Prod.snd) (R := (· < ·)), List.zipIdx_map_snd]
  exact List.pairwise_lt_range'

variable {lines others : List String}

/-- **Two such orders have the same facts about one name**, in the same order. -/
theorem Reordered.filter_eq (h : Reordered lines others) {about : String → Bool}
    (hshare : ∀ a b, about a = true → about b = true → (requestOf a).SharesName (requestOf b)) :
    others.filter about = lines.filter about := by
  obtain ⟨told, rfl, hperm, hkept⟩ := h
  -- With their places, the lines about the name are sorted in both orders.
  have htold : (told.filter (about ∘ Prod.fst)).Pairwise fun p q => p.2 < q.2 :=
    List.pairwise_filter.mpr (hkept.imp fun hpq hp hq => hpq (hshare _ _ hp hq))
  have hlines : (lines.zipIdx.filter (about ∘ Prod.fst)).Pairwise fun p q => p.2 < q.2 :=
    (pairwise_zipIdx lines 0).filter _
  have hsame : told.filter (about ∘ Prod.fst) = lines.zipIdx.filter (about ∘ Prod.fst) :=
    (hperm.filter _).eq_of_pairwise (fun p q _ _ hpq hqp => absurd hpq hqp.asymm) htold hlines
  rw [List.filter_map, hsame, ← List.filter_map, List.zipIdx_map_fst]

/-- What is read off the facts about one name is the same for both orders. -/
theorem Reordered.filterMap_eq (h : Reordered lines others) {α : Type} {read : Request → Option α}
    (hshare : ∀ p q, (read p).isSome = true → (read q).isSome = true → p.SharesName q) :
    (History.ofLines others).filterMap read = (History.ofLines lines).filterMap read := by
  have hread (lines : List String) : (History.ofLines lines).filterMap read =
      (lines.filter fun line => (read (requestOf line)).isSome).filterMap fun line => read (requestOf line) := by
    rw [ofLines_eq, List.filterMap_map, List.filterMap_filter]
    refine List.filterMap_congr ?_
    intro line _
    cases hq : read (requestOf line) <;> exact hq
  rw [hread, hread, h.filter_eq fun a b ha hb => hshare _ _ ha hb]

/-- **Two groups of lines change places** if no line of the one is about a name of the other. -/
theorem Reordered.append_comm (h : ∀ a ∈ lines, ∀ b ∈ others, ¬ (requestOf b).SharesName (requestOf a)) :
    Reordered (lines ++ others) (others ++ lines) := by
  refine ⟨others.zipIdx lines.length ++ lines.zipIdx, ?_, ?_, ?_⟩
  · rw [List.map_append, List.zipIdx_map_fst, List.zipIdx_map_fst]
  · rw [List.zipIdx_append, Nat.zero_add]
    exact List.perm_append_comm
  · refine List.pairwise_append.mpr ⟨?_, ?_, ?_⟩
    · refine List.Pairwise.imp ?_ (pairwise_zipIdx others lines.length)
      exact fun hpq _ => hpq
    · refine List.Pairwise.imp ?_ (pairwise_zipIdx lines 0)
      exact fun hpq _ => hpq
    · intro p hp q hq hshare
      exact absurd hshare (h q.1 (List.fst_mem_of_mem_zipIdx hq) p.1 (List.fst_mem_of_mem_zipIdx hp))

/-! ## One name -/

/-- The quote that a request states for a name in small letters, with the metal as it is spelled there. -/
def statedFor? (k : String) : Request → Option (String × Quote)
  | .priceFact phrase metal amount => if lower metal = k then some (metal, ⟨phrase, amount⟩) else none
  | .digitFact .. | .valueQuestion _ | .priceQuestion .. | .unknown _ => none

/-- The entry of a metal with one more quote recorded. -/
def requote (entry : Option Listing) (stated : String × Quote) : Option Listing :=
  some ⟨(entry.map Listing.name).getD stated.1, stated.2⟩

theorem sharesName_of_digitOf? {k : String} {p q : Request} (hp : (History.digitOf? k p).isSome = true)
    (hq : (History.digitOf? k q).isSome = true) : p.SharesName q := by
  have hword {q : Request} (hq : (History.digitOf? k q).isSome = true) : ∃ w ∈ History.wordsOf q, lower w = k := by
    cases q with
    | digitFact words digit => simpa [History.digitOf?, History.wordsOf] using hq
    | _ => simp [History.digitOf?] at hq
  obtain ⟨v, hv, rfl⟩ := hword hp
  obtain ⟨w, hw, he⟩ := hword hq
  exact Or.inl ⟨v, hv, w, hw, he.symm⟩

theorem sharesName_of_statedFor? {k : String} {p q : Request} (hp : (statedFor? k p).isSome = true)
    (hq : (statedFor? k q).isSome = true) : p.SharesName q := by
  have hmetal {q : Request} (hq : (statedFor? k q).isSome = true) : ∃ m ∈ History.metalsOf q, lower m = k := by
    cases q with
    | priceFact phrase metal amount => simpa [statedFor?, History.metalsOf] using hq
    | _ => simp [statedFor?] at hq
  obtain ⟨m, hm, rfl⟩ := hmetal hp
  obtain ⟨n, hn, he⟩ := hmetal hq
  exact Or.inr ⟨m, hm, n, hn, he.symm⟩

/-- A ledger notes all of some lines, told one after another. -/
def Notes (l : Ledger) (lines : List String) : Prop :=
  ∀ outcome ∈ (l.tellAll lines).1, outcome = .ok .noted

variable {l : Ledger} {line : String}

theorem notes_cons_iff : l.Notes (line :: lines) ↔ (l.tell line).1 = .ok .noted ∧ (l.tell line).2.Notes lines := by
  simp only [Notes, tellAll, List.forall_mem_cons]

instance (l : Ledger) (lines : List String) : Decidable (l.Notes lines) :=
  inferInstanceAs (Decidable (∀ outcome ∈ (l.tellAll lines).1, outcome = .ok .noted))

/-- What a request that is noted leaves under one name, if its names are filed under their small letters. -/
theorem getElem?_respond {q : Request} (hword : ∀ w ∈ q.words, key w = lower w)
    (hmetal : ∀ m ∈ q.metals, key m = lower m) (h : (l.respond q).1 = .ok .noted) (k : String) :
    (l.respond q).2.digits[k]? = (History.digitOf? k q).elim l.digits[k]? some ∧
      (l.respond q).2.metals[k]? = (statedFor? k q).elim l.metals[k]? (requote l.metals[k]?) := by
  cases q with
  | digitFact words digit =>
    have hkeys : words.map key = words.map lower := List.map_congr_left hword
    simp only [respond, metals_assignAll, getElem?_digits_assignAll, hkeys, History.digitOf?, statedFor?,
      Option.elim_none, and_true]
    split <;> rfl
  | priceFact phrase metal amount =>
    have hkey : key metal = lower metal := hmetal metal List.mem_cons_self
    -- A quote that is not accepted is not noted either.
    have haccepts : l.accepts phrase = .ok () := by
      cases ha : l.accepts phrase with
      | ok => rfl
      | error f => cases f <;> simp [respond, ha, settle] at h
    simp only [respond, haccepts, digits_record, getElem?_metals_record, hkey, History.digitOf?, statedFor?,
      Option.elim_none, true_and]
    split <;> rfl
  | _ => simp only [respond, History.digitOf?, statedFor?, Option.elim_none, and_self]

/-- What a line that is noted leaves under one name. -/
theorem getElem?_tell (h : (l.tell line).1 = .ok .noted) (k : String) :
    (l.tell line).2.digits[k]? = (History.digitOf? k (requestOf line)).elim l.digits[k]? some ∧
      (l.tell line).2.metals[k]? = (statedFor? k (requestOf line)).elim l.metals[k]? (requote l.metals[k]?) := by
  rw [tell_eq] at h ⊢
  apply getElem?_respond ?_ ?_ h k
  · rw [requestOf]
    exact fun w => Request.key_of_mem_words
  · rw [requestOf]
    exact fun m => Request.key_of_mem_metals

/-! ## A run, name by name -/

/-- **A run is a fold.** If a line that is noted changes some view of a ledger only by what is read off the line, then a
    run changes it by what is read off its lines, one after another. -/
theorem Notes.view_tellAll {α β : Type} (view : Ledger → β) {read : Request → Option α} {update : β → α → β}
    (hstep : ∀ (l : Ledger) (line : String), (l.tell line).1 = .ok .noted →
      view (l.tell line).2 = (read (requestOf line)).elim (view l) (update (view l)))
    (h : l.Notes lines) :
    view (l.tellAll lines).2 = ((History.ofLines lines).filterMap read).foldl update (view l) := by
  induction lines generalizing l with
  | nil => rfl
  | cons line lines ih =>
    obtain ⟨hline, hlines⟩ := notes_cons_iff.mp h
    simp only [tellAll]
    rw [ih hlines, hstep l line hline, ofLines_eq, ofLines_eq, List.map_cons, List.filterMap_cons]
    cases read (requestOf line) <;> rfl

/-- The digit that is filed under a name in the end is the last that it was given. -/
theorem Notes.getElem?_digits (h : l.Notes lines) (k : String) :
    (l.tellAll lines).2.digits[k]? =
      ((History.ofLines lines).filterMap (History.digitOf? k)).foldl (fun _ digit => some digit) l.digits[k]? :=
  h.view_tellAll (fun l => l.digits[k]?) fun _ _ hline => (getElem?_tell hline k).1

/-- The entry of a metal in the end has its quotes recorded in it. -/
theorem Notes.getElem?_metals (h : l.Notes lines) (k : String) :
    (l.tellAll lines).2.metals[k]? =
      ((History.ofLines lines).filterMap (statedFor? k)).foldl requote l.metals[k]? :=
  h.view_tellAll (fun l => l.metals[k]?) fun _ _ hline => (getElem?_tell hline k).2

/-- **Two orders that keep the facts about each name in order leave the same ledger.** -/
theorem Reordered.tellAll_eq (h : Reordered lines others) (hlines : l.Notes lines) (hothers : l.Notes others) :
    (l.tellAll others).2 = (l.tellAll lines).2 := by
  apply Ledger.ext
  · apply Std.ExtTreeMap.ext_getElem?
    intro k
    rw [hothers.getElem?_digits, hlines.getElem?_digits, h.filterMap_eq fun _ _ => sharesName_of_digitOf?]
  · apply Std.ExtTreeMap.ext_getElem?
    intro k
    rw [hothers.getElem?_metals, hlines.getElem?_metals, h.filterMap_eq fun _ _ => sharesName_of_statedFor?]

/-! ## Telling the orders apart -/

/-- Two ledgers that nothing tells apart: they have the same tables and the same overview, and answer any lines alike. -/
structure Alike (l m : Ledger) : Prop where
  digits : l.digits = m.digits
  metals : l.metals = m.metals
  overview : l.overview = m.overview
  later : ∀ more, l.tellAll more = m.tellAll more

theorem alike_of_eq {m : Ledger} (h : l = m) : Alike l m := by
  subst h
  exact ⟨rfl, rfl, rfl, fun _ => rfl⟩

/-- **The order of facts about different names does not matter.** If a ledger notes some lines in two orders, which keep
    any two facts about one name in order, it cannot be told from them which order it was. So it makes no difference
    whether quotes are told before their words are known or afterwards. -/
theorem tellAll_reordered (l : Ledger) :
    (∀ lines others, Reordered lines others → l.Notes lines → l.Notes others →
        Alike (l.tellAll others).2 (l.tellAll lines).2) ∧
      ∀ quotes words, (∀ line ∈ quotes, ∃ phrase metal amount, requestOf line = .priceFact phrase metal amount) →
        (∀ line ∈ words, ∃ names digit, requestOf line = .digitFact names digit) →
        l.Notes (quotes ++ words) → l.Notes (words ++ quotes) →
          Alike (l.tellAll (words ++ quotes)).2 (l.tellAll (quotes ++ words)).2 := by
  refine ⟨fun lines others h hlines hothers => alike_of_eq (h.tellAll_eq hlines hothers), ?_⟩
  intro quotes words hquotes hwords hfirst hlast
  have hswap : Reordered (quotes ++ words) (words ++ quotes) := by
    apply Reordered.append_comm
    intro quote hquote word hword
    obtain ⟨phrase, metal, amount, hq⟩ := hquotes quote hquote
    obtain ⟨names, digit, hw⟩ := hwords word hword
    -- A word and a metal of one name are filed apart.
    rw [hq, hw]
    simp [Request.SharesName, History.wordsOf, History.metalsOf]
  exact alike_of_eq (hswap.tellAll_eq hfirst hlast)

/-- Two quotes before the words of both are known, one of which is redefined. -/
def quotesFirst : List String :=
  ["glob glob Silver is 34 Credits", "pish Gold is 20 Credits\n", "glob pish is X", "GLOB is I"]

/-- The same lines, where each quote comes after its words. -/
def quotesLast : List String :=
  ["glob pish is X", "pish Gold is 20 Credits\n", "GLOB is I", "glob glob Silver is 34 Credits"]

/-- Both orders leave the same prices. -/
theorem tellAll_reordered_quotes :
    Reordered quotesFirst quotesLast ∧ empty.Notes quotesFirst ∧ empty.Notes quotesLast ∧
      (((empty.tellAll quotesLast).2.tellAll ["how many Credits is glob pish SILVER ?"]).1 =
        [.ok (.price "glob pish" "SILVER" ⟨false, 153, 0, by decide, by decide⟩)]) ∧
      Alike (empty.tellAll (quotesFirst.drop 2 ++ quotesFirst.take 2)).2
        (empty.tellAll (quotesFirst.take 2 ++ quotesFirst.drop 2)).2 := by
  have horder : Reordered quotesFirst quotesLast :=
    ⟨[("glob pish is X", 2), ("pish Gold is 20 Credits\n", 1), ("GLOB is I", 3), ("glob glob Silver is 34 Credits", 0)],
      rfl, by decide +kernel, by decide +kernel⟩
  have hfirst : empty.Notes quotesFirst := by decide +kernel
  have hlast : empty.Notes quotesLast := by decide +kernel
  obtain ⟨hreordered, hquotes⟩ := tellAll_reordered empty
  refine ⟨horder, hfirst, hlast, ?_, ?_⟩
  · rw [(hreordered _ _ horder hfirst hlast).later]
    decide +kernel
  · apply hquotes (quotesFirst.take 2) (quotesFirst.drop 2)
    · intro line hline
      obtain rfl | rfl : line = "glob glob Silver is 34 Credits" ∨ line = "pish Gold is 20 Credits\n" := by
        simpa [quotesFirst] using hline
      · exact ⟨["glob", "glob"], "Silver", ⟨false, 34, 0, by decide, by decide⟩, by decide +kernel⟩
      · exact ⟨["pish"], "Gold", ⟨false, 20, 0, by decide, by decide⟩, by decide +kernel⟩
    · intro line hline
      obtain rfl | rfl : line = "glob pish is X" ∨ line = "GLOB is I" := by simpa [quotesFirst] using hline
      · exact ⟨["glob", "pish"], .ten, by decide +kernel⟩
      · exact ⟨["GLOB"], .one, by decide +kernel⟩
    · decide +kernel
    · decide +kernel

end Ledger

end TradeTalk
