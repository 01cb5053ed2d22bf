import Mathlib.Data.Set.Basic
import TradeTalk.Proofs.Ledger.Reachable
import TradeTalk.Proofs.Text.Lower

/-!
# `Proofs.Ledger.Locality` — what an answer depends on

A request reads the entries of the words and of the metal that it mentions, and the entries of the words that the quote
of that metal was stated with. It writes no others. So two ledgers that agree on some names, and whose quotes for these
metals were stated in these words, cannot be told apart by requests that mention no other names; and a request that
mentions none of them leaves the agreement as it was.

The condition on quotes is what makes agreement an invariant: a price is found by words that the question does not
mention, and they may be redefined between the quote and the question.

## Contents
- **`Vocabulary`**; **`Request.Within`**, **`Request.Outside`**: the requests that mention only names of it, or none.
- **`AgreeOn`**, **`AgreeOn.respond`**: agreement, and what a request within the vocabulary does to it.
- **`AgreeOn.of_outside`**: what one outside it does.
- **`Confined`**, **`Confined.tellAll`**: a ledger has entries for names that it was told about only.
-/

namespace TradeTalk

open Text (key lower)

/-- Names of words and of metals, as they are filed. -/
structure Vocabulary where
  words : Set String
  metals : Set String

namespace Request

/-- The words that a request mentions. -/
def words (q : Request) : List String :=
  q.phrase?.getD []

/-- The metal that a request mentions, if it mentions one. -/
def metals : Request → List String
  | .priceFact _ metal _ | .priceQuestion _ metal => [metal]
  | .digitFact .. | .valueQuestion _ | .unknown _ => []

/-- A request mentions names of a vocabulary only. -/
structure Within (q : Request) (v : Vocabulary) : Prop where
  word : ∀ w ∈ q.words, key w ∈ v.words
  metal : ∀ m ∈ q.metals, key m ∈ v.metals

/-- A request mentions no name of a vocabulary. -/
structure Outside (q : Request) (v : Vocabulary) : Prop where
  word : ∀ w ∈ q.words, key w ∉ v.words
  metal : ∀ m ∈ q.metals, key m ∉ v.metals

/-- The words that a line mentions are words. -/
theorem isWord_of_mem_words {line w : String} (h : w ∈ (ofLine line).words) : isWord w.toList = true := by
  cases hp : (ofLine line).phrase? with
  | none => simp [words, hp] at h
  | some phrase =>
    have hne : ∀ raw, ofLine line ≠ .unknown raw := by
      intro raw hraw
      simp [hraw, phrase?] at hp
    simp only [words, hp, Option.getD_some] at h
    exact (isPhrase_of_phrase? (hasForm_iff.mpr ⟨rfl, hne⟩) hp).2 w h

/-- The metals that a line mentions have the names of metals. -/
theorem isMetal_of_mem_metals {line m : String} (h : m ∈ (ofLine line).metals) : isMetal m.toList = true := by
  cases hq : ofLine line with
  | priceFact phrase metal amount =>
    obtain ⟨-, -, hm, -⟩ := hasForm_iff.mpr ⟨hq, by simp⟩
    rw [hq] at h
    exact List.mem_singleton.mp h ▸ hm
  | priceQuestion phrase metal =>
    obtain ⟨-, hm, -⟩ := hasForm_iff.mpr ⟨hq, by simp⟩
    rw [hq] at h
    exact List.mem_singleton.mp h ▸ hm
  | _ => simp [hq, metals] at h

/-- The names that a line mentions are filed under their small letters. -/
theorem key_of_mem_words {line w : String} (h : w ∈ (ofLine line).words) : key w = lower w :=
  Text.key_of_isAscii (Text.isAscii_of_isWord (isWord_of_mem_words h))

theorem key_of_mem_metals {line m : String} (h : m ∈ (ofLine line).metals) : key m = lower m :=
  Text.key_of_isAscii (Text.isAscii_of_isWord (isWord_of_isMetal (isMetal_of_mem_metals h)))

end Request

namespace Ledger

variable {l m : Ledger} {v : Vocabulary} {q : Request}

/-! ## Phrases -/

/-- What a phrase spells depends on the digits of its words. -/
theorem numeral_congr {phrase : Phrase} (h : ∀ w ∈ phrase, l.digit? w = m.digit? w) :
    l.numeral phrase = m.numeral phrase := by
  induction phrase with
  | nil => rfl
  | cons word words ih =>
    obtain ⟨hword, hwords⟩ := List.forall_mem_cons.mp h
    simp only [numeral, digit, hword, ih hwords]

theorem worth_congr {phrase : Phrase} (h : ∀ w ∈ phrase, l.digit? w = m.digit? w) : l.worth phrase = m.worth phrase := by
  simp only [worth, numeral_congr h]

theorem accepts_congr {phrase : Phrase} (h : ∀ w ∈ phrase, l.digit? w = m.digit? w) :
    l.accepts phrase = m.accepts phrase := by
  have hknows : l.knowsAll phrase = m.knowsAll phrase := by
    rw [Bool.eq_iff_iff, knowsAll_iff, knowsAll_iff]
    exact forall₂_congr fun w hw => by rw [h w hw]
  simp only [accepts, hknows, worth_congr h]

/-! ## Agreement -/

/-- Two ledgers agree on a vocabulary: on what its words stand for, on the entries of its metals, and the quotes of these
    metals were stated in its words. -/
structure AgreeOn (v : Vocabulary) (l m : Ledger) : Prop where
  digit : ∀ k ∈ v.words, l.digits[k]? = m.digits[k]?
  metal : ∀ k ∈ v.metals, l.metals[k]? = m.metals[k]?
  quote : ∀ k ∈ v.metals, ∀ listing : Listing, m.metals[k]? = some listing → ∀ w ∈ listing.quote.phrase, key w ∈ v.words

theorem agreeOn_empty (v : Vocabulary) : AgreeOn v empty empty :=
  ⟨fun _ _ => rfl, fun _ _ => rfl, by simp [empty]⟩

theorem AgreeOn.digit? (h : AgreeOn v l m) {words : List String} (hw : ∀ w ∈ words, key w ∈ v.words) :
    ∀ w ∈ words, l.digit? w = m.digit? w :=
  fun w hmem => h.digit (key w) (hw w hmem)

theorem AgreeOn.quote? (h : AgreeOn v l m) {metal : String} (hm : key metal ∈ v.metals) :
    l.quote? metal = m.quote? metal := by
  rw [Ledger.quote?, h.metal _ hm, Ledger.quote?]

/-- The words that a price is found by are words of the vocabulary. -/
theorem AgreeOn.unitPrice (h : AgreeOn v l m) {metal : String} (hm : key metal ∈ v.metals) :
    l.unitPrice metal = m.unitPrice metal := by
  rw [Ledger.unitPrice, Ledger.unitPrice, h.quote? hm]
  cases hquote : m.quote? metal with
  | none => rfl
  | some quote =>
    obtain ⟨listing, hlisting, rfl⟩ := Option.map_eq_some_iff.mp hquote
    simp only [unitPriceBy, worth_congr (h.digit? (h.quote _ hm listing hlisting))]

theorem AgreeOn.assignAll (h : AgreeOn v l m) (words : Phrase) (digit : Digit) :
    AgreeOn v (l.assignAll words digit) (m.assignAll words digit) where
  digit k hk := by rw [getElem?_digits_assignAll, getElem?_digits_assignAll, h.digit k hk]
  metal := by
    rw [metals_assignAll, metals_assignAll]
    exact h.metal
  quote := by
    rw [metals_assignAll]
    exact h.quote

theorem AgreeOn.record (h : AgreeOn v l m) (metal : String) {quote : Quote}
    (hphrase : ∀ w ∈ quote.phrase, key w ∈ v.words) : AgreeOn v (l.record metal quote) (m.record metal quote) where
  digit := h.digit
  metal k hk := by rw [getElem?_metals_record, getElem?_metals_record, h.metal k hk]
  quote := by
    intro k hk listing hlisting
    rw [getElem?_metals_record] at hlisting
    split at hlisting
    · rw [← Option.some.inj hlisting]
      exact hphrase
    · exact h.quote k hk listing hlisting

/-- **A request within the vocabulary** is answered alike by ledgers that agree on it, and leaves them in agreement. -/
theorem AgreeOn.respond (h : AgreeOn v l m) (hq : q.Within v) :
    (l.respond q).1 = (m.respond q).1 ∧ AgreeOn v (l.respond q).2 (m.respond q).2 := by
  have hwords := h.digit? hq.word
  cases q with
  | digitFact words digit => exact ⟨rfl, h.assignAll words digit⟩
  | priceFact phrase metal amount =>
    have haccepts : l.accepts phrase = m.accepts phrase := accepts_congr hwords
    simp only [Ledger.respond, haccepts]
    cases m.accepts phrase with
    | error f => exact ⟨rfl, h⟩
    | ok => exact ⟨rfl, h.record metal hq.word⟩
  | valueQuestion phrase =>
    have hworth : l.worth phrase = m.worth phrase := worth_congr hwords
    simp only [Ledger.respond, interpret, hworth]
    exact ⟨trivial, h⟩
  | priceQuestion phrase metal =>
    have hworth : l.worth phrase = m.worth phrase := worth_congr hwords
    have hprice := h.unitPrice (hq.metal metal List.mem_cons_self)
    simp only [Ledger.respond, price, hworth, hprice]
    exact ⟨trivial, h⟩
  | unknown raw => exact ⟨rfl, h⟩

/-- **A request outside the vocabulary** leaves the agreement as it was. -/
theorem AgreeOn.of_outside (h : AgreeOn v l m) (hq : q.Outside v) : AgreeOn v (l.respond q).2 m := by
  rcases l.respond_snd q with he | ⟨words, digit, rfl, he⟩ | ⟨phrase, metal, amount, rfl, -, he⟩
  · rwa [he]
  · rw [he]
    refine ⟨?_, by rw [metals_assignAll]; exact h.metal, h.quote⟩
    intro k hk
    have hother : k ∉ words.map key := by
      intro hmem
      obtain ⟨w, hw, rfl⟩ := List.mem_map.mp hmem
      exact hq.word w hw hk
    rw [getElem?_digits_assignAll, if_neg hother, h.digit k hk]
  · rw [he]
    refine ⟨h.digit, ?_, h.quote⟩
    intro k hk
    have hother : key metal ≠ k := by
      rintro rfl
      exact hq.metal metal List.mem_cons_self hk
    rw [getElem?_metals_record, if_neg hother, h.metal k hk]

/-! ## Names that were never mentioned -/

/-- A ledger has entries for names of a vocabulary only. -/
structure Confined (v : Vocabulary) (l : Ledger) : Prop where
  word : ∀ {k : String} {d : Digit}, l.digits[k]? = some d → k ∈ v.words
  metal : ∀ {k : String} {listing : Listing}, l.metals[k]? = some listing → k ∈ v.metals

theorem confined_empty (v : Vocabulary) : Confined v empty :=
  ⟨by simp [empty], by simp [empty]⟩

theorem Confined.respond (h : Confined v l) (hq : q.Within v) : Confined v (l.respond q).2 := by
  rcases l.respond_snd q with he | ⟨words, digit, rfl, he⟩ | ⟨phrase, metal, amount, rfl, -, he⟩
  · rwa [he]
  · rw [he]
    refine ⟨?_, by rw [metals_assignAll]; exact h.metal⟩
    intro k d hk
    rw [getElem?_digits_assignAll] at hk
    split at hk
    · rename_i hmem
      obtain ⟨w, hw, rfl⟩ := List.mem_map.mp hmem
      exact hq.word w hw
    · exact h.word hk
  · rw [he]
    refine ⟨h.word, ?_⟩
    intro k listing hk
    rw [getElem?_metals_record] at hk
    split at hk
    · rename_i he
      rw [← he]
      exact hq.metal metal List.mem_cons_self
    · exact h.metal hk

/-- **A ledger has entries for names that it was told about only.** -/
theorem Confined.tellAll (h : Confined v l) {lines : List String}
    (hlines : ∀ line ∈ lines, (Request.ofLine (dropLineEnds line)).Within v) : Confined v (l.tellAll lines).2 := by
  induction lines generalizing l with
  | nil => exact h
  | cons line lines ih =>
    obtain ⟨hline, hrest⟩ := List.forall_mem_cons.mp hlines
    simp only [Ledger.tellAll]
    exact ih (h.respond hline) hrest

end Ledger

end TradeTalk
