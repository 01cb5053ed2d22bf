import Mathlib.Data.List.Induction
import TradeTalk.Ledger.Talk
import TradeTalk.Proofs.Request.Language

/-!
# `Proofs.Ledger.Reachable` — the ledgers that lines can produce

A ledger is reachable when it is what some lines leave of the empty one. Nothing gets into it but what a line states:
that invariant is kept by every line, and together with the language of lines it says what the words, metals, phrases
and amounts of a reachable ledger look like.

## Contents
- **`Reachable`**, **`reachable_iff`**: by lines told one after another, or all at once.
- **`getElem?_digits_assignAll`**, **`getElem?_metals_record`**: the two updates, entry by entry.
- **`mem_overview_words_iff`**, **`mem_overview_metals_iff`**: the rows of an overview are the entries.
- **`Stated`**, **`Reachable.stated`**: every entry was stated by a line.
- **`Reachable.quote_phrase`**, **`Reachable.quote_amount`**: the phrase of a quote is one, and its amount is
  within the cap.
-/

namespace TradeTalk.Ledger

open Text (key)

/-- The ledgers that lines can produce. -/
inductive Reachable : Ledger → Prop where
  | empty : Reachable empty
  | tell {l : Ledger} (line : String) : Reachable l → Reachable (l.tell line).2

theorem tellAll_concat (l : Ledger) (lines : List String) (line : String) :
    l.tellAll (lines ++ [line]) =
      ((l.tellAll lines).1 ++ [((l.tellAll lines).2.tell line).1], ((l.tellAll lines).2.tell line).2) := by
  rw [tellAll_append]
  simp only [tellAll]

/-- **A ledger is reachable exactly if it is what some lines leave of the empty one.** -/
theorem reachable_iff {l : Ledger} : l.Reachable ↔ ∃ lines, (Ledger.empty.tellAll lines).2 = l := by
  constructor
  · intro h
    induction h with
    | empty => exact ⟨[], rfl⟩
    | tell line _ ih =>
      obtain ⟨lines, rfl⟩ := ih
      exact ⟨lines ++ [line], by rw [tellAll_concat]⟩
  · rintro ⟨lines, rfl⟩
    induction lines using List.reverseRecOn with
    | nil => exact .empty
    | append_singleton lines line ih =>
      simp only [tellAll_concat]
      exact .tell line ih

/-! ## Entry by entry -/

@[simp] theorem metals_assignAll (l : Ledger) (words : Phrase) (digit : Digit) :
    (l.assignAll words digit).metals = l.metals := by
  induction words generalizing l with
  | nil => rfl
  | cons word words ih => exact ih (l.assign word digit)

theorem getElem?_digits_assignAll (l : Ledger) (words : Phrase) (digit : Digit) (k : String) :
    (l.assignAll words digit).digits[k]? = if k ∈ words.map key then some digit else l.digits[k]? := by
  induction words generalizing l with
  | nil => simp [assignAll]
  | cons word words ih =>
    -- All the words get one digit, so it does not matter which of them comes last.
    show ((l.assign word digit).assignAll words digit).digits[k]? = _
    rw [ih, assign, Std.ExtTreeMap.getElem?_insert]
    by_cases hk : k ∈ words.map key
    · rw [if_pos hk, if_pos (by simp [hk])]
    · by_cases hw : key word = k
      · rw [if_neg hk, if_pos (by simp [hw]), if_pos (by simp [hw])]
      · rw [if_neg hk, if_neg (by simpa using hw), if_neg (by simpa [hk] using Ne.symm hw)]

theorem getElem?_metals_record (l : Ledger) (metal : String) (quote : Quote) (k : String) :
    (l.record metal quote).metals[k]? =
      if key metal = k then some ⟨(l.metals[k]?.map Listing.name).getD metal, quote⟩ else l.metals[k]? := by
  simp only [record, Std.ExtTreeMap.getElem?_insert, Std.compare_eq_iff_eq]
  split
  · rename_i hk
    subst hk
    cases l.metals[key metal]? <;> rfl
  · rfl

theorem mem_overview_words_iff {l : Ledger} {row : WordRow} :
    row ∈ l.overview.words ↔ ∃ (k : String) (d : Digit), l.digits[k]? = some d ∧ WordRow.mk k d.letter = row := by
  simp [overview, Std.ExtTreeMap.mem_toList_iff_getElem?_eq_some]

theorem mem_overview_metals_iff {l : Ledger} {row : MetalRow} :
    row ∈ l.overview.metals ↔
      ∃ (k : String) (listing : Listing), l.metals[k]? = some listing ∧ l.metalRow listing = row := by
  simp [overview, Std.ExtTreeMap.mem_toList_iff_getElem?_eq_some]

/-! ## Everything was stated -/

/-- Every entry of a ledger was stated by a line: the digit of a word, the spelling of a metal and its quote. -/
structure Stated (l : Ledger) : Prop where
  digit : ∀ {k d}, l.digits[k]? = some d →
    ∃ line words, Request.HasForm line (.digitFact words d) ∧ k ∈ words.map key
  name : ∀ {k listing}, l.metals[k]? = some listing →
    key listing.name = k ∧ ∃ line phrase amount, Request.HasForm line (.priceFact phrase listing.name amount)
  quote : ∀ {k listing}, l.metals[k]? = some listing →
    ∃ line metal, Request.HasForm line (.priceFact listing.quote.phrase metal listing.quote.amount) ∧ key metal = k

theorem Stated.assignAll {l : Ledger} (h : l.Stated) {line : String} {words : Phrase} {digit : Digit}
    (hline : Request.HasForm line (.digitFact words digit)) : (l.assignAll words digit).Stated where
  digit := by
    intro k d hk
    rw [getElem?_digits_assignAll] at hk
    split at hk
    · rename_i hmem
      injection hk with hk
      subst hk
      exact ⟨line, words, hline, hmem⟩
    · exact h.digit hk
  name := by
    rw [metals_assignAll]
    exact h.name
  quote := by
    rw [metals_assignAll]
    exact h.quote

theorem Stated.record {l : Ledger} (h : l.Stated) {line : String} {phrase : Phrase} {metal : String}
    {amount : Decimal} (hline : Request.HasForm line (.priceFact phrase metal amount)) :
    (l.record metal ⟨phrase, amount⟩).Stated where
  digit := h.digit
  name := by
    intro k listing hk
    rw [getElem?_metals_record] at hk
    split at hk
    · rename_i he
      injection hk with hk
      -- An earlier spelling stays, and that one was stated too.
      cases hold : l.metals[k]? with
      | none =>
        rw [hold] at hk
        subst hk
        exact ⟨he, line, phrase, amount, hline⟩
      | some old =>
        rw [hold] at hk
        subst hk
        have hname := h.name hold
        exact hname
    · exact h.name hk
  quote := by
    intro k listing hk
    rw [getElem?_metals_record] at hk
    split at hk
    · rename_i he
      injection hk with hk
      subst hk
      exact ⟨line, metal, hline, he⟩
    · exact h.quote hk

/-- What a request leaves of a ledger: the words assigned, the quote recorded, or nothing changed. -/
theorem respond_snd (l : Ledger) (q : Request) :
    (l.respond q).2 = l ∨ (∃ words digit, q = .digitFact words digit ∧ (l.respond q).2 = l.assignAll words digit) ∨
      ∃ phrase metal amount, q = .priceFact phrase metal amount ∧ l.accepts phrase = .ok () ∧
        (l.respond q).2 = l.record metal ⟨phrase, amount⟩ := by
  cases q with
  | digitFact words digit => exact Or.inr (Or.inl ⟨words, digit, rfl, rfl⟩)
  | priceFact phrase metal amount =>
    cases ha : l.accepts phrase with
    | error f => exact Or.inl (by simp [respond, ha])
    | ok => exact Or.inr (Or.inr ⟨phrase, metal, amount, rfl, ha, by simp [respond, ha]⟩)
  | valueQuestion => exact Or.inl rfl
  | priceQuestion => exact Or.inl rfl
  | unknown => exact Or.inl rfl

/-- **Every entry of a reachable ledger was stated by a line.** -/
theorem Reachable.stated {l : Ledger} (h : l.Reachable) : l.Stated := by
  -- One line keeps the invariant; what it records has the form of a fact.
  induction h with
  | empty => exact ⟨by simp [Ledger.empty], by simp [Ledger.empty], by simp [Ledger.empty]⟩
  | @tell l line _ ih =>
    rw [Ledger.tell]
    have hform {q : Request} (hq : Request.ofLine (dropLineEnds line) = q) (hne : ∀ raw, q ≠ .unknown raw) :
        Request.HasForm (dropLineEnds line) q := Request.hasForm_iff.mpr ⟨hq, hne⟩
    rcases l.respond_snd (Request.ofLine (dropLineEnds line)) with
      he | ⟨words, digit, hq, he⟩ | ⟨phrase, metal, amount, hq, -, he⟩
    · rwa [he]
    · rw [he]
      exact ih.assignAll (hform hq (by simp))
    · rw [he]
      exact ih.record (hform hq (by simp))

/-! ## What a quote of a reachable ledger looks like -/

theorem Stated.hasForm_of_quote? {l : Ledger} (h : l.Stated) {metal : String} {quote : Quote}
    (hq : l.quote? metal = some quote) :
    ∃ line spelling, Request.HasForm line (.priceFact quote.phrase spelling quote.amount) ∧
      key spelling = key metal := by
  obtain ⟨listing, hl, rfl⟩ := Option.map_eq_some_iff.mp hq
  exact h.quote hl

/-- **The phrase of a quote has words in it.** -/
theorem Reachable.quote_phrase {l : Ledger} (h : l.Reachable) {metal : String} {quote : Quote}
    (hq : l.quote? metal = some quote) : quote.phrase ≠ [] := by
  obtain ⟨line, spelling, ⟨-, hp, -⟩, -⟩ := h.stated.hasForm_of_quote? hq
  exact hp.1

/-- **The amount of a quote has no sign and is within the cap.** -/
theorem Reachable.quote_amount {l : Ledger} (h : l.Reachable) {metal : String} {quote : Quote}
    (hq : l.quote? metal = some quote) : quote.amount.negative = false ∧ quote.amount ≤ Request.maxAmount := by
  obtain ⟨line, spelling, ⟨-, -, -, -, text, hw, hread, hle, -⟩, -⟩ := h.stated.hasForm_of_quote? hq
  exact ⟨Request.negative_of_writesAmount hw hread, hle⟩

end TradeTalk.Ledger
