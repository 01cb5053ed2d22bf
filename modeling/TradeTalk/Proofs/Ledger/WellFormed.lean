import TradeTalk.Proofs.Ledger.Reachable
import TradeTalk.Proofs.Text.Lower

/-!
# `Proofs.Ledger.WellFormed` — what the tables of a ledger look like, and how they grow

The two tables take any name, any phrase and any amount. What they hold in a ledger that has only been told lines is
narrower, since the grammar of lines lets nothing else through: small names for the words, a spelling of each metal that
folds to its key, phrases that the rule for price facts reads, amounts within the cap. A line may state a quote for a
metal that has a name already, so the name of an entry and its quote may come from different lines.

No entry is ever removed, and the name that a metal is shown by is never changed. That needs no invariant: it holds of
what a line does to any ledger.

## Contents
- **`IsFolded`**: the names that words are filed under.
- **`WellFormed`**, **`Stated.wellFormed`**: the shape of the tables, of which every entry was stated by a line.
- **`Extends`**, **`extends_respond`**, **`extends_tellAll`**: what one request keeps, and what a run keeps.
- **`tellAll_wellFormed`**: both, for every run.
-/

namespace TradeTalk

open Text (key lower)

/-- A name without capitals: ASCII small letters, digits and underscores, at least one. -/
def IsFolded (name : String) : Prop :=
  name ≠ "" ∧ ∀ c ∈ name.toList, c.isLower = true ∨ c.isDigit = true ∨ c = '_'

/-- The letters of the Roman digits are capitals. -/
theorem Digit.letter_mem (d : Digit) : d.letter ∈ ['I', 'V', 'X', 'L', 'C', 'D', 'M'] := by
  cases d <;> decide

/-- A word character in small letters is no capital. -/
theorem isLower_or_of_isWordChar {c : Char} (h : isWordChar c = true) :
    c.toLower.isLower = true ∨ c.toLower.isDigit = true ∨ c.toLower = '_' :=
  Text.forall_isWordChar
    (p := fun c => isWordChar c = true → c.toLower.isLower = true ∨ c.toLower.isDigit = true ∨ c.toLower = '_')
    (by decide) h h

/-- A word in small letters has no capitals. -/
theorem isFolded_lower {word : String} (h : isWord word.toList = true) : IsFolded (lower word) := by
  simp only [isWord, Bool.and_eq_true, Bool.not_eq_true', List.isEmpty_eq_false_iff, List.all_eq_true] at h
  obtain ⟨hne, hall⟩ := h
  constructor
  · intro he
    have hnil : (lower word).toList = [] := by rw [he, String.toList_empty]
    rw [Text.toList_lower, List.map_eq_nil_iff] at hnil
    exact hne hnil
  · intro c hc
    rw [Text.toList_lower] at hc
    obtain ⟨d, hd, rfl⟩ := List.mem_map.mp hc
    exact isLower_or_of_isWordChar (hall d hd)

/-- The names of metals are the words that start with a capital. -/
theorem isMetal_eq_isUpper {w : String} (h : isWord w.toList = true) {c : Char} (hc : w.toList.head? = some c) :
    isMetal w.toList = c.isUpper := by
  obtain ⟨rest, hrest⟩ := List.head?_eq_some_iff.mp hc
  rw [hrest] at h ⊢
  simp only [isWord, List.all_cons, Bool.and_eq_true] at h
  rw [isMetal, h.2.2, Bool.and_true]

/-! ## The shape of a quote -/

namespace Quote

/-- The shape of a quote: some words, of which none with a capital is directly followed by the verb, and an amount
    without a sign that the cap allows. -/
structure WellFormed (quote : Quote) : Prop where
  phrase : IsPhrase quote.phrase
  noCapitalBeforeVerb : ∀ i w c, quote.phrase[i]? = some w → quote.phrase[i + 1]? = some "is" →
    w.toList.head? = some c → c.isUpper = false
  nonneg : quote.amount.negative = false
  scale : quote.amount.scale ≤ 28
  cap : quote.amount ≤ Request.maxAmount

/-- What a price fact states has the shape of a quote. -/
theorem wellFormed_of_hasForm {line metal : String} {quote : Quote}
    (h : Request.HasForm line (.priceFact quote.phrase metal quote.amount)) : quote.WellFormed := by
  obtain ⟨-, hphrase, -, hno, text, hwrites, hread, hcap, -⟩ := h
  refine ⟨hphrase, ?_, Request.negative_of_writesAmount hwrites hread, quote.amount.scale_le, hcap⟩
  intro i w c hw hverb hc
  have hmem : w ∈ quote.phrase := List.mem_of_getElem? hw
  rw [← isMetal_eq_isUpper (hphrase.2 w hmem) hc]
  exact hno i w hw hverb

end Quote

namespace Ledger

variable {l m n : Ledger}

/-! ## The shape of the tables -/

/-- The shape of the tables: words are filed under folded names and stand for Roman digits, and each metal is filed under
    its name in small letters. -/
structure WellFormed (l : Ledger) : Prop where
  word : ∀ {k : String}, k ∈ l.digits → IsFolded k
  digit : ∀ {k : String} {d : Digit}, l.digits[k]? = some d → d.letter ∈ ['I', 'V', 'X', 'L', 'C', 'D', 'M']
  name : ∀ {k : String} {listing : Listing}, l.metals[k]? = some listing →
    isMetal listing.name.toList = true ∧ k = lower listing.name
  quote : ∀ {k : String} {listing : Listing}, l.metals[k]? = some listing → listing.quote.WellFormed

/-- **Tables of which every entry was stated by a line have the shape.** -/
theorem Stated.wellFormed (h : l.Stated) : l.WellFormed where
  word := by
    intro k hk
    obtain ⟨line, words, ⟨-, hphrase, -⟩, hmem⟩ := h.digit (Std.ExtTreeMap.getElem?_eq_some_getElem hk)
    obtain ⟨word, hword, rfl⟩ := List.mem_map.mp hmem
    have hw := hphrase.2 word hword
    rw [Text.key_of_isAscii (Text.isAscii_of_isWord hw)]
    exact isFolded_lower hw
  digit := fun {_ d} _ => d.letter_mem
  name := by
    intro k listing hk
    obtain ⟨hkey, line, phrase, amount, -, -, hmetal, -⟩ := h.name hk
    rw [Text.key_of_isAscii (Text.isAscii_of_isWord (isWord_of_isMetal hmetal))] at hkey
    exact ⟨hmetal, hkey.symm⟩
  quote := by
    intro k listing hk
    obtain ⟨line, metal, hform, -⟩ := h.quote hk
    exact Quote.wellFormed_of_hasForm hform

/-! ## How the tables grow -/

/-- A later ledger has every word and every metal of an earlier one, and shows each metal by the same name. -/
structure Extends (l m : Ledger) : Prop where
  word : ∀ {k : String}, k ∈ l.digits → k ∈ m.digits
  metal : ∀ {k : String} {listing : Listing}, l.metals[k]? = some listing →
    ∃ later : Listing, m.metals[k]? = some later ∧ later.name = listing.name

theorem Extends.refl (l : Ledger) : l.Extends l :=
  ⟨id, fun {_ listing} h => ⟨listing, h, rfl⟩⟩

theorem Extends.trans (hlm : l.Extends m) (hmn : m.Extends n) : l.Extends n where
  word hk := hmn.word (hlm.word hk)
  metal hk := by
    obtain ⟨later, hlater, hname⟩ := hlm.metal hk
    obtain ⟨last, hlast, hname'⟩ := hmn.metal hlater
    exact ⟨last, hlast, hname'.trans hname⟩

theorem extends_assignAll (l : Ledger) (words : Phrase) (digit : Digit) : l.Extends (l.assignAll words digit) where
  word := by
    intro k hk
    rw [Std.ExtTreeMap.mem_iff_isSome_getElem?] at hk ⊢
    rw [getElem?_digits_assignAll]
    split
    · rfl
    · exact hk
  metal := by
    rw [metals_assignAll]
    exact (Extends.refl l).metal

theorem extends_record (l : Ledger) (metal : String) (quote : Quote) : l.Extends (l.record metal quote) where
  word := id
  metal := by
    intro k listing hk
    rw [getElem?_metals_record, hk]
    split
    · -- The metal is there already, and its name stays.
      exact ⟨_, rfl, rfl⟩
    · exact ⟨listing, rfl, rfl⟩

/-- **What one request keeps**: every entry, and the names of the metals. -/
theorem extends_respond (l : Ledger) (q : Request) : l.Extends (l.respond q).2 := by
  rcases l.respond_snd q with he | ⟨words, digit, -, he⟩ | ⟨phrase, metal, amount, -, -, he⟩
  · rw [he]
    exact .refl l
  · rw [he]
    exact l.extends_assignAll words digit
  · rw [he]
    exact l.extends_record metal ⟨phrase, amount⟩

/-- **What a run keeps**, by what each of its lines does. -/
theorem extends_tellAll (l : Ledger) (lines : List String) : l.Extends (l.tellAll lines).2 := by
  induction lines generalizing l with
  | nil => exact .refl l
  | cons line lines ih =>
    have hline : l.Extends (l.tell line).2 := l.extends_respond (Request.ofLine (dropLineEnds line))
    simp only [tellAll]
    exact hline.trans (ih (l.tell line).2)

/-- **The tables after any lines have the shape, and they only grow.** Whatever a ledger has been told, its names,
    phrases and amounts are such as the grammar of lines lets through; and between two points of a run no word and no
    metal is removed, and no metal gets another name. -/
theorem tellAll_wellFormed (lines more : List String) :
    (empty.tellAll lines).2.WellFormed ∧
      (empty.tellAll lines).2.Extends (empty.tellAll (lines ++ more)).2 := by
  have hreach : (empty.tellAll lines).2.Reachable := reachable_iff.mpr ⟨lines, rfl⟩
  refine ⟨hreach.stated.wellFormed, ?_⟩
  rw [tellAll_append]
  exact extends_tellAll _ more

end Ledger

end TradeTalk
