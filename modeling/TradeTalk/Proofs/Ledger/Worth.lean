import TradeTalk.Ledger
import TradeTalk.Proofs.Numeral.Places

/-!
# `Proofs.Ledger.Worth` — what a phrase is worth

Looking a phrase up has three outcomes. Some word of it stands for nothing, and the first such word is the fault; or
the digits of its words are the numeral of a number, which is its worth; or they are no numeral, and their letters are
the fault.

## Contents
- **`Spells`**: the digits of a phrase, word by word; **`FirstUnknown`**: the first word without one.
- **`Values`**: the three outcomes.
- **`worth_eq_iff`**: a phrase with words in it is worth what the outcomes say.
- **`worth_le_largest`**, **`worth_ne_outOfRange`**: what any phrase is worth, or why it has no worth.
-/

namespace TradeTalk.Ledger

/-- The words of a phrase stand for these digits, one after another. -/
def Spells (l : Ledger) (phrase : Phrase) (ds : Numeral) : Prop :=
  phrase.map l.digit? = ds.map some

/-- The first word of a phrase that stands for nothing. -/
def FirstUnknown (l : Ledger) (phrase : Phrase) (word : String) : Prop :=
  ∃ known rest, phrase = known ++ word :: rest ∧ (∀ w ∈ known, l.digit? w ≠ none) ∧ l.digit? word = none

/-- What a phrase is worth: the number whose numeral its words spell, unless one of them stands for nothing or they
    spell no numeral. -/
inductive Values (l : Ledger) (phrase : Phrase) : Except Fault Nat → Prop where
  | number {ds : Numeral} {n : Nat} : l.Spells phrase ds → Numeral.ofNat? n = some ds → Values l phrase (.ok n)
  | unknownName {word : String} : l.FirstUnknown phrase word → Values l phrase (.error (.unknownName word))
  | notANumeral {ds : Numeral} : l.Spells phrase ds → (∀ n, Numeral.ofNat? n ≠ some ds) →
      Values l phrase (.error (.notANumeral (Numeral.text ds)))

variable {l : Ledger} {phrase : Phrase}

/-! ## Words one by one -/

theorem spells_nil_iff {ds : Numeral} : l.Spells [] ds ↔ ds = [] := by
  cases ds <;> simp [Spells]

theorem spells_cons_iff {word : String} {words : Phrase} {ds : Numeral} :
    l.Spells (word :: words) ds ↔ ∃ d rest, l.digit? word = some d ∧ l.Spells words rest ∧ ds = d :: rest := by
  cases ds with
  | nil => simp [Spells]
  | cons e es =>
    simp only [Spells, List.map_cons, List.cons.injEq]
    constructor
    · rintro ⟨hd, hr⟩
      exact ⟨e, es, hd, hr, rfl, rfl⟩
    · rintro ⟨d, rest, hd, hr, rfl, rfl⟩
      exact ⟨hd, hr⟩

theorem firstUnknown_cons_iff {word other : String} {words : Phrase} :
    l.FirstUnknown (word :: words) other ↔
      (l.digit? word = none ∧ other = word) ∨ (l.digit? word ≠ none ∧ l.FirstUnknown words other) := by
  constructor
  · rintro ⟨known, rest, he, hknown, hother⟩
    cases known with
    | nil =>
      obtain ⟨rfl, rfl⟩ := List.cons.inj he
      exact Or.inl ⟨hother, rfl⟩
    | cons w ws =>
      obtain ⟨rfl, rfl⟩ := List.cons.inj he
      exact Or.inr ⟨hknown word List.mem_cons_self, ws, rest, rfl,
        fun w hw => hknown w (List.mem_cons_of_mem _ hw), hother⟩
  · rintro (⟨hnone, rfl⟩ | ⟨hsome, known, rest, rfl, hknown, hother⟩)
    · exact ⟨[], words, rfl, by simp, hnone⟩
    · exact ⟨word :: known, rest, rfl, List.forall_mem_cons.mpr ⟨hsome, hknown⟩, hother⟩

/-- Every word of a phrase has a digit, or there is a first one without. -/
theorem spells_or_firstUnknown (l : Ledger) (phrase : Phrase) :
    (∃ ds, l.Spells phrase ds) ∨ ∃ word, l.FirstUnknown phrase word := by
  induction phrase with
  | nil => exact Or.inl ⟨[], spells_nil_iff.mpr rfl⟩
  | cons word words ih =>
    cases hd : l.digit? word with
    | none => exact Or.inr ⟨word, firstUnknown_cons_iff.mpr (Or.inl ⟨hd, rfl⟩)⟩
    | some d =>
      rcases ih with ⟨ds, hds⟩ | ⟨other, hother⟩
      · exact Or.inl ⟨d :: ds, spells_cons_iff.mpr ⟨d, ds, hd, hds, rfl⟩⟩
      · exact Or.inr ⟨other, firstUnknown_cons_iff.mpr (Or.inr ⟨by simp [hd], hother⟩)⟩

theorem numeral_of_spells {ds : Numeral} (h : l.Spells phrase ds) : l.numeral phrase = .ok ds := by
  induction phrase generalizing ds with
  | nil => rw [spells_nil_iff.mp h, numeral]
  | cons word words ih =>
    obtain ⟨d, rest, hd, hr, rfl⟩ := spells_cons_iff.mp h
    simp only [numeral, digit, hd, ih hr]

theorem numeral_of_firstUnknown {word : String} (h : l.FirstUnknown phrase word) :
    l.numeral phrase = .error (.unknownName word) := by
  induction phrase with
  | nil =>
    obtain ⟨known, rest, he, -⟩ := h
    simp at he
  | cons first words ih =>
    rcases firstUnknown_cons_iff.mp h with ⟨hd, rfl⟩ | ⟨hd, hw⟩
    · simp only [numeral, digit, hd]
    · obtain ⟨d, hd⟩ := Option.ne_none_iff_exists'.mp hd
      simp only [numeral, digit, hd, ih hw]

theorem filterMap_of_spells {ds : Numeral} (h : l.Spells phrase ds) : phrase.filterMap l.digit? = ds := by
  have hid : phrase.filterMap l.digit? = (phrase.map l.digit?).filterMap id := by
    rw [List.filterMap_map, Function.id_comp]
  rw [hid, h, List.filterMap_map, Function.id_comp, List.filterMap_some]

theorem knowsAll_of_spells {ds : Numeral} (h : l.Spells phrase ds) : l.knowsAll phrase = true := by
  rw [knowsAll_iff]
  intro word hword
  have hmem : l.digit? word ∈ ds.map some := h ▸ List.mem_map_of_mem hword
  obtain ⟨d, -, hd⟩ := List.mem_map.mp hmem
  rw [← hd]
  rfl

theorem knowsAll_of_firstUnknown {word : String} (h : l.FirstUnknown phrase word) : l.knowsAll phrase = false := by
  obtain ⟨known, rest, rfl, -, hnone⟩ := h
  rw [Bool.eq_false_iff]
  intro hall
  have := knowsAll_iff.mp hall word (by simp)
  simp [hnone] at this

/-! ## The outcomes -/

theorem worth_of_firstUnknown {word : String} (h : l.FirstUnknown phrase word) :
    l.worth phrase = .error (.unknownName word) := by
  rw [worth, numeral_of_firstUnknown h]

theorem worth_of_spells {ds : Numeral} (h : l.Spells phrase ds) :
    l.worth phrase = match Numeral.value? ds with
      | some n => .ok n
      | none => .error (.notANumeral (Numeral.text ds)) := by
  rw [worth, numeral_of_spells h]
  exact Numeral.read_text ds

/-- **A phrase with words in it is worth what the outcomes say.** -/
theorem worth_eq_iff (hne : phrase ≠ []) {out : Except Fault Nat} : l.worth phrase = out ↔ l.Values phrase out := by
  -- No digits at all have a value, zero, but no phrase with words in it spells them.
  have hds {ds : Numeral} (h : l.Spells phrase ds) : ds ≠ [] := by
    rintro rfl
    exact hne (List.map_eq_nil_iff.mp h)
  constructor
  · rintro rfl
    rcases l.spells_or_firstUnknown phrase with ⟨ds, h⟩ | ⟨word, h⟩
    · rw [worth_of_spells h]
      cases hv : Numeral.value? ds with
      | some n => exact .number h ((Numeral.value?_eq_some_iff.mp hv).resolve_left fun hnil => hds h hnil.1)
      | none =>
        apply Values.notANumeral h
        intro n hn
        rw [Numeral.value?_eq_some_iff.mpr (Or.inr hn)] at hv
        contradiction
    · rw [worth_of_firstUnknown h]
      exact .unknownName h
  · rintro (⟨h, hn⟩ | h | ⟨h, hno⟩)
    · rw [worth_of_spells h, Numeral.value?_eq_some_iff.mpr (Or.inr hn)]
    · exact worth_of_firstUnknown h
    · rw [worth_of_spells h]
      cases hv : Numeral.value? _ with
      | none => rfl
      | some n => exact absurd ((Numeral.value?_eq_some_iff.mp hv).resolve_left fun hnil => hds h hnil.1) (hno n)

/-- The worth of a phrase with words in it is a number from 1 to 3999. -/
theorem worth_pos_le (hne : phrase ≠ []) {n : Nat} (h : l.worth phrase = .ok n) : 0 < n ∧ n ≤ Numeral.largest := by
  obtain ⟨-, hn⟩ | _ | _ := (worth_eq_iff hne).mp h
  exact (Numeral.ofNat?_eq_some_iff.mp hn).1

/-- No phrase is worth more than the largest numeral. -/
theorem worth_le_largest {n : Nat} (h : l.worth phrase = .ok n) : n ≤ Numeral.largest := by
  by_cases hne : phrase = []
  · subst hne
    have hzero : l.worth [] = .ok 0 := by
      rw [worth_of_spells (spells_nil_iff.mpr rfl), Numeral.value?_eq_some_iff.mpr (Or.inl ⟨rfl, rfl⟩)]
    cases hzero.symm.trans h
    exact Nat.zero_le _
  · exact (worth_pos_le hne h).2

/-- Valuing a phrase takes no decimals. -/
theorem worth_ne_outOfRange (l : Ledger) (phrase : Phrase) : l.worth phrase ≠ .error .outOfRange := by
  rcases l.spells_or_firstUnknown phrase with ⟨ds, h⟩ | ⟨word, h⟩
  · rw [worth_of_spells h]
    cases Numeral.value? ds <;> simp
  · simp [worth_of_firstUnknown h]

end TradeTalk.Ledger
