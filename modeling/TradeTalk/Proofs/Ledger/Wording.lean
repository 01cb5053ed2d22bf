import TradeTalk.Proofs.Decimal.Printing
import TradeTalk.Proofs.Ledger.Outcome

/-!
# `Proofs.Ledger.Wording` — answers are worded in words

Whatever a line is answered by a reachable ledger, the names in the answer are names that the grammar of lines lets
through: the phrase and the metal of the question, or a word of a phrase that was recorded. So no answer but the silent
one is empty, and none breaks its line.

## Contents
- **`Answer.InWords`**: the names in an answer are spelled in words.
- **`Reachable.inWords`**: those of a reachable ledger are.
- **`OnOneLine`**: texts without line ends; **`Answer.InWords.onOneLine`**: the texts of such answers are.
- **`Answer.text_eq_empty_iff`**: only what is noted is answered in silence.
-/

namespace TradeTalk

/-- The names in an answer are spelled in words. -/
def Answer.InWords : Answer → Prop
  | .number phrase _ => ∃ ws, IsPhrase ws ∧ phrase = Phrase.text ws
  | .price phrase metal _ => (∃ ws, IsPhrase ws ∧ phrase = Phrase.text ws) ∧ isMetal metal.toList = true
  | .unknownName name => isWord name.toList = true
  | .noted | .notUnderstood => True

/-! ## The names in answers -/

namespace Ledger

variable {l : Ledger}

/-- The phrase of a quote was stated as one. -/
theorem Reachable.isPhrase_quote (h : l.Reachable) {metal : String} {quote : Quote}
    (hq : l.quote? metal = some quote) : IsPhrase quote.phrase := by
  obtain ⟨line, spelling, hform, -⟩ := h.stated.hasForm_of_quote? hq
  exact hform.2.1

/-- The first unknown word of a phrase is a word of it. -/
theorem FirstUnknown.mem {phrase : Phrase} {word : String} (h : l.FirstUnknown phrase word) : word ∈ phrase := by
  obtain ⟨known, rest, rfl, -⟩ := h
  simp

/-- An unknown name found while valuing a phrase is a word. -/
theorem Values.isWord {phrase : Phrase} {word : String} (hp : IsPhrase phrase)
    (h : Values l phrase (.error (.unknownName word))) : isWord word.toList = true := by
  cases h with
  | unknownName hu => exact hp.2 word hu.mem

/-- The names in an outcome are those of the request, and those of quotes. -/
theorem Outcome.inWords (h : l.Reachable) {line : String} {q : Request} (hq : Request.ofLine line = q) {a : Answer}
    (ha : Outcome l q (.ok a)) : a.InWords := by
  have hform {r : Request} (hr : q = r) (hne : ∀ raw, r ≠ .unknown raw) : Request.HasForm line r :=
    Request.hasForm_iff.mpr ⟨hq.trans hr, hne⟩
  have hphrase {ws : Phrase} (hws : q = .valueQuestion ws ∨ ∃ metal, q = .priceQuestion ws metal) : IsPhrase ws := by
    rcases hws with rfl | ⟨metal, rfl⟩
    · exact (hform rfl (by simp)).1
    · exact (hform rfl (by simp)).1
  generalize hout : Except.ok a = out at ha
  cases ha with
  | digitFact => exact Except.ok.inj hout ▸ trivial
  | priceFact => exact Except.ok.inj hout ▸ trivial
  | openPriceFact => exact Except.ok.inj hout ▸ trivial
  | number => exact Except.ok.inj hout ▸ ⟨_, hphrase (Or.inl rfl), rfl⟩
  | unknownWord hv => exact Except.ok.inj hout ▸ hv.isWord (hphrase (Or.inl rfl))
  | phraseFirst hfirst hne =>
    -- The answer of the phrase alone, which is not its number.
    cases hfirst with
    | number => exact absurd rfl (hne _)
    | unknownWord hv => exact Except.ok.inj hout ▸ hv.isWord (hphrase (Or.inr ⟨_, rfl⟩))
    | notANumeral => contradiction
  | unknownMetal => exact Except.ok.inj hout ▸ isWord_of_isMetal (hform rfl (by simp)).2.1
  | unknownQuoteWord _ hm hv => exact Except.ok.inj hout ▸ hv.isWord (h.isPhrase_quote hm)
  | price =>
    exact Except.ok.inj hout ▸ ⟨⟨_, hphrase (Or.inr ⟨_, rfl⟩), rfl⟩, (hform rfl (by simp)).2.1⟩
  | notUnderstood => exact Except.ok.inj hout ▸ trivial
  | refusedPriceFact => contradiction
  | notANumeral => contradiction
  | quoteNotANumeral => contradiction

/-- **The names in the answers of a reachable ledger are spelled in words.** -/
theorem Reachable.inWords (h : l.Reachable) {line : String} {a : Answer} (ha : (l.tell line).1 = .ok a) :
    a.InWords :=
  ((respond_eq_iff h fun _ => ne_nil_of_phrase?).mp ha).inWords h rfl

end Ledger

/-! ## Texts on one line -/

/-- A text in which no line ends. -/
def OnOneLine (s : String) : Prop :=
  ∀ c ∈ s.toList, c ≠ '\n' ∧ c ≠ '\r'

instance (s : String) : Decidable (OnOneLine s) :=
  decidable_of_iff (s.toList.all (fun c => c != '\n' && c != '\r') = true) (by
    simp [OnOneLine])

theorem OnOneLine.append {s t : String} (hs : OnOneLine s) (ht : OnOneLine t) : OnOneLine (s ++ t) := by
  intro c hc
  rw [String.toList_append, List.mem_append] at hc
  rcases hc with hc | hc
  · exact hs c hc
  · exact ht c hc

theorem onOneLine_of_isWord {w : String} (h : isWord w.toList = true) : OnOneLine w := by
  intro c hc
  simp only [isWord, Bool.and_eq_true, List.all_eq_true] at h
  have hword : isWordChar c = true := h.2 c hc
  constructor
  · rintro rfl
    exact absurd hword (by decide)
  · rintro rfl
    exact absurd hword (by decide)

theorem IsPhrase.onOneLine {ws : Phrase} (h : IsPhrase ws) : OnOneLine ws.text := by
  intro c hc
  rw [Request.toList_text] at hc
  rcases Text.mem_join hc with rfl | ⟨p, hp, hc⟩
  · decide
  · obtain ⟨w, hw, rfl⟩ := List.mem_map.mp hp
    exact onOneLine_of_isWord (h.2 w hw) c hc

theorem ne_lineEnd_of_isDigit {c : Char} (h : c.isDigit = true) : c ≠ '\n' ∧ c ≠ '\r' := by
  constructor
  · rintro rfl
    exact absurd h (by decide)
  · rintro rfl
    exact absurd h (by decide)

theorem onOneLine_toString (n : Nat) : OnOneLine (toString n) := by
  intro c hc
  exact ne_lineEnd_of_isDigit (isDigit_of_mem_toString hc)

namespace Decimal

theorem onOneLine_credits (d : Decimal) : OnOneLine d.credits := by
  intro c hc
  rcases mem_signed hc with hdigit | rfl | rfl
  · exact ne_lineEnd_of_isDigit hdigit
  · decide
  · decide

end Decimal

namespace Answer

/-- **An answer in words stays on its line.** -/
theorem InWords.onOneLine {a : Answer} (h : a.InWords) : OnOneLine a.text := by
  cases a with
  | noted => decide
  | number phrase value =>
    obtain ⟨ws, hws, rfl⟩ := h
    exact (hws.onOneLine.append (by decide)).append (onOneLine_toString value)
  | price phrase metal cost =>
    obtain ⟨⟨ws, hws, rfl⟩, hm⟩ := h
    have hmetal : OnOneLine metal := onOneLine_of_isWord (isWord_of_isMetal hm)
    exact ((((hws.onOneLine.append (by decide)).append hmetal).append (by decide)).append
      cost.onOneLine_credits).append (by decide)
  | unknownName name =>
    exact (OnOneLine.append (by decide) (onOneLine_of_isWord h)).append (by decide)
  | notUnderstood => decide

/-- **Only what is noted is answered in silence.** -/
theorem text_eq_empty_iff {a : Answer} : a.text = "" ↔ a = .noted := by
  constructor
  · intro h
    cases a with
    | noted => rfl
    | number phrase value =>
      have hfront : phrase ++ " is " = "" := (String.append_eq_empty_iff.mp h).1
      exact absurd (String.append_eq_empty_iff.mp hfront).2 (by decide)
    | price phrase metal cost => exact absurd (String.append_eq_empty_iff.mp h).2 (by decide)
    | unknownName name => exact absurd (String.append_eq_empty_iff.mp h).2 (by decide)
    | notUnderstood => exact absurd h (by decide)
  · rintro rfl
    rfl

end Answer

end TradeTalk
