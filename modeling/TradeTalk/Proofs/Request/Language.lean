import Mathlib.Data.List.TakeWhile
import TradeTalk.Proofs.Decimal.Reading
import TradeTalk.Proofs.Sentence.Rules
import TradeTalk.Request

/-!
# `Proofs.Request.Language` — the lines that ask for something

Each kind of request has a written form, said here without any rule, order or lookahead: words joined by single spaces
and what has to stand around them. A line asks for what it has the form of. No line has two forms, since a request is
a function of its line.

## Contents
- **`HasForm`**: the written form of each kind of request.
- **`phrase?`**, **`isPhrase_of_phrase?`**: the phrase of a request, which has words in it.
- **`hasForm_iff`**: reading a line finds the form that it has.
- **`ofLine_eq_iff`**: the language of lines, the unknown ones among them.
-/

namespace TradeTalk

/-- Some words, at least one. -/
def IsPhrase (p : Phrase) : Prop :=
  p ≠ [] ∧ ∀ w ∈ p, isWord w.toList = true

namespace Request

open Sentence (verb words AllWords NoMetalBeforeVerb)
open Text (join pieces)

/-! ## The written forms -/

/-- Decimal digits, at least one. -/
def IsDigits (cs : List Char) : Prop :=
  cs ≠ [] ∧ ∀ c ∈ cs, c.isDigit = true

/-- Digits, or digits with a point among them. -/
def WritesAmount (text : String) : Prop :=
  IsDigits text.toList ∨
    ∃ whole fraction : String, IsDigits whole.toList ∧ IsDigits fraction.toList ∧ text = whole ++ "." ++ fraction

/-- What may follow the last name of a question. -/
def questionEndings : List String :=
  ["", " ", "?", " ?"]

/-- The written form of each kind of request. No line has the form of an unknown one. -/
def HasForm (line : String) : Request → Prop
  | .digitFact ws digit =>
    Sentence.isGuarded line.toList = false ∧ IsPhrase ws ∧ "is" ∉ ws.tail ∧
      ∃ c : Char, c.toUpper = digit.letter ∧ line = ws.text ++ " is " ++ String.singleton c
  | .priceFact ws metal amount =>
    Sentence.isGuarded line.toList = false ∧ IsPhrase ws ∧ isMetal metal.toList = true ∧
      (∀ i w, ws[i]? = some w → ws[i + 1]? = some "is" → isMetal w.toList = false) ∧
      ∃ text, WritesAmount text ∧ Decimal.ofString? text = some amount ∧ amount ≤ maxAmount ∧
        line = ws.text ++ " " ++ metal ++ " is " ++ text ++ " Credits"
  | .valueQuestion ws =>
    IsPhrase ws ∧ ∃ ending ∈ questionEndings, line = "how much is " ++ ws.text ++ ending
  | .priceQuestion ws metal =>
    IsPhrase ws ∧ isMetal metal.toList = true ∧
      ∃ ending ∈ questionEndings, line = "how many Credits is " ++ ws.text ++ " " ++ metal ++ ending
  | .unknown _ => False

/-- The phrase of a request, or the words that it gives a digit. -/
def phrase? : Request → Option Phrase
  | .digitFact words _ => some words
  | .priceFact phrase _ _ => some phrase
  | .valueQuestion phrase => some phrase
  | .priceQuestion phrase _ => some phrase
  | .unknown _ => none

/-- The phrase of what a line asks for is one. -/
theorem isPhrase_of_phrase? {line : String} {q : Request} (h : HasForm line q) {phrase : Phrase}
    (hp : q.phrase? = some phrase) : IsPhrase phrase := by
  cases q with
  | digitFact words digit => exact Option.some.inj hp ▸ h.2.1
  | priceFact words metal amount => exact Option.some.inj hp ▸ h.2.1
  | valueQuestion words => exact Option.some.inj hp ▸ h.1
  | priceQuestion words metal => exact Option.some.inj hp ▸ h.1
  | unknown line => contradiction

/-! ## Words and their characters -/

theorem eq_words_iff {p : Phrase} {ws : List Sentence.Piece} : p = words ws ↔ ws = p.map String.toList := by
  constructor
  · rintro rfl
    simp [words, Function.comp_def]
  · rintro rfl
    simp [words, Function.comp_def]

theorem isPhrase_iff {p : Phrase} : IsPhrase p ↔ p.map String.toList ≠ [] ∧ AllWords (p.map String.toList) := by
  simp [IsPhrase, AllWords]

theorem toList_text (p : Phrase) : p.text.toList = join (p.map String.toList) := by
  simp [Phrase.text]

theorem verb_mem_map_iff {p : Phrase} : verb ∈ (p.map String.toList).tail ↔ "is" ∈ p.tail := by
  rw [← List.map_tail, List.mem_map]
  constructor
  · rintro ⟨w, hw, he⟩
    exact (String.toList_inj.mp he : w = "is") ▸ hw
  · intro h
    exact ⟨"is", h, rfl⟩

theorem noMetalBeforeVerb_map_iff {p : Phrase} :
    NoMetalBeforeVerb (p.map String.toList) ↔
      ∀ i w, p[i]? = some w → p[i + 1]? = some "is" → isMetal w.toList = false := by
  constructor
  · intro h i w hw hv
    exact h i w.toList (by simp [hw]) (by simp [hv, verb])
  · intro h i w hw hv
    rw [List.getElem?_map, Option.map_eq_some_iff] at hw hv
    obtain ⟨w, hw, rfl⟩ := hw
    obtain ⟨v, hv, he⟩ := hv
    exact h i w hw ((String.toList_inj.mp he : v = "is") ▸ hv)

/-- The letter of a digit is no space. -/
theorem ne_space_of_toUpper {c : Char} {digit : Digit} (h : c.toUpper = digit.letter) : c ≠ ' ' := by
  rintro rfl
  cases digit <;> exact absurd h (by decide)

/-- A cut line that starts with words, and the line itself. -/
theorem pieces_eq_words_append_iff {cs : List Char} {ws qs : List Sentence.Piece} (hne : ws ≠ [])
    (hws : AllWords ws) (hq : qs ≠ []) (hqs : ∀ q ∈ qs, ' ' ∉ q) :
    pieces cs = ws ++ qs ↔ cs = join ws ++ ' ' :: join qs := by
  rw [Text.pieces_eq_iff, Text.join_append hne hq]
  constructor
  · exact fun h => h.2
  · intro h
    refine ⟨⟨by simp [hne], ?_⟩, h⟩
    intro p hp
    rcases List.mem_append.mp hp with hp | hp
    · exact hws.space_notMem p hp
    · exact hqs p hp

/-! ## Amounts -/

/-- The amounts of the rules: digits, or digits on both sides of a point. -/
theorem isAmount_iff_digits {cs : List Char} :
    Sentence.isAmount cs = true ↔
      IsDigits cs ∨ ∃ whole fraction, IsDigits whole ∧ IsDigits fraction ∧ cs = whole ++ '.' :: fraction := by
  unfold Sentence.isAmount
  constructor
  · intro h
    split at h
    · rename_i hnil
      exact Or.inl ⟨by simpa using h, List.dropWhile_eq_nil_iff.mp hnil⟩
    · rename_i c fraction hcons
      simp only [Bool.and_eq_true, beq_iff_eq, Bool.not_eq_true', List.isEmpty_eq_false_iff, List.all_eq_true] at h
      obtain ⟨⟨⟨rfl, hhead⟩, hne⟩, hall⟩ := h
      have hsplit : cs = cs.takeWhile Char.isDigit ++ '.' :: fraction := by
        rw [← hcons, List.takeWhile_append_dropWhile]
      refine Or.inr ⟨_, fraction, ⟨?_, fun c hc => List.mem_takeWhile_imp hc⟩, ⟨hne, hall⟩, hsplit⟩
      intro hnil
      -- Without digits in front, the point itself would be the first character.
      rw [hnil, List.nil_append] at hsplit
      rw [hsplit] at hhead
      have hpoint : '.'.isDigit = true := hhead
      exact absurd hpoint (by decide)
  · rintro (⟨hne, hall⟩ | ⟨whole, fraction, ⟨hwne, hwall⟩, ⟨hfne, hfall⟩, rfl⟩)
    · rw [List.dropWhile_eq_nil_iff.mpr hall]
      simpa using hne
    · have hdrop : (whole ++ '.' :: fraction).dropWhile Char.isDigit = '.' :: fraction := by
        rw [List.dropWhile_append_of_pos hwall]
        rfl
      have hhead : (whole ++ '.' :: fraction).head?.any Char.isDigit = true := by
        obtain ⟨d, ds, rfl⟩ := List.exists_cons_of_ne_nil hwne
        exact hwall d List.mem_cons_self
      rw [hdrop]
      simp only [beq_self_eq_true, hhead, Bool.and_self, Bool.true_and, Bool.and_eq_true, Bool.not_eq_true',
        List.isEmpty_eq_false_iff, List.all_eq_true]
      exact ⟨hfne, hfall⟩

theorem isAmount_iff {text : String} : Sentence.isAmount text.toList = true ↔ WritesAmount text := by
  rw [isAmount_iff_digits, WritesAmount]
  refine or_congr Iff.rfl ⟨?_, ?_⟩
  · rintro ⟨whole, fraction, hw, hf, he⟩
    refine ⟨String.ofList whole, String.ofList fraction, by simpa using hw, by simpa using hf, ?_⟩
    exact String.toList_inj.mp (by simp [he])
  · rintro ⟨whole, fraction, hw, hf, rfl⟩
    exact ⟨whole.toList, fraction.toList, hw, hf, by simp⟩

theorem space_notMem_of_isAmount {cs : List Char} (h : Sentence.isAmount cs = true) : ' ' ∉ cs := by
  have hdigits : ∀ ds, IsDigits ds → ' ' ∉ ds := fun ds hds hm => absurd (hds.2 ' ' hm) (by decide)
  rcases isAmount_iff_digits.mp h with hd | ⟨whole, fraction, hw, hf, rfl⟩
  · exact hdigits cs hd
  · simp [hdigits whole hw, hdigits fraction hf]

/-- A written amount starts with a digit, -/
theorem WritesAmount.eq_cons {text : String} (h : WritesAmount text) :
    ∃ c cs, text.toList = c :: cs ∧ c.isDigit = true := by
  have hdigits : ∀ ds rest, IsDigits ds → ∃ c cs, ds ++ rest = c :: cs ∧ c.isDigit = true := by
    rintro ds rest ⟨hne, hall⟩
    obtain ⟨c, cs, rfl⟩ := List.exists_cons_of_ne_nil hne
    exact ⟨c, cs ++ rest, rfl, hall c List.mem_cons_self⟩
  rcases h with hd | ⟨whole, fraction, hwhole, -, rfl⟩
  · simpa using hdigits text.toList [] hd
  · rw [String.toList_append, String.toList_append, List.append_assoc]
    exact hdigits whole.toList _ hwhole

/-- so it has no sign. -/
theorem negative_of_writesAmount {text : String} {amount : Decimal} (hw : WritesAmount text)
    (h : Decimal.ofString? text = some amount) : amount.negative = false := by
  apply Decimal.negative_of_ofString? h
  obtain ⟨c, cs, hcs, hdigit⟩ := hw.eq_cons
  intro hsign
  rw [hcs, List.head?_cons, Option.some.injEq] at hsign
  rw [hsign] at hdigit
  exact absurd hdigit (by decide)

/-! ## The rules read the forms -/

theorem ofLine?_eq_digitFact_iff {line : String} {ws : Phrase} {digit : Digit} :
    Sentence.ofLine? line = some (.digitFact ws digit) ↔ HasForm line (.digitFact ws digit) := by
  have hline : ∀ c : Char, line.toList = join (ws.map String.toList) ++ ' ' :: join [verb, [c]] ↔
      line = ws.text ++ " is " ++ String.singleton c := by
    intro c
    rw [← String.toList_inj]
    simp [toList_text, verb, join]
  rw [Sentence.ofLine?_eq_some_iff_ruleOf, Sentence.ruleOf, Sentence.digitFact?_eq_some_iff, HasForm]
  refine and_congr_right fun _ => ⟨?_, ?_⟩
  · rintro ⟨vs, c, d, hps, hne, hall, hverb, hd, he⟩
    obtain ⟨hws, rfl⟩ := Sentence.digitFact.inj he
    obtain rfl := eq_words_iff.mp hws
    have hc := Digit.ofChar?_eq_some_iff.mp hd
    have hspace : ∀ q ∈ [verb, [c]], ' ' ∉ q := by simpa [verb] using (ne_space_of_toUpper hc).symm
    exact ⟨isPhrase_iff.mpr ⟨hne, hall⟩, fun h => hverb (verb_mem_map_iff.mpr h), c, hc,
      (hline c).mp ((pieces_eq_words_append_iff hne hall (by simp) hspace).mp hps)⟩
  · rintro ⟨hp, hverb, c, hc, he⟩
    obtain ⟨hne, hall⟩ := isPhrase_iff.mp hp
    have hspace : ∀ q ∈ [verb, [c]], ' ' ∉ q := by simpa [verb] using (ne_space_of_toUpper hc).symm
    refine ⟨_, c, digit, ?_, hne, hall, fun h => hverb (verb_mem_map_iff.mp h), Digit.ofChar?_eq_some_iff.mpr hc, ?_⟩
    · exact (pieces_eq_words_append_iff hne hall (by simp) hspace).mpr ((hline c).mpr he)
    · rw [← eq_words_iff.mpr rfl]

/-- The price facts before their amounts are read. -/
theorem ofLine?_eq_priceFact_iff {line : String} {ws : Phrase} {metal text : String} :
    Sentence.ofLine? line = some (.priceFact ws metal text) ↔
      Sentence.isGuarded line.toList = false ∧ IsPhrase ws ∧ isMetal metal.toList = true ∧
        (∀ i w, ws[i]? = some w → ws[i + 1]? = some "is" → isMetal w.toList = false) ∧ WritesAmount text ∧
        line = ws.text ++ " " ++ metal ++ " is " ++ text ++ " Credits" := by
  have hline : line.toList = join (ws.map String.toList) ++ ' ' ::
      join [metal.toList, verb, text.toList, "Credits".toList] ↔
      line = ws.text ++ " " ++ metal ++ " is " ++ text ++ " Credits" := by
    rw [← String.toList_inj]
    simp [toList_text, verb, join]
  have hspace (hm : isMetal metal.toList = true) (ha : Sentence.isAmount text.toList = true) :
      ∀ q ∈ [metal.toList, verb, text.toList, "Credits".toList], ' ' ∉ q := by
    have hmetal := space_notMem_of_isWord (isWord_of_isMetal hm)
    simpa [verb, hmetal] using space_notMem_of_isAmount ha
  rw [Sentence.ofLine?_eq_some_iff_ruleOf, Sentence.ruleOf, Sentence.priceFact?_eq_some_iff]
  refine and_congr_right fun _ => ⟨?_, ?_⟩
  · rintro ⟨vs, m, amount, hps, hne, hall, hm, hno, ha, he⟩
    obtain ⟨hws, hmetal, hamount⟩ := Sentence.priceFact.inj he
    obtain rfl := eq_words_iff.mp hws
    obtain rfl : m = metal.toList := by rw [hmetal, String.toList_ofList]
    obtain rfl : amount = text.toList := by rw [hamount, String.toList_ofList]
    exact ⟨isPhrase_iff.mpr ⟨hne, hall⟩, hm, noMetalBeforeVerb_map_iff.mp hno, isAmount_iff.mp ha,
      hline.mp ((pieces_eq_words_append_iff hne hall (by simp) (hspace hm ha)).mp hps)⟩
  · rintro ⟨hp, hm, hno, hw, he⟩
    obtain ⟨hne, hall⟩ := isPhrase_iff.mp hp
    have ha := isAmount_iff.mpr hw
    refine ⟨_, metal.toList, text.toList, ?_, hne, hall, hm, noMetalBeforeVerb_map_iff.mpr hno, ha, ?_⟩
    · exact (pieces_eq_words_append_iff hne hall (by simp) (hspace hm ha)).mpr (hline.mpr he)
    · rw [← eq_words_iff.mpr rfl, String.ofList_toList, String.ofList_toList]

/-- A question: its opening, some names, joined, and an ending. -/
theorem pieces_question_iff (line : String) {front names : List Sentence.Piece} (opening : String)
    (hfront : front ≠ []) (hspace : ∀ p ∈ front, ' ' ∉ p) (hopen : opening.toList = join front ++ [' '])
    (hne : names ≠ []) (hall : AllWords names) :
    (∃ ps, pieces line.toList = front ++ ps ∧ Sentence.dropEnding ps = names) ↔
      ∃ ending ∈ questionEndings, line = opening ++ String.ofList (join names) ++ ending := by
  have hendings : Sentence.endings = questionEndings.map String.toList := by decide
  constructor
  · rintro ⟨ps, hps, hend⟩
    have hp : ps ≠ [] := by
      rintro rfl
      exact hne hend.symm
    obtain ⟨rest, hline, rfl⟩ := (Text.pieces_eq_append_iff hfront hspace hp).mp hps
    obtain ⟨e, he, rfl⟩ := (Sentence.dropEnding_pieces_iff hne hall).mp hend
    rw [hendings, List.mem_map] at he
    obtain ⟨ending, hending, rfl⟩ := he
    refine ⟨ending, hending, String.toList_inj.mp ?_⟩
    simp [hline, hopen]
  · rintro ⟨ending, hending, rfl⟩
    refine ⟨pieces (join names ++ ending.toList), ?_, ?_⟩
    · refine (Text.pieces_eq_append_iff hfront hspace (Text.pieces_ne_nil _)).mpr ⟨_, ?_, rfl⟩
      simp [hopen]
    · refine (Sentence.dropEnding_pieces_iff hne hall).mpr ⟨ending.toList, ?_, rfl⟩
      rw [hendings]
      exact List.mem_map_of_mem hending

theorem ofLine?_eq_valueQuestion_iff {line : String} {ws : Phrase} :
    Sentence.ofLine? line = some (.valueQuestion ws) ↔ HasForm line (.valueQuestion ws) := by
  have hline (hne : ws.map String.toList ≠ []) (hall : AllWords (ws.map String.toList)) :
      (∃ ps, pieces line.toList = ["how".toList, "much".toList, verb] ++ ps ∧
        Sentence.dropEnding ps = ws.map String.toList) ↔
        ∃ ending ∈ questionEndings, line = "how much is " ++ ws.text ++ ending :=
    pieces_question_iff line "how much is " (by simp) (by decide) (by decide) hne hall
  rw [Sentence.ofLine?_eq_some_iff_ruleOf, Sentence.ruleOf, Sentence.valueQuestion?_eq_some_iff, HasForm]
  constructor
  · rintro ⟨ps, vs, hps, hend, hne, hall, he⟩
    obtain rfl := eq_words_iff.mp (Sentence.valueQuestion.inj he)
    exact ⟨isPhrase_iff.mpr ⟨hne, hall⟩, (hline hne hall).mp ⟨ps, hps, hend⟩⟩
  · rintro ⟨hp, he⟩
    obtain ⟨hne, hall⟩ := isPhrase_iff.mp hp
    obtain ⟨ps, hps, hend⟩ := (hline hne hall).mpr he
    exact ⟨ps, _, hps, hend, hne, hall, by rw [← eq_words_iff.mpr rfl]⟩

theorem ofLine?_eq_priceQuestion_iff {line : String} {ws : Phrase} {metal : String} :
    Sentence.ofLine? line = some (.priceQuestion ws metal) ↔ HasForm line (.priceQuestion ws metal) := by
  have hline (hne : ws.map String.toList ≠ []) (hall : AllWords (ws.map String.toList))
      (hm : isMetal metal.toList = true) :
      (∃ ps, pieces line.toList = ["how".toList, "many".toList, "Credits".toList, verb] ++ ps ∧
        Sentence.dropEnding ps = ws.map String.toList ++ [metal.toList]) ↔
      ∃ ending ∈ questionEndings, line = "how many Credits is " ++ ws.text ++ " " ++ metal ++ ending := by
    have hnames : AllWords (ws.map String.toList ++ [metal.toList]) := by
      intro w hw
      rcases List.mem_append.mp hw with hw | hw
      · exact hall w hw
      · exact List.mem_singleton.mp hw ▸ isWord_of_isMetal hm
    have htext : "how many Credits is " ++ String.ofList (join (ws.map String.toList ++ [metal.toList])) =
        "how many Credits is " ++ ws.text ++ " " ++ metal := by
      rw [Text.join_append hne (by simp), ← String.toList_inj]
      simp [toList_text, join]
    rw [pieces_question_iff line "how many Credits is " (by simp) (by decide) (by decide) (by simp) hnames, htext]
  rw [Sentence.ofLine?_eq_some_iff_ruleOf, Sentence.ruleOf, Sentence.priceQuestion?_eq_some_iff, HasForm]
  constructor
  · rintro ⟨ps, vs, m, hps, hend, hne, hall, hm, he⟩
    obtain ⟨hws, hmetal⟩ := Sentence.priceQuestion.inj he
    obtain rfl := eq_words_iff.mp hws
    obtain rfl : m = metal.toList := by rw [hmetal, String.toList_ofList]
    exact ⟨isPhrase_iff.mpr ⟨hne, hall⟩, hm, (hline hne hall hm).mp ⟨ps, hps, hend⟩⟩
  · rintro ⟨hp, hm, he⟩
    obtain ⟨hne, hall⟩ := isPhrase_iff.mp hp
    obtain ⟨ps, hps, hend⟩ := (hline hne hall hm).mpr he
    exact ⟨ps, _, metal.toList, hps, hend, hne, hall, hm, by rw [← eq_words_iff.mpr rfl, String.ofList_toList]⟩

/-! ## Requests -/

theorem amount?_eq_some_iff {text : String} {amount : Decimal} :
    amount? text = some amount ↔ Decimal.ofString? text = some amount ∧ amount ≤ maxAmount := by
  simp [amount?, Option.filter_eq_some_iff]

/-- The request that a sentence makes, unless its amount is refused. -/
def ofSentence? : Sentence → Option Request
  | .digitFact ws digit => some (.digitFact ws digit)
  | .priceFact ws metal text => (amount? text).map (.priceFact ws metal)
  | .valueQuestion ws => some (.valueQuestion ws)
  | .priceQuestion ws metal => some (.priceQuestion ws metal)

theorem ofLine_eq_getD (line : String) :
    ofLine line = ((Sentence.ofLine? line).bind ofSentence?).getD (.unknown line) := by
  unfold ofLine
  cases Sentence.ofLine? line with
  | none => rfl
  | some s =>
    cases s with
    | priceFact ws metal text => cases ha : amount? text <;> simp [ofSentence?, ha]
    | digitFact => rfl
    | valueQuestion => rfl
    | priceQuestion => rfl

theorem ne_unknown_of_ofSentence? {s : Sentence} {q : Request} (h : ofSentence? s = some q) (raw : String) :
    q ≠ .unknown raw := by
  rintro rfl
  cases s <;> simp [ofSentence?] at h

theorem ofSentence?_eq_priceFact_iff {s : Sentence} {ws : Phrase} {metal : String} {amount : Decimal} :
    ofSentence? s = some (.priceFact ws metal amount) ↔
      ∃ text, s = .priceFact ws metal text ∧ amount? text = some amount := by
  constructor
  · intro h
    cases s with
    | priceFact phrase name text =>
      obtain ⟨a, ha, he⟩ := Option.map_eq_some_iff.mp h
      obtain ⟨rfl, rfl, rfl⟩ := Request.priceFact.inj he
      exact ⟨text, rfl, ha⟩
    | _ => simp [ofSentence?] at h
  · rintro ⟨text, rfl, ha⟩
    exact Option.map_eq_some_iff.mpr ⟨amount, ha, rfl⟩

/-- The form of a request is that of a sentence which makes it. -/
theorem hasForm_iff_ofSentence? {line : String} {q : Request} :
    HasForm line q ↔ (Sentence.ofLine? line).bind ofSentence? = some q := by
  rw [Option.bind_eq_some_iff]
  cases q with
  | digitFact ws digit =>
    have hs (s : Sentence) : ofSentence? s = some (.digitFact ws digit) ↔ s = .digitFact ws digit := by
      cases s <;> simp [ofSentence?]
    simp only [hs, exists_eq_right, ofLine?_eq_digitFact_iff]
  | priceFact ws metal amount =>
    -- The amount is all that a sentence leaves to be read.
    simp only [ofSentence?_eq_priceFact_iff]
    constructor
    · rintro ⟨hg, hp, hm, hno, text, hw, hread, hle, he⟩
      exact ⟨_, ofLine?_eq_priceFact_iff.mpr ⟨hg, hp, hm, hno, hw, he⟩, text, rfl,
        amount?_eq_some_iff.mpr ⟨hread, hle⟩⟩
    · rintro ⟨s, hs, text, rfl, ha⟩
      obtain ⟨hg, hp, hm, hno, hw, he⟩ := ofLine?_eq_priceFact_iff.mp hs
      obtain ⟨hread, hle⟩ := amount?_eq_some_iff.mp ha
      exact ⟨hg, hp, hm, hno, text, hw, hread, hle, he⟩
  | valueQuestion ws =>
    have hs (s : Sentence) : ofSentence? s = some (.valueQuestion ws) ↔ s = .valueQuestion ws := by
      cases s <;> simp [ofSentence?]
    simp only [hs, exists_eq_right, ofLine?_eq_valueQuestion_iff]
  | priceQuestion ws metal =>
    have hs (s : Sentence) : ofSentence? s = some (.priceQuestion ws metal) ↔ s = .priceQuestion ws metal := by
      cases s <;> simp [ofSentence?]
    simp only [hs, exists_eq_right, ofLine?_eq_priceQuestion_iff]
  | unknown raw =>
    refine iff_of_false id ?_
    rintro ⟨s, -, he⟩
    exact ne_unknown_of_ofSentence? he raw rfl

/-- **Reading a line finds the form that it has.** -/
theorem hasForm_iff {line : String} {q : Request} : HasForm line q ↔ ofLine line = q ∧ ∀ raw, q ≠ .unknown raw := by
  rw [hasForm_iff_ofSentence?, ofLine_eq_getD]
  constructor
  · intro h
    obtain ⟨s, -, hs⟩ := Option.bind_eq_some_iff.mp h
    exact ⟨by rw [h, Option.getD_some], ne_unknown_of_ofSentence? hs⟩
  · rintro ⟨h, hne⟩
    cases hb : (Sentence.ofLine? line).bind ofSentence? with
    | none =>
      rw [hb, Option.getD_none] at h
      exact absurd h.symm (hne line)
    | some r => rw [← h, hb, Option.getD_some]

/-- **The language of lines.** A line asks for what it has the form of, and it is unknown if it has none. -/
theorem ofLine_eq_iff (line : String) (q : Request) :
    ofLine line = q ↔ HasForm line q ∨ q = .unknown line ∧ ∀ r, ¬ HasForm line r := by
  simp only [hasForm_iff_ofSentence?, ofLine_eq_getD]
  cases hb : (Sentence.ofLine? line).bind ofSentence? with
  | none => simp [eq_comm]
  | some r => simp

end Request

end TradeTalk
