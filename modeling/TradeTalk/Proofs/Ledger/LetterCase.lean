import Mathlib.Data.List.Forall2
import TradeTalk.Proofs.Decimal.Value
import TradeTalk.Proofs.Ledger.Reachable
import TradeTalk.Proofs.Ledger.Worth
import TradeTalk.Proofs.Text.Folding
import TradeTalk.Proofs.Text.Joining

/-!
# `Proofs.Ledger.LetterCase` — letter case never changes a meaning

Names are folded where they are filed and where they are looked up, and kept as they were spelled in quotes, answers and
overviews. So there are two runs to compare: whatever is told with other letters in capitals is recorded under the same
keys, and answered alike but for the spelling of names.

The relation between the two ledgers says this of their entries. It needs no invariant of either ledger, since names that
are equal up to letter case have one key whatever characters they have. Amounts may be related by anything that quotients
and products keep: that they are the same decimals, or that they have the same values.

## Contents
- **`SameLetters`**: texts, phrases, requests and answers that are equal up to the case of ASCII letters, with related
  amounts.
- **`SameOutcome`**: two results that are equal in this sense, or two faults.
- **`Ledger.SameLetters`**: two ledgers with the same keys and digits and with related amounts.
- **`SameLetters.worth`**, **`SameLetters.unitPrice`**: they value phrases and metals alike.
- **`SameLetters.respond`**: what one request preserves; **`SameLetters.tellAll`**: what a run preserves.
- **`tellAll_lettersOnly`**: two runs from the beginning.
-/

namespace TradeTalk

open Text (key lower)

/-! ## Related amounts -/

/-- A relation between decimals that quotients and products by whole numbers keep. -/
structure KeptByArithmetic (same : Decimal → Decimal → Prop) : Prop where
  quotient : ∀ {d d' : Decimal} {n : Nat}, same d d' → 0 < n → Option.Rel same (d.over? n) (d'.over? n)
  product : ∀ {d d' : Decimal} {n : Nat}, same d d' → Option.Rel same (d.times? n) (d'.times? n)

theorem rel_refl {α : Type} : (out : Option α) → Option.Rel Eq out out
  | none => .none
  | some _ => .some rfl

theorem keptByArithmetic_eq : KeptByArithmetic Eq where
  quotient h _ := h ▸ rel_refl _
  product h := h ▸ rel_refl _

theorem keptByArithmetic_sameValue : KeptByArithmetic Decimal.SameValue where
  quotient h hn := h.over? hn
  product h := h.times? _

/-! ## Equal up to letter case -/

variable {same : Decimal → Decimal → Prop}

/-- Two texts are equal up to the case of ASCII letters. -/
def Text.SameLetters (s t : String) : Prop :=
  lower s = lower t

instance : DecidableRel Text.SameLetters := fun s t => inferInstanceAs (Decidable (lower s = lower t))

/-- Two phrases are equal word by word. -/
def Phrase.SameLetters (p p' : Phrase) : Prop :=
  List.Forall₂ Text.SameLetters p p'

instance : DecidableRel Phrase.SameLetters := inferInstanceAs (DecidableRel (List.Forall₂ Text.SameLetters))

/-- Two requests of one kind have equal digits and related amounts, and names that are equal up to letter case. -/
inductive Request.SameLetters (same : Decimal → Decimal → Prop) : Request → Request → Prop where
  | digitFact {words words' : Phrase} {digit : Digit} (hwords : words.SameLetters words') :
      SameLetters same (.digitFact words digit) (.digitFact words' digit)
  | priceFact {phrase phrase' : Phrase} {metal metal' : String} {amount amount' : Decimal}
      (hphrase : phrase.SameLetters phrase') (hmetal : Text.SameLetters metal metal') (hamount : same amount amount') :
      SameLetters same (.priceFact phrase metal amount) (.priceFact phrase' metal' amount')
  | valueQuestion {phrase phrase' : Phrase} (hphrase : phrase.SameLetters phrase') :
      SameLetters same (.valueQuestion phrase) (.valueQuestion phrase')
  | priceQuestion {phrase phrase' : Phrase} {metal metal' : String} (hphrase : phrase.SameLetters phrase')
      (hmetal : Text.SameLetters metal metal') :
      SameLetters same (.priceQuestion phrase metal) (.priceQuestion phrase' metal')
  | unknown {raw raw' : String} : SameLetters same (.unknown raw) (.unknown raw')

/-- Two answers of one kind have equal numbers and related costs, and names that are equal up to letter case. -/
inductive Answer.SameLetters (same : Decimal → Decimal → Prop) : Answer → Answer → Prop where
  | noted : SameLetters same .noted .noted
  | number {phrase phrase' : String} {value : Nat} (hphrase : Text.SameLetters phrase phrase') :
      SameLetters same (.number phrase value) (.number phrase' value)
  | price {phrase phrase' metal metal' : String} {cost cost' : Decimal} (hphrase : Text.SameLetters phrase phrase')
      (hmetal : Text.SameLetters metal metal') (hcost : same cost cost') :
      SameLetters same (.price phrase metal cost) (.price phrase' metal' cost')
  | unknownName {name name' : String} (hname : Text.SameLetters name name') :
      SameLetters same (.unknownName name) (.unknownName name')
  | notUnderstood : SameLetters same .notUnderstood .notUnderstood

/-- Two faults of one kind have equal letters of numerals, and names that are equal up to letter case. -/
inductive Fault.SameLetters : Fault → Fault → Prop where
  | notANumeral {input : String} : SameLetters (.notANumeral input) (.notANumeral input)
  | unknownName {name name' : String} (hname : Text.SameLetters name name') :
      SameLetters (.unknownName name) (.unknownName name')
  | outOfRange : SameLetters .outOfRange .outOfRange

/-- Two outcomes are both results, which are related, or both faults, which are equal up to letter case. -/
inductive SameOutcome {α : Type} (rel : α → α → Prop) : Except Fault α → Except Fault α → Prop where
  | ok {a a' : α} (h : rel a a') : SameOutcome rel (.ok a) (.ok a')
  | error {f f' : Fault} (h : f.SameLetters f') : SameOutcome rel (.error f) (.error f')

/-- Two outcomes as a case distinction: what a caller of both looks at. -/
theorem SameOutcome.ok_or_error {α : Type} {rel : α → α → Prop} {out out' : Except Fault α}
    (h : SameOutcome rel out out') :
    (∃ a a', out = .ok a ∧ out' = .ok a' ∧ rel a a') ∨
      ∃ f f', out = .error f ∧ out' = .error f' ∧ f.SameLetters f' := by
  cases h with
  | ok ha => exact Or.inl ⟨_, _, rfl, rfl, ha⟩
  | error hf => exact Or.inr ⟨_, _, rfl, rfl, hf⟩

theorem Fault.SameLetters.refl (f : Fault) : f.SameLetters f := by
  cases f with
  | notANumeral => exact .notANumeral
  | unknownName => exact .unknownName rfl
  | outOfRange => exact .outOfRange

/-- An outcome that both sides find is the same. -/
theorem SameOutcome.refl {α : Type} (out : Except Fault α) : SameOutcome Eq out out := by
  cases out with
  | ok => exact .ok rfl
  | error f => exact .error (.refl f)

variable {p p' : Phrase} {metal metal' : String} {quote quote' : Quote}

/-- Words that are equal up to letter case are filed together. -/
theorem Phrase.SameLetters.map_key (h : p.SameLetters p') : p.map key = p'.map key := by
  induction h with
  | nil => rfl
  | cons hword _ ih => rw [List.map_cons, List.map_cons, Text.key_eq_of_lower_eq hword, ih]

/-- Phrases are equal up to letter case when they are written down, too. -/
theorem Phrase.SameLetters.text (h : p.SameLetters p') : Text.SameLetters p.text p'.text := by
  have hwords : (p.map String.toList).map (List.map Char.toLower) = (p'.map String.toList).map (List.map Char.toLower) := by
    induction h with
    | nil => rfl
    | cons hword _ ih =>
      have hletters := congrArg String.toList (hword : lower _ = lower _)
      rw [Text.toList_lower, Text.toList_lower] at hletters
      simp only [List.map_cons, hletters, ih]
  rw [Text.SameLetters, ← String.toList_inj, Text.toList_lower, Text.toList_lower, Request.toList_text,
    Request.toList_text, Text.map_join (by decide), Text.map_join (by decide), hwords]

/-- Two quotes have related amounts, and phrases that are equal up to letter case. -/
structure Quote.SameLetters (same : Decimal → Decimal → Prop) (quote quote' : Quote) : Prop where
  phrase : quote.phrase.SameLetters quote'.phrase
  amount : same quote.amount quote'.amount

/-- Two entries of a metal. -/
structure Listing.SameLetters (same : Decimal → Decimal → Prop) (listing listing' : Listing) : Prop where
  name : Text.SameLetters listing.name listing'.name
  quote : listing.quote.SameLetters same listing'.quote

namespace Ledger

/-- Two ledgers have the same digits, and entries for the same metals, with related amounts and with names and phrases
    that are equal up to letter case. -/
structure SameLetters (same : Decimal → Decimal → Prop) (l m : Ledger) : Prop where
  digits : l.digits = m.digits
  metals : ∀ k : String, Option.Rel (Listing.SameLetters same) l.metals[k]? m.metals[k]?

theorem sameLetters_empty : empty.SameLetters same empty := by
  refine ⟨rfl, fun k => ?_⟩
  have hnone : empty.metals[k]? = none := by simp [empty]
  rw [hnone]
  exact .none

variable {l m : Ledger} {q q' : Request}

/-! ## Phrases -/

theorem SameLetters.digit? (h : l.SameLetters same m) {word word' : String} (hword : Text.SameLetters word word') :
    l.digit? word = m.digit? word' := by
  rw [Ledger.digit?, h.digits, Text.key_eq_of_lower_eq hword, Ledger.digit?]

theorem SameLetters.digit (h : l.SameLetters same m) {word word' : String} (hword : Text.SameLetters word word') :
    SameOutcome Eq (l.digit word) (m.digit word') := by
  rw [Ledger.digit, Ledger.digit, h.digit? hword]
  cases m.digit? word' with
  | some d => exact .ok rfl
  | none => exact .error (.unknownName hword)

theorem SameLetters.numeral (h : l.SameLetters same m) (hp : p.SameLetters p') :
    SameOutcome Eq (l.numeral p) (m.numeral p') := by
  induction hp with
  | nil => exact .ok rfl
  | cons hword _ ih =>
    rw [Ledger.numeral, Ledger.numeral]
    obtain ⟨first, _, hl, hm, rfl⟩ | ⟨f, f', hl, hm, hf⟩ := (h.digit hword).ok_or_error
    · obtain ⟨rest, _, hl', hm', rfl⟩ | ⟨f, f', hl', hm', hf⟩ := ih.ok_or_error
      · rw [hl, hm, hl', hm']
        exact .ok rfl
      · rw [hl, hm, hl', hm']
        exact .error hf
    · rw [hl, hm]
      exact .error hf

/-- **Phrases that are equal up to letter case are worth the same**, or fail with one numeral or with the same name. -/
theorem SameLetters.worth (h : l.SameLetters same m) (hp : p.SameLetters p') :
    SameOutcome Eq (l.worth p) (m.worth p') := by
  rw [Ledger.worth, Ledger.worth]
  obtain ⟨ds, _, hl, hm, rfl⟩ | ⟨f, f', hl, hm, hf⟩ := (h.numeral hp).ok_or_error
  · rw [hl, hm]
    exact .refl (Numeral.read (Numeral.text ds))
  · rw [hl, hm]
    exact .error hf

theorem SameLetters.knowsAll (h : l.SameLetters same m) (hp : p.SameLetters p') : l.knowsAll p = m.knowsAll p' := by
  induction hp with
  | nil => rfl
  | cons hword _ ih =>
    rw [Ledger.knowsAll, Ledger.knowsAll] at ih
    rw [Ledger.knowsAll, Ledger.knowsAll, List.all_cons, List.all_cons, h.digit? hword, ih]

theorem SameLetters.accepts (h : l.SameLetters same m) (hp : p.SameLetters p') :
    SameOutcome Eq (l.accepts p) (m.accepts p') := by
  rw [Ledger.accepts, Ledger.accepts, h.knowsAll hp]
  split
  · obtain ⟨n, _, hl, hm, rfl⟩ | ⟨f, f', hl, hm, hf⟩ := (h.worth hp).ok_or_error
    · rw [hl, hm]
      exact .ok rfl
    · rw [hl, hm]
      exact .error hf
  · exact .ok rfl

/-! ## Metals -/

theorem SameLetters.quote? (h : l.SameLetters same m) (hmetal : Text.SameLetters metal metal') :
    Option.Rel (Quote.SameLetters same) (l.quote? metal) (m.quote? metal') := by
  rw [Ledger.quote?, Ledger.quote?, Text.key_eq_of_lower_eq hmetal]
  have hentry := h.metals (key metal')
  generalize l.metals[key metal']? = entry, m.metals[key metal']? = entry' at hentry
  cases hentry with
  | none => exact .none
  | some hlisting => exact .some hlisting.quote

/-- What phrases worth nothing look like: they have no words. -/
theorem eq_nil_of_worth_eq_zero (h : l.worth p = .ok 0) : p = [] := by
  by_contra hne
  exact absurd (worth_pos_le hne h).1 (lt_irrefl 0)

theorem SameLetters.unitPriceBy (hsame : KeptByArithmetic same) (h : l.SameLetters same m)
    (hquote : quote.SameLetters same quote') : SameOutcome same (l.unitPriceBy quote) (m.unitPriceBy quote') := by
  obtain ⟨quantity, _, hl, hm, rfl⟩ | ⟨f, f', hl, hm, hf⟩ := (h.worth hquote.phrase).ok_or_error
  · cases quantity with
    | zero =>
      -- The fault spells the phrase, and there is no letter in it.
      rw [Ledger.unitPriceBy, Ledger.unitPriceBy, hl, hm, eq_nil_of_worth_eq_zero hl, eq_nil_of_worth_eq_zero hm]
      exact .error .notANumeral
    | succ n =>
      have hunit := hsame.quotient hquote.amount n.succ_pos
      simp only [Ledger.unitPriceBy, hl, hm]
      generalize quote.amount.over? (n + 1) = unit, quote'.amount.over? (n + 1) = unit' at hunit
      cases hunit with
      | none => exact .error .outOfRange
      | some hunit => exact .ok hunit
  · rw [Ledger.unitPriceBy, Ledger.unitPriceBy, hl, hm]
    exact .error hf

/-- **Metals that are equal up to letter case have related unit prices.** -/
theorem SameLetters.unitPrice (hsame : KeptByArithmetic same) (h : l.SameLetters same m)
    (hmetal : Text.SameLetters metal metal') : SameOutcome same (l.unitPrice metal) (m.unitPrice metal') := by
  rw [Ledger.unitPrice, Ledger.unitPrice]
  have hquote := h.quote? hmetal
  generalize l.quote? metal = quote, m.quote? metal' = quote' at hquote
  cases hquote with
  | none => exact .error (.unknownName hmetal)
  | some hquote => exact h.unitPriceBy hsame hquote

/-! ## Questions -/

theorem SameLetters.interpret (h : l.SameLetters same m) (hp : p.SameLetters p') :
    SameOutcome (Answer.SameLetters same) (l.interpret p) (m.interpret p') := by
  rw [Ledger.interpret, Ledger.interpret]
  obtain ⟨value, _, hl, hm, rfl⟩ | ⟨f, f', hl, hm, hf⟩ := (h.worth hp).ok_or_error
  · rw [hl, hm]
    exact .ok (.number hp.text)
  · rw [hl, hm]
    exact .error hf

theorem SameLetters.price (hsame : KeptByArithmetic same) (h : l.SameLetters same m) (hp : p.SameLetters p')
    (hmetal : Text.SameLetters metal metal') :
    SameOutcome (Answer.SameLetters same) (l.price p metal) (m.price p' metal') := by
  rw [Ledger.price, Ledger.price]
  obtain ⟨quantity, _, hl, hm, rfl⟩ | ⟨f, f', hl, hm, hf⟩ := (h.worth hp).ok_or_error
  · rw [hl, hm]
    obtain ⟨unit, unit', hl', hm', hunit⟩ | ⟨f, f', hl', hm', hf⟩ := (h.unitPrice hsame hmetal).ok_or_error
    · rw [hl', hm']
      have hcost := hsame.product (n := quantity) hunit
      dsimp only
      generalize unit.times? quantity = cost, unit'.times? quantity = cost' at hcost
      cases hcost with
      | none => exact .error .outOfRange
      | some hcost => exact .ok (.price hp.text hmetal hcost)
    · rw [hl', hm']
      exact .error hf
  · rw [hl, hm]
    exact .error hf

theorem sameOutcome_settle {out out' : Except Fault Answer} (h : SameOutcome (Answer.SameLetters same) out out') :
    SameOutcome (Answer.SameLetters same) (settle out) (settle out') := by
  cases h with
  | ok ha => exact .ok ha
  | error hf =>
    cases hf with
    | notANumeral => exact .error .notANumeral
    | unknownName hname => exact .ok (.unknownName hname)
    | outOfRange => exact .error .outOfRange

/-! ## Facts -/

theorem SameLetters.assignAll (h : l.SameLetters same m) (hp : p.SameLetters p') (digit : Digit) :
    (l.assignAll p digit).SameLetters same (m.assignAll p' digit) where
  digits := by
    apply Std.ExtTreeMap.ext_getElem?
    intro k
    rw [getElem?_digits_assignAll, getElem?_digits_assignAll, hp.map_key, h.digits]
  metals := by
    rw [metals_assignAll, metals_assignAll]
    exact h.metals

theorem SameLetters.record (h : l.SameLetters same m) (hmetal : Text.SameLetters metal metal')
    (hquote : quote.SameLetters same quote') : (l.record metal quote).SameLetters same (m.record metal' quote') where
  digits := h.digits
  metals := by
    intro k
    rw [getElem?_metals_record, getElem?_metals_record, Text.key_eq_of_lower_eq hmetal]
    have hentry := h.metals k
    split
    · -- The first spelling stays on both sides, or there is none on either.
      generalize l.metals[k]? = entry, m.metals[k]? = entry' at hentry
      cases hentry with
      | none => exact .some ⟨hmetal, hquote⟩
      | some hlisting => exact .some ⟨hlisting.name, hquote⟩
    · exact hentry

/-! ## Requests and runs -/

/-- **Requests that are equal up to letter case are answered so, and leave ledgers that are.** -/
theorem SameLetters.respond (hsame : KeptByArithmetic same) (h : l.SameLetters same m) (hq : q.SameLetters same q') :
    SameOutcome (Answer.SameLetters same) (l.respond q).1 (m.respond q').1 ∧
      (l.respond q).2.SameLetters same (m.respond q').2 := by
  cases hq with
  | digitFact hwords => exact ⟨.ok .noted, h.assignAll hwords _⟩
  | @priceFact phrase phrase' metal metal' amount amount' hphrase hmetal hamount =>
    simp only [Ledger.respond]
    obtain ⟨_, _, hl, hm, -⟩ | ⟨f, f', hl, hm, hf⟩ := (h.accepts hphrase).ok_or_error
    · rw [hl, hm]
      exact ⟨.ok .noted, h.record hmetal ⟨hphrase, hamount⟩⟩
    · rw [hl, hm]
      exact ⟨sameOutcome_settle (.error hf), h⟩
  | valueQuestion hphrase => exact ⟨sameOutcome_settle (h.interpret hphrase), h⟩
  | priceQuestion hphrase hmetal => exact ⟨sameOutcome_settle (h.price hsame hphrase hmetal), h⟩
  | unknown => exact ⟨.ok .notUnderstood, h⟩

/-- Two lines ask or state the same up to letter case. -/
def SameRequest (same : Decimal → Decimal → Prop) (line line' : String) : Prop :=
  (Request.ofLine (dropLineEnds line)).SameLetters same (Request.ofLine (dropLineEnds line'))

/-- Two runs are answered alike, line by line, and leave ledgers that are equal up to letter case. -/
def SameRun (same : Decimal → Decimal → Prop) (run run' : List (Except Fault Answer) × Ledger) : Prop :=
  List.Forall₂ (SameOutcome (Answer.SameLetters same)) run.1 run'.1 ∧ run.2.SameLetters same run'.2

theorem SameLetters.tell (hsame : KeptByArithmetic same) (h : l.SameLetters same m) {line line' : String}
    (hline : SameRequest same line line') :
    SameOutcome (Answer.SameLetters same) (l.tell line).1 (m.tell line').1 ∧
      (l.tell line).2.SameLetters same (m.tell line').2 := by
  rw [Ledger.tell, Ledger.tell]
  exact h.respond hsame hline

/-- **Lines that are equal up to letter case are answered so, one after another.** -/
theorem SameLetters.tellAll (hsame : KeptByArithmetic same) (h : l.SameLetters same m) {lines lines' : List String}
    (hlines : List.Forall₂ (SameRequest same) lines lines') : SameRun same (l.tellAll lines) (m.tellAll lines') := by
  induction hlines generalizing l m with
  | nil => exact ⟨.nil, h⟩
  | cons hline _ ih =>
    obtain ⟨hanswer, hnext⟩ := h.tell hsame hline
    obtain ⟨hanswers, hlast⟩ := ih hnext
    simp only [Ledger.tellAll]
    exact ⟨.cons hanswer hanswers, hlast⟩

/-- **Letter case never changes a meaning.** Two sessions that tell and ask the same, line by line, but for the case of
    letters in words and metals, are answered alike but for that, and learn the same. This holds of amounts that are the
    same decimals, whose prices are then the same, and of amounts that have the same values, whose prices then have. -/
theorem tellAll_lettersOnly (lines lines' : List String) :
    (List.Forall₂ (SameRequest Eq) lines lines' → SameRun Eq (empty.tellAll lines) (empty.tellAll lines')) ∧
      (List.Forall₂ (SameRequest Decimal.SameValue) lines lines' →
        SameRun Decimal.SameValue (empty.tellAll lines) (empty.tellAll lines')) :=
  ⟨sameLetters_empty.tellAll keptByArithmetic_eq, sameLetters_empty.tellAll keptByArithmetic_sameValue⟩

/-- Lines without capitals where none have to be, -/
def spoken : List String :=
  ["glob is I", "glob glob Silver is 34.5 Credits", "how many Credits is glob Silver ?",
    "how much is glob glob glob glob ?", "how many Credits is glob Gold ?"]

/-- and the same lines in all kinds of letters, with the amount of the quote as it is spelled. -/
def shouted (amount : String) : List String :=
  ["GLOB is I", "gLoB Glob SILVER is " ++ amount ++ " Credits\r\n", "how many Credits is GLOB SilveR ?",
    "how much is glob GLOB Glob gloB ?", "how many Credits is glob GOLD ?"]

theorem sameRequest_of_eq {line line' : String} (q q' : Request) (h : Request.ofLine (dropLineEnds line) = q)
    (h' : Request.ofLine (dropLineEnds line') = q') (hq : q.SameLetters same q') : SameRequest same line line' := by
  rw [SameRequest, h, h']
  exact hq

/-- Line by line they tell and ask the same, if the amounts are related. -/
theorem sameRequests_shouted {amount : String} {d' : Decimal}
    (hshouted : Request.ofLine (dropLineEnds ("gLoB Glob SILVER is " ++ amount ++ " Credits\r\n")) =
      .priceFact ["gLoB", "Glob"] "SILVER" d')
    (hamount : same ⟨false, 345, 1, by decide, by decide⟩ d') :
    List.Forall₂ (SameRequest same) spoken (shouted amount) := by
  refine .cons ?_ (.cons ?_ (.cons ?_ (.cons ?_ (.cons ?_ .nil))))
  · exact sameRequest_of_eq (.digitFact ["glob"] .one) (.digitFact ["GLOB"] .one) (by decide +kernel)
      (by decide +kernel) (.digitFact (by decide))
  · exact sameRequest_of_eq (.priceFact ["glob", "glob"] "Silver" ⟨false, 345, 1, by decide, by decide⟩)
      (.priceFact ["gLoB", "Glob"] "SILVER" d') (by decide +kernel) hshouted
      (.priceFact (by decide) (by decide) hamount)
  · exact sameRequest_of_eq (.priceQuestion ["glob"] "Silver") (.priceQuestion ["GLOB"] "SilveR") (by decide +kernel)
      (by decide +kernel) (.priceQuestion (by decide) (by decide))
  · exact sameRequest_of_eq (.valueQuestion ["glob", "glob", "glob", "glob"])
      (.valueQuestion ["glob", "GLOB", "Glob", "gloB"]) (by decide +kernel) (by decide +kernel)
      (.valueQuestion (by decide))
  · exact sameRequest_of_eq (.priceQuestion ["glob"] "Gold") (.priceQuestion ["glob"] "GOLD") (by decide +kernel)
      (by decide +kernel) (.priceQuestion (by decide) (by decide))

/-- Both sessions price the metal alike, stumble over one numeral and know nothing of the other metal. -/
theorem tellAll_lettersOnly_shouted :
    SameRun Eq (empty.tellAll spoken) (empty.tellAll (shouted "34.5")) ∧
      SameRun Decimal.SameValue (empty.tellAll spoken) (empty.tellAll (shouted "34.50")) ∧
      (empty.tellAll (shouted "34.50")).1 =
        [.ok .noted, .ok .noted, .ok (.price "GLOB" "SilveR" ⟨false, 1725, 2, by decide, by decide⟩),
          .error (.notANumeral "IIII"), .ok (.unknownName "GOLD")] := by
  have hvalue : Decimal.SameValue ⟨false, 345, 1, by decide, by decide⟩ ⟨false, 3450, 2, by decide, by decide⟩ := by
    rw [Decimal.SameValue]
    decide +kernel
  refine ⟨(tellAll_lettersOnly _ _).1 ?_, (tellAll_lettersOnly _ _).2 ?_, by decide +kernel⟩
  · exact sameRequests_shouted (by decide +kernel) rfl
  · exact sameRequests_shouted (by decide +kernel) hvalue

end Ledger

end TradeTalk
