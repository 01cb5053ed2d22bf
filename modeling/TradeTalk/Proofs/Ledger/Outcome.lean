import TradeTalk.Proofs.Ledger.InRange

/-!
# `Proofs.Ledger.Outcome` — what a line is answered, and what it changes

A line has one outcome, said here by a rule for each: which names are unknown, which numerals are none, and in a
question about a price, which of these is reported first. A reachable ledger answers by the rules, and always by one of
them: no price is out of range, and no phrase is blank. Only what is noted changes a ledger.

## Contents
- **`DropsLineEnds`**: a line without the line ends that it closes with.
- **`Outcome`**: the rules.
- **`respond_eq_iff`**: a reachable ledger answers a request by the rules.
- **`respond_snd_of_ne_noted`**: any other answer leaves the ledger as it was.
- **`Outcome.fault_eq`**, **`Outcome.error`**: nothing but a rejected numeral is a fault.
- **`Reachable.tell_outcome`**: all of it for a line.
- **`tellAll_inRange`**: no lines take a ledger out of range.
-/

namespace TradeTalk

namespace Ledger

/-! ## Line ends -/

/-- A body and the line ends after it make a line, and the body does not close with one. -/
def DropsLineEnds (line body : String) : Prop :=
  ∃ ends, line = body ++ ends ∧ (∀ c ∈ ends.toList, c = '\r' ∨ c = '\n') ∧
    ∀ c, body.toList.getLast? = some c → c ≠ '\r' ∧ c ≠ '\n'

theorem isLineEnd_iff {c : Char} : isLineEnd c = true ↔ c = '\r' ∨ c = '\n' := by
  simp [isLineEnd]

/-- What is dropped of a reversed line, and what is left of it. -/
theorem dropWhile_reverse_eq_iff {cs body : List Char} :
    (cs.reverse.dropWhile isLineEnd).reverse = body ↔
      ∃ ends, cs = body ++ ends ∧ (∀ c ∈ ends, isLineEnd c = true) ∧
        ∀ c, body.getLast? = some c → isLineEnd c = false := by
  constructor
  · rintro rfl
    refine ⟨(cs.reverse.takeWhile isLineEnd).reverse, ?_, ?_, ?_⟩
    · rw [← List.reverse_append, List.takeWhile_append_dropWhile, List.reverse_reverse]
    · intro c hc
      exact List.mem_takeWhile_imp (List.mem_reverse.mp hc)
    · intro c hc
      rw [List.getLast?_reverse] at hc
      have := List.head?_dropWhile_not isLineEnd cs.reverse
      rw [hc] at this
      simpa using this
  · rintro ⟨ends, rfl, hends, hbody⟩
    rw [List.reverse_append, List.dropWhile_append_of_pos (by simpa using hends)]
    cases hb : body.reverse with
    | nil => simpa using hb.symm
    | cons c cs =>
      have hlast : body.getLast? = some c := by
        rw [← List.head?_reverse, hb, List.head?_cons]
      rw [List.dropWhile_cons_of_neg (by simp [hbody c hlast]), ← hb, List.reverse_reverse]

theorem dropsLineEnds_iff {line body : String} : DropsLineEnds line body ↔ dropLineEnds line = body := by
  have hofList : dropLineEnds line = body ↔ (line.toList.reverse.dropWhile isLineEnd).reverse = body.toList := by
    rw [dropLineEnds, ← String.toList_inj, String.toList_ofList]
  rw [hofList, dropWhile_reverse_eq_iff]
  constructor
  · rintro ⟨ends, rfl, hends, hbody⟩
    exact ⟨ends.toList, String.toList_append, fun c hc => isLineEnd_iff.mpr (hends c hc), fun c hc => by
      simpa [isLineEnd] using hbody c hc⟩
  · rintro ⟨ends, he, hends, hbody⟩
    refine ⟨String.ofList ends, ?_, ?_, ?_⟩
    · rw [← String.toList_inj, he, String.toList_append, String.toList_ofList]
    · rw [String.toList_ofList]
      exact fun c hc => isLineEnd_iff.mp (hends c hc)
    · intro c hc
      simpa [isLineEnd] using hbody c hc

/-! ## The rules -/

/-- The outcome of a request. -/
inductive Outcome (l : Ledger) : Request → Except Fault Answer → Prop where
  /-- Words are given a digit whatever they stood for. -/
  | digitFact {words : Phrase} {digit : Digit} : Outcome l (.digitFact words digit) (.ok .noted)
  /-- A quote is recorded when its phrase is worth something. -/
  | priceFact {phrase : Phrase} {metal : String} {amount : Decimal} {q : Nat} :
      Values l phrase (.ok q) → Outcome l (.priceFact phrase metal amount) (.ok .noted)
  /-- A quote is recorded when some word of its phrase is unknown. -/
  | openPriceFact {phrase : Phrase} {metal word : String} {amount : Decimal} :
      Values l phrase (.error (.unknownName word)) → Outcome l (.priceFact phrase metal amount) (.ok .noted)
  /-- A quote is refused when its words are known and spell no numeral. -/
  | refusedPriceFact {phrase : Phrase} {metal letters : String} {amount : Decimal} :
      Values l phrase (.error (.notANumeral letters)) →
        Outcome l (.priceFact phrase metal amount) (.error (.notANumeral letters))
  /-- A phrase is answered by its number. -/
  | number {phrase : Phrase} {n : Nat} :
      Values l phrase (.ok n) → Outcome l (.valueQuestion phrase) (.ok (.number phrase.text n))
  /-- That its first unknown word is one is an answer too. -/
  | unknownWord {phrase : Phrase} {word : String} :
      Values l phrase (.error (.unknownName word)) → Outcome l (.valueQuestion phrase) (.ok (.unknownName word))
  /-- The letters of what is no numeral are a fault. -/
  | notANumeral {phrase : Phrase} {letters : String} :
      Values l phrase (.error (.notANumeral letters)) →
        Outcome l (.valueQuestion phrase) (.error (.notANumeral letters))
  /-- A price is asked for a phrase first: what the phrase alone is answered, other than its number, is the answer. -/
  | phraseFirst {phrase : Phrase} {metal : String} {out : Except Fault Answer} :
      Outcome l (.valueQuestion phrase) out → (∀ n, out ≠ .ok (.number phrase.text n)) →
        Outcome l (.priceQuestion phrase metal) out
  /-- Then for a metal. -/
  | unknownMetal {phrase : Phrase} {metal : String} {n : Nat} :
      Values l phrase (.ok n) → l.quote? metal = none →
        Outcome l (.priceQuestion phrase metal) (.ok (.unknownName metal))
  /-- Then by the phrase of its quote, which may have an unknown word by now or still, -/
  | unknownQuoteWord {phrase : Phrase} {metal word : String} {n : Nat} {quote : Quote} :
      Values l phrase (.ok n) → l.quote? metal = some quote → Values l quote.phrase (.error (.unknownName word)) →
        Outcome l (.priceQuestion phrase metal) (.ok (.unknownName word))
  /-- or spell no numeral since its words were redefined. -/
  | quoteNotANumeral {phrase : Phrase} {metal letters : String} {n : Nat} {quote : Quote} :
      Values l phrase (.ok n) → l.quote? metal = some quote → Values l quote.phrase (.error (.notANumeral letters)) →
        Outcome l (.priceQuestion phrase metal) (.error (.notANumeral letters))
  /-- The price is the amount of the quote over what its phrase is worth, times the number asked for. -/
  | price {phrase : Phrase} {metal : String} {n q : Nat} {quote : Quote} {unit cost : Decimal} :
      Values l phrase (.ok n) → l.quote? metal = some quote → Values l quote.phrase (.ok q) →
        quote.amount.over? q = some unit → unit.times? n = some cost →
        Outcome l (.priceQuestion phrase metal) (.ok (.price phrase.text metal cost))
  /-- Any other line is not understood. -/
  | notUnderstood {line : String} : Outcome l (.unknown line) (.ok .notUnderstood)

/-! ## A reachable ledger follows the rules -/

variable {l : Ledger} {q : Request}

/-- The outcome by the rules is the answer. -/
theorem Outcome.respond_fst (h : l.Reachable) (hq : ∀ phrase, q.phrase? = some phrase → phrase ≠ [])
    {out : Except Fault Answer} (hout : Outcome l q out) : (l.respond q).1 = out := by
  induction hout with
  | digitFact => rfl
  | priceFact hv =>
    have hw := (worth_eq_iff (hq _ rfl)).mpr hv
    obtain ⟨hs, -⟩ | _ | _ := hv
    simp only [respond, accepts, knowsAll_of_spells hs, hw]
    rfl
  | openPriceFact hv =>
    obtain _ | hu | _ := hv
    simp only [respond, accepts, knowsAll_of_firstUnknown hu]
    rfl
  | refusedPriceFact hv =>
    have hw := (worth_eq_iff (hq _ rfl)).mpr hv
    obtain _ | _ | ⟨hs, -⟩ := hv
    simp only [respond, accepts, knowsAll_of_spells hs, hw]
    rfl
  | number hv => simp only [respond, interpret, (worth_eq_iff (hq _ rfl)).mpr hv, settle]
  | unknownWord hv => simp only [respond, interpret, (worth_eq_iff (hq _ rfl)).mpr hv, settle]
  | notANumeral hv => simp only [respond, interpret, (worth_eq_iff (hq _ rfl)).mpr hv, settle]
  | @phraseFirst phrase metal out hout hne ih =>
    -- The phrase is valued before the metal is looked up, so the metal does not matter here.
    have hp : phrase ≠ [] := hq _ rfl
    cases hout with
    | number => exact absurd rfl (hne _)
    | unknownWord hv => simp only [respond, Ledger.price, (worth_eq_iff hp).mpr hv, settle]
    | notANumeral hv => simp only [respond, Ledger.price, (worth_eq_iff hp).mpr hv, settle]
  | unknownMetal hv hm => simp only [respond, Ledger.price, (worth_eq_iff (hq _ rfl)).mpr hv, unitPrice, hm, settle]
  | unknownQuoteWord hv hm hqv =>
    have hqw := (worth_eq_iff (h.quote_phrase hm)).mpr hqv
    simp only [respond, Ledger.price, (worth_eq_iff (hq _ rfl)).mpr hv, unitPrice, hm, unitPriceBy_error hqw, settle]
  | quoteNotANumeral hv hm hqv =>
    have hqw := (worth_eq_iff (h.quote_phrase hm)).mpr hqv
    simp only [respond, Ledger.price, (worth_eq_iff (hq _ rfl)).mpr hv, unitPrice, hm, unitPriceBy_error hqw, settle]
  | price hv hm hqv hu hc =>
    have hqw := (worth_eq_iff (h.quote_phrase hm)).mpr hqv
    obtain ⟨unit, hunit, hby, -⟩ := (h.inRange hm).unitPriceBy hqw
    obtain rfl := Option.some.inj (hu.symm.trans hunit)
    simp only [respond, Ledger.price, (worth_eq_iff (hq _ rfl)).mpr hv, unitPrice, hm, hby, hc, settle]
  | notUnderstood => rfl

/-- A phrase with words in it has one of the three outcomes. -/
theorem exists_values (l : Ledger) {phrase : Phrase} (hne : phrase ≠ []) :
    (∃ n, Values l phrase (.ok n)) ∨ (∃ word, Values l phrase (.error (.unknownName word))) ∨
      ∃ letters, Values l phrase (.error (.notANumeral letters)) := by
  have hv : Values l phrase (l.worth phrase) := (worth_eq_iff hne).mp rfl
  generalize l.worth phrase = out at hv
  cases hv with
  | number hs hn => exact Or.inl ⟨_, .number hs hn⟩
  | unknownName hu => exact Or.inr (Or.inl ⟨_, .unknownName hu⟩)
  | notANumeral hs hno => exact Or.inr (Or.inr ⟨_, .notANumeral hs hno⟩)

/-- There is a rule for every request. -/
theorem exists_outcome (h : l.Reachable) (hq : ∀ phrase, q.phrase? = some phrase → phrase ≠ []) :
    ∃ out, Outcome l q out := by
  cases q with
  | digitFact words digit => exact ⟨_, .digitFact⟩
  | priceFact phrase metal amount =>
    rcases l.exists_values (hq phrase rfl) with ⟨n, hv⟩ | ⟨word, hv⟩ | ⟨letters, hv⟩
    · exact ⟨_, .priceFact hv⟩
    · exact ⟨_, .openPriceFact hv⟩
    · exact ⟨_, .refusedPriceFact hv⟩
  | valueQuestion phrase =>
    rcases l.exists_values (hq phrase rfl) with ⟨n, hv⟩ | ⟨word, hv⟩ | ⟨letters, hv⟩
    · exact ⟨_, .number hv⟩
    · exact ⟨_, .unknownWord hv⟩
    · exact ⟨_, .notANumeral hv⟩
  | priceQuestion phrase metal =>
    rcases l.exists_values (hq phrase rfl) with ⟨n, hv⟩ | ⟨word, hv⟩ | ⟨letters, hv⟩
    · cases hm : l.quote? metal with
      | none => exact ⟨_, .unknownMetal hv hm⟩
      | some quote =>
        have hqp := h.quote_phrase hm
        rcases l.exists_values hqp with ⟨q, hqv⟩ | ⟨word, hqv⟩ | ⟨letters, hqv⟩
        · -- Only here decimals are needed, and a reachable ledger has them.
          obtain ⟨-, unit, hu, htimes⟩ := h.inRange hm q ((worth_eq_iff hqp).mpr hqv)
          obtain ⟨cost, hc⟩ := htimes n (worth_le_largest ((worth_eq_iff (hq phrase rfl)).mpr hv))
          exact ⟨_, .price hv hm hqv hu hc⟩
        · exact ⟨_, .unknownQuoteWord hv hm hqv⟩
        · exact ⟨_, .quoteNotANumeral hv hm hqv⟩
    · exact ⟨_, .phraseFirst (.unknownWord hv) (by simp)⟩
    · exact ⟨_, .phraseFirst (.notANumeral hv) (by simp)⟩
  | unknown line => exact ⟨_, .notUnderstood⟩

/-- **A reachable ledger answers a request by the rules.** -/
theorem respond_eq_iff (h : l.Reachable) (hq : ∀ phrase, q.phrase? = some phrase → phrase ≠ [])
    {out : Except Fault Answer} : (l.respond q).1 = out ↔ Outcome l q out := by
  constructor
  · rintro rfl
    obtain ⟨out, hout⟩ := exists_outcome h hq
    rwa [hout.respond_fst h hq]
  · exact Outcome.respond_fst h hq

/-- **Only what is noted changes a ledger.** -/
theorem respond_snd_of_ne_noted (l : Ledger) (q : Request) (hne : (l.respond q).1 ≠ .ok .noted) :
    (l.respond q).2 = l := by
  rcases l.respond_snd q with he | ⟨words, digit, rfl, -⟩ | ⟨phrase, metal, amount, rfl, ha, -⟩
  · exact he
  · exact absurd rfl hne
  · exact absurd (by simp [respond, ha]) hne

/-! ## Lines -/

theorem ne_nil_of_phrase? {line : String} {phrase : Phrase} (h : (Request.ofLine line).phrase? = some phrase) :
    phrase ≠ [] := by
  have hne : ∀ raw, Request.ofLine line ≠ .unknown raw := by
    intro raw hraw
    simp [hraw, Request.phrase?] at h
  exact (Request.isPhrase_of_phrase? (Request.hasForm_iff.mpr ⟨rfl, hne⟩) h).1

/-- The letters of a fault are those of digits. -/
theorem Outcome.fault_eq {f : Fault} (h : Outcome l q (.error f)) : ∃ ds, f = .notANumeral (Numeral.text ds) := by
  have hvalues {phrase : Phrase} {letters : String} (hv : Values l phrase (.error (.notANumeral letters))) :
      ∃ ds, Fault.notANumeral letters = .notANumeral (Numeral.text ds) := by
    cases hv with
    | @notANumeral ds _ _ => exact ⟨ds, rfl⟩
  generalize hout : Except.error f = out at h
  induction h with
  | phraseFirst _ _ ih => exact ih hout
  | refusedPriceFact hv => exact Except.error.inj hout ▸ hvalues hv
  | notANumeral hv => exact Except.error.inj hout ▸ hvalues hv
  | quoteNotANumeral _ _ hv => exact Except.error.inj hout ▸ hvalues hv
  | _ => contradiction

/-- Nothing but a rejected numeral is a fault. -/
theorem Outcome.error {f : Fault} (h : Outcome l q (.error f)) : ∃ letters, f = .notANumeral letters := by
  obtain ⟨ds, hf⟩ := h.fault_eq
  exact ⟨_, hf⟩

/-- A fault of a reachable ledger is a rejected numeral, and leaves the ledger as it was. -/
theorem Reachable.tell_error (h : l.Reachable) {line : String} {f : Fault} {l' : Ledger}
    (htell : l.tell line = (.error f, l')) : l' = l ∧ ∃ ds, f = .notANumeral (Numeral.text ds) := by
  have hfst : (l.tell line).1 = .error f := by rw [htell]
  have hsnd : (l.tell line).2 = l' := by rw [htell]
  constructor
  · rw [← hsnd]
    apply respond_snd_of_ne_noted
    show (l.tell line).1 ≠ _
    rw [hfst]
    simp
  · exact ((respond_eq_iff h fun _ => ne_nil_of_phrase?).mp hfst).fault_eq

/-- **The outcome of a line.** Without the line ends that it closes with, a line is answered by the rules and in no
    other way; nothing but a rejected numeral is a fault; and any other answer than that it was noted leaves the ledger
    as it was. -/
theorem Reachable.tell_outcome (h : l.Reachable) (line : String) :
    (∃ body, DropsLineEnds line body ∧ ∀ out, (l.tell line).1 = out ↔ Outcome l (Request.ofLine body) out) ∧
      (∀ f, (l.tell line).1 = .error f → ∃ letters, f = .notANumeral letters) ∧
      ((l.tell line).1 ≠ .ok .noted → (l.tell line).2 = l) := by
  have hrule (out) : (l.tell line).1 = out ↔ Outcome l (Request.ofLine (dropLineEnds line)) out :=
    respond_eq_iff h fun _ => ne_nil_of_phrase?
  exact ⟨⟨dropLineEnds line, dropsLineEnds_iff.mpr rfl, hrule⟩, fun f hf => ((hrule _).mp hf).error,
    respond_snd_of_ne_noted l _⟩

/-- A ledger that knows two words and what a metal costs. -/
def sellsSilver : Ledger :=
  (empty.tellAll ["glob is I", "prok is V", "glob glob Silver is 34 Credits"]).2

/-- Of two faults the one of the question's own phrase is reported; a metal is found in any letter case; and a quote is
    refused if its words are known and write no numeral. -/
theorem tell_outcome_sellsSilver :
    sellsSilver.Reachable ∧
      Outcome sellsSilver (.priceQuestion ["glob", "glob", "glob", "glob"] "Iron") (.error (.notANumeral "IIII")) ∧
      (sellsSilver.tell "how many Credits is glob glob glob glob Iron ?\r\n").2 = sellsSilver ∧
      Outcome sellsSilver (.priceQuestion ["glob", "prok"] "SILVER")
        (.ok (.price "glob prok" "SILVER" ⟨false, 68, 0, by decide, by decide⟩)) ∧
      Outcome sellsSilver (.priceFact ["prok", "prok"] "Gold" ⟨false, 5, 0, by decide, by decide⟩)
        (.error (.notANumeral "VV")) ∧
      (sellsSilver.tell "prok prok Gold is 5 Credits").2 = sellsSilver := by
  have hreach : sellsSilver.Reachable := reachable_iff.mpr ⟨_, rfl⟩
  have hrule (line : String) (q : Request) (out : Except Fault Answer) (hq : Request.ofLine (dropLineEnds line) = q)
      (hout : (sellsSilver.tell line).1 = out) : Outcome sellsSilver q out := by
    obtain ⟨⟨body, hbody, hiff⟩, -, -⟩ := hreach.tell_outcome line
    rw [← dropsLineEnds_iff.mp hbody, hq] at hiff
    exact (hiff out).mp hout
  have hsame (line : String) (hne : (sellsSilver.tell line).1 ≠ .ok .noted) : (sellsSilver.tell line).2 = sellsSilver :=
    (hreach.tell_outcome line).2.2 hne
  refine ⟨hreach, ?_, hsame _ (by decide +kernel), ?_, ?_, hsame _ (by decide +kernel)⟩
  · exact hrule "how many Credits is glob glob glob glob Iron ?\r\n" _ _ (by decide +kernel) (by decide +kernel)
  · exact hrule "how many Credits is glob prok SILVER ?" _ _ (by decide +kernel) (by decide +kernel)
  · exact hrule "prok prok Gold is 5 Credits" _ _ (by decide +kernel) (by decide +kernel)

/-! ## Runs -/

/-- **No lines take a ledger out of range.** However many lines it has been told, whatever they were and whatever they
    were answered, no answer was out of range, nor is any price of one unit now; there is a quotient for every quote and
    a product for every quantity, and no phrase is worth more than those. -/
theorem tellAll_inRange (lines : List String) :
    (∀ outcome ∈ (empty.tellAll lines).1, outcome ≠ .error .outOfRange) ∧
      (∀ metal, (empty.tellAll lines).2.unitPrice metal ≠ .error .outOfRange) ∧
      (∀ metal quote, (empty.tellAll lines).2.quote? metal = some quote → (empty.tellAll lines).2.InRange quote) ∧
      ∀ phrase n, (empty.tellAll lines).2.worth phrase = .ok n → n ≤ Numeral.largest := by
  have hreach (lines : List String) : (empty.tellAll lines).2.Reachable := reachable_iff.mpr ⟨lines, rfl⟩
  refine ⟨?_, (hreach lines).unitPrice_ne_outOfRange, fun metal quote hquote => (hreach lines).inRange hquote,
    fun phrase n hn => worth_le_largest hn⟩
  -- Each answer was given by the ledger that the lines before it had left.
  induction lines using List.reverseRecOn with
  | nil => simp
  | append_singleton lines line ih =>
    simp only [tellAll_concat, List.mem_append, List.mem_singleton]
    intro outcome hout
    rcases hout with hout | hout
    · exact ih outcome hout
    · rintro rfl
      obtain ⟨letters, hf⟩ := ((respond_eq_iff (hreach lines) fun _ => ne_nil_of_phrase?).mp hout.symm).error
      cases hf

/-- An amount at the cap, stated for one unit, keeps in range. -/
theorem tellAll_inRange_at_cap :
    (empty.tellAll ["glob Iron is 19811993626972827605287309.411 Credits", "glob is I"]).2.quote? "iron" =
        some ⟨["glob"], Request.maxAmount⟩ ∧
      (empty.tellAll ["glob Iron is 19811993626972827605287309.411 Credits", "glob is I"]).2.InRange
        ⟨["glob"], Request.maxAmount⟩ := by
  have hquote : (empty.tellAll ["glob Iron is 19811993626972827605287309.411 Credits", "glob is I"]).2.quote? "iron" =
      some ⟨["glob"], Request.maxAmount⟩ := by decide +kernel
  exact ⟨hquote, (tellAll_inRange _).2.2.1 "iron" _ hquote⟩

end Ledger

end TradeTalk
