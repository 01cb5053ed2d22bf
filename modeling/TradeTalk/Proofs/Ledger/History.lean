import Mathlib.Data.Finset.Card
import Mathlib.Data.List.Dedup
import TradeTalk.Proofs.Ledger.Reachable
import TradeTalk.Proofs.Ledger.Worth
import TradeTalk.Proofs.Text.Lower

/-!
# `Proofs.Ledger.History` — a ledger is a function of what it was told

What a ledger knows can be read off the lines that it was told, without any ledger. A word has the digit that it was
given last. A metal has the quote that was recorded last, and is shown as it was spelled in the first; and whether a
quote is recorded depends on the digits given before it, not on those it is valued by later.

## Contents
- **`History`**: what some lines asked for.
- **`History.digitAt?`**: the last digit given to a name.
- **`History.Accepts`**, **`History.quotes`**: the quotes recorded, each by what came before it.
- **`History.quoteAt?`**, **`History.spellingAt?`**: the last quote of a metal and its first spelling.
- **`Follows`**, **`Follows.respond`**: a ledger that holds what a history says, and one request more.
- **`Recalls`**, **`tellAll_recalls`**: what that says about the words, the metals, their display and their number.
-/

namespace TradeTalk

open Text (key lower IsAscii)

/-- What some lines asked for, one after another. -/
abbrev History := List Request

namespace History

/-- What lines ask for without the line ends that they close with. -/
def ofLines (lines : List String) : History :=
  lines.map fun line => Request.ofLine (Ledger.dropLineEnds line)

/-! ## Words -/

/-- The words that a request gives a digit. -/
def wordsOf : Request → List String
  | .digitFact words _ => words
  | .priceFact .. | .valueQuestion _ | .priceQuestion .. | .unknown _ => []

/-- The digit that a request gives a name in small letters. -/
def digitOf? (k : String) : Request → Option Digit
  | .digitFact words digit => if k ∈ words.map lower then some digit else none
  | .priceFact .. | .valueQuestion _ | .priceQuestion .. | .unknown _ => none

/-- The words that were given a digit, as they were spelled. -/
def words (h : History) : List String :=
  h.flatMap wordsOf

/-- The digit that a name in small letters was given last. -/
def digitAt? (h : History) (k : String) : Option Digit :=
  (h.filterMap (digitOf? k)).getLast?

/-! ## Metals -/

/-- Whether a quote with this phrase is recorded after a history: some word of it has no digit, or the digits of its
    words are a well-formed numeral. -/
def Accepts (h : History) (phrase : Phrase) : Prop :=
  (∃ word ∈ phrase, h.digitAt? (lower word) = none) ∨
    Numeral.shape.Matches (phrase.filterMap fun word => h.digitAt? (lower word))

instance (ds : Numeral) : Decidable (Numeral.shape.Matches ds) :=
  decidable_of_iff _ Pattern.admits_iff

instance (h : History) (phrase : Phrase) : Decidable (h.Accepts phrase) :=
  inferInstanceAs (Decidable (_ ∨ _))

/-- The quote that a request has recorded after a history, with the metal as it was spelled. -/
def quoteAfter? (h : History) : Request → Option (String × Quote)
  | .priceFact phrase metal amount => if h.Accepts phrase then some (metal, ⟨phrase, amount⟩) else none
  | .digitFact .. | .valueQuestion _ | .priceQuestion .. | .unknown _ => none

/-- The quotes recorded, each by what had come before it. -/
def quotes (h : History) : List (String × Quote) :=
  h.zipIdx.filterMap fun (q, i) => quoteAfter? (h.take i) q

/-- The quotes recorded for a metal with this name in small letters. -/
def quotesAt (h : History) (k : String) : List (String × Quote) :=
  h.quotes.filter fun (metal, _) => lower metal = k

/-- The quote recorded last for a name in small letters. -/
def quoteAt? (h : History) (k : String) : Option Quote :=
  (h.quotesAt k).getLast?.map Prod.snd

/-- The spelling of a name in small letters when a quote was recorded for it first. -/
def spellingAt? (h : History) (k : String) : Option String :=
  (h.quotesAt k).head?.map Prod.fst

/-! ## One request more -/

theorem ofLines_append (lines more : List String) : ofLines (lines ++ more) = ofLines lines ++ ofLines more :=
  List.map_append

theorem digitAt?_concat (h : History) (q : Request) (k : String) :
    digitAt? (h ++ [q]) k = (digitOf? k q).or (h.digitAt? k) := by
  rw [digitAt?, List.filterMap_append, List.getLast?_append]
  cases hq : digitOf? k q <;> simp [hq, digitAt?]

theorem quotes_concat (h : History) (q : Request) : quotes (h ++ [q]) = h.quotes ++ (quoteAfter? h q).toList := by
  rw [quotes, List.zipIdx_append, List.filterMap_append]
  congr 1
  · -- What had come before an earlier request is the same.
    refine List.filterMap_congr ?_
    rintro ⟨p, i⟩ hp
    have hi : i < h.length := by simpa using List.snd_lt_of_mem_zipIdx hp
    show quoteAfter? ((h ++ [q]).take i) p = quoteAfter? (h.take i) p
    rw [List.take_append_of_le_length (Nat.le_of_lt hi)]
  · cases hq : quoteAfter? h q <;> simp [hq]

theorem quotesAt_concat_of_none {h : History} {q : Request} (hq : quoteAfter? h q = none) (k : String) :
    quotesAt (h ++ [q]) k = h.quotesAt k := by
  rw [quotesAt, quotes_concat, hq, Option.toList_none, List.append_nil, quotesAt]

theorem quotesAt_concat_of_some {h : History} {q : Request} {metal : String} {quote : Quote}
    (hq : quoteAfter? h q = some (metal, quote)) (k : String) :
    quotesAt (h ++ [q]) k = h.quotesAt k ++ if lower metal = k then [(metal, quote)] else [] := by
  rw [quotesAt, quotes_concat, hq, Option.toList_some, List.filter_append, quotesAt]
  congr 1
  by_cases hk : lower metal = k <;> simp [hk]

theorem quoteAt?_concat_of_none {h : History} {q : Request} (hq : quoteAfter? h q = none) (k : String) :
    quoteAt? (h ++ [q]) k = h.quoteAt? k := by
  rw [quoteAt?, quotesAt_concat_of_none hq, quoteAt?]

theorem spellingAt?_concat_of_none {h : History} {q : Request} (hq : quoteAfter? h q = none) (k : String) :
    spellingAt? (h ++ [q]) k = h.spellingAt? k := by
  rw [spellingAt?, quotesAt_concat_of_none hq, spellingAt?]

/-- A quote goes before those recorded for its metal until then. -/
theorem quoteAt?_concat_of_some {h : History} {q : Request} {metal : String} {quote : Quote}
    (hq : quoteAfter? h q = some (metal, quote)) (k : String) :
    quoteAt? (h ++ [q]) k = if lower metal = k then some quote else h.quoteAt? k := by
  rw [quoteAt?, quotesAt_concat_of_some hq]
  split
  · simp
  · rw [List.append_nil, quoteAt?]

/-- Its spelling of the metal does not. -/
theorem spellingAt?_concat_of_some {h : History} {q : Request} {metal : String} {quote : Quote}
    (hq : quoteAfter? h q = some (metal, quote)) (k : String) :
    spellingAt? (h ++ [q]) k = if lower metal = k then some ((h.spellingAt? k).getD metal) else h.spellingAt? k := by
  rw [spellingAt?, quotesAt_concat_of_some hq, spellingAt?]
  split
  · rw [List.head?_append]
    cases (h.quotesAt k).head? <;> rfl
  · rw [List.append_nil]

/-! ## The names in a history -/

theorem isSome_digitAt?_iff {h : History} {k : String} : (h.digitAt? k).isSome = true ↔ k ∈ h.words.map lower := by
  rw [digitAt?, Option.isSome_iff_ne_none, Ne, List.getLast?_eq_none_iff, List.filterMap_eq_nil_iff, words,
    List.map_flatMap, List.mem_flatMap]
  constructor
  · intro hne
    by_contra hno
    apply hne
    intro q hq
    cases q with
    | digitFact words digit => exact if_neg fun hk => hno ⟨_, hq, hk⟩
    | _ => rfl
  · rintro ⟨q, hq, hk⟩ hnone
    have := hnone q hq
    cases q with
    | digitFact words digit => simp [digitOf?, show k ∈ words.map lower from hk] at this
    | _ => simp [wordsOf] at hk

theorem isSome_quoteAt?_iff {h : History} {k : String} :
    (h.quoteAt? k).isSome = true ↔ k ∈ h.quotes.map fun (metal, _) => lower metal := by
  rw [quoteAt?, Option.isSome_map, Option.isSome_iff_ne_none, Ne, List.getLast?_eq_none_iff, quotesAt,
    List.filter_eq_nil_iff]
  simp

/-- The first spelling of a name is a spelling of it. -/
theorem lower_of_spellingAt? {h : History} {k name : String} (hn : h.spellingAt? k = some name) : lower name = k := by
  obtain ⟨⟨metal, quote⟩, hq, rfl⟩ := Option.map_eq_some_iff.mp hn
  have hmem := List.mem_filter.mp (List.mem_of_head? hq)
  simpa using hmem.2

end History

namespace Ledger

variable {l : Ledger} {h : History}

/-! ## Following a history -/

/-- A ledger has in it what a history says, name by name. -/
structure Follows (l : Ledger) (h : History) : Prop where
  digit : ∀ k, l.digits[k]? = h.digitAt? k
  quote : ∀ k, l.metals[k]?.map Listing.quote = h.quoteAt? k
  name : ∀ k, l.metals[k]?.map Listing.name = h.spellingAt? k

theorem follows_empty : empty.Follows [] where
  digit := by simp [empty, History.digitAt?]
  quote := by simp [empty, History.quoteAt?, History.quotesAt, History.quotes]
  name := by simp [empty, History.spellingAt?, History.quotesAt, History.quotes]

theorem Follows.digit? (hf : l.Follows h) {word : String} (hw : IsAscii word) :
    l.digit? word = h.digitAt? (lower word) := by
  rw [Ledger.digit?, Text.key_of_isAscii hw, hf.digit]

theorem Follows.quote? (hf : l.Follows h) {metal : String} (hm : IsAscii metal) :
    l.quote? metal = h.quoteAt? (lower metal) := by
  rw [Ledger.quote?, Text.key_of_isAscii hm, hf.quote]

/-- A request that gives no digit and records no quote changes nothing. -/
theorem Follows.concat (hf : l.Follows h) {q : Request} (hd : ∀ k, History.digitOf? k q = none)
    (hq : History.quoteAfter? h q = none) : l.Follows (h ++ [q]) where
  digit k := by rw [History.digitAt?_concat, hd, Option.none_or, hf.digit]
  quote k := by rw [History.quoteAt?_concat_of_none hq, hf.quote]
  name k := by rw [History.spellingAt?_concat_of_none hq, hf.name]

theorem Follows.assignAll (hf : l.Follows h) {words : Phrase} (hw : ∀ w ∈ words, IsAscii w) (digit : Digit) :
    (l.assignAll words digit).Follows (h ++ [.digitFact words digit]) where
  digit k := by
    have hkeys : words.map key = words.map lower := List.map_congr_left fun w hmem => Text.key_of_isAscii (hw w hmem)
    rw [getElem?_digits_assignAll, hkeys, History.digitAt?_concat, History.digitOf?]
    split
    · rfl
    · rw [Option.none_or, hf.digit]
  quote k := by rw [metals_assignAll, History.quoteAt?_concat_of_none rfl, hf.quote]
  name k := by rw [metals_assignAll, History.spellingAt?_concat_of_none rfl, hf.name]

theorem Follows.record (hf : l.Follows h) {phrase : Phrase} {metal : String} {amount : Decimal} (hm : IsAscii metal)
    (ha : h.Accepts phrase) : (l.record metal ⟨phrase, amount⟩).Follows (h ++ [.priceFact phrase metal amount]) := by
  have hq : History.quoteAfter? h (.priceFact phrase metal amount) = some (metal, ⟨phrase, amount⟩) := if_pos ha
  have hkey : key metal = lower metal := Text.key_of_isAscii hm
  refine ⟨fun k => ?_, fun k => ?_, fun k => ?_⟩
  · rw [digits_record, History.digitAt?_concat, History.digitOf?, Option.none_or, hf.digit]
  · rw [getElem?_metals_record, hkey, History.quoteAt?_concat_of_some hq, ← hf.quote]
    split <;> rfl
  · -- The name that is there already is the first spelling of the history so far.
    rw [getElem?_metals_record, hkey, History.spellingAt?_concat_of_some hq, ← hf.name]
    split <;> rfl

/-! ## Accepting a quote -/

theorem accepts_eq_ok_iff {phrase : Phrase} :
    l.accepts phrase = .ok () ↔
      (∃ word ∈ phrase, l.digit? word = none) ∨ Numeral.shape.Matches (phrase.filterMap l.digit?) := by
  rcases l.spells_or_firstUnknown phrase with ⟨ds, hs⟩ | ⟨word, hu⟩
  · have hall := knowsAll_of_spells hs
    have hnone : ¬ ∃ word ∈ phrase, l.digit? word = none := by
      rintro ⟨word, hmem, hword⟩
      simpa [hword] using knowsAll_iff.mp hall word hmem
    rw [accepts, if_pos hall, worth_of_spells hs, filterMap_of_spells hs, Numeral.matches_shape_iff_value?]
    cases Numeral.value? ds with
    | none => simpa using hnone
    | some n => simp
  · have hno : ¬ l.knowsAll phrase = true := by simp [knowsAll_of_firstUnknown hu]
    rw [accepts, if_neg hno]
    obtain ⟨known, rest, rfl, -, hnone⟩ := hu
    exact iff_of_true rfl (Or.inl ⟨word, by simp, hnone⟩)

theorem Follows.accepts_eq_ok_iff (hf : l.Follows h) {phrase : Phrase} (hw : ∀ w ∈ phrase, IsAscii w) :
    l.accepts phrase = .ok () ↔ h.Accepts phrase := by
  have hdigits : ∀ w ∈ phrase, l.digit? w = h.digitAt? (lower w) := fun w hmem => hf.digit? (hw w hmem)
  rw [Ledger.accepts_eq_ok_iff, History.Accepts, List.filterMap_congr hdigits]
  exact or_congr_left (exists_congr fun w => and_congr_right fun hmem => by rw [hdigits w hmem])

/-! ## One request more -/

/-- **What a request leaves of a ledger follows the history with that request.** -/
theorem Follows.respond (hf : l.Follows h) (line : String) :
    (l.respond (Request.ofLine line)).2.Follows (h ++ [Request.ofLine line]) := by
  have hform {q : Request} (hq : Request.ofLine line = q) (hne : ∀ raw, q ≠ .unknown raw) : Request.HasForm line q :=
    Request.hasForm_iff.mpr ⟨hq, hne⟩
  cases hq : Request.ofLine line with
  | digitFact words digit =>
    obtain ⟨-, hp, -⟩ := hform hq (by simp)
    exact hf.assignAll (fun w hw => Text.isAscii_of_isWord (hp.2 w hw)) digit
  | priceFact phrase metal amount =>
    obtain ⟨-, hp, hm, -⟩ := hform hq (by simp)
    have ha := hf.accepts_eq_ok_iff fun w hw => Text.isAscii_of_isWord (hp.2 w hw)
    -- Whether the quote is recorded is the same question for the ledger and for the history so far.
    cases hok : l.accepts phrase with
    | ok =>
      simp only [Ledger.respond, hok]
      exact hf.record (Text.isAscii_of_isWord (isWord_of_isMetal hm)) (ha.mp hok)
    | error f =>
      have hno : ¬ h.Accepts phrase := fun hyes => by simp [ha.mpr hyes] at hok
      simp only [Ledger.respond, hok]
      exact hf.concat (fun k => rfl) (if_neg hno)
  | valueQuestion phrase => exact hf.concat (fun k => rfl) rfl
  | priceQuestion phrase metal => exact hf.concat (fun k => rfl) rfl
  | unknown raw => exact hf.concat (fun k => rfl) rfl

/-- **What lines leave of the empty ledger follows their history.** -/
theorem follows_tellAll (lines : List String) : (empty.tellAll lines).2.Follows (History.ofLines lines) := by
  induction lines using List.reverseRecOn with
  | nil => exact follows_empty
  | append_singleton lines line ih =>
    simp only [tellAll_concat, History.ofLines_append]
    exact ih.respond (dropLineEnds line)

/-! ## Counting names -/

theorem size_eq_card {α : Type} (t : Std.ExtTreeMap String α) (s : Finset String)
    (h : ∀ k, k ∈ t ↔ k ∈ s) : t.size = s.card := by
  have hs : t.keys.toFinset = s := by
    ext k
    rw [List.mem_toFinset, Std.ExtTreeMap.mem_keys, h]
  rw [← hs, List.toFinset_card_of_nodup Std.ExtTreeMap.nodup_keys, Std.ExtTreeMap.length_keys]

theorem Follows.wordCount (hf : l.Follows h) : l.wordCount = (h.words.map lower).toFinset.card := by
  apply size_eq_card
  intro k
  rw [Std.ExtTreeMap.mem_iff_isSome_getElem?, hf.digit, History.isSome_digitAt?_iff, List.mem_toFinset]

theorem Follows.metalCount (hf : l.Follows h) :
    l.metalCount = (h.quotes.map fun (metal, _) => lower metal).toFinset.card := by
  apply size_eq_card
  intro k
  rw [Std.ExtTreeMap.mem_iff_isSome_getElem?, ← Option.isSome_map (f := Listing.quote), hf.quote,
    History.isSome_quoteAt?_iff, List.mem_toFinset]

/-! ## Names on display -/

theorem Follows.exists_row_iff (hf : l.Follows h) {name : String} :
    (∃ row ∈ l.overview.metals, row.metal = name) ↔ h.spellingAt? (lower name) = some name := by
  constructor
  · rintro ⟨row, hrow, rfl⟩
    obtain ⟨k, listing, hk, rfl⟩ := mem_overview_metals_iff.mp hrow
    have hname : h.spellingAt? k = some listing.name := by rw [← hf.name, hk, Option.map_some]
    show h.spellingAt? (lower listing.name) = some listing.name
    rwa [History.lower_of_spellingAt? hname]
  · intro hname
    rw [← hf.name, Option.map_eq_some_iff] at hname
    obtain ⟨listing, hk, rfl⟩ := hname
    exact ⟨l.metalRow listing, mem_overview_metals_iff.mpr ⟨_, listing, hk, rfl⟩, rfl⟩

/-! ## Answers -/

/-- The answer to a line is that of the ledger that the lines before it leave. -/
theorem getElem?_tellAll (l : Ledger) (before after : List String) (line : String) :
    (l.tellAll (before ++ line :: after)).1[before.length]? = some ((l.tellAll before).2.tell line).1 := by
  have hlen (l : Ledger) : (l.tellAll before).1.length = before.length := by
    induction before generalizing l with
    | nil => rfl
    | cons line lines ih => simp [tellAll, ih]
  rw [tellAll_append, List.getElem?_append_right (by rw [hlen]), hlen, Nat.sub_self]
  simp only [tellAll, List.getElem?_cons_zero]

/-- A ledger knows what a history says, no more and no less: the digits of words, the quotes of metals and the names
    that they are shown by, and how many of both there are. -/
structure Recalls (l : Ledger) (h : History) : Prop where
  digit : ∀ word, IsAscii word → l.digit? word = h.digitAt? (lower word)
  quote : ∀ metal, IsAscii metal → l.quote? metal = h.quoteAt? (lower metal)
  display : ∀ name, (∃ row ∈ l.overview.metals, row.metal = name) ↔ h.spellingAt? (lower name) = some name
  wordCount : l.wordCount = (h.words.map lower).toFinset.card
  metalCount : l.metalCount = (h.quotes.map fun (metal, _) => lower metal).toFinset.card

/-- **A ledger is a function of what it was told.** After any lines, whatever they were answered, it knows what their
    history says; and of the lines that state a quote, those were noted that the history before them accepts. -/
theorem tellAll_recalls (lines : List String) :
    (empty.tellAll lines).2.Recalls (History.ofLines lines) ∧
      ∀ before line after phrase metal amount, lines = before ++ line :: after →
        Request.ofLine (dropLineEnds line) = .priceFact phrase metal amount →
          ((empty.tellAll lines).1[before.length]? = some (.ok .noted) ↔
            (History.ofLines before).Accepts phrase) := by
  have hf := follows_tellAll lines
  -- The answer to one line depends on the history before it, not on what came after.
  refine ⟨⟨fun _ => hf.digit?, fun _ => hf.quote?, fun _ => hf.exists_row_iff, hf.wordCount, hf.metalCount⟩, ?_⟩
  rintro before line after phrase metal amount rfl hq
  obtain ⟨-, hp, -⟩ := Request.hasForm_iff.mpr ⟨hq, by simp⟩
  have ha := (follows_tellAll before).accepts_eq_ok_iff fun w hw => Text.isAscii_of_isWord (hp.2 w hw)
  rw [getElem?_tellAll, Option.some.injEq, ← ha, tell, hq]
  cases hok : (empty.tellAll before).2.accepts phrase with
  | ok => simp [Ledger.respond, hok]
  | error f => cases f <;> simp [Ledger.respond, hok, settle]

/-- Some lines of which the last states a quote that its words do not spell any more. -/
def refusedLines : List String :=
  ["glob is I", "glob glob GOLD is 2 Credits", "GLOB is V\n", "glob glob Gold is 3 Credits"]

/-- The quote before it stays, and so does the metal's spelling. -/
theorem tellAll_recalls_refused :
    (empty.tellAll refusedLines).2.quote? "gold" = some ⟨["glob", "glob"], ⟨false, 2, 0, by decide, by decide⟩⟩ ∧
      (∃ row ∈ (empty.tellAll refusedLines).2.overview.metals, row.metal = "GOLD") ∧
      (empty.tellAll refusedLines).1[3]? ≠ some (.ok .noted) := by
  obtain ⟨hrecalls, hnoted⟩ := tellAll_recalls refusedLines
  have hrefused := hnoted (refusedLines.take 3) "glob glob Gold is 3 Credits" [] ["glob", "glob"] "Gold"
    ⟨false, 3, 0, by decide, by decide⟩ rfl (by decide +kernel)
  have hgold : IsAscii "gold" := Text.isAscii_of_isWord (by decide +kernel)
  exact ⟨(hrecalls.quote "gold" hgold).trans (by decide +kernel), (hrecalls.display "GOLD").mpr (by decide +kernel),
    hrefused.not.mpr (by decide +kernel)⟩

end Ledger

end TradeTalk
