import TradeTalk.Proofs.Decimal.Printing
import TradeTalk.Proofs.Ledger.Outcome
import TradeTalk.Proofs.Text.Lower

/-!
# `Proofs.Ledger.Restated` — an overview loses nothing

Each row of an overview can be said as a line. Told to an empty ledger, first the lines of the metals and then those of
the words, each kind in any order, they are all noted and leave the ledger that the overview is of.

A metal is shown by its first spelling and with its latest quote, so its row may be a line that was never told. It has
the form of a price fact all the same: the spellings differ in letter case only, which does not matter to the guard,
and the guard does not reach as far as the amount. No quote is refused as long as no word is known, even one whose words
spell no numeral any more; so the metals come first.

## Contents
- **`MetalRow.line`**, **`WordRow.line`**: the rows as lines.
- **`isGuarded_append_digit`**: the guard does not reach a digit.
- **`hasForm_metalRow`**, **`hasForm_wordRow`**: the lines have the forms of facts.
- **`Restores`**, **`Restores.tell_metalRow`**, **`Restores.tell_wordRow`**: a ledger that has been told some rows, and
  one row more.
- **`tellAll_of_step`**: what one row preserves holds after all of them.
- **`Restate`**, **`restate_of_perm`**: the rows of an overview, told to the empty ledger.
- **`Reachable.eq_of_overview_eq`**: so no two reachable ledgers have the same overview.
-/

namespace TradeTalk

open Text (key lower)

/-- The line that states a row: so much of a metal costs the amount. -/
def MetalRow.line (row : MetalRow) : String :=
  row.phrase ++ " " ++ row.metal ++ " is " ++ row.amount.text ++ " Credits"

/-- The line that states a row: a word stands for a digit. -/
def WordRow.line (row : WordRow) : String :=
  row.word ++ " is " ++ String.singleton row.symbol

/-! ## The guard -/

namespace Sentence

/-- A prefix that lacks a character ends before it. -/
theorem prefix_append_cons_iff {p front rest : List Char} {c : Char} (hc : c ∉ p) :
    p <+: front ++ c :: rest ↔ p <+: front := by
  constructor
  · intro h
    have hfront : front ++ [c] <+: front ++ c :: rest := ⟨rest, by simp⟩
    rcases List.prefix_or_prefix_of_prefix h hfront with hp | hp
    · rcases List.prefix_concat_iff.mp hp with rfl | hp
      · exact absurd (by simp) hc
      · exact hp
    · exact absurd (hp.mem (by simp)) hc
  · intro h
    exact h.trans (List.prefix_append _ _)

theorem toLower_of_isDigit {c : Char} (h : c.isDigit = true) : c.toLower = c := by
  have hword : isWordChar c = true := by simp [isWordChar, Char.isAlphanum, h]
  exact Text.forall_isWordChar (p := fun c => c.isDigit = true → c.toLower = c) (by decide) hword h

/-- **The guard does not reach a digit**, since there is none in an opening. -/
theorem isGuarded_append_digit (front rest : List Char) {c : Char} (hc : c.isDigit = true) :
    isGuarded (front ++ c :: rest) = isGuarded front := by
  have hno : (openings.all fun opening => opening.toList.all fun c => !c.isDigit) = true := by decide
  simp only [List.all_eq_true, Bool.not_eq_true'] at hno
  rw [Bool.eq_iff_iff, isGuarded_iff, isGuarded_iff, List.map_append, List.map_cons, toLower_of_isDigit hc]
  apply exists_congr
  intro opening
  apply and_congr_right
  intro ho
  apply prefix_append_cons_iff
  intro hmem
  rw [hno opening ho c hmem] at hc
  contradiction

/-- **A single word and the verb open no question.** -/
theorem isGuarded_word_verb {w : List Char} (hw : isWord w = true) (rest : List Char) :
    isGuarded (w ++ ' ' :: (verb ++ rest)) = false := by
  rw [Bool.eq_false_iff]
  intro h
  obtain ⟨opening, ho, behind, hline⟩ := isGuarded_iff.mp h
  have hword : ∀ c ∈ w.map Char.toLower, (c != ' ') = true := by
    intro c hc
    obtain ⟨d, hd, rfl⟩ := List.mem_map.mp hc
    simp only [isWord, Bool.and_eq_true, List.all_eq_true] at hw
    have hchar := Text.isWordChar_toLower (hw.2 d hd)
    rw [bne_iff_ne]
    intro he
    rw [he, isWordChar_space] at hchar
    contradiction
  -- From the first space on the two lines differ.
  have htail := congrArg (List.dropWhile (· != ' ')) hline
  rw [List.map_append, List.dropWhile_append_of_pos hword] at htail
  simp only [openings, List.mem_cons, List.not_mem_nil, or_false] at ho
  rcases ho with rfl | rfl
  · have hnext : some 'm' = some 'i' := congrArg (fun cs => cs[1]?) htail
    exact absurd hnext (by decide)
  · have hnext : some 'm' = some 'i' := congrArg (fun cs => cs[1]?) htail
    exact absurd hnext (by decide)

end Sentence

/-! ## The rows as lines -/

namespace Request

/-- A printed amount without a sign is written like one. -/
theorem writesAmount_text {d : Decimal} (h : d.negative = false) : WritesAmount d.text := by
  have hwhole : IsDigits (Nat.toDigits 10 (d.mantissa / Decimal.tenTo d.scale)) :=
    ⟨Nat.toDigits_ne_nil, fun _ => isDigit_of_mem_toDigits⟩
  rw [← isAmount_iff, isAmount_iff_digits, Decimal.text, String.toList_ofList, h, Decimal.positional]
  by_cases hs : d.scale = 0
  · left
    rw [if_pos hs]
    simpa [Decimal.sign] using hwhole
  · right
    refine ⟨_, Decimal.lastDigits d.scale d.mantissa, hwhole, ⟨?_, fun _ => Decimal.isDigit_of_mem_lastDigits⟩, ?_⟩
    · rw [← List.length_pos_iff, Decimal.length_lastDigits]
      exact Nat.pos_of_ne_zero hs
    · rw [if_neg hs]
      simp [Decimal.sign]

/-- The guard of a price fact does not depend on its amount, -/
theorem isGuarded_amount {front amount : String} (h : WritesAmount amount) :
    Sentence.isGuarded (front ++ amount ++ " Credits").toList = Sentence.isGuarded front.toList := by
  obtain ⟨c, cs, hcs, hc⟩ := h.eq_cons
  rw [String.toList_append, String.toList_append, hcs, List.append_assoc, List.cons_append,
    Sentence.isGuarded_append_digit _ _ hc]

/-- nor on the letter case of its metal. -/
theorem isGuarded_metal {phrase metal other : String} (h : lower metal = lower other) :
    Sentence.isGuarded (phrase ++ " " ++ metal ++ " is ").toList =
      Sentence.isGuarded (phrase ++ " " ++ other ++ " is ").toList := by
  have hletters := congrArg String.toList h
  simp only [Text.toList_lower] at hletters
  simp only [Sentence.isGuarded, String.toList_append, List.map_append, hletters]

end Request

namespace Ledger

open Request (HasForm)

variable {l s : Ledger} {metals : List MetalRow} {words : List WordRow} {k : String} {listing : Listing} {d : Digit}

/-- **The line of a metal states its latest quote.** -/
theorem hasForm_metalRow (h : l.Reachable) (hk : l.metals[k]? = some listing) :
    HasForm (l.metalRow listing).line (.priceFact listing.quote.phrase listing.name listing.quote.amount) := by
  obtain ⟨hname, told, _, _, -, -, hmetal, -⟩ := h.stated.name hk
  obtain ⟨line, spelling, ⟨hguard, hphrase, hspelling, hno, text, hw, hread, hle, rfl⟩, hkey⟩ := h.stated.quote hk
  have hsign := Request.negative_of_writesAmount hw hread
  have hlower : lower listing.name = lower spelling := by
    rw [← Text.key_of_isAscii (Text.isAscii_of_isWord (isWord_of_isMetal hmetal)), hname, ← hkey,
      Text.key_of_isAscii (Text.isAscii_of_isWord (isWord_of_isMetal hspelling))]
  have hwrites := Request.writesAmount_text hsign
  refine ⟨?_, hphrase, hmetal, hno, _, hwrites, Decimal.ofString?_text fun _ => hsign, hle, rfl⟩
  rw [Request.isGuarded_amount hw] at hguard
  show Sentence.isGuarded
    (listing.quote.phrase.text ++ " " ++ listing.name ++ " is " ++ listing.quote.amount.text ++ " Credits").toList = false
  rw [Request.isGuarded_amount hwrites, Request.isGuarded_metal hlower]
  exact hguard

/-- A name that words are filed under is a word in small letters. -/
theorem Reachable.isWord_digit (h : l.Reachable) (hk : l.digits[k]? = some d) :
    isWord k.toList = true ∧ key k = k := by
  obtain ⟨line, ws, ⟨-, hphrase, -⟩, hmem⟩ := h.stated.digit hk
  obtain ⟨w, hw, rfl⟩ := List.mem_map.mp hmem
  have hword := hphrase.2 w hw
  rw [Text.key_of_isAscii (Text.isAscii_of_isWord hword)]
  exact ⟨Text.isWord_lower hword, Text.key_lower hword⟩

/-- **The line of a word gives it its digit.** -/
theorem hasForm_wordRow (h : l.Reachable) (hk : l.digits[k]? = some d) :
    HasForm (WordRow.mk k d.letter).line (.digitFact [k] d) := by
  have hword := (h.isWord_digit hk).1
  refine ⟨?_, ⟨by simp, by simpa using hword⟩, by simp, d.letter, by cases d <;> decide, ?_⟩
  · have hline : (WordRow.mk k d.letter).line.toList = k.toList ++ ' ' :: (Sentence.verb ++ [' ', d.letter]) := by
      simp [WordRow.line, Sentence.verb]
    rw [hline]
    exact Sentence.isGuarded_word_verb hword _
  · simp [WordRow.line, Phrase.text, Text.join]

/-! ## A ledger that has been told some rows -/

/-- A line keeps what it closes with if that is no line end. -/
theorem dropLineEnds_append (front : String) {back : String} {c : Char} (h : back.toList.getLast? = some c)
    (hc : c ≠ '\r' ∧ c ≠ '\n') : dropLineEnds (front ++ back) = front ++ back := by
  apply dropsLineEnds_iff.mp
  refine ⟨"", String.append_empty.symm, by simp, ?_⟩
  intro d hd
  rw [String.toList_append, List.getLast?_append, h] at hd
  obtain rfl := Option.some.inj hd
  exact hc

/-- A line with a form is answered as what it has the form of. -/
theorem tell_of_hasForm {line : String} {q : Request} (hq : HasForm line q) (hend : dropLineEnds line = line) :
    s.tell line = s.respond q := by
  rw [tell, hend, (Request.hasForm_iff.mp hq).1]

/-- As long as no word is known, every quote is accepted. -/
theorem accepts_of_no_digits {phrase : Phrase} (hp : IsPhrase phrase) (hs : ∀ k : String, s.digits[k]? = none) :
    s.accepts phrase = .ok () := by
  obtain ⟨word, rest, rfl⟩ := List.exists_cons_of_ne_nil hp.1
  have hno : ¬ s.knowsAll (word :: rest) = true := by
    rw [knowsAll_iff]
    intro hall
    have hword := hall word List.mem_cons_self
    rw [digit?, hs] at hword
    contradiction
  rw [accepts, if_neg hno]

/-- A ledger knows what some rows say about another ledger, and nothing else. -/
structure Restores (s l : Ledger) (metals : List MetalRow) (words : List WordRow) : Prop where
  metal : ∀ (k : String) (listing : Listing),
    s.metals[k]? = some listing ↔ l.metals[k]? = some listing ∧ l.metalRow listing ∈ metals
  digit : ∀ (k : String) (d : Digit),
    s.digits[k]? = some d ↔ l.digits[k]? = some d ∧ WordRow.mk k d.letter ∈ words

theorem restores_empty (l : Ledger) : empty.Restores l [] [] := by
  constructor
  · simp [empty]
  · simp [empty]

/-- With all rows told, nothing is missing. -/
theorem Restores.eq (hs : s.Restores l metals words) (hm : ∀ row ∈ l.overview.metals, row ∈ metals)
    (hw : ∀ row ∈ l.overview.words, row ∈ words) : s = l := by
  apply Ledger.ext
  · apply Std.ExtTreeMap.ext_getElem?
    intro k
    apply Option.ext
    intro d
    rw [hs.digit]
    exact and_iff_left_of_imp fun hd => hw _ (mem_overview_words_iff.mpr ⟨k, d, hd, rfl⟩)
  · apply Std.ExtTreeMap.ext_getElem?
    intro k
    apply Option.ext
    intro listing
    rw [hs.metal]
    exact and_iff_left_of_imp fun hl => hm _ (mem_overview_metals_iff.mpr ⟨k, listing, hl, rfl⟩)

/-- An update by the entry that a row shows keeps to what has been told, if no other entry has that row. -/
theorem update_iff_of_told {α ρ : Type} {whole part : String → Option α} {rowOf : String → α → ρ} {told : List ρ}
    (hpart : ∀ k a, part k = some a ↔ whole k = some a ∧ rowOf k a ∈ told) {k : String} {a : α}
    (hk : whole k = some a) (hrow : ∀ k' a', whole k' = some a' → rowOf k' a' = rowOf k a → k = k') (k' : String)
    (a' : α) :
    (if k = k' then some a else part k') = some a' ↔ whole k' = some a' ∧ rowOf k' a' ∈ told ++ [rowOf k a] := by
  rw [List.mem_append, List.mem_singleton]
  by_cases hkey : k = k'
  · subst hkey
    rw [if_pos rfl, hk]
    constructor
    · intro he
      exact ⟨he, Or.inr (by rw [Option.some.inj he])⟩
    · exact And.left
  · rw [if_neg hkey, hpart]
    exact and_congr_right fun ha => (or_iff_left fun he => hkey (hrow k' a' ha he)).symm

/-- Before any word has been told, none is known. -/
theorem Restores.no_digits (hs : s.Restores l metals []) (k : String) : s.digits[k]? = none := by
  rw [Option.eq_none_iff_forall_ne_some]
  intro d hd
  exact absurd ((hs.digit k d).mp hd).2 List.not_mem_nil

/-- What is recorded of a metal is its entry, also where it has been recorded already. -/
theorem Restores.getElem?_record (hs : s.Restores l metals words) (h : l.Reachable)
    (hk : l.metals[k]? = some listing) (k' : String) :
    (s.record listing.name listing.quote).metals[k']? = if k = k' then some listing else s.metals[k']? := by
  rw [getElem?_metals_record, (h.stated.name hk).1]
  by_cases hkey : k = k'
  · subst hkey
    rw [if_pos rfl, if_pos rfl]
    cases hold : s.metals[k]? with
    | none => rfl
    | some old =>
      have hsame := ((hs.metal k old).mp hold).1
      -- What has been told already is the same entry, so the spelling that stays is its own.
      rw [hk, Option.some.injEq] at hsame
      subst hsame
      rfl
  · rw [if_neg hkey, if_neg hkey]

/-- **One metal more**, before any word. -/
theorem Restores.tell_metalRow (hs : s.Restores l metals []) (h : l.Reachable) {row : MetalRow}
    (hrow : row ∈ l.overview.metals) :
    (s.tell row.line).1 = .ok .noted ∧ (s.tell row.line).2.Restores l (metals ++ [row]) [] := by
  obtain ⟨k, listing, hk, rfl⟩ := mem_overview_metals_iff.mp hrow
  have hform := hasForm_metalRow h hk
  have hend : dropLineEnds (l.metalRow listing).line = (l.metalRow listing).line :=
    dropLineEnds_append _ rfl (by decide)
  have htell : s.tell (l.metalRow listing).line = (.ok .noted, s.record listing.name listing.quote) := by
    rw [tell_of_hasForm hform hend]
    simp only [respond, accepts_of_no_digits hform.2.1 hs.no_digits]
  rw [htell]
  refine ⟨rfl, ?_, hs.digit⟩
  intro k' listing'
  rw [hs.getElem?_record h hk]
  -- The rows of two metals are not the same, since they show different names.
  refine update_iff_of_told hs.metal hk ?_ k' listing'
  intro k' listing' hk' hrows
  have hname : listing'.name = listing.name := congrArg MetalRow.metal hrows
  rw [← (h.stated.name hk).1, ← (h.stated.name hk').1, hname]

/-- **One word more.** -/
theorem Restores.tell_wordRow (hs : s.Restores l metals words) (h : l.Reachable) {row : WordRow}
    (hrow : row ∈ l.overview.words) :
    (s.tell row.line).1 = .ok .noted ∧ (s.tell row.line).2.Restores l metals (words ++ [row]) := by
  obtain ⟨k, d, hk, rfl⟩ := mem_overview_words_iff.mp hrow
  have hend : dropLineEnds (WordRow.mk k d.letter).line = (WordRow.mk k d.letter).line :=
    dropLineEnds_append _ (c := d.letter) (by simp) (by cases d <;> decide)
  have htell : s.tell (WordRow.mk k d.letter).line = (.ok .noted, s.assignAll [k] d) :=
    tell_of_hasForm (hasForm_wordRow h hk) hend
  rw [htell]
  refine ⟨rfl, by rw [metals_assignAll]; exact hs.metal, ?_⟩
  intro k' d'
  have hupdate : (s.assignAll [k] d).digits[k']? = if k = k' then some d else s.digits[k']? := by
    simp only [getElem?_digits_assignAll, List.map_singleton, (h.isWord_digit hk).2, List.mem_singleton, eq_comm]
  rw [hupdate]
  exact update_iff_of_told hs.digit hk (fun _ _ _ hrows => (congrArg WordRow.word hrows).symm) k' d'

/-! ## All rows -/

/-- **What one row preserves holds after all of them.** If each row is noted and adds itself to what has been told, then
    so it is with some rows one after another. -/
theorem tellAll_of_step {α : Type} {line : α → String} {P : List α → Ledger → Prop} {rows : List α}
    (hstep : ∀ told s, ∀ row ∈ rows, P told s →
      (s.tell (line row)).1 = .ok .noted ∧ P (told ++ [row]) (s.tell (line row)).2)
    {told : List α} (hs : P told s) :
    (s.tellAll (rows.map line)).1 = rows.map (fun _ => .ok .noted) ∧
      P (told ++ rows) (s.tellAll (rows.map line)).2 := by
  induction rows generalizing told s with
  | nil =>
    rw [List.append_nil]
    exact ⟨rfl, hs⟩
  | cons row rows ih =>
    obtain ⟨hnoted, hnext⟩ := hstep told s row List.mem_cons_self hs
    obtain ⟨hrest, hlast⟩ := ih (fun told s row hrow => hstep told s row (List.mem_cons_of_mem _ hrow)) hnext
    rw [List.append_assoc, List.singleton_append] at hlast
    simp only [List.map_cons, tellAll, hnoted, hrest]
    exact ⟨trivial, hlast⟩

/-- All rows of an overview, told to the empty ledger. -/
theorem tellAll_rows (h : l.Reachable) (hm : metals.Perm l.overview.metals) (hw : words.Perm l.overview.words) :
    empty.tellAll (metals.map MetalRow.line ++ words.map WordRow.line) =
      ((metals.map MetalRow.line ++ words.map WordRow.line).map fun _ => .ok .noted, l) := by
  obtain ⟨hmetals, hbetween⟩ := tellAll_of_step (P := fun told s => s.Restores l told [])
    (fun told s row hrow hs => hs.tell_metalRow h (hm.mem_iff.mp hrow)) (restores_empty l)
  obtain ⟨hwords, hlast⟩ := tellAll_of_step (P := fun told s => s.Restores l ([] ++ metals) told)
    (fun told s row hrow hs => hs.tell_wordRow h (hw.mem_iff.mp hrow)) hbetween
  have hsame := hlast.eq (fun row hrow => hm.mem_iff.mpr hrow) (fun row hrow => hw.mem_iff.mpr hrow)
  rw [tellAll_append, hmetals, hwords, hsame]
  simp [Function.comp_def]

/-- Some lines restate a ledger: told to the empty one, each is noted, and what they leave cannot be told from it. -/
structure Restate (lines : List String) (l : Ledger) : Prop where
  noted : (empty.tellAll lines).1 = lines.map fun _ => .ok .noted
  ledger : (empty.tellAll lines).2 = l
  overview : (empty.tellAll lines).2.overview = l.overview
  later : ∀ more,
    empty.tellAll (lines ++ more) = (lines.map (fun _ => .ok .noted) ++ (l.tellAll more).1, (l.tellAll more).2)

/-- **An overview loses nothing.** The lines of its metals and then those of its words, each in any order, restate the
    ledger that it is of. -/
theorem restate_of_perm (h : l.Reachable) (hm : metals.Perm l.overview.metals) (hw : words.Perm l.overview.words) :
    Restate (metals.map MetalRow.line ++ words.map WordRow.line) l := by
  have htell := tellAll_rows h hm hw
  refine ⟨by rw [htell], by rw [htell], by rw [htell], ?_⟩
  intro more
  rw [tellAll_append, htell]

/-- A ledger in which a metal is shown by its first spelling, with the quote that it got by its second, and the words of
    another quote spell no numeral. -/
def drifted : Ledger :=
  (empty.tellAll ["glob glob glob glob Silver is 7.50 Credits", "GLOB is V", "is GOLD is 2 Credits",
    "is Gold is 03 Credits", "Is is i"]).2

/-- Its rows, told from the last key to the first. One metal has a unit price and the other has none. -/
theorem restate_of_perm_drifted :
    drifted.Reachable ∧
      MetalRow.mk "GOLD" "is" ⟨false, 3, 0, by decide, by decide⟩ (some ⟨false, 3, 0, by decide, by decide⟩) ∈
        drifted.overview.metals ∧
      MetalRow.mk "Silver" "glob glob glob glob" ⟨false, 750, 2, by decide, by decide⟩ none ∈
        drifted.overview.metals ∧
      Restate ["glob glob glob glob Silver is 7.50 Credits", "is GOLD is 3 Credits", "is is I", "glob is V"]
        drifted := by
  have h : drifted.Reachable := reachable_iff.mpr ⟨_, rfl⟩
  have hmetals : (drifted.metals.toList.map fun entry => drifted.metalRow entry.2).reverse.Perm
      drifted.overview.metals :=
    (List.reverse_perm _).trans (List.mergeSort_perm _ _).symm
  have hrestate := restate_of_perm h hmetals (List.reverse_perm _)
  have hlines :
      (drifted.metals.toList.map fun entry => drifted.metalRow entry.2).reverse.map MetalRow.line ++
        drifted.overview.words.reverse.map WordRow.line =
          ["glob glob glob glob Silver is 7.50 Credits", "is GOLD is 3 Credits", "is is I", "glob is V"] := by
    decide +kernel
  rw [hlines] at hrestate
  have hgold : MetalRow.mk "GOLD" "is" ⟨false, 3, 0, by decide, by decide⟩ (some ⟨false, 3, 0, by decide, by decide⟩) ∈
      drifted.overview.metals :=
    mem_overview_metals_iff.mpr
      ⟨"gold", ⟨"GOLD", ⟨["is"], ⟨false, 3, 0, by decide, by decide⟩⟩⟩, by decide +kernel, by decide +kernel⟩
  have hsilver : MetalRow.mk "Silver" "glob glob glob glob" ⟨false, 750, 2, by decide, by decide⟩ none ∈
      drifted.overview.metals :=
    mem_overview_metals_iff.mpr
      ⟨"silver", ⟨"Silver", ⟨["glob", "glob", "glob", "glob"], ⟨false, 750, 2, by decide, by decide⟩⟩⟩,
        by decide +kernel, by decide +kernel⟩
  exact ⟨h, hgold, hsilver, hrestate⟩

/-- **No two reachable ledgers have the same overview.** -/
theorem Reachable.eq_of_overview_eq {m : Ledger} (h : l.Reachable) (hm : m.Reachable) (he : l.overview = m.overview) :
    l = m := by
  have hl := tellAll_rows h (.refl _) (.refl _)
  rw [he, tellAll_rows hm (.refl _) (.refl _)] at hl
  exact (Prod.ext_iff.mp hl).2.symm

end Ledger

end TradeTalk
