import TradeTalk.Proofs.Text.Joining
import TradeTalk.Sentence

/-!
# `Proofs.Sentence.Rules` — what the four rules read

A rule takes words until the rest closes its form and never gives one back. Whether a line can be read by a rule is
nevertheless a matter of its pieces alone: the closing of a form cannot be found earlier than the form puts it, except
where the words themselves contain it, and that is what each characterization excludes.

## Contents
- **`takeWords_eq_some_iff`**: the run of words in front of the first closing.
- **`digitFact?_eq_some_iff`**, **`priceFact?_eq_some_iff`**, **`valueQuestion?_eq_some_iff`**,
  **`priceQuestion?_eq_some_iff`**: the pieces of the lines that each rule reads.
- **`rules_exclusive`**: no line is read by two rules.
- **`ofLine?_eq_some_iff`**, **`ofLine?_eq_some_iff_ruleOf`**: so the order of the rules does not matter.
-/

namespace TradeTalk.Sentence

open Text (join pieces)

/-- Some pieces are words. -/
def AllWords (ws : List Piece) : Prop :=
  ∀ w ∈ ws, isWord w = true

theorem AllWords.space_notMem {ws : List Piece} (h : AllWords ws) : ∀ w ∈ ws, ' ' ∉ w :=
  fun w hw => space_notMem_of_isWord (h w hw)

/-! ## Runs of words -/

/-- **The words that are taken** are all words, no closing starts at any of them, and one starts behind them unless
    nothing is left there. -/
theorem takeWords_eq_some_iff {closes : List Piece → Bool} {ps ws rest : List Piece} :
    takeWords closes ps = some (ws, rest) ↔
      ps = ws ++ rest ∧ AllWords ws ∧ (∀ i < ws.length, closes (ps.drop i) = false) ∧
        (rest ≠ [] → closes rest = true) := by
  induction ps generalizing ws rest with
  | nil =>
    simp only [takeWords, Option.some.injEq, Prod.mk.injEq]
    constructor
    · rintro ⟨rfl, rfl⟩
      simp [AllWords]
    · rintro ⟨h, -⟩
      simpa [eq_comm] using h
  | cons p ps ih =>
    rw [takeWords]
    by_cases hc : closes (p :: ps) = true
    · -- The closing is here, so no word can have been taken.
      rw [if_pos hc]
      simp only [Option.some.injEq, Prod.mk.injEq]
      constructor
      · rintro ⟨rfl, rfl⟩
        exact ⟨rfl, by simp [AllWords], by simp, fun _ => hc⟩
      · rintro ⟨he, -, hno, -⟩
        cases ws with
        | nil => exact ⟨rfl, he⟩
        | cons w ws =>
          have := hno 0 (by simp)
          simp [hc] at this
    · rw [if_neg hc]
      by_cases hw : isWord p = true
      · rw [if_pos hw]
        simp only [Option.map_eq_some_iff, Prod.exists, Prod.mk.injEq]
        constructor
        · rintro ⟨ws', rest', h, rfl, rfl⟩
          obtain ⟨rfl, hall, hno, hrest⟩ := ih.mp h
          refine ⟨rfl, List.forall_mem_cons.mpr ⟨hw, hall⟩, ?_, hrest⟩
          intro i hi
          cases i with
          | zero => simpa using hc
          | succ i => exact hno i (by simpa using hi)
        · rintro ⟨he, hall, hno, hrest⟩
          cases ws with
          | nil =>
            rw [List.nil_append] at he
            subst he
            exact absurd (hrest (by simp)) hc
          | cons w ws =>
            rw [List.cons_append, List.cons.injEq] at he
            obtain ⟨rfl, rfl⟩ := he
            refine ⟨ws, rest, ih.mpr ⟨rfl, fun v hv => hall v (List.mem_cons_of_mem _ hv), ?_, hrest⟩, rfl, rfl⟩
            intro i hi
            exact hno (i + 1) (by simpa using hi)
      · rw [if_neg hw]
        simp only [reduceCtorEq, false_iff]
        rintro ⟨he, hall, -, hrest⟩
        cases ws with
        | nil =>
          rw [List.nil_append] at he
          subst he
          exact hc (hrest (by simp))
        | cons w ws =>
          rw [List.cons_append, List.cons.injEq] at he
          exact hw (he.1 ▸ hall w List.mem_cons_self)

/-! ## The closings -/

theorem closesDigitFact_iff {ps : List Piece} :
    closesDigitFact ps = true ↔ ps[0]? = some verb ∧ 2 ≤ ps.length := by
  unfold closesDigitFact
  split
  · simp
  · rename_i h
    simp only [Bool.false_eq_true, false_iff, not_and, Nat.not_le]
    intro _
    match ps, h with
    | [], _ => simp
    | [_], _ => simp
    | p :: q :: qs, h => exact absurd rfl (h p q qs)

theorem closesPriceFact_iff {ps : List Piece} :
    closesPriceFact ps = true ↔
      (∃ m, ps[0]? = some m ∧ isMetal m = true) ∧ ps[1]? = some verb ∧ 3 ≤ ps.length := by
  unfold closesPriceFact
  split
  · simp
  · rename_i h
    simp only [Bool.false_eq_true, false_iff, not_and, Nat.not_le]
    intro _ _
    match ps, h with
    | [], _ => simp
    | [_], _ => simp
    | [_, _], _ => simp
    | p :: q :: r :: qs, h => exact absurd rfl (h p q r qs)

theorem closesPriceQuestion_iff {ps : List Piece} :
    closesPriceQuestion ps = true ↔ ∃ m, ps = [m] ∧ isMetal m = true := by
  unfold closesPriceQuestion
  split
  · simp
  · rename_i h
    simp only [Bool.false_eq_true, false_iff, not_exists, not_and]
    intro m hm
    exact absurd hm (h m)

/-- No metal has the name of the verb. -/
theorem isMetal_verb : isMetal verb = false := by decide

/-! ## Endings of questions -/

theorem dropEnding_concat (ps : List Piece) (p : Piece) :
    dropEnding (ps ++ [p]) = ps ++ if dropMark p = [] then [] else [dropMark p] := by
  induction ps with
  | nil => rfl
  | cons q ps ih =>
    cases ps with
    | nil => rfl
    | cons r rs => exact congrArg (q :: ·) ih

/-- A piece is the one without its mark, or that with a mark. -/
theorem eq_dropMark (p : Piece) : p = dropMark p ∨ p = dropMark p ++ ['?'] := by
  unfold dropMark
  split
  · rename_i h
    obtain ⟨q, rfl⟩ := List.getLast?_eq_some_iff.mp h
    exact Or.inr (by rw [List.dropLast_concat])
  · exact Or.inl rfl

theorem dropMark_of_isWord {w : Piece} (h : isWord w = true) : dropMark w = w := by
  unfold dropMark
  rw [if_neg]
  intro hm
  simp only [isWord, Bool.and_eq_true, List.all_eq_true] at h
  have := h.2 '?' (List.mem_of_getLast? hm)
  exact absurd this (by decide)

theorem dropMark_concat_mark (p : Piece) : dropMark (p ++ ['?']) = p := by
  simp [dropMark]

/-- What may follow the last word of a question. -/
def endings : List (List Char) :=
  [[], [' '], ['?'], [' ', '?']]

/-- **A question without its ending**: the rest of the line is the words, joined, and one of the four endings. -/
theorem dropEnding_pieces_iff {cs : List Char} {ws : List Piece} (hne : ws ≠ []) (hws : AllWords ws) :
    dropEnding (pieces cs) = ws ↔ ∃ e ∈ endings, cs = join ws ++ e := by
  constructor
  · intro h
    obtain ⟨⟨hps, _⟩, hcs⟩ := Text.pieces_eq_iff.mp (rfl : pieces cs = pieces cs)
    obtain ⟨qs, q, hq⟩ := List.eq_nil_or_concat (pieces cs) |>.resolve_left hps
    rw [List.concat_eq_append] at hq
    rw [hq, dropEnding_concat] at h
    rw [hq] at hcs
    by_cases hm : dropMark q = []
    · rw [if_pos hm, List.append_nil] at h
      subst h
      rw [Text.join_append hne (by simp)] at hcs
      rcases eq_dropMark q with he | he
      · exact ⟨[' '], by simp [endings], by rw [hcs, he, hm]; rfl⟩
      · exact ⟨[' ', '?'], by simp [endings], by rw [hcs, he, hm]; rfl⟩
    · rw [if_neg hm] at h
      subst h
      rcases eq_dropMark q with he | he
      · exact ⟨[], by simp [endings], by rw [hcs, ← he, List.append_nil]⟩
      · exact ⟨['?'], by simp [endings], by rw [hcs, ← Text.join_concat_append, ← he]⟩
  · have hspace := hws.space_notMem
    obtain ⟨vs, v, hv⟩ := List.eq_nil_or_concat ws |>.resolve_left hne
    rw [List.concat_eq_append] at hv
    have hword : isWord v = true := hws v (by simp [hv])
    have hvne : v ≠ [] := by
      rintro rfl
      exact absurd hword (by decide)
    rintro ⟨e, he, rfl⟩
    simp only [endings, List.mem_cons, List.not_mem_nil, or_false] at he
    rcases he with rfl | rfl | rfl | rfl
    · rw [List.append_nil, Text.pieces_join hne hspace, hv, dropEnding_concat, dropMark_of_isWord hword,
        if_neg hvne]
    · have hp : pieces (join ws ++ [' ']) = ws ++ [[]] :=
        (Text.pieces_eq_append_iff hne hspace (by simp)).mpr ⟨[], rfl, rfl⟩
      rw [hp, dropEnding_concat, if_pos (by rfl), List.append_nil]
    · have hp : pieces (join ws ++ ['?']) = vs ++ [v ++ ['?']] := by
        rw [hv, ← Text.join_concat_append]
        apply Text.pieces_join (by simp)
        intro p hp
        rcases List.mem_append.mp hp with hp | hp
        · exact hspace p (by simp [hv, hp])
        · rw [List.mem_singleton] at hp
          have hvs := hspace v (by simp [hv])
          simp [hp, hvs]
      rw [hp, dropEnding_concat, dropMark_concat_mark, if_neg hvne, hv]
    · have hp : pieces (join ws ++ [' ', '?']) = ws ++ [['?']] :=
        (Text.pieces_eq_append_iff hne hspace (by simp)).mpr ⟨['?'], rfl, rfl⟩
      rw [hp, dropEnding_concat, if_pos (by rfl), List.append_nil]

/-! ## What each rule reads -/

/-- **The lines that state what words stand for**: the verb is not among the words, except as the first. -/
theorem digitFact?_eq_some_iff {line : List Char} {s : Sentence} :
    digitFact? line = some s ↔
      isGuarded line = false ∧ ∃ ws c digit, pieces line = ws ++ [verb, [c]] ∧ ws ≠ [] ∧ AllWords ws ∧
        verb ∉ ws.tail ∧ Digit.ofChar? c = some digit ∧ s = .digitFact (words ws) digit := by
  unfold digitFact?
  cases hg : isGuarded line with
  | true => simp
  | false =>
    simp only [Bool.false_eq_true, if_false, true_and]
    constructor
    · intro h
      split at h
      · contradiction
      · rename_i w ps hps
        split at h
        · rename_i hw
          split at h
          · rename_i ws v c htake
            obtain ⟨rfl, hall, hno, hclose⟩ := takeWords_eq_some_iff.mp htake
            obtain ⟨digit, hd, rfl⟩ := Option.map_eq_some_iff.mp h
            have hv : v = verb := by
              have := (closesDigitFact_iff.mp (hclose (by simp))).1
              simpa using this
            subst hv
            refine ⟨w :: ws, c, digit, hps, by simp, List.forall_mem_cons.mpr ⟨hw, hall⟩, ?_, hd, rfl⟩
            intro hm
            obtain ⟨i, hi, hget⟩ := List.getElem_of_mem (show verb ∈ ws from hm)
            have hcl : closesDigitFact ((ws ++ [verb, [c]]).drop i) = true := by
              refine closesDigitFact_iff.mpr ⟨?_, by simp; omega⟩
              rw [List.getElem?_drop, Nat.add_zero, List.getElem?_append_left hi, List.getElem?_eq_getElem hi, hget]
            rw [hno i hi] at hcl
            contradiction
          · contradiction
        · contradiction
    · rintro ⟨ws, c, digit, hps, hne, hall, hverb, hd, rfl⟩
      obtain ⟨w, ws, rfl⟩ := List.exists_cons_of_ne_nil hne
      obtain ⟨hw, hall⟩ := List.forall_mem_cons.mp hall
      have htake : takeWords closesDigitFact (ws ++ [verb, [c]]) = some (ws, [verb, [c]]) := by
        refine takeWords_eq_some_iff.mpr ⟨rfl, hall, ?_, fun _ => closesDigitFact_iff.mpr ⟨rfl, by simp⟩⟩
        intro i hi
        rw [Bool.eq_false_iff]
        intro hcl
        have hget := (closesDigitFact_iff.mp hcl).1
        rw [List.getElem?_drop, Nat.add_zero, List.getElem?_append_left hi] at hget
        exact hverb (List.mem_of_getElem? hget)
      rw [hps]
      simp only [List.cons_append, hw, if_true, htake, hd, Option.map_some]

/-- Some words close no price fact: the verb does not follow a metal among them. -/
def NoMetalBeforeVerb (ws : List Piece) : Prop :=
  ∀ i w, ws[i]? = some w → ws[i + 1]? = some verb → isMetal w = false

/-- The closing of a price fact is not found among the words in front of it, unless they contain one. -/
theorem closesPriceFact_drop_eq_false_iff {ws : List Piece} {m a u : Piece} (hm : isMetal m = true) :
    (∀ i < ws.length, closesPriceFact ((ws ++ [m, verb, a, u]).drop i) = false) ↔ NoMetalBeforeVerb ws := by
  constructor
  · intro hno i w hw hv
    have hi : i + 1 < ws.length := (List.getElem?_eq_some_iff.mp hv).1
    have hcl := hno i (by omega)
    rw [Bool.eq_false_iff] at hcl ⊢
    intro hmw
    refine hcl (closesPriceFact_iff.mpr ⟨⟨w, ?_, hmw⟩, ?_, by simp; omega⟩)
    · rw [List.getElem?_drop, Nat.add_zero, List.getElem?_append_left (by omega), hw]
    · rw [List.getElem?_drop, List.getElem?_append_left hi, hv]
  · intro hno i hi
    rw [Bool.eq_false_iff]
    intro hcl
    obtain ⟨⟨w, hw, hmw⟩, hv, -⟩ := closesPriceFact_iff.mp hcl
    rw [List.getElem?_drop, Nat.add_zero, List.getElem?_append_left hi] at hw
    rw [List.getElem?_drop] at hv
    by_cases hlast : i + 1 < ws.length
    · rw [List.getElem?_append_left hlast] at hv
      rw [hno i w hw hv] at hmw
      contradiction
    · -- The last word is followed by the metal, which is not the verb.
      have he : i + 1 = ws.length := by omega
      rw [he, List.getElem?_append_right (Nat.le_refl _), Nat.sub_self] at hv
      simp only [List.getElem?_cons_zero, Option.some.injEq] at hv
      rw [hv, isMetal_verb] at hm
      contradiction

/-- **The lines that state a price**: the first metal that the verb follows is the last word before the verb. -/
theorem priceFact?_eq_some_iff {line : List Char} {s : Sentence} :
    priceFact? line = some s ↔
      isGuarded line = false ∧ ∃ ws m amount, pieces line = ws ++ [m, verb, amount, "Credits".toList] ∧
        ws ≠ [] ∧ AllWords ws ∧ isMetal m = true ∧ NoMetalBeforeVerb ws ∧ isAmount amount = true ∧
        s = .priceFact (words ws) (String.ofList m) (String.ofList amount) := by
  unfold priceFact?
  cases hg : isGuarded line with
  | true => simp
  | false =>
    simp only [Bool.false_eq_true, if_false, true_and]
    constructor
    · intro h
      split at h
      · rename_i w ws m v amount unit htake
        split at h
        · rename_i hau
          obtain ⟨hamount, rfl⟩ := hau
          injection h with h
          obtain ⟨hps, hall, hno, hclose⟩ := takeWords_eq_some_iff.mp htake
          obtain ⟨⟨m', hm', hmetal⟩, hv, -⟩ := closesPriceFact_iff.mp (hclose (by simp))
          simp only [List.getElem?_cons_zero, Option.some.injEq, List.getElem?_cons_succ] at hm' hv
          subst hm' hv
          rw [hps] at hno
          exact ⟨w :: ws, m, amount, hps, by simp, hall, hmetal,
            (closesPriceFact_drop_eq_false_iff hmetal).mp hno, hamount, h.symm⟩
        · contradiction
      · contradiction
    · rintro ⟨ws, m, amount, hps, hne, hall, hmetal, hno, hamount, rfl⟩
      obtain ⟨w, ws, rfl⟩ := List.exists_cons_of_ne_nil hne
      have htake : takeWords closesPriceFact (pieces line) =
          some (w :: ws, [m, verb, amount, "Credits".toList]) := by
        refine takeWords_eq_some_iff.mpr ⟨hps, hall, ?_, fun _ => ?_⟩
        · rw [hps]
          exact (closesPriceFact_drop_eq_false_iff hmetal).mpr hno
        · exact closesPriceFact_iff.mpr ⟨⟨m, rfl, hmetal⟩, rfl, by simp⟩
      rw [htake]
      simp only [hamount, and_self, if_true]

/-- **The lines that ask what a phrase is worth.** -/
theorem valueQuestion?_eq_some_iff {line : List Char} {s : Sentence} :
    valueQuestion? line = some s ↔
      ∃ ps ws, pieces line = ["how".toList, "much".toList, verb] ++ ps ∧ dropEnding ps = ws ∧ ws ≠ [] ∧
        AllWords ws ∧ s = .valueQuestion (words ws) := by
  unfold valueQuestion?
  constructor
  · intro h
    split at h
    · rename_i how much is ps hps
      split at h
      · rename_i hopen
        obtain ⟨rfl, rfl, rfl⟩ := hopen
        split at h
        · rename_i w ws htake
          injection h with h
          obtain ⟨hws, hall, -⟩ := takeWords_eq_some_iff.mp htake
          exact ⟨ps, w :: ws, hps, by rw [hws, List.append_nil], by simp, hall, h.symm⟩
        · contradiction
      · contradiction
    · contradiction
  · rintro ⟨ps, ws, hps, hws, hne, hall, rfl⟩
    obtain ⟨w, ws, rfl⟩ := List.exists_cons_of_ne_nil hne
    have htake : takeWords (fun _ => false) (dropEnding ps) = some (w :: ws, []) :=
      takeWords_eq_some_iff.mpr ⟨by rw [hws, List.append_nil], hall, fun _ _ => rfl, by simp⟩
    rw [hps]
    simp only [List.cons_append, List.nil_append, and_self, if_true, htake]

/-- **The lines that ask what so much of a metal costs.** -/
theorem priceQuestion?_eq_some_iff {line : List Char} {s : Sentence} :
    priceQuestion? line = some s ↔
      ∃ ps ws m, pieces line = ["how".toList, "many".toList, "Credits".toList, verb] ++ ps ∧
        dropEnding ps = ws ++ [m] ∧ ws ≠ [] ∧ AllWords ws ∧ isMetal m = true ∧
        s = .priceQuestion (words ws) (String.ofList m) := by
  unfold priceQuestion?
  constructor
  · intro h
    split at h
    · rename_i how many credits is ps hps
      split at h
      · rename_i hopen
        obtain ⟨rfl, rfl, rfl, rfl⟩ := hopen
        split at h
        · rename_i w ws m htake
          injection h with h
          obtain ⟨hws, hall, -, hclose⟩ := takeWords_eq_some_iff.mp htake
          have hmetal : isMetal m = true := hclose (by simp)
          exact ⟨ps, w :: ws, m, hps, hws, by simp, hall, hmetal, h.symm⟩
        · contradiction
      · contradiction
    · contradiction
  · rintro ⟨ps, ws, m, hps, hws, hne, hall, hmetal, rfl⟩
    obtain ⟨w, ws, rfl⟩ := List.exists_cons_of_ne_nil hne
    have htake : takeWords closesPriceQuestion (dropEnding ps) = some (w :: ws, [m]) := by
      refine takeWords_eq_some_iff.mpr ⟨hws, hall, ?_, fun _ => hmetal⟩
      intro i hi
      rw [Bool.eq_false_iff]
      intro hcl
      obtain ⟨m', hm', -⟩ := closesPriceQuestion_iff.mp hcl
      have hlen := congrArg List.length hm'
      rw [hws] at hlen
      simp only [List.length_drop, List.length_append, List.length_singleton] at hlen
      omega
    rw [hps]
    simp only [List.cons_append, List.nil_append, and_self, if_true, htake]

/-! ## No line is read twice -/

theorem isGuarded_iff {line : List Char} :
    isGuarded line = true ↔ ∃ opening ∈ openings, opening.toList <+: line.map Char.toLower := by
  simp only [isGuarded, List.any_eq_true, List.isPrefixOf_iff_prefix]

theorem isGuarded_of_opening (opening : String) (h : opening ∈ openings) {line : List Char} (rest : List Char)
    (hline : line.map Char.toLower = opening.toList ++ rest) : isGuarded line = true :=
  isGuarded_iff.mpr ⟨opening, h, rest, hline.symm⟩

/-- A question opens like one. -/
theorem isGuarded_of_valueQuestion? {line : List Char} {s : Sentence} (h : valueQuestion? line = some s) :
    isGuarded line = true := by
  obtain ⟨ps, ws, hps, hws, hne, -, -⟩ := valueQuestion?_eq_some_iff.mp h
  have hp : ps ≠ [] := by
    rintro rfl
    exact hne hws.symm
  obtain ⟨rest, rfl, -⟩ := (Text.pieces_eq_append_iff (by simp) (by decide) hp).mp hps
  refine isGuarded_of_opening "how much is " (by simp [openings]) (rest.map Char.toLower) ?_
  rw [List.map_append]
  rfl

theorem isGuarded_of_priceQuestion? {line : List Char} {s : Sentence} (h : priceQuestion? line = some s) :
    isGuarded line = true := by
  obtain ⟨ps, ws, m, hps, hws, -⟩ := priceQuestion?_eq_some_iff.mp h
  have hp : ps ≠ [] := by
    rintro rfl
    exact absurd hws (by simp [dropEnding])
  obtain ⟨rest, rfl, -⟩ := (Text.pieces_eq_append_iff (by simp) (by decide) hp).mp hps
  refine isGuarded_of_opening "how many credits is " (by simp [openings]) (rest.map Char.toLower) ?_
  rw [List.map_append]
  rfl

/-- A rule for facts and a rule for questions do not read the same line. -/
theorem eq_none_or_eq_none_of_guard {line : List Char} {fact question : Option Sentence}
    (hf : ∀ s, fact = some s → isGuarded line = false) (hq : ∀ s, question = some s → isGuarded line = true) :
    fact = none ∨ question = none := by
  cases fact with
  | none => exact Or.inl rfl
  | some s =>
    cases question with
    | none => exact Or.inr rfl
    | some t =>
      have := hf s rfl
      rw [hq t rfl] at this
      contradiction

theorem digitFact?_or_priceFact?_eq_none (line : List Char) : digitFact? line = none ∨ priceFact? line = none := by
  cases hd : digitFact? line with
  | none => exact Or.inl rfl
  | some s =>
    right
    apply Option.eq_none_iff_forall_ne_some.mpr
    intro t ht
    obtain ⟨-, ws, c, -, hps, -⟩ := digitFact?_eq_some_iff.mp hd
    obtain ⟨-, vs, m, amount, hqs, -⟩ := priceFact?_eq_some_iff.mp ht
    -- One line ends with a single letter, the other with the unit.
    have hlast := congrArg List.getLast? (hps.symm.trans hqs)
    simp at hlast

theorem valueQuestion?_or_priceQuestion?_eq_none (line : List Char) :
    valueQuestion? line = none ∨ priceQuestion? line = none := by
  cases hv : valueQuestion? line with
  | none => exact Or.inl rfl
  | some s =>
    right
    apply Option.eq_none_iff_forall_ne_some.mpr
    intro t ht
    obtain ⟨ps, ws, hps, -⟩ := valueQuestion?_eq_some_iff.mp hv
    obtain ⟨qs, vs, m, hqs, -⟩ := priceQuestion?_eq_some_iff.mp ht
    have hsecond := congrArg (·[1]?) (hps.symm.trans hqs)
    exact absurd hsecond (by simp)

/-- **No line is read by two rules.** -/
theorem rules_exclusive (line : List Char) : rules.Pairwise fun r r' => r line = none ∨ r' line = none := by
  have hd : ∀ s, digitFact? line = some s → isGuarded line = false := fun s h => (digitFact?_eq_some_iff.mp h).1
  have hp : ∀ s, priceFact? line = some s → isGuarded line = false := fun s h => (priceFact?_eq_some_iff.mp h).1
  have hv : ∀ s, valueQuestion? line = some s → isGuarded line = true := fun s h => isGuarded_of_valueQuestion? h
  have hc : ∀ s, priceQuestion? line = some s → isGuarded line = true := fun s h => isGuarded_of_priceQuestion? h
  simp only [rules, List.pairwise_cons, List.mem_cons, List.not_mem_nil, or_false, forall_eq_or_imp, forall_eq,
    false_implies, implies_true, List.Pairwise.nil, and_true]
  exact ⟨⟨digitFact?_or_priceFact?_eq_none line, eq_none_or_eq_none_of_guard hd hv,
    eq_none_or_eq_none_of_guard hd hc⟩,
    ⟨eq_none_or_eq_none_of_guard hp hv, eq_none_or_eq_none_of_guard hp hc⟩,
    valueQuestion?_or_priceQuestion?_eq_none line⟩

/-- Of rules that exclude each other, the first that answers is any that does. -/
theorem findSome?_eq_some_iff_of_pairwise {α β : Type} {f : α → Option β} {rs : List α} {b : β}
    (h : rs.Pairwise fun r r' => f r = none ∨ f r' = none) :
    rs.findSome? f = some b ↔ ∃ r ∈ rs, f r = some b := by
  induction rs with
  | nil => simp
  | cons r rs ih =>
    obtain ⟨hr, hrs⟩ := List.pairwise_cons.mp h
    rw [List.findSome?_cons]
    cases hf : f r with
    | none => simp [ih hrs, hf]
    | some a =>
      constructor
      · intro he
        exact ⟨r, List.mem_cons_self, hf.trans he⟩
      · rintro ⟨q, hq, he⟩
        rcases List.mem_cons.mp hq with rfl | hq
        · exact hf.symm.trans he
        · rcases hr q hq with hn | hn
          · rw [hf] at hn
            contradiction
          · rw [he] at hn
            contradiction

/-- **A line is a sentence exactly if some rule reads it as that sentence.** -/
theorem ofLine?_eq_some_iff {line : String} {s : Sentence} :
    ofLine? line = some s ↔ ∃ rule ∈ rules, rule line.toList = some s :=
  findSome?_eq_some_iff_of_pairwise (rules_exclusive line.toList)

/-- The rule that reads sentences of a form. -/
def ruleOf : Sentence → List Char → Option Sentence
  | .digitFact .. => digitFact?
  | .priceFact .. => priceFact?
  | .valueQuestion _ => valueQuestion?
  | .priceQuestion .. => priceQuestion?

/-- **A line is a sentence exactly if the rule of its form reads it.** -/
theorem ofLine?_eq_some_iff_ruleOf {line : String} {s : Sentence} :
    ofLine? line = some s ↔ ruleOf s line.toList = some s := by
  rw [ofLine?_eq_some_iff]
  constructor
  · rintro ⟨rule, hrule, h⟩
    simp only [rules, List.mem_cons, List.not_mem_nil, or_false] at hrule
    rcases hrule with rfl | rfl | rfl | rfl
    · obtain ⟨-, ws, c, digit, -, -, -, -, -, rfl⟩ := digitFact?_eq_some_iff.mp h
      exact h
    · obtain ⟨-, ws, m, amount, -, -, -, -, -, -, rfl⟩ := priceFact?_eq_some_iff.mp h
      exact h
    · obtain ⟨ps, ws, -, -, -, -, rfl⟩ := valueQuestion?_eq_some_iff.mp h
      exact h
    · obtain ⟨ps, ws, m, -, -, -, -, -, rfl⟩ := priceQuestion?_eq_some_iff.mp h
      exact h
  · intro h
    refine ⟨ruleOf s, ?_, h⟩
    cases s <;> simp [ruleOf, rules]

end TradeTalk.Sentence
