import TradeTalk.Proofs.Text.Lower

/-!
# `Proofs.Text.Folding` — folded once, folded for good

The lower case of a letter has no lower case but itself, and a sigma is no capital one once it has been folded. So what
a name is filed under is filed under itself, although a text is folded by looking at the letters around each sigma.

The same letters decide where a word ends, and whether they are small or capital ASCII letters does not matter for that.
So names that differ in the case of ASCII letters only are filed together, whatever other letters they have.

## Contents
- **`CaseRun.avoids`**, **`avoids_upperRuns`**: the lower-case letters of the table are not in the table.
- **`IsSmall`**, **`isSmall_of_mem_fold`**, **`fold_of_isSmall`**: what is folded consists of letters that fold to themselves.
- **`key_key`**: a key is its own key.
- **`fold_map_toLower`**, **`key_eq_of_lower_eq`**: the case of ASCII letters does not matter to a key.
-/

namespace TradeTalk.Text

/-! ## The letters of the table -/

/-- Whether the lower-case letters of a run are not among the letters of another one: they lie before it or behind it, or
    in the gaps that it leaves by going in steps of two. -/
def CaseRun.avoids (r s : CaseRun) : Bool :=
  Nat.blt (r.lower + (r.last - r.first)) s.first || Nat.blt s.last r.lower ||
    (r.step == 2 || r.first == r.last) && s.step == 2 && r.lower % 2 != s.first % 2

theorem CaseRun.has_eq_true_iff {r : CaseRun} {n : Nat} :
    r.has n = true ↔ r.first ≤ n ∧ n ≤ r.last ∧ (n - r.first) % r.step = 0 := by
  simp [CaseRun.has, and_assoc]

theorem CaseRun.has_lowerOf {r s : CaseRun} (h : r.avoids s = true) {n : Nat} (hn : r.has n = true) :
    s.has (r.lowerOf n) = false := by
  obtain ⟨hfirst, hlast, hstep⟩ := has_eq_true_iff.mp hn
  rw [Bool.eq_false_iff]
  intro hs
  obtain ⟨hfirst', hlast', hstep'⟩ := has_eq_true_iff.mp hs
  rw [CaseRun.lowerOf] at hfirst' hlast' hstep'
  simp only [CaseRun.avoids, Bool.or_eq_true, Bool.and_eq_true, Nat.blt_eq, beq_iff_eq, bne_iff_ne] at h
  rcases h with (hbefore | hbehind) | ⟨⟨hr, htwo⟩, hparity⟩
  · omega
  · omega
  · rw [htwo] at hstep'
    rcases hr with hr | hsingle
    · rw [hr] at hstep
      omega
    · omega

/-- All letters that have a lower case of their own: the ASCII capitals, the capital I with a dot, and those of the
    table. -/
def upperRuns : List CaseRun :=
  ⟨'A'.toNat, 'Z'.toNat, 1, 'a'.toNat⟩ :: ⟨'İ'.toNat, 'İ'.toNat, 1, 'i'.toNat⟩ :: lowerRuns

/-- **No lower-case letter of the table has a lower case of its own.** -/
theorem avoids_upperRuns : (lowerRuns.all fun r => upperRuns.all r.avoids) = true := by
  decide +kernel

/-! ## Letters that fold to themselves -/

/-- A character that has no lower case but itself. -/
def IsSmall (c : Char) : Prop :=
  ∀ s ∈ upperRuns, s.has c.toNat = false

theorem isSmall_iff {c : Char} :
    IsSmall c ↔ ¬ ('A'.toNat ≤ c.toNat ∧ c.toNat ≤ 'Z'.toNat) ∧ c ≠ 'İ' ∧ lowerCode? c.toNat = none := by
  have hdot : c = 'İ' ↔ 'İ'.toNat ≤ c.toNat ∧ c.toNat ≤ 'İ'.toNat := by
    rw [← Char.toNat_inj]
    omega
  simp only [IsSmall, upperRuns, List.forall_mem_cons, lowerCode?, Option.map_eq_none_iff, List.find?_eq_none,
    Bool.not_eq_true, hdot, ne_eq]
  simp only [← Bool.not_eq_true, CaseRun.has_eq_true_iff, Nat.mod_one, and_true]

/-- Among the ASCII characters only the capitals have a lower case of their own. -/
theorem isSmall_of_ascii {c : Char} (hascii : c.toNat < 128) (hcapital : ¬ ('A'.toNat ≤ c.toNat ∧ c.toNat ≤ 'Z'.toNat)) :
    IsSmall c := by
  have hfirst : ∀ r ∈ lowerRuns, 128 ≤ r.first := by decide +kernel
  refine isSmall_iff.mpr ⟨hcapital, ?_, ?_⟩
  · rintro rfl
    exact absurd hascii (by decide)
  · rw [lowerCode?, Option.map_eq_none_iff, List.find?_eq_none]
    intro r hr hhas
    have hle := (CaseRun.has_eq_true_iff.mp hhas).1
    have := hfirst r hr
    omega

/-- Beyond them it is the table that decides. -/
theorem isSmall_of_lowerCode?_eq_none {c : Char} (hascii : ¬ c.toNat < 128) (hdot : c ≠ 'İ')
    (hcode : lowerCode? c.toNat = none) : IsSmall c := by
  have hz : 'Z'.toNat = 90 := rfl
  exact isSmall_iff.mpr ⟨by omega, hdot, hcode⟩

theorem isSmall_toLower {c : Char} (h : c.toNat < 128) : IsSmall c.toLower := by
  have hlower : c.toLower.toNat < 128 ∧ ¬ ('A'.toNat ≤ c.toLower.toNat ∧ c.toLower.toNat ≤ 'Z'.toNat) :=
    forall_ascii (p := fun c => c.toLower.toNat < 128 ∧ ¬ ('A'.toNat ≤ c.toLower.toNat ∧ c.toLower.toNat ≤ 'Z'.toNat))
      (by decide) h
  exact isSmall_of_ascii hlower.1 hlower.2

theorem lowerChar_of_isSmall {c : Char} (h : IsSmall c) : lowerChar c = [c] := by
  obtain ⟨hcapital, hdot, hcode⟩ := isSmall_iff.mp h
  by_cases hascii : c.toNat < 128
  · have hself : c.toLower = c :=
      forall_ascii (p := fun c => ¬ ('A'.toNat ≤ c.toNat ∧ c.toNat ≤ 'Z'.toNat) → c.toLower = c) (by decide) hascii
        hcapital
    rw [lowerChar_of_lt hascii, hself]
  · rw [lowerChar, if_neg hascii, if_neg hdot, hcode]

/-- A character that a run turns into has no lower case of its own. -/
theorem isSmall_of_lowerCode? {m n : Nat} (h : lowerCode? m = some n) : IsSmall (Char.ofNat n) := by
  obtain ⟨r, hr, rfl⟩ := Option.map_eq_some_iff.mp h
  have havoids := avoids_upperRuns
  simp only [List.all_eq_true] at havoids
  have hhas : r.has m = true := List.find?_some (p := fun r : CaseRun => r.has m) hr
  by_cases hvalid : (r.lowerOf m).isValidChar
  · intro s hs
    have hcode : (Char.ofNat (r.lowerOf m)).toNat = r.lowerOf m := by
      rw [Char.ofNat, dif_pos hvalid]
      rfl
    rw [hcode]
    exact CaseRun.has_lowerOf (havoids r (List.mem_of_find?_eq_some hr) s hs) hhas
  · rw [Char.ofNat, dif_neg hvalid]
    exact isSmall_of_ascii (by decide) (by decide)

theorem isSmall_of_mem_lowerChar {c d : Char} (h : d ∈ lowerChar c) : IsSmall d := by
  by_cases hascii : c.toNat < 128
  · rw [lowerChar_of_lt hascii, List.mem_singleton] at h
    exact h ▸ isSmall_toLower hascii
  · rw [lowerChar, if_neg hascii] at h
    split at h
    · rw [List.mem_cons, List.mem_singleton] at h
      rcases h with rfl | rfl
      · exact isSmall_of_ascii (by decide) (by decide)
      · exact isSmall_of_lowerCode?_eq_none (by decide) (by decide) (by decide +kernel)
    · rename_i hdot
      cases hcode : lowerCode? c.toNat with
      | none =>
        rw [hcode, List.mem_singleton] at h
        exact h ▸ isSmall_of_lowerCode?_eq_none hascii hdot hcode
      | some n =>
        rw [hcode, List.mem_singleton] at h
        exact h ▸ isSmall_of_lowerCode? hcode

/-! ## Texts that fold to themselves -/

theorem isSmall_of_mem_foldAfter {before cs : List Char} {d : Char} (h : d ∈ foldAfter before cs) : IsSmall d := by
  induction cs generalizing before with
  | nil => exact absurd h List.not_mem_nil
  | cons c cs ih =>
    rw [foldAfter, List.mem_append] at h
    rcases h with h | h
    · split at h
      · -- Neither small sigma is a capital one, wherever it stands.
        rw [List.mem_singleton] at h
        rw [h]
        split
        · exact isSmall_of_lowerCode?_eq_none (by decide) (by decide) (by decide +kernel)
        · exact isSmall_of_lowerCode?_eq_none (by decide) (by decide) (by decide +kernel)
      · exact isSmall_of_mem_lowerChar h
    · exact ih h

/-- What is folded consists of letters that fold to themselves. -/
theorem isSmall_of_mem_fold {cs : List Char} {d : Char} (h : d ∈ fold cs) : IsSmall d :=
  isSmall_of_mem_foldAfter h

theorem foldAfter_of_isSmall {before cs : List Char} (h : ∀ c ∈ cs, IsSmall c) : foldAfter before cs = cs := by
  induction cs generalizing before with
  | nil => rfl
  | cons c cs ih =>
    obtain ⟨hc, hcs⟩ := List.forall_mem_cons.mp h
    have hsigma : c ≠ capitalSigma := by
      rintro rfl
      exact absurd (lowerChar_of_isSmall hc) (by decide +kernel)
    rw [foldAfter, if_neg hsigma, lowerChar_of_isSmall hc, ih hcs, List.singleton_append]

theorem fold_of_isSmall {cs : List Char} (h : ∀ c ∈ cs, IsSmall c) : fold cs = cs :=
  foldAfter_of_isSmall h

/-- **A key is its own key**: what has been folded stays as it is when it is folded again. -/
theorem key_key (name : String) : key (key name) = key name := by
  rw [key, key, String.toList_ofList, fold_of_isSmall fun _ => isSmall_of_mem_fold]

/-! ## Small and capital ASCII letters -/

/-- What holds of every character beside itself, and of each ASCII capital beside its small letter, holds of every
    character beside its ASCII lower case. -/
theorem forall_toLower {p : Char → Char → Prop} (hself : ∀ c, p c c)
    (hcapital : ∀ i < 26, p (Char.ofNat ('A'.toNat + i)).toLower (Char.ofNat ('A'.toNat + i))) (c : Char) :
    p c.toLower c := by
  by_cases h : 'A'.toNat ≤ c.toNat ∧ c.toNat ≤ 'Z'.toNat
  · have hA : 'A'.toNat = 65 := rfl
    have hZ : 'Z'.toNat = 90 := rfl
    have hc := hcapital (c.toNat - 'A'.toNat) (by omega)
    rwa [Nat.add_sub_cancel' h.1, Char.ofNat_toNat] at hc
  · have hsame : c.toLower = c := dif_neg h
    rw [hsame]
    exact hself c

/-- An ASCII letter, by its code point. -/
def IsLetterCode (n : Nat) : Prop :=
  ('A'.toNat ≤ n ∧ n ≤ 'Z'.toNat) ∨ ('a'.toNat ≤ n ∧ n ≤ 'z'.toNat)

instance (n : Nat) : Decidable (IsLetterCode n) :=
  inferInstanceAs (Decidable (_ ∨ _))

/-- No ASCII letter is passed over where the end of a word is looked for. -/
theorem has_caseIgnorableRanges_of_letter {c : Char} (h : IsLetterCode c.toNat) : caseIgnorableRanges.has c = false := by
  have hapart : ∀ r ∈ caseIgnorableRanges,
      r.2 < 'A'.toNat ∨ 'z'.toNat < r.1 ∨ ('Z'.toNat < r.1 ∧ r.2 < 'a'.toNat) := by decide +kernel
  rw [Bool.eq_false_iff]
  intro hhas
  obtain ⟨r, hr, hfirst, hlast⟩ := Ranges.has_eq_true_iff.mp hhas
  have hr := hapart r hr
  have hcodes : 'A'.toNat = 65 ∧ 'Z'.toNat = 90 ∧ 'a'.toNat = 97 ∧ 'z'.toNat = 122 := by decide
  unfold IsLetterCode at h
  omega

theorem startsCased_map_toLower (cs : List Char) : startsCased (cs.map Char.toLower) = startsCased cs := by
  have hletters : ∀ i < 26, IsLetterCode (Char.ofNat ('A'.toNat + i)).toLower.toNat ∧
      IsLetterCode (Char.ofNat ('A'.toNat + i)).toNat := by decide
  have hignorable : ∀ c : Char, caseIgnorableRanges.has c.toLower = caseIgnorableRanges.has c := by
    refine forall_toLower (p := fun d c => caseIgnorableRanges.has d = caseIgnorableRanges.has c) (fun _ => rfl) ?_
    intro i hi
    rw [has_caseIgnorableRanges_of_letter (hletters i hi).1, has_caseIgnorableRanges_of_letter (hletters i hi).2]
  have hcased : ∀ c : Char, casedRanges.has c.toLower = casedRanges.has c :=
    forall_toLower (p := fun d c => casedRanges.has d = casedRanges.has c) (fun _ => rfl) (by decide +kernel)
  induction cs with
  | nil => rfl
  | cons c cs ih =>
    simp only [startsCased, List.map_cons, List.dropWhile_cons, hignorable] at ih ⊢
    cases caseIgnorableRanges.has c with
    | true => exact ih
    | false => exact hcased c

theorem foldAfter_map_toLower (before cs : List Char) :
    foldAfter (before.map Char.toLower) (cs.map Char.toLower) = foldAfter before cs := by
  have hsigma : ∀ c : Char, c.toLower = capitalSigma ↔ c = capitalSigma :=
    forall_toLower (p := fun d c => d = capitalSigma ↔ c = capitalSigma) (fun _ => Iff.rfl) (by decide)
  have hlower : ∀ c : Char, lowerChar c.toLower = lowerChar c :=
    forall_toLower (p := fun d c => lowerChar d = lowerChar c) (fun _ => rfl) (by decide)
  induction cs generalizing before with
  | nil => rfl
  | cons c cs ih =>
    have hends : endsWord (before.map Char.toLower) (cs.map Char.toLower) = endsWord before cs := by
      rw [endsWord, endsWord, startsCased_map_toLower, startsCased_map_toLower]
    have hrest := ih (c :: before)
    rw [List.map_cons] at hrest
    simp only [List.map_cons, foldAfter, hsigma, hlower, hends, hrest]

/-- **The case of ASCII letters does not matter to a folded text**, not even where a sigma stands beside them. -/
theorem fold_map_toLower (cs : List Char) : fold (cs.map Char.toLower) = fold cs :=
  foldAfter_map_toLower [] cs

/-- Names that are equal up to the case of ASCII letters have one key. -/
theorem key_eq_of_lower_eq {name other : String} (h : lower name = lower other) : key name = key other := by
  have hlower (name : String) : key (lower name) = key name := by
    rw [key, toList_lower, fold_map_toLower, key]
  rw [← hlower name, h, hlower]

end TradeTalk.Text
