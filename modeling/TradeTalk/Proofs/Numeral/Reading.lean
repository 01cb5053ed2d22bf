import TradeTalk.Proofs.Numeral.Places

/-!
# `Proofs.Numeral.Reading` — which texts are read as which numbers

Reading goes by a pattern and by the groups that are taken off; writing goes down the groups by itself; and a numeral
can also be valued without any group, by adding up its digits and taking those off that stand before a larger one. The
three agree: for every text, reading it gives a number exactly if that number is written so, and the number is the sum.

## Contents
- **`signedSum`**: the digits of a numeral added up; **`signedSum_inPlaces`**: its value for a number in places.
- **`capitals`**: what a text says in capital letters, without the blanks around it.
- **`read_eq_ok_iff`**: the texts of numerals, and what they are read as.
- **`read_characterized`**: all texts, those that are no numerals among them.
-/

namespace TradeTalk.Numeral

open Digit (one five ten fifty hundred fiveHundred thousand)

/-! ## The sum of the digits -/

/-- The digits added up, except that a digit before a larger one is taken off. -/
def signedSum : Numeral → Int
  | [] => 0
  | [a] => a.value
  | a :: b :: ds => (if a.value < b.value then -(a.value : Int) else a.value) + signedSum (b :: ds)

/-- The first digit, if there is one, counts for so much at most. -/
def StartsAtMost (v : Nat) (ds : Numeral) : Prop :=
  ∀ a, ds.head? = some a → a.value ≤ v

theorem StartsAtMost.mono {v w : Nat} {ds : Numeral} (h : StartsAtMost v ds) (hvw : v ≤ w) : StartsAtMost w ds :=
  fun a ha => Nat.le_trans (h a ha) hvw

theorem startsAtMost_cons_iff {v : Nat} {a : Digit} {ds : Numeral} : StartsAtMost v (a :: ds) ↔ a.value ≤ v := by
  simp [StartsAtMost]

theorem signedSum_cons_of_le {a : Digit} {ds : Numeral} (h : StartsAtMost a.value ds) :
    signedSum (a :: ds) = a.value + signedSum ds := by
  cases ds with
  | nil => rfl
  | cons b ds =>
    have hb : ¬ a.value < b.value := Nat.not_lt.mpr (startsAtMost_cons_iff.mp h)
    rw [signedSum, if_neg hb]

theorem signedSum_cons_cons_of_lt {a b : Digit} (h : a.value < b.value) (ds : Numeral) :
    signedSum (a :: b :: ds) = -(a.value : Int) + signedSum (b :: ds) := by
  rw [signedSum, if_pos h]

theorem startsAtMost_replicate {v : Nat} {a : Digit} {ds : Numeral} (ha : a.value ≤ v) (h : StartsAtMost v ds)
    (k : Nat) : StartsAtMost v (List.replicate k a ++ ds) := by
  cases k with
  | zero => exact h
  | succ k => exact startsAtMost_cons_iff.mpr ha

theorem signedSum_replicate {a : Digit} {ds : Numeral} (h : StartsAtMost a.value ds) (k : Nat) :
    signedSum (List.replicate k a ++ ds) = k * a.value + signedSum ds := by
  induction k with
  | zero => simp
  | succ k ih =>
    show signedSum (a :: (List.replicate k a ++ ds)) = _
    rw [signedSum_cons_of_le (startsAtMost_replicate (Nat.le_refl _) h k), ih]
    push_cast
    ring

/-! ## Place by place -/

section Place

variable {unit half next : Digit} {ds : Numeral}

/-- A spelling starts with nothing larger than the next place. -/
theorem startsAtMost_spelling (hhalf : half.value = 5 * unit.value) (hnext : next.value = 10 * unit.value)
    (h : StartsAtMost unit.value ds) (k : Nat) : StartsAtMost next.value (spelling unit half next k ++ ds) := by
  have hrest : StartsAtMost next.value ds := h.mono (by omega)
  unfold spelling
  split
  · exact startsAtMost_cons_iff.mpr (by omega)
  · split
    · exact startsAtMost_cons_iff.mpr (by omega)
    · rw [List.append_assoc]
      exact startsAtMost_replicate (by omega) (startsAtMost_replicate (by omega) hrest _) _

/-- **A spelling adds up to its digit** in that place. -/
theorem signedSum_spelling (hhalf : half.value = 5 * unit.value) (hnext : next.value = 10 * unit.value)
    (h : StartsAtMost unit.value ds) (k : Nat) :
    signedSum (spelling unit half next k ++ ds) = k * unit.value + signedSum ds := by
  have hpos : 0 < unit.value := unit.value_pos
  unfold spelling
  by_cases h9 : k = 9
  · rw [if_pos h9, h9]
    show signedSum (unit :: next :: ds) = _
    rw [signedSum_cons_cons_of_lt (by omega), signedSum_cons_of_le (h.mono (by omega)), hnext]
    push_cast
    ring
  · by_cases h4 : k = 4
    · rw [if_neg h9, if_pos h4, h4]
      show signedSum (unit :: half :: ds) = _
      rw [signedSum_cons_cons_of_lt (by omega), signedSum_cons_of_le (h.mono (by omega)), hhalf]
      push_cast
      ring
    · rw [if_neg h9, if_neg h4, List.append_assoc,
        signedSum_replicate (startsAtMost_replicate (by omega) (h.mono (by omega)) _), signedSum_replicate h, hhalf]
      have hk : (k : Int) = 5 * (k / 5 : Nat) + (k % 5 : Nat) := by omega
      rw [hk]
      push_cast
      ring

end Place

/-- **A number in places adds up to itself.** -/
theorem signedSum_inPlaces (n : Nat) : signedSum (inPlaces n) = n := by
  have hunits : StartsAtMost ten.value (spelling one five ten (n % 10) ++ []) :=
    startsAtMost_spelling rfl rfl (by simp [StartsAtMost]) _
  have htens : StartsAtMost hundred.value
      (spelling ten fifty hundred (n / 10 % 10) ++ (spelling one five ten (n % 10) ++ [])) :=
    startsAtMost_spelling rfl rfl hunits _
  have hhundreds : StartsAtMost thousand.value (spelling hundred fiveHundred thousand (n / 100 % 10) ++
      (spelling ten fifty hundred (n / 10 % 10) ++ (spelling one five ten (n % 10) ++ []))) :=
    startsAtMost_spelling rfl rfl htens _
  rw [inPlaces, ← List.append_nil (spelling one five ten (n % 10)), signedSum_replicate hhundreds,
    signedSum_spelling rfl rfl htens, signedSum_spelling rfl rfl hunits,
    signedSum_spelling rfl rfl (by simp [StartsAtMost])]
  simp only [Digit.value, signedSum]
  omega

/-! ## Texts in capital letters -/

/-- What stands between the blanks around a text, in capitals for ASCII letters. -/
def capitals (s : String) : String :=
  String.ofList ((Text.trim s.toList).map Char.toUpper)

/-- Characters spell a numeral if their capitals are its letters. -/
theorem ofChars?_eq_some_iff {cs : List Char} {ds : Numeral} :
    ofChars? cs = some ds ↔ cs.map Char.toUpper = ds.map Digit.letter := by
  induction cs generalizing ds with
  | nil =>
    show some [] = some ds ↔ _
    simp [eq_comm]
  | cons c cs ih =>
    have hcons : ofChars? (c :: cs) = (Digit.ofChar? c).bind fun a => (ofChars? cs).map (a :: ·) := by
      simp only [ofChars?, List.mapM_cons]
      cases Digit.ofChar? c with
      | none => rfl
      | some a => cases List.mapM Digit.ofChar? cs <;> rfl
    rw [hcons]
    simp only [Option.bind_eq_some_iff, Option.map_eq_some_iff, Digit.ofChar?_eq_some_iff, ih]
    constructor
    · rintro ⟨a, ha, as, has, rfl⟩
      simp [ha, has]
    · intro h
      cases ds with
      | nil => simp at h
      | cons a as =>
        obtain ⟨ha, has⟩ := List.cons.inj h
        exact ⟨a, ha, as, has, rfl⟩

theorem ofChars?_trim_eq_some_iff {s : String} {ds : Numeral} :
    ofChars? (Text.trim s.toList) = some ds ↔ capitals s = text ds := by
  rw [ofChars?_eq_some_iff, ← String.toList_inj, capitals, String.toList_ofList, toList_text]

theorem write?_eq_some_iff {n : Nat} {t : String} :
    write? n = some t ↔ (0 < n ∧ n ≤ largest) ∧ t = text (inPlaces n) := by
  rw [write?, Option.map_eq_some_iff]
  constructor
  · rintro ⟨ds, hds, rfl⟩
    obtain ⟨hn, rfl⟩ := ofNat?_eq_some_iff.mp hds
    exact ⟨hn, rfl⟩
  · rintro ⟨hn, rfl⟩
    exact ⟨inPlaces n, ofNat?_eq_some_iff.mpr ⟨hn, rfl⟩, rfl⟩

/-! ## Texts read -/

/-- Reading a text is valuing the numeral that its capitals are. -/
theorem read_eq (s : String) :
    read s = match (ofChars? (Text.trim s.toList)).bind value? with
      | some n => .ok n
      | none => .error (.notANumeral s) := by
  rw [read]
  cases hcs : Text.trim s.toList with
  | cons c cs => rfl
  | nil =>
    have hzero : value? [] = some 0 := value?_eq_some_iff.mpr (Or.inl ⟨rfl, rfl⟩)
    show Except.ok 0 = _
    rw [show ofChars? [] = some [] from rfl, Option.bind_some, hzero]

/-- **A text is read as a number** exactly if its capitals are the number in places. -/
theorem read_eq_ok_iff {s : String} {n : Nat} : read s = .ok n ↔ n ≤ largest ∧ capitals s = text (inPlaces n) := by
  have hvalue : (ofChars? (Text.trim s.toList)).bind value? = some n ↔
      n ≤ largest ∧ capitals s = text (inPlaces n) := by
    simp only [Option.bind_eq_some_iff, ofChars?_trim_eq_some_iff, value?_eq_some_iff_inPlaces]
    constructor
    · rintro ⟨ds, hds, hn, rfl⟩
      exact ⟨hn, hds⟩
    · rintro ⟨hn, hds⟩
      exact ⟨inPlaces n, hds, hn, rfl⟩
  rw [← hvalue, read_eq]
  cases (ofChars? (Text.trim s.toList)).bind value? <;> simp

theorem read_eq_ok_or (s : String) : (∃ n, read s = .ok n) ∨ read s = .error (.notANumeral s) := by
  rw [read_eq]
  cases (ofChars? (Text.trim s.toList)).bind value? with
  | none => exact Or.inr rfl
  | some n => exact Or.inl ⟨n, rfl⟩

theorem read_eq_zero_iff {s : String} : read s = .ok 0 ↔ capitals s = "" := by
  rw [read_eq_ok_iff, inPlaces_zero, text_nil]
  simp [largest]

theorem read_eq_ok_iff_write? {s : String} {n : Nat} (hn : 0 < n) :
    read s = .ok n ↔ n ≤ largest ∧ write? n = some (capitals s) := by
  rw [read_eq_ok_iff, write?_eq_some_iff]
  simp [hn]

/-- **All texts.** Blank ones are read as nothing. Any other text is read as the number of which its capitals are the
    numeral, and this number is the sum of the digits, those before a larger one taken off; a text whose capitals are no
    numeral is the fault, exactly as it was given. What the pattern admits is taken off completely, so nothing that it
    admits is refused. -/
theorem read_characterized (s : String) :
    (read s = .ok 0 ↔ capitals s = "") ∧
      (∀ n, 0 < n → (read s = .ok n ↔ n ≤ largest ∧ write? n = some (capitals s))) ∧
      (∀ n, read s = .ok n → ∃ ds, capitals s = text ds ∧ signedSum ds = n) ∧
      (∀ f, read s = .error f ↔ f = .notANumeral s ∧ capitals s ≠ "" ∧ ∀ n, write? n ≠ some (capitals s)) ∧
      ∀ ds, capitals s = text ds → shape.admits ds = true → ∃ n, consume groups ds = (n, []) ∧ read s = .ok n := by
  refine ⟨read_eq_zero_iff, fun n hn => read_eq_ok_iff_write? hn, ?_, ?_, ?_⟩
  · intro n h
    exact ⟨inPlaces n, (read_eq_ok_iff.mp h).2, signedSum_inPlaces n⟩
  · intro f
    constructor
    · intro h
      -- A text with a numeral would have been read as its number.
      refine ⟨?_, ?_, ?_⟩
      · rcases read_eq_ok_or s with ⟨n, hn⟩ | hf
        · simp [hn] at h
        · exact Except.error.inj (h.symm.trans hf)
      · intro hempty
        simp [read_eq_zero_iff.mpr hempty] at h
      · intro n hn
        obtain ⟨⟨hpos, hle⟩, -⟩ := write?_eq_some_iff.mp hn
        simp [(read_eq_ok_iff_write? hpos).mpr ⟨hle, hn⟩] at h
    · rintro ⟨rfl, hne, hno⟩
      rcases read_eq_ok_or s with ⟨n, hn⟩ | hf
      · rcases Nat.eq_zero_or_pos n with rfl | hpos
        · exact absurd (read_eq_zero_iff.mp hn) hne
        · exact absurd ((read_eq_ok_iff_write? hpos).mp hn).2 (hno n)
      · exact hf
  · intro ds hds hadmits
    obtain ⟨n, hn, rfl⟩ := matches_shape_iff.mp (Pattern.admits_iff.mp hadmits)
    exact ⟨n, consume_inPlaces n, read_eq_ok_iff.mpr ⟨hn, hds⟩⟩

/-- Blanks and small letters do not matter, but the order of the digits does. -/
theorem read_characterized_mixed :
    read "\tmcmXCiv\u00a0" = .ok 1994 ∧
      (∃ ds, capitals "\tmcmXCiv\u00a0" = text ds ∧ signedSum ds = 1994) ∧
      (∃ n, consume groups [thousand, hundred, thousand, ten, hundred, one, five] = (n, []) ∧
        read "\tmcmXCiv\u00a0" = .ok n) ∧
      ∀ n, write? n ≠ some (capitals " IIV") := by
  obtain ⟨-, hnumber, hsum, -, htaken⟩ := read_characterized "\tmcmXCiv\u00a0"
  obtain ⟨-, -, -, hfault, -⟩ := read_characterized " IIV"
  have hread : read "\tmcmXCiv\u00a0" = .ok 1994 :=
    (hnumber 1994 (by decide)).mpr ⟨by decide, by decide +kernel⟩
  exact ⟨hread, hsum 1994 hread, htaken _ (by decide +kernel) (by decide +kernel),
    ((hfault (.notANumeral " IIV")).mp (by decide +kernel)).2.2⟩

/-- The sum alone would take any order of digits. -/
example : signedSum [one, one, five] = 5 ∧ value? [one, one, five] = none := by decide +kernel

end TradeTalk.Numeral
