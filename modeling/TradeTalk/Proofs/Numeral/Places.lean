import Mathlib.Data.List.Basic
import Mathlib.Tactic.IntervalCases
import Mathlib.Tactic.Ring
import TradeTalk.Numeral

/-!
# `Proofs.Numeral.Places` — numerals place by place

The pattern of well-formed numerals, the groups that are taken off and the groups that are written down go through the
same four places: thousands, hundreds, tens and units. `inPlaces` says that once: a numeral is the spellings of the
digits of a number, one after another. Everything else about numerals follows from comparing with it.

## Contents
- **`spelling`**: the ten spellings of a place; **`inPlaces`**: a number, place by place.
- **`matches_shape_iff`**: the well-formed numerals are the numbers up to 3999 in places.
- **`consume_inPlaces`**: taking the groups off a number in places gives the number and leaves nothing.
- **`spell_groups`**: writing a number with the groups puts it in places.
- **`value?_eq_some_iff`**: the digits that have a value are nothing and the numerals of the numbers from 1 to 3999.
- **`read_text`**: reading a numeral as text.
-/

namespace TradeTalk

namespace Pattern

variable {α : Type}

/-! ## Inversion of matches -/

theorem matches_nothing_iff {s : List α} : Matches .nothing s ↔ s = [] := by
  constructor
  · rintro ⟨⟩
    rfl
  · rintro rfl
    exact .nothing

theorem matches_symbol_iff {a : α} {s : List α} : Matches (.symbol a) s ↔ s = [a] := by
  constructor
  · rintro ⟨⟩
    rfl
  · rintro rfl
    exact .symbol a

theorem matches_andThen_iff {p q : Pattern α} {s : List α} :
    Matches (.andThen p q) s ↔ ∃ t u, Matches p t ∧ Matches q u ∧ s = t ++ u := by
  constructor
  · rintro ⟨⟩
    rename_i t u ht hu
    exact ⟨t, u, ht, hu, rfl⟩
  · rintro ⟨t, u, ht, hu, rfl⟩
    exact .andThen ht hu

theorem matches_orElse_iff {p q : Pattern α} {s : List α} :
    Matches (.orElse p q) s ↔ Matches p s ∨ Matches q s := by
  constructor
  · intro h
    cases h with
    | left h => exact Or.inl h
    | right h => exact Or.inr h
  · rintro (h | h)
    · exact .left h
    · exact .right h

theorem matches_text_iff {as s : List α} : Matches (text as) s ↔ s = as := by
  induction as generalizing s with
  | nil => exact matches_nothing_iff
  | cons a as ih =>
    show Matches (.andThen (.symbol a) (text as)) s ↔ s = a :: as
    simp only [matches_andThen_iff, matches_symbol_iff, ih]
    constructor
    · rintro ⟨t, u, rfl, rfl, rfl⟩
      rfl
    · rintro rfl
      exact ⟨[a], as, rfl, rfl, rfl⟩

/-- At most so many of one symbol. -/
theorem matches_upTo_symbol_iff {n : Nat} {a : α} {s : List α} :
    Matches (upTo n (.symbol a)) s ↔ ∃ k ≤ n, s = List.replicate k a := by
  induction n generalizing s with
  | zero =>
    simp only [upTo, matches_nothing_iff, Nat.le_zero]
    exact ⟨fun h => ⟨0, rfl, h⟩, fun ⟨_, hk, h⟩ => by rw [h, hk]; rfl⟩
  | succ n ih =>
    simp only [upTo, opt, matches_orElse_iff, matches_andThen_iff, matches_symbol_iff, matches_nothing_iff, ih]
    constructor
    · rintro (⟨t, u, rfl, ⟨k, hk, rfl⟩, rfl⟩ | rfl)
      · exact ⟨k + 1, by omega, rfl⟩
      · exact ⟨0, by omega, rfl⟩
    · rintro ⟨k, hk, rfl⟩
      cases k with
      | zero => exact Or.inr rfl
      | succ k => exact Or.inl ⟨[a], List.replicate k a, rfl, ⟨k, by omega, rfl⟩, rfl⟩

end Pattern

namespace Numeral

open Digit (one five ten fifty hundred fiveHundred thousand)
open Pattern

/-! ## The spellings of a place -/

/-- A decimal digit in some place: nine is one before the next place, four one before the half, and any other is the
    half, if it is at least five, and ones behind it. -/
def spelling (unit half next : Digit) (k : Nat) : Numeral :=
  if k = 9 then [unit, next]
  else if k = 4 then [unit, half]
  else List.replicate (k / 5) half ++ List.replicate (k % 5) unit

/-- A number, place by place. -/
def inPlaces (n : Nat) : Numeral :=
  List.replicate (n / 1000) thousand ++
    (spelling hundred fiveHundred thousand (n / 100 % 10) ++
      (spelling ten fifty hundred (n / 10 % 10) ++ spelling one five ten (n % 10)))

theorem matches_place_iff {unit half next : Digit} {ds : Numeral} :
    Matches (place unit half next) ds ↔ ∃ k < 10, ds = spelling unit half next k := by
  simp only [place, matches_orElse_iff, matches_text_iff, matches_andThen_iff, matches_upTo_symbol_iff]
  constructor
  · rintro (rfl | rfl | ⟨_, _, ⟨i, hi, rfl⟩, ⟨j, hj, rfl⟩, rfl⟩)
    · exact ⟨9, by omega, rfl⟩
    · exact ⟨4, by omega, rfl⟩
    · refine ⟨5 * i + j, by omega, ?_⟩
      have hdiv : (5 * i + j) / 5 = i := by omega
      have hmod : (5 * i + j) % 5 = j := by omega
      rw [spelling, if_neg (by omega), if_neg (by omega), hdiv, hmod]
  · rintro ⟨k, hk, rfl⟩
    unfold spelling
    split
    · exact Or.inl rfl
    · split
      · exact Or.inr (Or.inl rfl)
      · exact Or.inr (Or.inr ⟨_, _, ⟨k / 5, by omega, rfl⟩, ⟨k % 5, by omega, rfl⟩, rfl⟩)

/-- **The well-formed numerals are the numbers up to 3999 in places.** -/
theorem matches_shape_iff {ds : Numeral} : Matches shape ds ↔ ∃ n ≤ largest, ds = inPlaces n := by
  simp only [shape, matches_andThen_iff, matches_upTo_symbol_iff, matches_place_iff]
  constructor
  · rintro ⟨_, _, ⟨a, ha, rfl⟩, ⟨_, _, ⟨b, hb, rfl⟩, ⟨_, _, ⟨c, hc, rfl⟩, ⟨d, hd, rfl⟩, rfl⟩, rfl⟩, rfl⟩
    refine ⟨1000 * a + 100 * b + 10 * c + d, by simp only [largest]; omega, ?_⟩
    have h1 : (1000 * a + 100 * b + 10 * c + d) / 1000 = a := by omega
    have h2 : (1000 * a + 100 * b + 10 * c + d) / 100 % 10 = b := by omega
    have h3 : (1000 * a + 100 * b + 10 * c + d) / 10 % 10 = c := by omega
    have h4 : (1000 * a + 100 * b + 10 * c + d) % 10 = d := by omega
    rw [inPlaces, h1, h2, h3, h4]
  · rintro ⟨n, hn, rfl⟩
    simp only [largest] at hn
    exact ⟨_, _, ⟨n / 1000, by omega, rfl⟩, ⟨_, _, ⟨n / 100 % 10, by omega, rfl⟩,
      ⟨_, _, ⟨n / 10 % 10, by omega, rfl⟩, ⟨n % 10, by omega, rfl⟩, rfl⟩, rfl⟩, rfl⟩

/-! ## The groups of a place -/

/-- The groups of one place, in the order in which they are tried. -/
def placeGroups (unit half next : Digit) (value : Nat) : List DigitGroup :=
  [⟨[unit, next], 9 * value⟩, ⟨[half], 5 * value⟩, ⟨[unit, half], 4 * value⟩, ⟨[unit], value⟩]

theorem groups_eq :
    groups = ⟨[thousand], 1000⟩ :: (placeGroups hundred fiveHundred thousand 100 ++
      (placeGroups ten fifty hundred 10 ++ (placeGroups one five ten 1 ++ []))) := rfl

/-! ## Taking groups off -/

theorem strip_of_not_prefix {front : List Digit} {ds : Numeral} (h : ¬ front <+: ds) : strip front ds = (0, ds) := by
  rw [strip]
  split
  · rename_i rest hrest
    exact absurd ⟨rest, List.isPrefixOf?_eq_some_iff_append_eq.mp hrest⟩ h
  · rfl

theorem strip_append {front : List Digit} (hf : front ≠ []) (ds : Numeral) :
    strip front (front ++ ds) = ((strip front ds).1 + 1, (strip front ds).2) := by
  have hlen : ds.length < (front ++ ds).length := by
    have := List.length_pos_iff.mpr hf
    rw [List.length_append]
    omega
  rw [strip]
  split
  · rename_i rest hrest
    obtain rfl := List.append_cancel_left (List.isPrefixOf?_eq_some_iff_append_eq.mp hrest)
    rw [if_pos hlen]
  · rename_i hnone
    rw [List.isPrefixOf?_eq_some_iff_append_eq.mpr rfl] at hnone
    contradiction

theorem strip_of_head?_ne {a : Digit} {as : List Digit} {ds : Numeral} (h : ds.head? ≠ some a) :
    strip (a :: as) ds = (0, ds) := by
  refine strip_of_not_prefix fun hp => h ?_
  obtain ⟨rest, rfl⟩ := hp
  rfl

/-- A run of one digit is taken off whole. -/
theorem strip_replicate {a : Digit} {ds : Numeral} (h : ds.head? ≠ some a) (k : Nat) :
    strip [a] (List.replicate k a ++ ds) = (k, ds) := by
  induction k with
  | zero => exact strip_of_head?_ne h
  | succ k ih =>
    show strip [a] ([a] ++ (List.replicate k a ++ ds)) = _
    rw [strip_append (by simp), ih]

/-- A pair is not in front of a run of its first digit, if nothing of it is behind the run. -/
theorem strip_pair_replicate {a b : Digit} {ds : Numeral} (hab : a ≠ b) (ha : ds.head? ≠ some a)
    (hb : ds.head? ≠ some b) (k : Nat) :
    strip [a, b] (List.replicate k a ++ ds) = (0, List.replicate k a ++ ds) := by
  match k with
  | 0 => exact strip_of_head?_ne ha
  | 1 =>
    refine strip_of_not_prefix fun hp => hb ?_
    obtain ⟨rest, hrest⟩ := hp
    have htail : b :: rest = ds := (List.cons.inj hrest).2
    rw [← htail]
    rfl
  | k + 2 =>
    refine strip_of_not_prefix fun hp => hab ?_
    obtain ⟨rest, hrest⟩ := hp
    have htail := (List.cons.inj hrest).2
    exact (List.cons.inj htail).1.symm

/-- What follows a place does not start with a digit of that place. -/
def StartsLower (unit half next : Digit) (ds : Numeral) : Prop :=
  ds.head? ≠ some unit ∧ ds.head? ≠ some half ∧ ds.head? ≠ some next

/-- **The groups of a place take its spelling off**, and the value of the spelling is that of the digit. -/
theorem consume_place {unit half next : Digit} (huh : unit ≠ half) (hun : unit ≠ next) (hhn : half ≠ next)
    {rest : Numeral} (hrest : StartsLower unit half next rest) (k value : Nat) (gs : List DigitGroup) :
    consume (placeGroups unit half next value ++ gs) (spelling unit half next k ++ rest) =
      (k * value + (consume gs rest).1, (consume gs rest).2) := by
  obtain ⟨hru, hrh, hrn⟩ := hrest
  simp only [placeGroups, List.cons_append, List.nil_append, consume]
  by_cases h9 : k = 9
  · have h1 : strip [unit, next] ([unit, next] ++ rest) = (1, rest) := by
      rw [strip_append (by simp), strip_of_head?_ne hru]
    rw [spelling, if_pos h9, h1, strip_of_head?_ne hrh, strip_of_head?_ne hru, strip_of_head?_ne hru, h9]
    simp only [Prod.mk.injEq, and_true]
    omega
  · by_cases h4 : k = 4
    · have h1 : strip [unit, next] ([unit, half] ++ rest) = (0, [unit, half] ++ rest) := by
        apply strip_of_not_prefix
        intro hp
        simp only [List.cons_append, List.cons_prefix_cons] at hp
        exact hhn hp.2.1.symm
      have h2 : strip [half] ([unit, half] ++ rest) = (0, [unit, half] ++ rest) :=
        strip_of_head?_ne (by simpa using huh)
      have h3 : strip [unit, half] ([unit, half] ++ rest) = (1, rest) := by
        rw [strip_append (by simp), strip_of_head?_ne hru]
      rw [spelling, if_neg h9, if_pos h4, h1, h2, h3, strip_of_head?_ne hru, h4]
      simp only [Prod.mk.injEq, and_true]
      omega
    · -- At most one half, and then ones.
      have hones : (List.replicate (k % 5) unit ++ rest).head? ≠ some half := by
        cases k % 5 with
        | zero => exact hrh
        | succ j => simpa [List.replicate_succ] using huh
      have h1 : strip [unit, next] (List.replicate (k / 5) half ++ (List.replicate (k % 5) unit ++ rest)) =
          (0, List.replicate (k / 5) half ++ (List.replicate (k % 5) unit ++ rest)) := by
        cases k / 5 with
        | zero => exact strip_pair_replicate hun hru hrn (k % 5)
        | succ i => exact strip_of_head?_ne (by simpa [List.replicate_succ] using huh.symm)
      rw [spelling, if_neg h9, if_neg h4, List.append_assoc, h1, strip_replicate hones,
        strip_pair_replicate huh hru hrh, strip_replicate hru]
      have hdiv : k * value = (5 * (k / 5) + k % 5) * value := by rw [Nat.div_add_mod]
      rw [hdiv]
      simp only [Prod.mk.injEq, and_true]
      ring

/-- A spelling starts with a one or a half, unless it is empty. -/
theorem head?_spelling_ne {unit half next a : Digit} {ds : Numeral} (hu : unit ≠ a) (hh : half ≠ a)
    (hds : ds.head? ≠ some a) (k : Nat) : (spelling unit half next k ++ ds).head? ≠ some a := by
  unfold spelling
  split
  · simpa using hu
  · split
    · simpa using hu
    · cases k / 5 with
      | succ i => simpa [List.replicate_succ] using hh
      | zero =>
        cases k % 5 with
        | succ j => simpa [List.replicate_succ] using hu
        | zero => exact hds

/-- **Taking the groups off a number in places gives the number** and leaves nothing. -/
theorem consume_inPlaces (n : Nat) : consume groups (inPlaces n) = (n, []) := by
  have hnil (a : Digit) : ([] : Numeral).head? ≠ some a := by simp
  have hunits (a : Digit) (h1 : one ≠ a) (h5 : five ≠ a) :
      (spelling one five ten (n % 10) ++ []).head? ≠ some a :=
    head?_spelling_ne h1 h5 (hnil a) _
  have htens (a : Digit) (h1 : one ≠ a) (h5 : five ≠ a) (h10 : ten ≠ a) (h50 : fifty ≠ a) :
      (spelling ten fifty hundred (n / 10 % 10) ++ (spelling one five ten (n % 10) ++ [])).head? ≠ some a :=
    head?_spelling_ne h10 h50 (hunits a h1 h5) _
  have hthousand : (spelling hundred fiveHundred thousand (n / 100 % 10) ++
      (spelling ten fifty hundred (n / 10 % 10) ++ (spelling one five ten (n % 10) ++ []))).head? ≠ some thousand :=
    head?_spelling_ne (by decide) (by decide) (htens _ (by decide) (by decide) (by decide) (by decide)) _
  rw [inPlaces, ← List.append_nil (spelling one five ten (n % 10)), groups_eq, consume, strip_replicate hthousand]
  simp only
  rw [consume_place (by decide) (by decide) (by decide)
      ⟨htens _ (by decide) (by decide) (by decide) (by decide), htens _ (by decide) (by decide) (by decide) (by decide),
        htens _ (by decide) (by decide) (by decide) (by decide)⟩,
    consume_place (by decide) (by decide) (by decide)
      ⟨hunits _ (by decide) (by decide), hunits _ (by decide) (by decide), hunits _ (by decide) (by decide)⟩,
    consume_place (by decide) (by decide) (by decide) ⟨hnil _, hnil _, hnil _⟩]
  simp only [consume, Prod.mk.injEq, and_true]
  omega

/-! ## Writing groups down -/

/-- The groups of a place write the spelling of its digit down, and leave what is below the place. -/
theorem spell_place {unit half next : Digit} {value k r : Nat} (hk : k < 10) (hr : r < value)
    (gs : List DigitGroup) :
    spell (placeGroups unit half next value ++ gs) (k * value + r) = spelling unit half next k ++ spell gs r := by
  have hdiv1 (j : Nat) : (j * value + r) / value = j := by
    rw [Nat.mul_comm, Nat.mul_add_div (by omega), Nat.div_eq_of_lt hr, Nat.add_zero]
  have hmod1 (j : Nat) : (j * value + r) % value = r := by
    rw [Nat.mul_add_mod_self_right, Nat.mod_eq_of_lt hr]
  have hdiv (c j : Nat) : (j * value + r) / (c * value) = j / c := by
    rw [Nat.mul_comm c, ← Nat.div_div_eq_div_mul, hdiv1]
  have hmod (c j : Nat) : (j * value + r) % (c * value) = j % c * value + r := by
    rw [Nat.mul_comm c, Nat.mod_mul, hdiv1, hmod1, Nat.mul_comm value, Nat.add_comm]
  simp only [placeGroups, List.cons_append, List.nil_append, spell, hdiv, hmod, hdiv1, hmod1]
  rw [← List.append_assoc, ← List.append_assoc, ← List.append_assoc]
  congr 1
  interval_cases k <;> rfl

/-- **Writing a number with the groups puts it in places.** -/
theorem spell_groups (n : Nat) : spell groups n = inPlaces n := by
  have h1000 : n % 1000 = n / 100 % 10 * 100 + n % 100 := by omega
  have h100 : n % 100 = n / 10 % 10 * 10 + n % 10 := by omega
  have h10 : n % 10 = n % 10 * 1 + 0 := by omega
  have hflat : (List.replicate (n / 1000) [thousand]).flatten = List.replicate (n / 1000) thousand := by
    generalize n / 1000 = a
    induction a with
    | zero => rfl
    | succ a ih => rw [List.replicate_succ, List.flatten_cons, ih]; rfl
  rw [groups_eq, spell, hflat, h1000, spell_place (by omega) (by omega), h100, spell_place (by omega) (by omega)]
  conv_lhs => rw [h10, spell_place (by omega) (by omega)]
  rw [spell, List.append_nil, inPlaces]

/-! ## Values -/

theorem inPlaces_zero : inPlaces 0 = [] := by decide

theorem value?_inPlaces {n : Nat} (h : n ≤ largest) : value? (inPlaces n) = some n := by
  have hadmits : shape.admits (inPlaces n) = true := Pattern.admits_iff.mpr (matches_shape_iff.mpr ⟨n, h, rfl⟩)
  rw [value?, if_pos hadmits, consume_inPlaces]

/-- The digits that have a value are the numbers up to 3999 in places. -/
theorem value?_eq_some_iff_inPlaces {ds : Numeral} {n : Nat} :
    value? ds = some n ↔ n ≤ largest ∧ ds = inPlaces n := by
  constructor
  · intro h
    by_cases hadmits : shape.admits ds = true
    · obtain ⟨m, hm, rfl⟩ := matches_shape_iff.mp (Pattern.admits_iff.mp hadmits)
      rw [value?_inPlaces hm] at h
      injection h with h
      subst h
      exact ⟨hm, rfl⟩
    · rw [value?, if_neg hadmits] at h
      contradiction
  · rintro ⟨hn, rfl⟩
    exact value?_inPlaces hn

/-- The well-formed numerals are the digits that have a value. -/
theorem matches_shape_iff_value? {ds : Numeral} : Matches shape ds ↔ ∃ n, value? ds = some n := by
  simp only [matches_shape_iff, value?_eq_some_iff_inPlaces]

theorem ofNat?_eq_some_iff {ds : Numeral} {n : Nat} :
    ofNat? n = some ds ↔ (0 < n ∧ n ≤ largest) ∧ ds = inPlaces n := by
  rw [ofNat?, Option.ite_none_right_eq_some, spell_groups, Option.some.injEq, eq_comm (a := ds)]

/-- **The digits that have a value** are none at all, which is worth nothing, and the numerals of the numbers from 1 to
    3999. -/
theorem value?_eq_some_iff {ds : Numeral} {n : Nat} :
    value? ds = some n ↔ ds = [] ∧ n = 0 ∨ ofNat? n = some ds := by
  rw [value?_eq_some_iff_inPlaces, ofNat?_eq_some_iff]
  rcases Nat.eq_zero_or_pos n with rfl | hn
  · simp [inPlaces_zero]
  · simp [hn, Nat.pos_iff_ne_zero.mp hn]

/-! ## Texts -/

theorem dropWhile_letters (ds : Numeral) : (ds.map Digit.letter).dropWhile Text.isBlank = ds.map Digit.letter := by
  cases ds with
  | nil => rfl
  | cons a ds => rw [List.map_cons, List.dropWhile_cons, if_neg (by simp [isBlank_letter])]

theorem trim_letters (ds : Numeral) : Text.trim (ds.map Digit.letter) = ds.map Digit.letter := by
  rw [Text.trim, Text.trimLeft, dropWhile_letters, Text.trimRight, ← List.map_reverse, dropWhile_letters,
    List.map_reverse, List.reverse_reverse]

/-- **Reading a numeral as text.** -/
theorem read_text (ds : Numeral) :
    read (text ds) = match value? ds with
      | some n => .ok n
      | none => .error (.notANumeral (text ds)) := by
  rw [read, toList_text, trim_letters]
  cases ds with
  | nil =>
    have hzero : value? [] = some 0 := value?_eq_some_iff.mpr (Or.inl ⟨rfl, rfl⟩)
    rw [hzero]
    rfl
  | cons a ds =>
    have hread := ofChars?_letters (a :: ds)
    rw [List.map_cons] at hread ⊢
    cases hv : value? (a :: ds) <;> simp [hread, hv]

end Numeral

end TradeTalk
