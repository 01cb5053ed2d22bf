/-!
# `TradeTalk.Numeral.Pattern` — finite patterns and what they match

A pattern is built from single symbols by putting one after another and by choosing between two. Matching is
executable: `Pattern.rests` lists what every possible match leaves of a sequence, so nothing is lost to an early
choice.

## Contents
- **`Pattern`**: nothing, one symbol, a sequence, a choice; `opt`, `upTo` and `text` are built from these.
- **`Pattern.Matches`**: the sequences that a pattern describes.
- **`Pattern.admits`**: the decision; `admits_iff` says that it decides `Matches`.
-/

namespace TradeTalk

/-- A pattern over sequences of symbols. -/
inductive Pattern (α : Type) where
  /-- The empty sequence. -/
  | nothing
  /-- One symbol. -/
  | symbol (a : α)
  /-- One pattern and then another. -/
  | andThen (p q : Pattern α)
  /-- One pattern or another. -/
  | orElse (p q : Pattern α)
  deriving Repr

namespace Pattern

variable {α : Type}

/-- A pattern or nothing. -/
def opt (p : Pattern α) : Pattern α :=
  .orElse p .nothing

/-- At most `n` repetitions of a pattern. -/
def upTo : Nat → Pattern α → Pattern α
  | 0, _ => .nothing
  | n + 1, p => opt (.andThen p (upTo n p))

/-- The symbols of a list, one after another. -/
def text (as : List α) : Pattern α :=
  as.foldr (fun a p => .andThen (.symbol a) p) .nothing

/-- The sequences that a pattern describes. -/
inductive Matches : Pattern α → List α → Prop where
  | nothing : Matches .nothing []
  | symbol (a : α) : Matches (.symbol a) [a]
  | andThen {p q : Pattern α} {s t : List α} :
      Matches p s → Matches q t → Matches (.andThen p q) (s ++ t)
  | left {p q : Pattern α} {s : List α} : Matches p s → Matches (.orElse p q) s
  | right {p q : Pattern α} {s : List α} : Matches q s → Matches (.orElse p q) s

variable [DecidableEq α]

/-- What is left of a sequence after each way in which a pattern matches the front of it. -/
def rests : Pattern α → List α → List (List α)
  | .nothing, s => [s]
  | .symbol _, [] => []
  | .symbol a, b :: s => if a = b then [s] else []
  | .andThen p q, s => (p.rests s).flatMap q.rests
  | .orElse p q, s => p.rests s ++ q.rests s

/-- Whether a pattern matches a whole sequence. -/
def admits (p : Pattern α) (s : List α) : Bool :=
  (p.rests s).any List.isEmpty

/-! ## The decision decides -/

theorem mem_rests {p : Pattern α} {s r : List α} :
    r ∈ p.rests s ↔ ∃ t, Matches p t ∧ s = t ++ r := by
  induction p generalizing s r with
  | nothing =>
    simp only [rests, List.mem_singleton]
    constructor
    · rintro rfl
      exact ⟨[], .nothing, rfl⟩
    · rintro ⟨t, ht, rfl⟩
      cases ht
      rfl
  | symbol a =>
    cases s with
    | nil =>
      simp only [rests, List.not_mem_nil, false_iff]
      rintro ⟨t, ht, he⟩
      cases ht
      simp at he
    | cons b s =>
      by_cases hab : a = b
      · subst hab
        simp only [rests, ↓reduceIte, List.mem_singleton]
        constructor
        · rintro rfl
          exact ⟨[a], .symbol a, rfl⟩
        · rintro ⟨t, ht, he⟩
          cases ht
          simpa using he.symm
      · simp only [rests, hab, ↓reduceIte, List.not_mem_nil, false_iff]
        rintro ⟨t, ht, he⟩
        cases ht
        simp only [List.cons_append, List.nil_append, List.cons.injEq] at he
        exact hab he.1.symm
  | andThen p q ihp ihq =>
    simp only [rests, List.mem_flatMap, ihp, ihq]
    constructor
    · rintro ⟨m, ⟨t, ht, rfl⟩, u, hu, rfl⟩
      exact ⟨t ++ u, .andThen ht hu, by simp⟩
    · rintro ⟨t, ht, rfl⟩
      cases ht with
      | andThen hs hu => exact ⟨_, ⟨_, hs, by simp⟩, _, hu, rfl⟩
  | orElse p q ihp ihq =>
    simp only [rests, List.mem_append, ihp, ihq]
    constructor
    · rintro (⟨t, ht, he⟩ | ⟨t, ht, he⟩)
      · exact ⟨t, .left ht, he⟩
      · exact ⟨t, .right ht, he⟩
    · rintro ⟨t, ht, he⟩
      cases ht with
      | left h => exact .inl ⟨t, h, he⟩
      | right h => exact .inr ⟨t, h, he⟩

/-- **The executable match is the described one.** -/
theorem admits_iff {p : Pattern α} {s : List α} : p.admits s = true ↔ Matches p s := by
  simp only [admits, List.any_eq_true, List.isEmpty_iff]
  constructor
  · rintro ⟨r, hr, rfl⟩
    obtain ⟨t, ht, rfl⟩ := mem_rests.mp hr
    simpa using ht
  · exact fun h => ⟨[], mem_rests.mpr ⟨s, h, by simp⟩, rfl⟩

end Pattern

end TradeTalk
