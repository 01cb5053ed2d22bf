import TradeTalk.Proofs.Request.Language

/-!
# `Proofs.Request.Exclusive` — the rules exclude each other

A line is read by the first rule that reads it, and yet the order of the rules says nothing: no line is read by two of
them. The rules for facts refuse what opens like a question, in any letter case, and the rules for questions read nothing
else; the two kinds of facts end differently, and the two kinds of questions open differently.

## Contents
- **`Sentence.countP_isSome_le_one`**, **`Sentence.findSome?_eq_of_perm`**: alternatives that exclude each other, counted and
  reordered.
- **`Request.ofLineBy`**: what a line asks for when the rules are tried in some order.
- **`Request.isFact_eq_false_of_isGuarded`**: what opens like a question states no fact.
- **`Request.ofLine_unordered`**: at most one rule reads a line, so the order does not matter.
-/

namespace TradeTalk

namespace Sentence

variable {α β : Type} {f : α → Option β} {rs order : List α}

/-- Of alternatives that exclude each other, one answers at most. -/
theorem countP_isSome_le_one (h : rs.Pairwise fun r r' => f r = none ∨ f r' = none) :
    rs.countP (fun r => (f r).isSome) ≤ 1 := by
  induction rs with
  | nil => exact Nat.zero_le 1
  | cons r rs ih =>
    obtain ⟨hr, hrs⟩ := List.pairwise_cons.mp h
    cases hf : f r with
    | none =>
      rw [List.countP_cons_of_neg (by simp [hf])]
      exact ih hrs
    | some b =>
      have hothers : rs.countP (fun r => (f r).isSome) = 0 := by
        rw [List.countP_eq_zero]
        intro q hq
        rcases hr q hq with hn | hn
        · rw [hf] at hn
          contradiction
        · simp [hn]
      rw [List.countP_cons_of_pos (by simp [hf]), hothers]

/-- And their order does not matter to the first that answers. -/
theorem findSome?_eq_of_perm (h : rs.Pairwise fun r r' => f r = none ∨ f r' = none) (hperm : order.Perm rs) :
    order.findSome? f = rs.findSome? f := by
  have horder : order.Pairwise fun r r' => f r = none ∨ f r' = none := hperm.symm.pairwise h fun hr => hr.symm
  apply Option.ext
  intro b
  rw [findSome?_eq_some_iff_of_pairwise horder, findSome?_eq_some_iff_of_pairwise h]
  exact exists_congr fun r => and_congr_left fun _ => hperm.mem_iff

end Sentence

namespace Request

open Sentence (rules openings)

/-- What a line asks for when the rules are tried in the given order. -/
def ofLineBy (order : List (List Char → Option Sentence)) (line : String) : Request :=
  ((order.findSome? fun rule => rule line.toList).bind ofSentence?).getD (.unknown line)

/-- What opens like a question states no fact. -/
theorem isFact_eq_false_of_isGuarded {line : String} (h : Sentence.isGuarded line.toList = true) :
    (ofLine line).isFact = false := by
  generalize hq : ofLine line = q
  cases q with
  | digitFact ws digit =>
    have hform : HasForm line (.digitFact ws digit) := hasForm_iff.mpr ⟨hq, by simp⟩
    rw [hform.1] at h
    contradiction
  | priceFact ws metal amount =>
    have hform : HasForm line (.priceFact ws metal amount) := hasForm_iff.mpr ⟨hq, by simp⟩
    rw [hform.1] at h
    contradiction
  | valueQuestion ws => rfl
  | priceQuestion ws metal => rfl
  | unknown raw => rfl

/-- **The forms of a line exclude each other.** At most one of the four rules reads a line, each tried by itself. So a line
    asks for the same whatever the order in which they are tried, and no line that opens like a question, in whatever
    letter case, is a fact. -/
theorem ofLine_unordered (line : String) :
    rules.countP (fun rule => (rule line.toList).isSome) ≤ 1 ∧
      (∀ order, order.Perm rules → ofLineBy order line = ofLine line) ∧
      ((∃ opening ∈ openings, opening.toList <+: line.toList.map Char.toLower) → (ofLine line).isFact = false) := by
  have hexclusive := Sentence.rules_exclusive line.toList
  refine ⟨Sentence.countP_isSome_le_one hexclusive, ?_, ?_⟩
  · intro order hperm
    rw [ofLineBy, Sentence.findSome?_eq_of_perm hexclusive hperm, ofLine_eq_getD]
    rfl
  · intro hopen
    exact isFact_eq_false_of_isGuarded (Sentence.isGuarded_iff.mpr hopen)

/-- A line that is neither kind of fact because it opens like a question, and none of the questions because of its letter
    case; with the rules in reverse. -/
theorem ofLine_unordered_shouted :
    rules.reverse.Perm rules ∧ ofLineBy rules.reverse "HOW MUCH is I" = ofLine "HOW MUCH is I" ∧
      (∃ opening ∈ openings, opening.toList <+: "HOW MUCH is I".toList.map Char.toLower) ∧
      (ofLine "HOW MUCH is I").isFact = false := by
  have hperm : rules.reverse.Perm rules := List.reverse_perm rules
  have hopen : ∃ opening ∈ openings, opening.toList <+: "HOW MUCH is I".toList.map Char.toLower := by decide
  obtain ⟨-, horder, hguard⟩ := ofLine_unordered "HOW MUCH is I"
  exact ⟨hperm, horder rules.reverse hperm, hopen, hguard hopen⟩

end Request

end TradeTalk
