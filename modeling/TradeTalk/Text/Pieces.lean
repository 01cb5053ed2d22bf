/-!
# `TradeTalk.Text.Pieces` — texts cut at single spaces

## Contents
- **`pieces`**: the stretches of a text between its spaces, empty ones included; never none at all.
- **`join`**: pieces put together again, with one space between each two.
- **`join_pieces`**, **`pieces_join`**: each undoes the other.
-/

namespace TradeTalk.Text

/-- Puts one more character in front of a text that is cut already. -/
def addFront (c : Char) (ps : List (List Char)) : List (List Char) :=
  if c = ' ' then [] :: ps
  else
    match ps with
    | [] => [[c]]
    | p :: ps => (c :: p) :: ps

/-- The stretches of a text between its spaces. -/
def pieces (cs : List Char) : List (List Char) :=
  cs.foldr addFront [[]]

/-- Pieces with one space between each two. -/
def join : List (List Char) → List Char
  | [] => []
  | [p] => p
  | p :: q :: ps => p ++ ' ' :: join (q :: ps)

/-! ## Small laws -/

@[simp] theorem pieces_nil : pieces [] = [[]] := rfl

@[simp] theorem pieces_cons (c : Char) (cs : List Char) : pieces (c :: cs) = addFront c (pieces cs) := rfl

theorem pieces_ne_nil (cs : List Char) : pieces cs ≠ [] := by
  cases cs with
  | nil => simp
  | cons c cs =>
    simp only [pieces_cons, addFront]
    split
    · simp
    · split <;> simp

theorem join_cons {p : List Char} {ps : List (List Char)} (h : ps ≠ []) :
    join (p :: ps) = p ++ ' ' :: join ps := by
  cases ps with
  | nil => contradiction
  | cons q ps => rfl

/-- **Joining the pieces of a text gives the text.** -/
theorem join_pieces (cs : List Char) : join (pieces cs) = cs := by
  induction cs with
  | nil => rfl
  | cons c cs ih =>
    have hne := pieces_ne_nil cs
    simp only [pieces_cons, addFront]
    split
    · rename_i hc
      rw [join_cons hne, ih, hc]
      rfl
    · cases hp : pieces cs with
      | nil => exact absurd hp hne
      | cons p ps =>
        rw [hp] at ih
        cases ps with
        | nil =>
          simp only [join] at ih ⊢
          rw [ih]
        | cons q ps =>
          rw [join_cons (by simp)] at ih ⊢
          rw [List.cons_append, ih]

/-- A piece holds no space. -/
theorem space_notMem_of_mem_pieces {cs p : List Char} (h : p ∈ pieces cs) : ' ' ∉ p := by
  induction cs generalizing p with
  | nil => simp_all
  | cons c cs ih =>
    simp only [pieces_cons, addFront] at h
    split at h
    · rcases List.mem_cons.mp h with rfl | h
      · simp
      · exact ih h
    · rename_i hc
      split at h
      · simp only [List.mem_singleton] at h
        subst h
        simpa using Ne.symm hc
      · rename_i q qs hq
        rcases List.mem_cons.mp h with rfl | h
        · intro hm
          rcases List.mem_cons.mp hm with he | hm
          · exact hc he.symm
          · exact ih (hq ▸ List.mem_cons_self) hm
        · exact ih (hq ▸ List.mem_cons_of_mem _ h)

theorem pieces_append_space {p cs : List Char} (hp : ' ' ∉ p) :
    pieces (p ++ ' ' :: cs) = p :: pieces cs := by
  induction p with
  | nil => simp [addFront]
  | cons c p ih =>
    simp only [List.mem_cons, not_or] at hp
    rw [List.cons_append, pieces_cons, ih hp.2, addFront, if_neg (Ne.symm hp.1)]

theorem pieces_of_notMem {p : List Char} (hp : ' ' ∉ p) : pieces p = [p] := by
  induction p with
  | nil => rfl
  | cons c p ih =>
    simp only [List.mem_cons, not_or] at hp
    rw [pieces_cons, ih hp.2, addFront, if_neg (Ne.symm hp.1)]

/-- **Cutting joined pieces gives the pieces**, if there are any and none holds a space. -/
theorem pieces_join {ps : List (List Char)} (hne : ps ≠ []) (hps : ∀ p ∈ ps, ' ' ∉ p) :
    pieces (join ps) = ps := by
  induction ps with
  | nil => contradiction
  | cons p ps ih =>
    cases ps with
    | nil => exact pieces_of_notMem (hps p List.mem_cons_self)
    | cons q qs =>
      rw [join_cons (by simp), pieces_append_space (hps p List.mem_cons_self),
        ih (by simp) fun r hr => hps r (List.mem_cons_of_mem _ hr)]

end TradeTalk.Text
