import TradeTalk.Text.Pieces

/-!
# `Proofs.Text.Joining` — the pieces of a text put together from parts

`Text.pieces` and `Text.join` undo each other on pieces without spaces. The rules of `Sentence` cut a line once and
then speak about runs of its pieces, so what they read is a statement about `join` of a list put together from two.

## Contents
- **`pieces_eq_iff`**: cutting a text gives some pieces exactly if joining them gives the text.
- **`mem_join`**, **`map_join`**: the characters of joined pieces.
- **`join_append`**, **`join_concat_append`**: two runs joined at once, and a text that goes on in the last piece.
- **`pieces_eq_append_iff`**: a cut text whose first pieces are known.
-/

namespace TradeTalk.Text

/-- **Cutting a text gives some pieces exactly if they are pieces and join to the text.** -/
theorem pieces_eq_iff {cs : List Char} {ps : List (List Char)} :
    pieces cs = ps ↔ (ps ≠ [] ∧ ∀ p ∈ ps, ' ' ∉ p) ∧ cs = join ps := by
  constructor
  · rintro rfl
    exact ⟨⟨pieces_ne_nil cs, fun p hp => space_notMem_of_mem_pieces hp⟩, (join_pieces cs).symm⟩
  · rintro ⟨⟨hne, hps⟩, rfl⟩
    exact pieces_join hne hps

theorem join_append {ps qs : List (List Char)} (hp : ps ≠ []) (hq : qs ≠ []) :
    join (ps ++ qs) = join ps ++ ' ' :: join qs := by
  induction ps with
  | nil => contradiction
  | cons p ps ih =>
    cases ps with
    | nil => exact join_cons hq
    | cons r rs =>
      have hne : r :: rs ≠ [] := by simp
      rw [List.cons_append, join_cons (List.append_ne_nil_of_left_ne_nil hne qs), ih hne, join_cons hne,
        List.append_assoc]
      rfl

/-- A text goes on in its last piece. -/
theorem join_concat_append (ps : List (List Char)) (p q : List Char) :
    join (ps ++ [p ++ q]) = join (ps ++ [p]) ++ q := by
  cases ps with
  | nil => rfl
  | cons r rs =>
    have hne : r :: rs ≠ [] := by simp
    rw [join_append hne (by simp), join_append hne (by simp), List.append_assoc]
    rfl

theorem mem_join {ps : List (List Char)} {c : Char} (h : c ∈ join ps) : c = ' ' ∨ ∃ p ∈ ps, c ∈ p := by
  induction ps with
  | nil => contradiction
  | cons p ps ih =>
    cases ps with
    | nil => exact Or.inr ⟨p, List.mem_cons_self, h⟩
    | cons q ps =>
      rw [join_cons (by simp), List.mem_append, List.mem_cons] at h
      rcases h with hp | rfl | hrest
      · exact Or.inr ⟨p, List.mem_cons_self, hp⟩
      · exact Or.inl rfl
      · rcases ih hrest with rfl | ⟨r, hr, hc⟩
        · exact Or.inl rfl
        · exact Or.inr ⟨r, List.mem_cons_of_mem p hr, hc⟩

/-- Characters are exchanged in the joined text as in the pieces, if spaces stay spaces. -/
theorem map_join {f : Char → Char} (hspace : f ' ' = ' ') (ps : List (List Char)) :
    (join ps).map f = join (ps.map (List.map f)) := by
  induction ps with
  | nil => rfl
  | cons p ps ih =>
    cases ps with
    | nil => rfl
    | cons q ps =>
      have hne : q :: ps ≠ [] := by simp
      rw [join_cons hne, List.map_append, List.map_cons, hspace, ih]
      rfl

/-- **A cut text whose first pieces are known**: it starts with them, joined, and a space, and the other pieces are
    those of what follows. -/
theorem pieces_eq_append_iff {cs : List Char} {ps qs : List (List Char)} (hp : ps ≠ [])
    (hps : ∀ p ∈ ps, ' ' ∉ p) (hq : qs ≠ []) :
    pieces cs = ps ++ qs ↔ ∃ rest, cs = join ps ++ ' ' :: rest ∧ pieces rest = qs := by
  constructor
  · intro h
    obtain ⟨⟨_, hall⟩, rfl⟩ := pieces_eq_iff.mp h
    exact ⟨join qs, join_append hp hq, pieces_join hq fun q hm => hall q (List.mem_append_right ps hm)⟩
  · rintro ⟨rest, rfl, hrest⟩
    obtain ⟨⟨_, hqs⟩, rfl⟩ := pieces_eq_iff.mp hrest
    rw [← join_append hp hq]
    apply pieces_join (by simp [hp])
    intro p hm
    rcases List.mem_append.mp hm with hm | hm
    · exact hps p hm
    · exact hqs p hm

end TradeTalk.Text
