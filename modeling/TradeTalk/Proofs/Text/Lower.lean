import TradeTalk.Phrase
import TradeTalk.Text.Fold

/-!
# `Proofs.Text.Lower` — names in ASCII letters

The names in a line are ASCII, and for these the key of a name is its spelling with small letters for capitals.

## Contents
- **`IsAscii`**, **`lower`**: names in ASCII characters, and a name in small letters.
- **`key_of_isAscii`**: an ASCII name is filed under its small letters.
- **`isAscii_of_isWord`**: words are ASCII.
- **`isWord_lower`**, **`key_lower`**: a word in small letters is a word, and filed under itself.
-/

namespace TradeTalk.Text

/-- A name in ASCII characters. -/
def IsAscii (name : String) : Prop :=
  ∀ c ∈ name.toList, c.toNat < 128

/-- A name with small letters for ASCII capitals. -/
def lower (name : String) : String :=
  String.ofList (name.toList.map Char.toLower)

/-- **An ASCII name is filed under its small letters.** -/
theorem key_of_isAscii {name : String} (h : IsAscii name) : key name = lower name := by
  rw [key, fold_of_ascii h, lower]

theorem toNat_lt_of_isWordChar {c : Char} (h : isWordChar c = true) : c.toNat < 128 := by
  have hcases : (('A'.val ≤ c.val ∧ c.val ≤ 'Z'.val) ∨ ('a'.val ≤ c.val ∧ c.val ≤ 'z'.val)) ∨
      ('0'.val ≤ c.val ∧ c.val ≤ '9'.val) ∨ c = '_' := by
    change (((decide ('A'.val ≤ c.val ∧ c.val ≤ 'Z'.val) || (decide ('a'.val ≤ c.val) && decide (c.val ≤ 'z'.val))) ||
      (decide ('0'.val ≤ c.val) && decide (c.val ≤ '9'.val))) || c == '_') = true at h
    simpa only [Bool.or_eq_true, Bool.and_eq_true, decide_eq_true_eq, beq_iff_eq, or_assoc] using h
  rcases hcases with (h | h) | h | rfl
  · exact Nat.lt_of_le_of_lt (UInt32.le_iff_toNat_le.mp h.2) (by decide)
  · exact Nat.lt_of_le_of_lt (UInt32.le_iff_toNat_le.mp h.2) (by decide)
  · exact Nat.lt_of_le_of_lt (UInt32.le_iff_toNat_le.mp h.2) (by decide)
  · decide

/-- Words are ASCII. -/
theorem isAscii_of_isWord {name : String} (h : isWord name.toList = true) : IsAscii name := by
  simp only [isWord, Bool.and_eq_true, List.all_eq_true] at h
  exact fun c hc => toNat_lt_of_isWordChar (h.2 c hc)

/-! ## Words in small letters -/

theorem toList_lower (name : String) : (lower name).toList = name.toList.map Char.toLower := String.toList_ofList

/-- What holds of all ASCII characters, by their code points. -/
theorem forall_ascii {p : Char → Prop} (h : ∀ n < 128, p (Char.ofNat n)) {c : Char} (hc : c.toNat < 128) : p c := by
  have hp := h c.toNat hc
  rwa [Char.ofNat_toNat] at hp

/-- So it holds of the characters that words are made of. -/
theorem forall_isWordChar {p : Char → Prop} (h : ∀ n < 128, p (Char.ofNat n)) {c : Char} (hc : isWordChar c = true) :
    p c :=
  forall_ascii h (toNat_lt_of_isWordChar hc)

theorem isWordChar_toLower {c : Char} (h : isWordChar c = true) : isWordChar c.toLower = true :=
  forall_isWordChar (p := fun c => isWordChar c = true → isWordChar c.toLower = true) (by decide) h h

theorem toLower_toLower {c : Char} (h : isWordChar c = true) : c.toLower.toLower = c.toLower :=
  forall_isWordChar (p := fun c => c.toLower.toLower = c.toLower) (by decide) h

/-- A word in small letters is a word, -/
theorem isWord_lower {name : String} (h : isWord name.toList = true) : isWord (lower name).toList = true := by
  simp only [isWord, Bool.and_eq_true, Bool.not_eq_true', List.isEmpty_eq_false_iff, List.all_eq_true] at h ⊢
  rw [toList_lower]
  constructor
  · simpa using h.1
  · intro c hc
    obtain ⟨d, hd, rfl⟩ := List.mem_map.mp hc
    exact isWordChar_toLower (h.2 d hd)

/-- and it is filed under itself. -/
theorem key_lower {name : String} (h : isWord name.toList = true) : key (lower name) = lower name := by
  have hlower : ∀ c ∈ name.toList, c.toLower.toLower = c.toLower := by
    simp only [isWord, Bool.and_eq_true, List.all_eq_true] at h
    exact fun c hc => toLower_toLower (h.2 c hc)
  rw [key_of_isAscii (isAscii_of_isWord (isWord_lower h)), ← String.toList_inj]
  simp only [toList_lower, List.map_map]
  exact List.map_congr_left hlower

end TradeTalk.Text
