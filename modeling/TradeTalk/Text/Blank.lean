import TradeTalk.Text.Ranges

/-!
# `TradeTalk.Text.Blank` — blank characters and trimming

A character is *blank* when it has the Unicode property `White_Space`: twenty-five characters, among them the
no-break spaces and the line separators, but neither the zero-width space nor the byte order mark.

## Contents
- **`isBlank`**: the property; `blankRanges` lists it.
- **`trim`**: a text without the blanks around it, and its small laws.
- **`allBlank`**: a text of blanks only, which is one that trims to nothing.
-/

namespace TradeTalk.Text

/-- The code points with the property `White_Space`, as inclusive ranges in ascending order. -/
def blankRanges : Ranges :=
  [(0x09, 0x0D), (0x20, 0x20), (0x85, 0x85), (0xA0, 0xA0), (0x1680, 0x1680), (0x2000, 0x200A),
   (0x2028, 0x2029), (0x202F, 0x202F), (0x205F, 0x205F), (0x3000, 0x3000)]

/-- Whether a character is white space in the sense of Unicode. -/
def isBlank (c : Char) : Bool :=
  blankRanges.has c

/-- The text without its leading blanks. -/
def trimLeft (cs : List Char) : List Char :=
  cs.dropWhile isBlank

/-- The text without its trailing blanks. -/
def trimRight (cs : List Char) : List Char :=
  (cs.reverse.dropWhile isBlank).reverse

/-- The text without the blanks on either side of it. -/
def trim (cs : List Char) : List Char :=
  trimRight (trimLeft cs)

/-- Whether a text holds nothing but blanks. -/
def allBlank (cs : List Char) : Bool :=
  cs.all isBlank

/-! ## Small laws -/

@[simp] theorem trim_nil : trim [] = [] := rfl

theorem trimLeft_eq_nil_iff {cs : List Char} : trimLeft cs = [] ↔ allBlank cs = true := by
  simp only [trimLeft, allBlank]
  induction cs with
  | nil => simp
  | cons c cs ih =>
    rw [List.dropWhile_cons]
    by_cases hc : isBlank c = true <;> simp [hc, ih]

theorem trimRight_eq_nil_iff {cs : List Char} : trimRight cs = [] ↔ allBlank cs = true := by
  have h := @trimLeft_eq_nil_iff cs.reverse
  simp only [trimLeft, allBlank, List.all_reverse] at h
  simp [trimRight, h, allBlank]

theorem allBlank_trimLeft {cs : List Char} : allBlank (trimLeft cs) = allBlank cs := by
  simp only [trimLeft, allBlank]
  induction cs with
  | nil => rfl
  | cons c cs ih =>
    rw [List.dropWhile_cons]
    by_cases hc : isBlank c = true <;> simp [hc, ih]

/-- **A text trims to nothing when it is blank.** -/
theorem trim_eq_nil_iff {cs : List Char} : trim cs = [] ↔ allBlank cs = true := by
  rw [trim, trimRight_eq_nil_iff, allBlank_trimLeft]

/-- Blanks behind a text are trimmed off, -/
theorem trim_append_of_allBlank {cs ends : List Char} (h : allBlank ends = true) : trim (cs ++ ends) = trim cs := by
  have hends : ∀ c ∈ ends, isBlank c = true := by simpa [allBlank] using h
  have hright (xs : List Char) : trimRight (xs ++ ends) = trimRight xs := by
    rw [trimRight, List.reverse_append, List.dropWhile_append_of_pos (by simpa using hends), trimRight]
  rw [trim, trim, trimLeft, List.dropWhile_append]
  split
  · rename_i hempty
    -- All of the text is blank, and so nothing is left on either side.
    have hcs : trimLeft cs = [] := List.isEmpty_iff.mp hempty
    have hdrop : trimLeft ends = [] := trimLeft_eq_nil_iff.mpr h
    rw [hcs]
    exact congrArg trimRight hdrop
  · exact hright _

/-- and so are those in front of it. -/
theorem trim_allBlank_append {cs front : List Char} (h : allBlank front = true) : trim (front ++ cs) = trim cs := by
  have hfront : ∀ c ∈ front, isBlank c = true := by simpa [allBlank] using h
  rw [trim, trim, trimLeft, List.dropWhile_append_of_pos hfront, trimLeft]

end TradeTalk.Text
