import TradeTalk.Text.CaseTable

/-!
# `TradeTalk.Text.Fold` — names without their letter case

Two spellings name the same thing when they are equal in lower case. Each character has a lower case of its own,
except for the Greek capital sigma, which becomes a final sigma at the end of a word.

## Contents
- **`lowerChar`**: the lower case of a character by itself.
- **`endsWord`**: a letter stands before a place and none after it.
- **`fold`**, **`key`**: the lower case of a text.
- **`fold_of_ascii`**: ASCII texts fold letter by letter.
-/

namespace TradeTalk.Text

/-- The Greek capital letter sigma. -/
def capitalSigma : Char := 'Σ'

/-- The code point of the lower case, if it is that of another character. -/
def lowerCode? (n : Nat) : Option Nat :=
  (lowerRuns.find? (·.has n)).map (·.lowerOf n)

/-- The lower case of a character by itself. The capital I with a dot becomes two characters. -/
def lowerChar (c : Char) : List Char :=
  if c.toNat < 128 then [c.toLower]
  else if c = 'İ' then ['i', '\u0307']
  else
    match lowerCode? c.toNat with
    | some n => [Char.ofNat n]
    | none => [c]

/-- Whether the first character that separates words, if any is read at all, is a letter of either case. -/
def startsCased (cs : List Char) : Bool :=
  match cs.dropWhile caseIgnorableRanges.has with
  | [] => false
  | c :: _ => casedRanges.has c

/-- Whether a place ends a word, given the characters before it, the nearest first, and those after it. -/
def endsWord (before after : List Char) : Bool :=
  startsCased before && !startsCased after

/-- Folds what follows the characters `before`, of which the nearest comes first. -/
def foldAfter (before : List Char) : List Char → List Char
  | [] => []
  | c :: cs =>
    (if c = capitalSigma then [if endsWord before cs then 'ς' else 'σ'] else lowerChar c) ++
      foldAfter (c :: before) cs

/-- The lower case of a text. -/
def fold (cs : List Char) : List Char :=
  foldAfter [] cs

/-- What a name is filed under. -/
def key (name : String) : String :=
  String.ofList (fold name.toList)

/-! ## Small laws -/

@[simp] theorem fold_nil : fold [] = [] := rfl

theorem lowerChar_of_lt {c : Char} (h : c.toNat < 128) : lowerChar c = [c.toLower] := by
  simp [lowerChar, h]

theorem foldAfter_of_ascii {before cs : List Char} (h : ∀ c ∈ cs, c.toNat < 128) :
    foldAfter before cs = cs.map Char.toLower := by
  induction cs generalizing before with
  | nil => rfl
  | cons c cs ih =>
    have hc := h c List.mem_cons_self
    have hs : c ≠ capitalSigma := by
      rintro rfl
      exact absurd hc (by decide)
    rw [foldAfter, if_neg hs, lowerChar_of_lt hc, ih fun d hd => h d (List.mem_cons_of_mem _ hd)]
    rfl

/-- **An ASCII text folds letter by letter.** -/
theorem fold_of_ascii {cs : List Char} (h : ∀ c ∈ cs, c.toNat < 128) : fold cs = cs.map Char.toLower :=
  foldAfter_of_ascii h

end TradeTalk.Text
