import TradeTalk.Text.Pieces

/-!
# `TradeTalk.Phrase` — words and runs of words

A word is a run of ASCII letters, digits and underscores. A metal is named by a word that starts with a capital
letter. A phrase is a list of words; written down, they stand with single spaces between them.

## Contents
- **`isWord`**, **`isMetal`**: the two classes of names.
- **`Phrase`** and **`Phrase.text`**.
-/

namespace TradeTalk

/-- A character that words are made of. -/
def isWordChar (c : Char) : Bool :=
  c.isAlphanum || c == '_'

/-- Whether some characters make a word. -/
def isWord (cs : List Char) : Bool :=
  !cs.isEmpty && cs.all isWordChar

/-- Whether some characters make the name of a metal. -/
def isMetal : List Char → Bool
  | [] => false
  | c :: cs => c.isUpper && cs.all isWordChar

/-- A run of words, as they were spelled. -/
abbrev Phrase := List String

/-- The words of a phrase, separated by single spaces. -/
def Phrase.text (p : Phrase) : String :=
  String.ofList (Text.join (p.map String.toList))

/-! ## Small laws -/

theorem isWordChar_of_isUpper {c : Char} (h : c.isUpper = true) : isWordChar c = true := by
  show ((c.isUpper || c.isLower) || c.isDigit || c == '_') = true
  simp [h]

/-- The name of a metal is a word. -/
theorem isWord_of_isMetal {cs : List Char} (h : isMetal cs = true) : isWord cs = true := by
  cases cs with
  | nil => contradiction
  | cons c cs =>
    simp only [isMetal, Bool.and_eq_true] at h
    simp [isWord, isWordChar_of_isUpper h.1, h.2]

@[simp] theorem isWordChar_space : isWordChar ' ' = false := by decide

theorem space_notMem_of_isWord {cs : List Char} (h : isWord cs = true) : ' ' ∉ cs := by
  intro hm
  simp only [isWord, Bool.and_eq_true, List.all_eq_true] at h
  simpa using h.2 ' ' hm

end TradeTalk
