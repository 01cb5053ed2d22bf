import Std.Data.ExtTreeMap
import TradeTalk.Decimal.Arithmetic
import TradeTalk.Numeral
import TradeTalk.Overview
import TradeTalk.Phrase
import TradeTalk.Text.Fold

/-!
# `TradeTalk.Ledger` — what has been learned

A ledger keeps the digit of each word and the latest quote of each metal. Words and metals are filed under their
lower case. A quote keeps the phrase it was stated with, and the phrase is valued anew each time it is needed; so a
quote may be recorded before its words are known, and changes its meaning with them.

## Contents
- **`Quote`**: so much of a metal costs an amount; **`Listing`**: a metal as first spelled, with its latest quote.
- **`Ledger.assign`**, **`Ledger.assign?`**: a word gets a digit.
- **`Ledger.record`**: a metal gets a quote.
- **`Ledger.digit?`**, **`Ledger.quote?`**: what is known about a word or a metal.
- **`Ledger.numeral`**, **`Ledger.worth`**: the numeral a phrase spells, and its value.
- **`Ledger.unitPrice`**: what one unit of a metal costs.
- **`Ledger.overview`**: everything, in order.
-/

namespace TradeTalk

/-- So much of a metal as the phrase says costs the amount. -/
structure Quote where
  phrase : Phrase
  amount : Decimal
  deriving DecidableEq, Repr

/-- A metal with the spelling it was first recorded by and the latest quote. -/
structure Listing where
  name : String
  quote : Quote
  deriving DecidableEq, Repr

/-- Words and metals, each under its folded name. -/
@[ext] structure Ledger where
  digits : Std.ExtTreeMap String Digit
  metals : Std.ExtTreeMap String Listing

namespace Ledger

open Text (key)

/-- Nothing learned yet. -/
def empty : Ledger := ⟨∅, ∅⟩

instance : Inhabited Ledger := ⟨empty⟩

/-! ## Words -/

/-- Maps a word to a digit, whatever it stood for before. -/
def assign (l : Ledger) (word : String) (digit : Digit) : Ledger :=
  { l with digits := l.digits.insert (key word) digit }

/-- Maps a word to the digit that a character writes. -/
def assign? (l : Ledger) (word : String) (symbol : Char) : Except Fault Ledger :=
  match Digit.ofChar? symbol with
  | some digit => .ok (l.assign word digit)
  | none => .error (.notANumeral (String.singleton symbol))

/-- Maps each of some words to a digit. -/
def assignAll (l : Ledger) (words : Phrase) (digit : Digit) : Ledger :=
  words.foldl (fun l word => l.assign word digit) l

/-- The digit that a word stands for. -/
def digit? (l : Ledger) (word : String) : Option Digit :=
  l.digits[key word]?

/-- How many words have a digit. -/
def wordCount (l : Ledger) : Nat :=
  l.digits.size

/-! ## Phrases -/

/-- The digit that a word stands for, or the fault that nothing is known about it. -/
def digit (l : Ledger) (word : String) : Except Fault Digit :=
  match l.digit? word with
  | some known => .ok known
  | none => .error (.unknownName word)

/-- The digits of a phrase, one for each word; the first unknown word is the fault otherwise. -/
def numeral (l : Ledger) : Phrase → Except Fault Numeral
  | [] => .ok []
  | word :: words =>
    match l.digit word with
    | .error f => .error f
    | .ok first =>
      match l.numeral words with
      | .error f => .error f
      | .ok rest => .ok (first :: rest)

/-- The value of a phrase: its digits read as one numeral. -/
def worth (l : Ledger) (phrase : Phrase) : Except Fault Nat :=
  match l.numeral phrase with
  | .error f => .error f
  | .ok ds => Numeral.read (Numeral.text ds)

/-- Whether every word of a phrase stands for a digit. -/
def knowsAll (l : Ledger) (phrase : Phrase) : Bool :=
  phrase.all fun word => (l.digit? word).isSome

/-! ## Metals -/

/-- Records the latest quote for a metal. The spelling it was first recorded by stays. -/
def record (l : Ledger) (metal : String) (quote : Quote) : Ledger :=
  let name := match l.metals[key metal]? with
    | some listing => listing.name
    | none => metal
  { l with metals := l.metals.insert (key metal) ⟨name, quote⟩ }

/-- The latest quote for a metal. -/
def quote? (l : Ledger) (metal : String) : Option Quote :=
  l.metals[key metal]?.map Listing.quote

/-- How many metals have a quote. -/
def metalCount (l : Ledger) : Nat :=
  l.metals.size

/-- What one unit of the metal costs by a quote. A phrase that is worth nothing prices nothing. -/
def unitPriceBy (l : Ledger) (quote : Quote) : Except Fault Decimal :=
  match l.worth quote.phrase with
  | .error f => .error f
  | .ok 0 => .error (.notANumeral quote.phrase.text)
  | .ok quantity =>
    match quote.amount.over? quantity with
    | some price => .ok price
    | none => .error .outOfRange

/-- What one unit of a metal costs. -/
def unitPrice (l : Ledger) (metal : String) : Except Fault Decimal :=
  match l.quote? metal with
  | some quote => l.unitPriceBy quote
  | none => .error (.unknownName metal)

/-! ## Everything -/

/-- The row of a metal. -/
def metalRow (l : Ledger) (listing : Listing) : MetalRow where
  metal := listing.name
  phrase := listing.quote.phrase.text
  amount := listing.quote.amount
  unitPrice := (l.unitPrice listing.name).toOption

/-- Everything learned: words by their folded spelling and metals by the spelling shown, both in the order of
    code points. -/
def overview (l : Ledger) : Overview where
  words := l.digits.toList.map fun (word, digit) => ⟨word, digit.letter⟩
  metals := (l.metals.toList.map fun (_, listing) => l.metalRow listing).mergeSort
    fun a b => (compare a.metal b.metal).isLE

/-! ## Small laws -/

@[simp] theorem digit?_empty (word : String) : empty.digit? word = none := by
  simp [digit?, empty]

@[simp] theorem quote?_empty (metal : String) : empty.quote? metal = none := by
  simp [quote?, empty]

@[simp] theorem metals_assign (l : Ledger) (word : String) (digit : Digit) :
    (l.assign word digit).metals = l.metals := rfl

@[simp] theorem digits_record (l : Ledger) (metal : String) (quote : Quote) :
    (l.record metal quote).digits = l.digits := rfl

/-- The letter of a digit is never refused, -/
theorem assign?_letter (l : Ledger) (word : String) (digit : Digit) :
    l.assign? word digit.letter = .ok (l.assign word digit) := by
  rw [assign?, Digit.ofChar?_letter]

/-- and so a digit is given to one word after another without a fault. -/
theorem foldlM_assign?_letter (l : Ledger) (words : Phrase) (digit : Digit) :
    words.foldlM (fun l word => l.assign? word digit.letter) l = .ok (l.assignAll words digit) := by
  induction words generalizing l with
  | nil => rfl
  | cons word words ih =>
    rw [List.foldlM_cons, assign?_letter]
    exact ih (l.assign word digit)

theorem quote?_record (l : Ledger) (metal other : String) (quote : Quote) :
    (l.record metal quote).quote? other = if key metal = key other then some quote else l.quote? other := by
  simp only [record, quote?, Std.ExtTreeMap.getElem?_insert, Std.compare_eq_iff_eq]
  split <;> rfl

theorem knowsAll_iff {l : Ledger} {phrase : Phrase} :
    l.knowsAll phrase = true ↔ ∀ word ∈ phrase, (l.digit? word).isSome = true := by
  simp [knowsAll]

end Ledger

end TradeTalk
