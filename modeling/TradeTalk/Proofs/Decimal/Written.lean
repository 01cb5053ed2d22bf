import Mathlib.Data.List.TakeWhile
import TradeTalk.Proofs.Decimal.Hundredths
import TradeTalk.Proofs.Decimal.Printing

/-!
# `Proofs.Decimal.Written` — the number that a text writes

In positional notation a text writes a number, whether or not any decimal can hold it: its digits, without the point,
are a whole number of units, and each digit behind the point makes the unit smaller by ten.

## Contents
- **`fractionDigits`**, **`digitsWritten`**: the digits behind the point, and all digits as a whole number.
- **`written`**: the number.
- **`written_positional`**, **`written_credits`**: what is printed writes the number that was printed.
-/

namespace TradeTalk.Decimal

/-- How many digits of a text stand behind its point. -/
def fractionDigits (text : String) : Nat :=
  ((text.toList.dropWhile (· != '.')).drop 1).length

/-- The digits of a text as one whole number, without regard to its point. -/
def digitsWritten (text : String) : Nat :=
  Nat.ofDigitChars 10 (text.toList.filter Char.isDigit) 0

/-- The number that a text writes in positional notation, after a minus sign or without one. -/
def written (text : String) : ℚ :=
  let size : ℚ := digitsWritten text / tenTo (fractionDigits text)
  if text.toList.head? = some '-' then -size else size

/-! ## Digits with a point or without -/

theorem ne_point_of_isDigit {c : Char} (h : c.isDigit = true) : c ≠ '.' := by
  rintro rfl
  exact absurd h (by decide)

variable {text : String} {whole fraction : List Char}

theorem fractionDigits_of_digits (h : ∀ c ∈ text.toList, c.isDigit = true) : fractionDigits text = 0 := by
  have hdrop : text.toList.dropWhile (· != '.') = [] :=
    List.dropWhile_eq_nil_iff.mpr fun c hc => bne_iff_ne.mpr (ne_point_of_isDigit (h c hc))
  rw [fractionDigits, hdrop]
  rfl

theorem digitsWritten_of_digits (h : ∀ c ∈ text.toList, c.isDigit = true) :
    digitsWritten text = Nat.ofDigitChars 10 text.toList 0 := by
  rw [digitsWritten, List.filter_eq_self.mpr h]

theorem fractionDigits_of_point (hw : ∀ c ∈ whole, c.isDigit = true) (h : text.toList = whole ++ '.' :: fraction) :
    fractionDigits text = fraction.length := by
  have hdrop : (whole ++ '.' :: fraction).dropWhile (· != '.') = '.' :: fraction := by
    rw [List.dropWhile_append_of_pos fun c hc => bne_iff_ne.mpr (ne_point_of_isDigit (hw c hc))]
    rfl
  rw [fractionDigits, h, hdrop]
  rfl

theorem digitsWritten_of_point (hw : ∀ c ∈ whole, c.isDigit = true) (hf : ∀ c ∈ fraction, c.isDigit = true)
    (h : text.toList = whole ++ '.' :: fraction) : digitsWritten text = Nat.ofDigitChars 10 (whole ++ fraction) 0 := by
  have hpoint : Char.isDigit '.' = false := by decide
  rw [digitsWritten, h, List.filter_append, List.filter_cons_of_neg (by simp [hpoint]), List.filter_eq_self.mpr hw,
    List.filter_eq_self.mpr hf]

/-- A text that starts with a digit has no sign. -/
theorem written_of_head {c : Char} {cs : List Char} (h : text.toList = c :: cs) (hc : c.isDigit = true) :
    written text = digitsWritten text / tenTo (fractionDigits text) := by
  refine if_neg ?_
  rw [h, List.head?_cons, Option.some.injEq]
  rintro rfl
  exact absurd hc (by decide)

/-! ## What is printed -/

/-- The digits behind the point go on from those before it. -/
theorem ofDigitChars_lastDigits (k n : Nat) : Nat.ofDigitChars 10 (lastDigits k n) (n / tenTo k) = n := by
  induction k generalizing n with
  | zero => exact Nat.div_one n
  | succ k ih =>
    have hfront : n / tenTo (k + 1) = n / 10 / tenTo k := by
      rw [tenTo_succ, Nat.mul_comm, Nat.div_div_eq_div_mul]
    rw [lastDigits, Nat.ofDigitChars_append, hfront, ih,
      Nat.ofDigitChars_cons_digitChar_of_lt_ten (Nat.mod_lt n (by decide)), Nat.ofDigitChars_nil]
    exact Nat.div_add_mod n 10

/-- **A number in positional notation writes itself.** -/
theorem written_positional (k n : Nat) (h : text.toList = positional k n) : written text = n / tenTo k := by
  obtain ⟨c, cs, hcs, hdigit⟩ := positional_eq_cons k n
  have hwhole : ∀ c ∈ Nat.toDigits 10 (n / tenTo k), c.isDigit = true := fun c hc => isDigit_of_mem_toDigits hc
  rw [written_of_head (h.trans hcs) hdigit]
  by_cases hk : k = 0
  · subst hk
    have hdigits : text.toList = Nat.toDigits 10 (n / tenTo 0) := by rw [h, positional, if_pos rfl, List.append_nil]
    rw [← hdigits] at hwhole
    rw [digitsWritten_of_digits hwhole, fractionDigits_of_digits hwhole, hdigits, Nat.ofDigitChars_ten_toDigits]
    exact congrArg (fun m : Nat => (m : ℚ) / tenTo 0) (Nat.div_one n)
  · rw [positional, if_neg hk] at h
    have hfraction : ∀ c ∈ lastDigits k n, c.isDigit = true := fun c hc => isDigit_of_mem_lastDigits hc
    rw [digitsWritten_of_point hwhole hfraction h, fractionDigits_of_point hwhole h, length_lastDigits,
      Nat.ofDigitChars_append, Nat.ofDigitChars_ten_toDigits, ofDigitChars_lastDigits]

/-- **What is shown of an amount** without a sign is its hundredths. -/
theorem written_credits {d : Decimal} (h : d.negative = false) : written d.credits = d.hundredths / 100 := by
  have hlist : d.credits.toList = positional 2 d.hundredths := by
    rw [credits, h, String.toList_ofList]
    rfl
  rw [written_positional 2 d.hundredths hlist, cast_tenTo_two]

end TradeTalk.Decimal
