import Mathlib.Tactic.IntervalCases
import TradeTalk.Decimal.Reader

/-!
# `Proofs.Decimal.Printing` — printed decimals read back

A decimal is printed with all the digits that it has. So each of them is kept when the text is read: no place is beyond
the scale, and no mantissa on the way is larger than the last. The reading loop goes from the left and the digits of a
number are split off from the right, so the proofs go by the number that is left and let the loop run on in what
follows.

## Contents
- **`scan_digitChar`**: the loop keeps a digit that there is room for.
- **`scan_toDigits`**, **`scan_lastDigits`**: it reads the digits before the point, and those after it.
- **`mem_positional`**, **`mem_signed`**: a printed number is digits and perhaps a point, with a sign or without one.
- **`ofString?_text_eq`**, **`ofString?_text`**: reading a printed decimal gives it back, scale and all.
-/

namespace TradeTalk

theorem isDigit_of_mem_toDigits {n : Nat} {c : Char} (h : c ∈ Nat.toDigits 10 n) : c.isDigit = true :=
  Nat.isDigit_of_mem_toDigits (by decide) (by decide) h

theorem isDigit_of_mem_toString {n : Nat} {c : Char} (h : c ∈ (toString n).toList) : c.isDigit = true := by
  rw [Nat.toString_eq_repr, Nat.repr_eq_ofList_toDigits, String.toList_ofList] at h
  exact isDigit_of_mem_toDigits h

namespace Decimal

/-! ## The characters of a printed number -/

theorem isDigit_of_mem_lastDigits {k n : Nat} {c : Char} (h : c ∈ lastDigits k n) : c.isDigit = true := by
  induction k generalizing n with
  | zero => contradiction
  | succ k ih =>
    rw [lastDigits, List.mem_append, List.mem_singleton] at h
    rcases h with h | rfl
    · exact ih h
    · rw [Nat.isDigit_digitChar]
      exact decide_eq_true (Nat.mod_lt n (by decide))

/-- A number in positional notation is digits and perhaps a point. -/
theorem mem_positional {scale units : Nat} {c : Char} (h : c ∈ positional scale units) :
    c.isDigit = true ∨ c = '.' := by
  rw [positional, List.mem_append] at h
  rcases h with h | h
  · exact Or.inl (isDigit_of_mem_toDigits h)
  · split at h
    · contradiction
    · rcases List.mem_cons.mp h with rfl | h
      · exact Or.inr rfl
      · exact Or.inl (isDigit_of_mem_lastDigits h)

/-- The text of a number has a minus sign in it at most, besides. -/
theorem mem_signed {minus : Bool} {scale units : Nat} {c : Char}
    (h : c ∈ (String.ofList (sign minus ++ positional scale units)).toList) : c.isDigit = true ∨ c = '.' ∨ c = '-' := by
  rw [String.toList_ofList, List.mem_append] at h
  rcases h with h | h
  · cases minus with
    | false => contradiction
    | true => exact Or.inr (Or.inr (List.mem_singleton.mp h))
  · exact (mem_positional h).imp_right Or.inl

/-- A number in positional notation starts with a digit. -/
theorem positional_eq_cons (scale units : Nat) :
    ∃ c cs, positional scale units = c :: cs ∧ c.isDigit = true := by
  obtain ⟨c, cs, hcs⟩ := List.exists_cons_of_ne_nil (Nat.toDigits_ne_nil (n := units / tenTo scale) (b := 10))
  have hdigit : c.isDigit = true := by
    apply isDigit_of_mem_toDigits (n := units / tenTo scale)
    rw [hcs]
    exact List.mem_cons_self
  rw [positional, hcs, List.cons_append]
  exact ⟨c, _, rfl, hdigit⟩

/-! ## The loop reads them -/

theorem digitValue?_digitChar {digit : Nat} (h : digit < 10) : digitValue? (Nat.digitChar digit) = some digit := by
  interval_cases digit <;> rfl

variable {negative anyDigit : Bool}

/-- The loop keeps a digit that there is room for. -/
theorem scan_digitChar (afterPoint : Bool) {m s digit : Nat} (cs : List Char) (hdigit : digit < 10)
    (hm : m * 10 + digit < mantissaBound) (hs : afterPoint = true → s < maxScale) :
    scan negative afterPoint anyDigit m s (Nat.digitChar digit :: cs) =
      scan negative afterPoint true (m * 10 + digit) (if afterPoint then s + 1 else s) cs := by
  have hroom : ¬ (afterPoint = true ∧ s = maxScale) := fun ⟨hpoint, he⟩ => Nat.ne_of_lt (hs hpoint) he
  rw [scan, if_neg hroom, digitValue?_digitChar hdigit]
  simp only [if_pos hm]

/-- It reads the digits before the point. -/
theorem scan_toDigits {n s : Nat} (cs : List Char) (hn : n < mantissaBound) :
    scan negative false anyDigit 0 s (Nat.toDigits 10 n ++ cs) = scan negative false true n s cs := by
  induction n using Nat.strong_induction_on generalizing cs with
  | _ n ih =>
    by_cases hlast : n < 10
    · rw [Nat.toDigits_of_lt_base hlast, List.singleton_append, scan_digitChar false cs hlast (by omega) nofun]
      simp
    · have hsplit : n / 10 * 10 + n % 10 = n := Nat.div_add_mod' n 10
      rw [Nat.toDigits_of_base_le (by decide) (by omega), List.append_assoc, List.singleton_append,
        ih (n / 10) (by omega) _ (by omega), scan_digitChar false cs (Nat.mod_lt n (by decide)) (by omega) nofun, hsplit]
      rfl

/-- And it reads those after the point, as long as the scale allows. -/
theorem scan_lastDigits {n s k : Nat} (cs : List Char) (hn : n < mantissaBound) (hk : s + k ≤ maxScale) :
    scan negative true true (n / tenTo k) s (lastDigits k n ++ cs) = scan negative true true n (s + k) cs := by
  induction k generalizing n cs with
  | zero =>
    show scan negative true true (n / 1) s cs = _
    rw [Nat.div_one]
    rfl
  | succ k ih =>
    have hfront : n / tenTo (k + 1) = n / 10 / tenTo k := by
      rw [tenTo_succ, Nat.mul_comm, Nat.div_div_eq_div_mul]
    have hsplit : n / 10 * 10 + n % 10 = n := Nat.div_add_mod' n 10
    have hscale : true = true → s + k < maxScale := fun _ => by omega
    rw [lastDigits, List.append_assoc, List.singleton_append, hfront, ih _ (by omega) (by omega),
      scan_digitChar true cs (Nat.mod_lt n (by decide)) (by omega) hscale, hsplit]
    rfl

/-- A number in positional notation is read with its scale. -/
theorem scan_positional {n k : Nat} (hn : n < mantissaBound) (hk : k ≤ maxScale) :
    scan negative false false 0 0 (positional k n) = ofParts? negative n k := by
  have hfront : n / tenTo k < mantissaBound := Nat.lt_of_le_of_lt (Nat.div_le_self n _) hn
  rw [positional, scan_toDigits _ hfront]
  by_cases hzero : k = 0
  · subst hzero
    show scan negative false true (n / 1) 0 [] = _
    rw [Nat.div_one]
    rfl
  · rw [if_neg hzero]
    show scan negative true true (n / tenTo k) 0 (lastDigits k n) = _
    have hread : scan negative true true (n / tenTo k) 0 (lastDigits k n ++ []) = scan negative true true n (0 + k) [] :=
      scan_lastDigits [] hn (by omega)
    rw [List.append_nil, Nat.zero_add] at hread
    rw [hread]
    rfl

/-- Reading a printed decimal gives its parts back; the sign of a zero is dropped. -/
theorem ofString?_text_eq (d : Decimal) : ofString? d.text = ofParts? d.negative d.mantissa d.scale := by
  have hparts : scan d.negative false false 0 0 (positional d.scale d.mantissa) =
      ofParts? d.negative d.mantissa d.scale := scan_positional d.mantissa_lt d.scale_le
  rw [ofString?, text, String.toList_ofList, ← hparts]
  cases d.negative with
  | true => rfl
  | false =>
    -- A text that starts with a digit is scanned as it is.
    obtain ⟨c, cs, hcs, hdigit⟩ := positional_eq_cons d.scale d.mantissa
    show ofChars? (positional d.scale d.mantissa) = _
    rw [hcs, ofChars?]
    · intro rest he
      rw [(List.cons.inj he).1] at hdigit
      exact absurd hdigit (by decide)
    · intro rest he
      rw [(List.cons.inj he).1] at hdigit
      exact absurd hdigit (by decide)

/-- **Reading a printed decimal gives it back**, scale and all, unless it is a zero with a sign. -/
theorem ofString?_text {d : Decimal} (h : d.mantissa = 0 → d.negative = false) : ofString? d.text = some d := by
  rw [ofString?_text_eq, ofParts?_self h]

end Decimal

end TradeTalk
