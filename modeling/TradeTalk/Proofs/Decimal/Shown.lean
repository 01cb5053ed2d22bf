import Mathlib.Data.Rat.Floor
import TradeTalk.Decimal.Scientific
import TradeTalk.Proofs.Decimal.Value
import TradeTalk.Proofs.Decimal.Written

/-!
# `Proofs.Decimal.Shown` — what is shown of any decimal

An amount is shown with two fraction digits whatever its sign and however many digits it has: what it is rounded to is
found in hundredths first, and only these are printed. So a mantissa without room for two digits more is no exception.
The digits write the rounded magnitude, and the sign is decided after the rounding. It is dropped where the digits that
are rounded away were all there was, but a zero that has a minus sign already keeps it. Amounts near each other are shown
alike unless one is rounded up and the other is not.

## Contents
- **`roundHalfAway`**: the nearest whole number, a tie to the one farther from zero.
- **`hundredths_eq_round`**, **`roundHalfAway_hundredths`**: what the hundredths of an amount are.
- **`head?_toDigits_ne_zero`**: no zeros stand before a number.
- **`written_of_minus`**, **`written_of_sign`**: a text after a minus sign writes the negation.
- **`IsCredits`**, **`HasMinus`**: the form of what is shown, and its sign.
- **`credits_shown`**: an amount is shown in that form, and it is the amount rounded to hundredths.
- **`minusZero_shown`**: a zero shown with a minus sign.
- **`IsTie`**, **`credits_eq_iff`**: two amounts are shown alike exactly if no tie lies between them.
- **`abs_written_sub_le`**, **`credits_eq_of_near`**: what is shown of amounts that are near each other.
-/

namespace TradeTalk.Decimal

/-! ## Rounding half away from zero -/

/-- The whole number nearest to a number; half way between two it is the one farther from zero. -/
def roundHalfAway (x : ℚ) : ℤ :=
  if x < 0 then -round (-x) else round x

/-- Rounding commutes with the sign. -/
theorem roundHalfAway_neg {x : ℚ} (hx : 0 ≤ x) : roundHalfAway (-x) = -round x := by
  rw [roundHalfAway, neg_neg]
  split
  · rfl
  · rename_i hneg
    obtain rfl : x = 0 := by linarith
    rw [neg_zero, round_zero, neg_zero]

/-- **The hundredths of an amount** are its magnitude, rounded. -/
theorem hundredths_eq_round (d : Decimal) : (d.hundredths : ℤ) = round (100 * d.magnitude) := by
  rw [round_eq, eq_comm, Int.floor_eq_iff]
  have hself := le_hundredths_iff.mp (le_refl d.hundredths)
  have hnext : ¬ d.hundredths + 1 ≤ d.hundredths := Nat.not_succ_le_self _
  rw [le_hundredths_iff] at hnext
  push_cast at hnext ⊢
  constructor <;> linarith

/-- So they are the amount itself with its sign, rounded half away from zero. -/
theorem roundHalfAway_hundredths (d : Decimal) :
    roundHalfAway (100 * d.toRat) = if d.negative then -(d.hundredths : ℤ) else d.hundredths := by
  have hnonneg : 0 ≤ 100 * d.magnitude := mul_nonneg (by norm_num) d.magnitude_nonneg
  rw [toRat_eq, hundredths_eq_round]
  split
  · rw [mul_neg, roundHalfAway_neg hnonneg]
  · rw [roundHalfAway, if_neg (not_lt.mpr hnonneg)]

/-! ## Digits and signs -/

/-- No zeros stand before a number. -/
theorem head?_toDigits_ne_zero {n : Nat} (hn : 0 < n) : (Nat.toDigits 10 n).head? ≠ some '0' := by
  induction n using Nat.strong_induction_on with
  | h n ih =>
    rcases Nat.lt_or_ge n 10 with hlt | hge
    · rw [Nat.toDigits_of_lt_base hlt, List.head?_cons]
      interval_cases n <;> decide
    · -- The first digit is that of a tenth of the number, which is not zero either.
      have hfront := ih (n / 10) (Nat.div_lt_self hn (by decide)) (Nat.div_pos hge (by decide))
      rw [Nat.toDigits_of_base_le (by decide) hge, List.head?_append_of_ne_nil _ Nat.toDigits_ne_nil]
      exact hfront

/-- A text after a minus sign writes the negation of what it writes without. -/
theorem written_of_minus {text rest : String} (h : text.toList = '-' :: rest.toList)
    (hrest : rest.toList.head? ≠ some '-') : written text = -written rest := by
  have hdigits : digitsWritten text = digitsWritten rest := by
    rw [digitsWritten, digitsWritten, h, List.filter_cons_of_neg (by decide)]
  have hfraction : fractionDigits text = fractionDigits rest := by
    rw [fractionDigits, fractionDigits, h, List.dropWhile_cons_of_pos (by decide)]
  simp only [written, hdigits, hfraction]
  rw [if_pos (by rw [h, List.head?_cons]), if_neg hrest]

/-- A number in positional notation has no sign. -/
theorem head?_positional_ne_minus (k n : Nat) : (positional k n).head? ≠ some '-' := by
  obtain ⟨c, cs, hcs, hdigit⟩ := positional_eq_cons k n
  rw [hcs, List.head?_cons, Ne, Option.some.injEq]
  rintro rfl
  exact absurd hdigit (by decide)

/-- A number in positional notation, after a minus sign or without one, writes itself or its negation. -/
theorem written_of_sign {text : String} {minus : Bool} {k n : Nat} (h : text.toList = sign minus ++ positional k n) :
    written text = if minus then -(n / tenTo k : ℚ) else n / tenTo k := by
  cases minus with
  | false => exact written_positional k n h
  | true =>
    have hhead : (String.ofList (positional k n)).toList.head? ≠ some '-' := by
      rw [String.toList_ofList]
      exact head?_positional_ne_minus k n
    have htext : text.toList = '-' :: (String.ofList (positional k n)).toList := by
      rw [h, String.toList_ofList]
      rfl
    rw [written_of_minus htext hhead, written_positional k n String.toList_ofList]
    rfl

/-! ## The form of what is shown -/

/-- A minus sign or none, one or more digits, which start with a zero only if that is all of them, a point, and two
    digits. -/
def IsCredits (text : String) : Prop :=
  ∃ (minus : Bool) (whole fraction : List Char), text.toList = sign minus ++ whole ++ '.' :: fraction ∧
    whole ≠ [] ∧ (∀ c ∈ whole, c.isDigit = true) ∧ (whole.head? = some '0' → whole = ['0']) ∧
    fraction.length = 2 ∧ ∀ c ∈ fraction, c.isDigit = true

/-- A text that starts with a minus sign. -/
def HasMinus (text : String) : Prop :=
  text.toList.head? = some '-'

variable {text : String} {minus : Bool}

/-- Hundredths in positional notation have the form. -/
theorem isCredits_of_sign {n : Nat} (h : text.toList = sign minus ++ positional 2 n) : IsCredits text := by
  refine ⟨minus, Nat.toDigits 10 (n / tenTo 2), lastDigits 2 n, ?_, Nat.toDigits_ne_nil,
    fun c => isDigit_of_mem_toDigits, fun hzero => ?_, length_lastDigits 2 n, fun c => isDigit_of_mem_lastDigits⟩
  · rw [h, positional, if_neg (by decide), List.append_assoc]
  · rcases Nat.eq_zero_or_pos (n / tenTo 2) with h0 | hpos
    · rw [h0, Nat.toDigits_zero]
    · exact absurd hzero (head?_toDigits_ne_zero hpos)

theorem hasMinus_iff {k n : Nat} (h : text.toList = sign minus ++ positional k n) : HasMinus text ↔ minus = true := by
  rw [HasMinus, h]
  cases minus with
  | false => exact iff_of_false (head?_positional_ne_minus k n) Bool.false_ne_true
  | true => exact iff_of_true rfl rfl

/-- **What is shown of an amount**: two fraction digits and no superfluous zeros before the point, and the number that is
    written so is the amount rounded to hundredths, half away from zero. There is a minus sign exactly if that number is
    below zero, or if the amount is a zero that has a minus sign itself; what only becomes zero has none. -/
theorem credits_shown (d : Decimal) :
    IsCredits d.credits ∧ written d.credits = roundHalfAway (100 * d.toRat) / 100 ∧
      (HasMinus d.credits ↔ written d.credits < 0 ∨ d.mantissa = 0 ∧ d.negative = true) := by
  have htext :
      d.credits.toList = sign (d.negative && (d.mantissa == 0 || d.hundredths != 0)) ++ positional 2 d.hundredths :=
    String.toList_ofList
  have hwritten : written d.credits = if d.negative then -(d.hundredths / 100 : ℚ) else d.hundredths / 100 := by
    rw [written_of_sign htext, cast_tenTo_two]
    rcases Nat.eq_zero_or_pos d.hundredths with h0 | hpos
    · simp [h0]
    · simp [hpos.ne']
  refine ⟨isCredits_of_sign htext, ?_, ?_⟩
  · rw [hwritten, roundHalfAway_hundredths]
    split
    · rw [Int.cast_neg, Int.cast_natCast, neg_div]
    · rw [Int.cast_natCast]
  · have hnonneg : (0 : ℚ) ≤ d.hundredths / 100 := by positivity
    rw [hasMinus_iff htext, hwritten]
    cases d.negative with
    | false => simp [hnonneg]
    | true =>
      rcases Nat.eq_zero_or_pos d.hundredths with h0 | hpos
      · simp [h0]
      · simp [hpos.ne', hpos]

/-- What is read where the digits of a negative number are too many: a zero with its sign. -/
def minusZero : Decimal :=
  (ofNotation? "-0.4e-28").getD zero

/-- **A zero may be shown with a minus sign**, although the number that is written is not below zero. -/
theorem minusZero_shown :
    (minusZero.mantissa = 0 ∧ minusZero.negative = true) ∧ minusZero.credits = "-0.00" ∧
      ¬ (HasMinus minusZero.credits ↔ roundHalfAway (100 * minusZero.toRat) < 0) := by
  refine ⟨by decide +kernel, by decide +kernel, fun h => ?_⟩
  have hminus : HasMinus minusZero.credits := by
    rw [HasMinus]
    decide +kernel
  have hround := h.mp hminus
  rw [roundHalfAway_hundredths] at hround
  exact absurd hround (by decide +kernel)

/-! ## Amounts that are shown alike -/

variable {d d' : Decimal}

/-- A number half way between two hundredths. -/
def IsTie (x : ℚ) : Prop :=
  ∃ n : Nat, x = (n + 1 / 2) / 100

theorem hundredths_eq_iff :
    d.hundredths = d'.hundredths ↔ ∀ tie, IsTie tie → (tie ≤ d.magnitude ↔ tie ≤ d'.magnitude) := by
  -- An amount is shown as more than `n` hundredths if it is not below the tie after them.
  have habove (d : Decimal) (n : Nat) : n < d.hundredths ↔ ((n : ℚ) + 1 / 2) / 100 ≤ d.magnitude := by
    rw [← Nat.succ_le_iff, le_hundredths_iff, div_le_iff₀ (by norm_num)]
    push_cast
    constructor <;> intro h <;> linarith
  constructor
  · rintro h tie ⟨n, rfl⟩
    rw [← habove, ← habove, h]
  · intro h
    apply Nat.le_antisymm
    · by_contra hlt
      exact lt_irrefl _ ((habove d' _).mpr ((h _ ⟨_, rfl⟩).mp ((habove d _).mp (not_le.mp hlt))))
    · by_contra hlt
      exact lt_irrefl _ ((habove d _).mpr ((h _ ⟨_, rfl⟩).mpr ((habove d' _).mp (not_le.mp hlt))))

/-- **Two amounts without signs are shown alike exactly if no tie lies between them.** -/
theorem credits_eq_iff (hd : d.negative = false) (hd' : d'.negative = false) :
    d.credits = d'.credits ↔ ∀ tie, IsTie tie → (tie ≤ d.toRat ↔ tie ≤ d'.toRat) := by
  rw [toRat_eq_magnitude hd, toRat_eq_magnitude hd', ← hundredths_eq_iff]
  constructor
  · intro h
    have hwritten := congrArg written h
    rw [written_credits hd, written_credits hd', div_left_inj' (by norm_num)] at hwritten
    exact_mod_cast hwritten
  · intro h
    rw [credits_of_not_negative hd, credits_of_not_negative hd', h]

/-- Amounts that are less than half a hundredth apart are shown one hundredth apart at most. -/
theorem abs_written_sub_le (hd : d.negative = false) (hd' : d'.negative = false)
    (hnear : |d.toRat - d'.toRat| < 1 / 200) : |written d.credits - written d'.credits| ≤ 1 / 100 := by
  rw [toRat_eq_magnitude hd, toRat_eq_magnitude hd'] at hnear
  have hapart := abs_lt.mp hnear
  have hround := abs_le.mp d.abs_hundredths_sub_le
  have hround' := abs_le.mp d'.abs_hundredths_sub_le
  have hlt : (d.hundredths : ℚ) < d'.hundredths + 2 := by linarith
  have hgt : (d'.hundredths : ℚ) < d.hundredths + 2 := by linarith
  have hle : d.hundredths ≤ d'.hundredths + 1 := Nat.lt_succ_iff.mp (by exact_mod_cast hlt)
  have hge : d'.hundredths ≤ d.hundredths + 1 := Nat.lt_succ_iff.mp (by exact_mod_cast hgt)
  have hle' : (d.hundredths : ℚ) ≤ d'.hundredths + 1 := by exact_mod_cast hle
  have hge' : (d'.hundredths : ℚ) ≤ d.hundredths + 1 := by exact_mod_cast hge
  rw [written_credits hd, written_credits hd', abs_le]
  constructor <;> linarith

/-- An amount in hundredths is half of one away from every tie, so that what is near it is shown as it is. -/
theorem credits_eq_of_near (hd : d.negative = false) (hd' : d'.negative = false) (hscale : d'.scale ≤ 2)
    (hnear : |d.toRat - d'.toRat| < 1 / 200) : d.credits = d'.credits := by
  have hexact : d'.magnitude = (d'.mantissa * tenTo (2 - d'.scale) : Nat) / 100 := by
    rw [← hundredths_exact hscale, mul_div_cancel_left₀ _ (by norm_num)]
  rw [toRat_eq_magnitude hd, toRat_eq_magnitude hd', hexact] at hnear
  have hself : |d'.magnitude - (d'.mantissa * tenTo (2 - d'.scale) : Nat) / 100| < 1 / 200 := by
    rw [hexact, sub_self, abs_zero]
    norm_num
  rw [credits_of_not_negative hd, credits_of_not_negative hd', hundredths_eq_of_near hnear, hundredths_eq_of_near hself]

end TradeTalk.Decimal
