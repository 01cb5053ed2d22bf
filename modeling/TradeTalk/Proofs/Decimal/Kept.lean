import TradeTalk.Proofs.Decimal.Cap
import TradeTalk.Proofs.Decimal.Hundredths
import TradeTalk.Proofs.Decimal.Reading

/-!
# `Proofs.Decimal.Kept` — what is kept of the digits of a text

The digits before the point are kept, or else nothing is read. Those behind it are kept as long as there is room; the first
that has none rounds the others, and the rest of the text is passed over. That digit alone decides like all digits from it
on, since a half is where it is five. If rounding carries the mantissa past its bound, a digit more is given up. All of it
is off by half a unit of the last place at most, and a tie is rounded up.

## Contents
- **`scan_whole`**, **`scan_fraction`**: the digits that the reading loop keeps.
- **`roundBy_eq`**: the first digit that is not kept rounds half up.
- **`Keeps`**: how a decimal lies to the number that it was read from.
- **`keeps_roundBy`**, **`le_of_roundBy_eq_none`**: what is rounded lies so, and only what is too large is not read.
- **`Keeps.le_maxAmount_iff`**: so the cap refuses numbers from half a unit above it.
-/

namespace TradeTalk.Decimal

/-! ## Runs of digits -/

theorem ofDigitChars_eq (cs : List Char) (m : Nat) :
    Nat.ofDigitChars 10 cs m = m * tenTo cs.length + Nat.ofDigitChars 10 cs 0 := by
  rw [Nat.ofDigitChars_eq_ofDigitChars_zero, Nat.mul_comm]
  rfl

theorem mul_tenTo_le_ofDigitChars (cs : List Char) (m : Nat) : m * tenTo cs.length ≤ Nat.ofDigitChars 10 cs m := by
  rw [ofDigitChars_eq]
  exact Nat.le_add_right _ _

theorem le_ofDigitChars (cs : List Char) (m : Nat) : m ≤ Nat.ofDigitChars 10 cs m :=
  (Nat.le_mul_of_pos_right m (tenTo_pos _)).trans (mul_tenTo_le_ofDigitChars cs m)

theorem digitValue?_of_isDigit {c : Char} (h : c.isDigit = true) : digitValue? c = some (c.toNat - '0'.toNat) := by
  have hrange := Char.isDigit_iff_toNat.mp h
  exact if_pos ⟨hrange.1, hrange.2⟩

theorem digit_lt {c : Char} (h : c.isDigit = true) : c.toNat - '0'.toNat < 10 :=
  digitValue?_lt (digitValue?_of_isDigit h)

theorem ofDigitChars_lt {cs : List Char} (h : ∀ c ∈ cs, c.isDigit = true) : Nat.ofDigitChars 10 cs 0 < tenTo cs.length := by
  induction cs with
  | nil => exact Nat.one_pos
  | cons c cs ih =>
    have hdigit := digit_lt (h c List.mem_cons_self)
    have hrest := ih fun d hd => h d (List.mem_cons_of_mem c hd)
    have hmul : (c.toNat - '0'.toNat) * tenTo cs.length ≤ 9 * tenTo cs.length := Nat.mul_le_mul_right _ (by omega)
    rw [Nat.ofDigitChars_cons, Nat.mul_zero, Nat.zero_add, ofDigitChars_eq, List.length_cons, tenTo_succ]
    omega

/-! ## The loop keeps digits -/

variable {negative anyDigit : Bool} {m s : Nat}

theorem scan_isDigit {c : Char} (hc : c.isDigit = true) (afterPoint : Bool) (cs : List Char)
    (hs : afterPoint = true → s ≠ maxScale) :
    scan negative afterPoint anyDigit m s (c :: cs) =
      if Nat.ofDigitChars 10 [c] m < mantissaBound then
        scan negative afterPoint true (Nat.ofDigitChars 10 [c] m) (if afterPoint then s + 1 else s) cs
      else if afterPoint then roundBy negative m s (c :: cs)
      else none := by
  have hroom : ¬ (afterPoint = true ∧ s = maxScale) := fun ⟨hpoint, he⟩ => hs hpoint he
  rw [scan, if_neg hroom, digitValue?_of_isDigit hc, Nat.ofDigitChars_cons, Nat.ofDigitChars_nil, Nat.mul_comm 10]

/-- **Before the point** all digits are kept, or nothing is read. -/
theorem scan_whole (negative anyDigit : Bool) (s : Nat) {whole : List Char} (hw : ∀ c ∈ whole, c.isDigit = true)
    (hany : whole = [] → anyDigit = true) (hm : m < mantissaBound) (cs : List Char) :
    scan negative false anyDigit m s (whole ++ cs) =
      if Nat.ofDigitChars 10 whole m < mantissaBound then scan negative false true (Nat.ofDigitChars 10 whole m) s cs
      else none := by
  induction whole generalizing m anyDigit with
  | nil =>
    rw [hany rfl, Nat.ofDigitChars_nil, if_pos hm, List.nil_append]
  | cons c whole ih =>
    have hsplit : Nat.ofDigitChars 10 (c :: whole) m = Nat.ofDigitChars 10 whole (Nat.ofDigitChars 10 [c] m) :=
      Nat.ofDigitChars_append (l := [c]) m
    rw [List.cons_append, scan_isDigit (hw c List.mem_cons_self) false _ nofun, hsplit]
    by_cases hc : Nat.ofDigitChars 10 [c] m < mantissaBound
    · rw [if_pos hc, if_neg (by decide), ih true (fun d hd => hw d (List.mem_cons_of_mem c hd)) (fun _ => rfl) hc]
    · have hle := le_ofDigitChars whole (Nat.ofDigitChars 10 [c] m)
      rw [if_neg hc, if_neg (by decide), if_neg (by omega)]

/-- **Behind the point** digits are kept up to the first that has no room, or to the end. -/
theorem scan_fraction (negative : Bool) {fraction : List Char} (hf : ∀ c ∈ fraction, c.isDigit = true)
    (hm : m < mantissaBound) (hs : s ≤ maxScale) :
    ∃ kept rest, fraction = kept ++ rest ∧
      scan negative true true m s fraction = roundBy negative (Nat.ofDigitChars 10 kept m) (s + kept.length) rest ∧
      Nat.ofDigitChars 10 kept m < mantissaBound ∧ s + kept.length ≤ maxScale ∧
      (rest = [] ∨ s + kept.length = maxScale ∨
        ∃ c cs, rest = c :: cs ∧ mantissaBound ≤ Nat.ofDigitChars 10 [c] (Nat.ofDigitChars 10 kept m)) := by
  induction fraction generalizing m s with
  | nil => exact ⟨[], [], rfl, (roundBy_nil negative hm).symm, hm, hs, Or.inl rfl⟩
  | cons c fraction ih =>
    by_cases hmax : s = maxScale
    · have hstop : scan negative true true m s (c :: fraction) = roundBy negative m s (c :: fraction) := by
        rw [scan, if_pos ⟨rfl, hmax⟩]
      exact ⟨[], c :: fraction, rfl, hstop, hm, hs, Or.inr (Or.inl hmax)⟩
    · rw [scan_isDigit (hf c List.mem_cons_self) true _ fun _ => hmax]
      by_cases hc : Nat.ofDigitChars 10 [c] m < mantissaBound
      · obtain ⟨kept, rest, rfl, hscan, hlt, hle, hend⟩ :=
          ih (fun d hd => hf d (List.mem_cons_of_mem c hd)) hc (by omega : s + 1 ≤ maxScale)
        have hsplit : Nat.ofDigitChars 10 (c :: kept) m = Nat.ofDigitChars 10 kept (Nat.ofDigitChars 10 [c] m) :=
          Nat.ofDigitChars_append (l := [c]) m
        have hlength : s + (c :: kept).length = s + 1 + kept.length := by
          rw [List.length_cons]
          omega
        refine ⟨c :: kept, rest, rfl, ?_, ?_, ?_, ?_⟩
        · rw [if_pos hc, if_pos rfl, hscan, hsplit, hlength]
        · rwa [hsplit]
        · rwa [hlength]
        · rwa [hsplit, hlength]
      · exact ⟨[], c :: fraction, rfl, by rw [if_neg hc, if_pos rfl]; rfl, hm, hs,
          Or.inr (Or.inr ⟨c, fraction, rfl, not_lt.mp hc⟩)⟩

/-! ## The first digit that is not kept -/

theorem decidingDigit_cons {c : Char} (hc : c.isDigit = true) (cs : List Char) :
    decidingDigit m (c :: cs) = c.toNat - '0'.toNat := by
  have hseparator : ¬ (m < longBound ∧ (c :: cs).head? = some '_') := by
    rintro ⟨-, he⟩
    rw [List.head?_cons, Option.some.injEq] at he
    rw [he] at hc
    exact absurd hc (by decide)
  rw [decidingDigit, if_neg hseparator, List.findSome?_cons, digitValue?_of_isDigit hc]
  rfl

/-- One digit decides like all that follow: they are half a unit or more exactly if it is five or more. -/
theorem five_le_decidingDigit_iff {rest : List Char} (h : ∀ c ∈ rest, c.isDigit = true) :
    5 ≤ decidingDigit m rest ↔ tenTo rest.length ≤ 2 * Nat.ofDigitChars 10 rest 0 := by
  cases rest with
  | nil => simp [decidingDigit, tenTo]
  | cons c cs =>
    have hlt := ofDigitChars_lt fun d hd => h d (List.mem_cons_of_mem c hd)
    have hpos := tenTo_pos cs.length
    rw [decidingDigit_cons (h c List.mem_cons_self), Nat.ofDigitChars_cons, Nat.mul_zero, Nat.zero_add, ofDigitChars_eq,
      List.length_cons, tenTo_succ]
    generalize c.toNat - '0'.toNat = digit
    constructor
    · intro hfive
      have hmul : 5 * tenTo cs.length ≤ digit * tenTo cs.length := Nat.mul_le_mul_right _ hfive
      omega
    · intro hhalf
      by_contra hfour
      have hmul : digit * tenTo cs.length ≤ 4 * tenTo cs.length := Nat.mul_le_mul_right _ (by omega)
      omega

/-- What the mantissa becomes: all the digits, rounded half up to those that are kept. -/
theorem rounded_eq_roundHalfUp {rest : List Char} (h : ∀ c ∈ rest, c.isDigit = true) :
    (if 5 ≤ decidingDigit m rest then m + 1 else m) =
      roundHalfUp (Nat.ofDigitChars 10 rest m) (tenTo rest.length) := by
  have hlt := ofDigitChars_lt h
  have hdiv : Nat.ofDigitChars 10 rest m / tenTo rest.length = m := by
    rw [ofDigitChars_eq, Nat.mul_comm, Nat.mul_add_div (tenTo_pos _), Nat.div_eq_of_lt hlt, Nat.add_zero]
  have hmod : Nat.ofDigitChars 10 rest m % tenTo rest.length = Nat.ofDigitChars 10 rest 0 := by
    rw [ofDigitChars_eq, Nat.mul_comm, Nat.mul_add_mod, Nat.mod_eq_of_lt hlt]
  rw [roundHalfUp, hdiv, hmod]
  simp only [five_le_decidingDigit_iff h]

/-- **Digits that have no room** round the others half up, all of them together. -/
theorem roundBy_eq {rest : List Char} (h : ∀ c ∈ rest, c.isDigit = true) :
    roundBy negative m s rest =
      if roundHalfUp (Nat.ofDigitChars 10 rest m) (tenTo rest.length) = mantissaBound ∧ s ≠ 0 then
        ofParts? negative ((mantissaBound + 4) / 10) (s - 1)
      else ofParts? negative (roundHalfUp (Nat.ofDigitChars 10 rest m) (tenTo rest.length)) s := by
  have hall : rest.all canDrop = true := by
    rw [List.all_eq_true]
    intro c hc
    simp [canDrop, digitValue?_of_isDigit (h c hc)]
  rw [roundBy, if_pos hall, rounded_eq_roundHalfUp h]
  dsimp only
  split
  · rename_i hcarry
    rw [hcarry.1]
  · rfl

/-! ## What is kept of a number -/

/-- A decimal is what has been kept of a number: half a unit of its last place above it at most, and less than half a unit
    below it; and it is the number itself unless a digit more has no room. -/
structure Keeps (x : ℚ) (d : Decimal) : Prop where
  le : d.magnitude ≤ x + 1 / 2 / tenTo d.scale
  lt : x < d.magnitude + 1 / 2 / tenTo d.scale
  full : d.magnitude = x ∨ d.scale = maxScale ∨ (mantissaBound : ℚ) - 1 / 2 ≤ x * tenTo (d.scale + 1)

/-- In units of its own place a decimal that is kept of a number is off by one half at most. -/
theorem keeps_of_units {x : ℚ} {d : Decimal} (hle : (d.mantissa : ℚ) ≤ x * tenTo d.scale + 1 / 2)
    (hlt : x * tenTo d.scale < d.mantissa + 1 / 2)
    (hfull : d.mantissa = x * tenTo d.scale ∨ d.scale = maxScale ∨
      (mantissaBound : ℚ) - 1 / 2 ≤ x * tenTo (d.scale + 1)) : Keeps x d := by
  have hpos := cast_tenTo_pos d.scale
  refine ⟨?_, ?_, hfull.imp_left fun he => ?_⟩
  · rwa [magnitude, div_le_iff₀ hpos, add_mul, div_mul_cancel₀ _ hpos.ne']
  · rwa [magnitude, ← add_div, lt_div_iff₀ hpos]
  · rw [magnitude, he, mul_div_cancel_right₀ _ hpos.ne']

section Rounded

variable {rest : List Char}

/-- The number that the digits write, in units of the scale where some of them have been kept. -/
theorem units_of_rest (m s : Nat) (rest : List Char) :
    (Nat.ofDigitChars 10 rest m : ℚ) / tenTo (s + rest.length) * tenTo s =
      Nat.ofDigitChars 10 rest m / tenTo rest.length := by
  have hs := cast_tenTo_pos s
  have hr := cast_tenTo_pos rest.length
  rw [tenTo_add, Nat.cast_mul]
  field_simp

/-- Where a digit more is too much, the number is too large for a digit more. -/
theorem mantissaBound_le_of_digit {c : Char} (h : mantissaBound ≤ Nat.ofDigitChars 10 [c] m) (s : Nat) (cs : List Char) :
    (mantissaBound : ℚ) ≤
      (Nat.ofDigitChars 10 (c :: cs) m : ℚ) / tenTo (s + (c :: cs).length) * tenTo (s + 1) := by
  have hsplit : Nat.ofDigitChars 10 (c :: cs) m = Nat.ofDigitChars 10 cs (Nat.ofDigitChars 10 [c] m) :=
    Nat.ofDigitChars_append (l := [c]) m
  have hlength : s + (c :: cs).length = s + 1 + cs.length := by
    rw [List.length_cons]
    omega
  have hmul := mul_tenTo_le_ofDigitChars cs (Nat.ofDigitChars 10 [c] m)
  have hbound : mantissaBound * tenTo cs.length ≤ Nat.ofDigitChars 10 cs (Nat.ofDigitChars 10 [c] m) :=
    (Nat.mul_le_mul_right _ h).trans hmul
  rw [hsplit, hlength, units_of_rest, le_div_iff₀ (cast_tenTo_pos _)]
  exact_mod_cast hbound

/-- How the rounded mantissa lies to the number. -/
theorem roundHalfUp_bounds (m s : Nat) (rest : List Char) :
    (roundHalfUp (Nat.ofDigitChars 10 rest m) (tenTo rest.length) : ℚ) ≤
        Nat.ofDigitChars 10 rest m / tenTo (s + rest.length) * tenTo s + 1 / 2 ∧
      (Nat.ofDigitChars 10 rest m : ℚ) / tenTo (s + rest.length) * tenTo s <
        roundHalfUp (Nat.ofDigitChars 10 rest m) (tenTo rest.length) + 1 / 2 := by
  rw [units_of_rest]
  generalize hr : roundHalfUp (Nat.ofDigitChars 10 rest m) (tenTo rest.length) = r
  have hle := (le_roundHalfUp_iff_div (tenTo_pos rest.length)).mp hr.ge
  have hgt : ¬ r + 1 ≤ roundHalfUp (Nat.ofDigitChars 10 rest m) (tenTo rest.length) := by omega
  rw [le_roundHalfUp_iff_div (tenTo_pos rest.length), not_le] at hgt
  push_cast at hgt
  constructor <;> linarith

/-- **What is rounded is kept of the number**, also where rounding carries the mantissa past its bound. -/
theorem keeps_roundBy (hrest : ∀ c ∈ rest, c.isDigit = true)
    (hend : rest = [] ∨ s = maxScale ∨ ∃ c cs, rest = c :: cs ∧ mantissaBound ≤ Nat.ofDigitChars 10 [c] m) {d : Decimal}
    (h : roundBy negative m s rest = some d) :
    Keeps (Nat.ofDigitChars 10 rest m / tenTo (s + rest.length)) d := by
  obtain ⟨hle, hlt⟩ := roundHalfUp_bounds m s rest
  rw [roundBy_eq hrest] at h
  split at h
  · -- The carry gives up one digit more. The bound ends in a six, so four is what makes it a multiple of ten.
    rename_i hcarry
    obtain ⟨hround, hs⟩ := hcarry
    obtain ⟨hm, hscale, -⟩ := parts_of_ofParts? h
    have hsucc : s = d.scale + 1 := by omega
    have hten : (10 : ℚ) * d.mantissa = mantissaBound + 4 := by
      have hnat : 10 * ((mantissaBound + 4) / 10) = mantissaBound + 4 := by decide
      rw [hm]
      exact_mod_cast hnat
    rw [hround] at hle hlt
    generalize (Nat.ofDigitChars 10 rest m : ℚ) / tenTo (s + rest.length) = x at *
    rw [hsucc, tenTo_succ, Nat.cast_mul, ← mul_assoc] at hle hlt
    push_cast at hle hlt
    refine keeps_of_units (by linarith) (by linarith) (Or.inr (Or.inr ?_))
    rw [tenTo_succ, Nat.cast_mul, ← mul_assoc]
    push_cast
    linarith
  · obtain ⟨hm, hscale, -⟩ := parts_of_ofParts? h
    rw [← hm, ← hscale] at hle hlt
    subst hscale
    refine keeps_of_units hle hlt ?_
    rcases hend with rfl | hmax | ⟨c, cs, rfl, hroom⟩
    · have hself : roundHalfUp (Nat.ofDigitChars 10 [] m) (tenTo 0) = m := roundHalfUp_one m
      left
      rw [units_of_rest, hm, List.length_nil, hself, Nat.ofDigitChars_nil, cast_tenTo_zero, div_one]
    · exact Or.inr (Or.inl hmax)
    · have hbound := mantissaBound_le_of_digit hroom d.scale cs
      exact Or.inr (Or.inr (by linarith))

/-- **Only what is too large is not read.** -/
theorem le_of_roundBy_eq_none (hrest : ∀ c ∈ rest, c.isDigit = true) (hm : m < mantissaBound) (hs : s ≤ maxScale)
    (h : roundBy negative m s rest = none) :
    (mantissaBound : ℚ) - 1 / 2 ≤ Nat.ofDigitChars 10 rest m / tenTo (s + rest.length) := by
  have hround : roundHalfUp (Nat.ofDigitChars 10 rest m) (tenTo rest.length) ≤ mantissaBound := by
    rw [← rounded_eq_roundHalfUp hrest]
    split <;> omega
  obtain ⟨hle, -⟩ := roundHalfUp_bounds m s rest
  rw [roundBy_eq hrest] at h
  split at h
  · -- With a digit to give up there is room again.
    have htenth : (mantissaBound + 4) / 10 < mantissaBound := by decide
    rcases ofParts?_eq_none_iff.mp h with hlarge | hlarge <;> omega
  · rename_i hcarry
    rcases ofParts?_eq_none_iff.mp h with hlarge | hlarge
    · have hzero : s = 0 := by
        by_contra hpos
        exact hcarry ⟨by omega, hpos⟩
      have hlarge' : (mantissaBound : ℚ) ≤ roundHalfUp (Nat.ofDigitChars 10 rest m) (tenTo rest.length) := by
        exact_mod_cast hlarge
      rw [hzero, cast_tenTo_zero, mul_one] at hle
      rw [hzero]
      linarith
    · omega

end Rounded

/-! ## The cap -/

theorem half_unit_anti {j k : Nat} (h : j ≤ k) : (1 : ℚ) / 2 / tenTo k ≤ 1 / 2 / tenTo j := by
  have hten : (tenTo j : ℚ) ≤ tenTo k := by exact_mod_cast Nat.pow_le_pow_right (by decide) h
  exact div_le_div_of_nonneg_left (by norm_num) (cast_tenTo_pos j) hten

/-- With less than three digits behind the point, what is kept is the number itself, or one far above the cap. -/
theorem Keeps.eq_or_large {x : ℚ} {d : Decimal} (h : Keeps x d) (hs : d.scale ≤ 2) :
    d.magnitude = x ∨ (mantissaBound : ℚ) - 1 / 2 ≤ x * 1000 := by
  rcases h.full with he | hmax | hroom
  · exact Or.inl he
  · rw [hmax] at hs
    exact absurd hs (by decide)
  · right
    have hpos : 0 < x := by
      rw [cast_mantissaBound] at hroom
      exact pos_of_mul_pos_left (by linarith) (cast_tenTo_pos (d.scale + 1)).le
    have hten : tenTo (d.scale + 1) ≤ 1000 := Nat.pow_le_pow_right (by decide) (by omega : d.scale + 1 ≤ 3)
    have hten' : (tenTo (d.scale + 1) : ℚ) ≤ 1000 := by exact_mod_cast hten
    exact hroom.trans (mul_le_mul_of_nonneg_left hten' hpos.le)

/-- **The cap refuses numbers from half a unit above it**: what is kept of a smaller number is within the cap, and what is
    kept of such a number or a larger one is not. -/
theorem Keeps.le_maxAmount_iff {x : ℚ} {d : Decimal} (h : Keeps x d) (hsign : d.negative = false) :
    d ≤ Request.maxAmount ↔ x < Request.maxAmount.magnitude + 1 / 2000 := by
  have hle := h.le
  have hlt := h.lt
  have hthree : (1 : ℚ) / 2 / tenTo 3 = 1 / 2000 := by
    rw [cast_tenTo]
    norm_num
  have hone : (1 : ℚ) / 2 / tenTo 0 = 1 / 2 := by rw [cast_tenTo_zero, div_one]
  have hhalf := half_unit_anti (Nat.zero_le d.scale)
  constructor
  · intro hcap
    rw [le_iff_magnitude hsign Request.negative_maxAmount, magnitude_maxAmount] at hcap
    rw [magnitude_maxAmount]
    by_contra hx
    by_cases hs : 3 ≤ d.scale
    · have hsmall := half_unit_anti hs
      linarith
    · rcases h.eq_or_large (by omega) with he | hlarge
      · linarith
      · rw [cast_mantissaBound] at hlarge
        linarith
  · intro hx
    by_contra hcap
    obtain ⟨hscale, hnext⟩ := above_maxAmount hsign hcap
    rw [magnitude_maxAmount] at hx hnext
    by_cases hs : d.scale = 3
    · rw [hs] at hle
      linarith
    · rcases h.eq_or_large (by omega) with he | hlarge
      · linarith
      · rw [cast_mantissaBound] at hlarge
        linarith

end TradeTalk.Decimal
