import TradeTalk.Proofs.Decimal.Kept
import TradeTalk.Proofs.Decimal.Written
import TradeTalk.Proofs.Request.Language

/-!
# `Proofs.Request.Amounts` — the amounts that price facts keep

A price fact may write its amount with any number of digits. It is read as a decimal, rounded where it has too many of
them, and only then held against the cap. So the amounts that are accepted end half a unit above the cap; and an amount
that a decimal has room for is kept as it is written, with all its zeros.

## Contents
- **`exists_digits`**: a written amount as the digits before its point and those behind it.
- **`ofString?_exact`**: what a decimal has room for is read as it is written.
- **`keeps_of_ofString?`**, **`le_of_ofString?_eq_none`**: anything else is rounded, or too large.
- **`amount?_isSome_iff`**: the amounts within the cap.
- **`ofLine_of_priceFact`**: what becomes of a price fact.
-/

namespace TradeTalk.Request

open Decimal (written fractionDigits digitsWritten tenTo mantissaBound maxScale Keeps)

/-! ## Digits before the point and behind it -/

/-- A written amount starts with a digit, and is read without a sign. -/
theorem ofString?_eq_scan {text : String} (h : WritesAmount text) :
    Decimal.ofString? text = Decimal.scan false false false 0 0 text.toList := by
  obtain ⟨c, cs, hcs, hdigit⟩ := h.eq_cons
  rw [Decimal.ofString?, hcs, Decimal.ofChars?]
  · rintro rest he
    rw [(List.cons.inj he).1] at hdigit
    exact absurd hdigit (by decide)
  · rintro rest he
    rw [(List.cons.inj he).1] at hdigit
    exact absurd hdigit (by decide)

/-- **A written amount as its digits.** The whole part has to fit; what is behind the point is read after it. -/
theorem exists_digits {text : String} (h : WritesAmount text) :
    ∃ whole fraction : List Char, (∀ c ∈ whole, c.isDigit = true) ∧ (∀ c ∈ fraction, c.isDigit = true) ∧
      digitsWritten text = Nat.ofDigitChars 10 (whole ++ fraction) 0 ∧ fractionDigits text = fraction.length ∧
      Decimal.ofString? text =
        if Nat.ofDigitChars 10 whole 0 < mantissaBound then
          Decimal.scan false true true (Nat.ofDigitChars 10 whole 0) 0 fraction
        else none := by
  have hzero : 0 < mantissaBound := by decide
  rw [ofString?_eq_scan h]
  rcases h with ⟨hne, hall⟩ | ⟨whole, fraction, ⟨hwne, hwhole⟩, ⟨-, hfraction⟩, rfl⟩
  · have hscan := Decimal.scan_whole false false 0 hall (fun he => absurd he hne) hzero []
    rw [List.append_nil] at hscan
    refine ⟨text.toList, [], hall, by simp, ?_, Decimal.fractionDigits_of_digits hall, ?_⟩
    · rw [Decimal.digitsWritten_of_digits hall, List.append_nil]
    · -- Without a point the whole part is all there is.
      rw [hscan]
      rfl
  · have hlist : (whole ++ "." ++ fraction).toList = whole.toList ++ '.' :: fraction.toList := by simp
    have hscan := Decimal.scan_whole false false 0 hwhole (fun he => absurd he hwne) hzero
      ('.' :: fraction.toList)
    refine ⟨whole.toList, fraction.toList, hwhole, hfraction, Decimal.digitsWritten_of_point hwhole hfraction hlist,
      Decimal.fractionDigits_of_point hwhole hlist, ?_⟩
    rw [hlist, hscan]
    rfl

/-- A written amount as a number. -/
theorem written_of_writesAmount {text : String} (h : WritesAmount text) :
    written text = digitsWritten text / tenTo (fractionDigits text) := by
  obtain ⟨c, cs, hcs, hdigit⟩ := h.eq_cons
  exact Decimal.written_of_head hcs hdigit

/-! ## What is read -/

/-- What a decimal has room for is read as it is written, with its zeros. -/
theorem ofString?_exact {text : String} (h : WritesAmount text) (hscale : fractionDigits text ≤ maxScale)
    (hroom : digitsWritten text < mantissaBound) :
    Decimal.ofString? text = Decimal.ofParts? false (digitsWritten text) (fractionDigits text) := by
  obtain ⟨whole, fraction, hwhole, hfraction, hdigits, hlength, hread⟩ := exists_digits h
  rw [hdigits, Nat.ofDigitChars_append] at hroom ⊢
  rw [hlength] at hscale ⊢
  have hle := Decimal.le_ofDigitChars fraction (Nat.ofDigitChars 10 whole 0)
  have hlt : Nat.ofDigitChars 10 whole 0 < mantissaBound := by omega
  rw [hread, if_pos hlt]
  obtain ⟨kept, rest, rfl, hscan, hkept, -, hend⟩ :=
    Decimal.scan_fraction false hfraction hlt (Nat.zero_le _)
  rw [hscan, Nat.zero_add]
  rw [List.length_append] at hscale
  -- Digits are left over only where there is no room for the first of them.
  have hrest : rest = [] := by
    rcases hend with hnil | hmax | ⟨c, cs, rfl, hlarge⟩
    · exact hnil
    · exact List.eq_nil_of_length_eq_zero (by omega)
    · have hmore := Decimal.le_ofDigitChars cs
        (Nat.ofDigitChars 10 [c] (Nat.ofDigitChars 10 kept (Nat.ofDigitChars 10 whole 0)))
      rw [Nat.ofDigitChars_append, Nat.ofDigitChars_cons] at hroom
      rw [Nat.ofDigitChars_cons, Nat.ofDigitChars_nil] at hlarge hmore
      omega
  subst hrest
  rw [List.append_nil, Decimal.roundBy_nil false hkept]

section

variable {text : String} {whole kept rest : List Char}

/-- The number written, by the digits of which only some are kept. -/
theorem written_eq_of_kept (h : WritesAmount text)
    (hdigits : digitsWritten text = Nat.ofDigitChars 10 (whole ++ (kept ++ rest)) 0)
    (hlength : fractionDigits text = (kept ++ rest).length) :
    written text = Nat.ofDigitChars 10 rest (Nat.ofDigitChars 10 kept (Nat.ofDigitChars 10 whole 0)) /
      tenTo (0 + kept.length + rest.length) := by
  rw [written_of_writesAmount h, hdigits, hlength, Nat.ofDigitChars_append, Nat.ofDigitChars_append, List.length_append,
    Nat.zero_add]

/-- **What is read is kept of the number written.** -/
theorem keeps_of_ofString? (h : WritesAmount text) {d : Decimal} (hread : Decimal.ofString? text = some d) :
    Keeps (written text) d := by
  obtain ⟨whole, fraction, hwhole, hfraction, hdigits, hlength, hscan⟩ := exists_digits h
  rw [hread, eq_comm, Option.ite_none_right_eq_some] at hscan
  obtain ⟨hlt, hscan⟩ := hscan
  obtain ⟨kept, rest, rfl, hround, -, -, hend⟩ :=
    Decimal.scan_fraction false hfraction hlt (Nat.zero_le _)
  rw [written_eq_of_kept h hdigits hlength]
  exact Decimal.keeps_roundBy (fun c hc => hfraction c (List.mem_append_right kept hc)) hend (hround.symm.trans hscan)

/-- **Only what is too large is not read.** -/
theorem le_of_ofString?_eq_none (h : WritesAmount text) (hread : Decimal.ofString? text = none) :
    (mantissaBound : ℚ) - 1 / 2 ≤ written text := by
  obtain ⟨whole, fraction, hwhole, hfraction, hdigits, hlength, hscan⟩ := exists_digits h
  rw [hread, eq_comm] at hscan
  split at hscan
  · rename_i hlt
    obtain ⟨kept, rest, rfl, hround, hkept, hle, -⟩ :=
      Decimal.scan_fraction false hfraction hlt (Nat.zero_le _)
    rw [written_eq_of_kept h hdigits hlength]
    exact Decimal.le_of_roundBy_eq_none (fun c hc => hfraction c (List.mem_append_right kept hc)) hkept hle
      (hround.symm.trans hscan)
  · -- The whole part alone is too large.
    rename_i hlarge
    have hmul := Decimal.mul_tenTo_le_ofDigitChars fraction (Nat.ofDigitChars 10 whole 0)
    have hbound : mantissaBound * tenTo fraction.length ≤ digitsWritten text := by
      rw [hdigits, Nat.ofDigitChars_append]
      exact (Nat.mul_le_mul_right _ (not_lt.mp hlarge)).trans hmul
    have hwritten : (mantissaBound : ℚ) ≤ written text := by
      rw [written_of_writesAmount h, hlength, le_div_iff₀ (Decimal.cast_tenTo_pos _)]
      exact_mod_cast hbound
    linarith

/-! ## The cap -/

/-- The least amount that is refused: half a unit of its last place above the cap. -/
theorem limit_eq : (19811993626972827605287309.4115 : ℚ) = maxAmount.magnitude + 1 / 2000 := by
  rw [Decimal.magnitude_maxAmount]
  norm_num

/-- **An amount is accepted** exactly below half a unit above the cap. -/
theorem amount?_isSome_iff (h : WritesAmount text) :
    (amount? text).isSome = true ↔ written text < 19811993626972827605287309.4115 := by
  rw [limit_eq, amount?]
  cases hread : Decimal.ofString? text with
  | none =>
    have hlarge := le_of_ofString?_eq_none h hread
    rw [Decimal.cast_mantissaBound] at hlarge
    rw [Decimal.magnitude_maxAmount]
    refine iff_of_false (by simp) (not_lt.mpr ?_)
    linarith
  | some d =>
    have hiff := (keeps_of_ofString? h hread).le_maxAmount_iff (negative_of_writesAmount h hread)
    rw [← hiff]
    by_cases hd : d ≤ maxAmount <;> simp [hd]

/-- **What is accepted is kept as it is written** if a decimal has room for it. -/
theorem toRat_eq_written (h : WritesAmount text) {d : Decimal} (hread : Decimal.ofString? text = some d)
    (hscale : fractionDigits text ≤ maxScale) (hroom : digitsWritten text < mantissaBound) :
    d.toRat = written text ∧ d.scale = fractionDigits text := by
  have hsign := negative_of_writesAmount h hread
  rw [ofString?_exact h hscale hroom] at hread
  obtain ⟨hm, hs, -⟩ := Decimal.parts_of_ofParts? hread
  exact ⟨by rw [Decimal.toRat_eq_magnitude hsign, Decimal.magnitude, hm, hs, written_of_writesAmount h], hs⟩

/-- **Otherwise it is off** by half a unit of the last place at most. -/
theorem abs_toRat_sub_written_le (h : WritesAmount text) {d : Decimal} (hread : Decimal.ofString? text = some d) :
    |d.toRat - written text| ≤ 1 / 2 / 10 ^ d.scale := by
  have hkeeps := keeps_of_ofString? h hread
  have hle := hkeeps.le
  have hlt := hkeeps.lt
  rw [Decimal.cast_tenTo] at hle hlt
  rw [Decimal.toRat_eq_magnitude (negative_of_writesAmount h hread), abs_le]
  constructor <;> linarith

end

/-! ## Price facts -/

section

variable {line : String} {phrase : Phrase} {metal text : String}

theorem writesAmount_of_priceFact? (h : Sentence.priceFact? line.toList = some (.priceFact phrase metal text)) :
    WritesAmount text := by
  obtain ⟨-, -, -, -, hw, -⟩ := ofLine?_eq_priceFact_iff.mp (Sentence.ofLine?_eq_some_iff_ruleOf.mpr h)
  exact hw

/-- A line that is read as a price fact states its price if the amount is accepted, and is unknown otherwise. -/
theorem ofLine_eq_of_priceFact? (h : Sentence.priceFact? line.toList = some (.priceFact phrase metal text)) :
    ofLine line = ((amount? text).map (.priceFact phrase metal)).getD (.unknown line) := by
  have hsentence : Sentence.ofLine? line = some (.priceFact phrase metal text) :=
    Sentence.ofLine?_eq_some_iff_ruleOf.mpr h
  rw [ofLine_eq_getD, hsentence]
  rfl

theorem ofLine_eq_priceFact_iff_of_priceFact?
    (h : Sentence.priceFact? line.toList = some (.priceFact phrase metal text)) {amount : Decimal} :
    ofLine line = .priceFact phrase metal amount ↔ amount? text = some amount := by
  rw [ofLine_eq_of_priceFact? h]
  cases amount? text <;> simp

/-- **What becomes of a price fact.** A line that is read as one, whatever digits it writes its amount by, states a price
    exactly if the amount is less than half a unit of the last place above the cap, and is unknown otherwise. The price
    then stated has the amount as it is written, scale and all, if its digits make a mantissa; and in any case one that
    is off by half a unit of its last place at most. -/
theorem ofLine_of_priceFact (h : Sentence.priceFact? line.toList = some (.priceFact phrase metal text)) :
    ((∃ amount, ofLine line = .priceFact phrase metal amount) ↔ written text < 19811993626972827605287309.4115) ∧
      (¬ written text < 19811993626972827605287309.4115 → ofLine line = .unknown line) ∧
      ∀ amount, ofLine line = .priceFact phrase metal amount →
        (fractionDigits text ≤ 28 → digitsWritten text < 2 ^ 96 →
          amount.toRat = written text ∧ amount.scale = fractionDigits text) ∧
        |amount.toRat - written text| ≤ 1 / 2 / 10 ^ amount.scale := by
  have hw := writesAmount_of_priceFact? h
  have hlimit := amount?_isSome_iff hw
  refine ⟨?_, ?_, ?_⟩
  · simp only [ofLine_eq_priceFact_iff_of_priceFact? h]
    rw [← hlimit, Option.isSome_iff_exists]
  · intro hlarge
    rw [← hlimit, Bool.not_eq_true, Option.isSome_eq_false_iff, Option.isNone_iff_eq_none] at hlarge
    rw [ofLine_eq_of_priceFact? h, hlarge]
    rfl
  · intro amount hamount
    obtain ⟨hread, -⟩ := amount?_eq_some_iff.mp ((ofLine_eq_priceFact_iff_of_priceFact? h).mp hamount)
    exact ⟨fun hscale hroom => toRat_eq_written hw hread hscale hroom, abs_toRat_sub_written_le hw hread⟩

end

/-- At the limit: one amount is accepted and rounded down to the cap, and the next is refused. -/
theorem ofLine_of_priceFact_at_limit :
    Sentence.priceFact? "glob Iron is 19811993626972827605287309.411499999 Credits".toList =
        some (.priceFact ["glob"] "Iron" "19811993626972827605287309.411499999") ∧
      (∃ amount, ofLine "glob Iron is 19811993626972827605287309.411499999 Credits" =
        .priceFact ["glob"] "Iron" amount) ∧
      ofLine "glob Iron is 19811993626972827605287309.411499999 Credits" = .priceFact ["glob"] "Iron" maxAmount ∧
      |maxAmount.toRat - written "19811993626972827605287309.411499999"| ≤ 1 / 2 / 10 ^ 3 ∧
      Sentence.priceFact? "glob Iron is 019811993626972827605287309.41150 Credits".toList =
        some (.priceFact ["glob"] "Iron" "019811993626972827605287309.41150") ∧
      ofLine "glob Iron is 019811993626972827605287309.41150 Credits" =
        .unknown "glob Iron is 019811993626972827605287309.41150 Credits" := by
  have hbelow : Sentence.priceFact? "glob Iron is 19811993626972827605287309.411499999 Credits".toList =
      some (.priceFact ["glob"] "Iron" "19811993626972827605287309.411499999") := by decide +kernel
  have hamount : ofLine "glob Iron is 19811993626972827605287309.411499999 Credits" =
      .priceFact ["glob"] "Iron" maxAmount := by decide +kernel
  have habove : Sentence.priceFact? "glob Iron is 019811993626972827605287309.41150 Credits".toList =
      some (.priceFact ["glob"] "Iron" "019811993626972827605287309.41150") := by decide +kernel
  obtain ⟨haccepted, -, hkept⟩ := ofLine_of_priceFact hbelow
  obtain ⟨-, hrefused, -⟩ := ofLine_of_priceFact habove
  have hscale : maxAmount.scale = 3 := by rw [maxAmount_eq]
  have hnear := (hkept maxAmount hamount).2
  rw [hscale] at hnear
  exact ⟨hbelow, haccepted.mpr (by decide +kernel), hamount, hnear, habove, hrefused (by decide +kernel)⟩

end TradeTalk.Request
