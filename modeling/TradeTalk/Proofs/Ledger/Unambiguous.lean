import TradeTalk.Proofs.Decimal.Shown
import TradeTalk.Proofs.Ledger.Pricing
import TradeTalk.Proofs.Ledger.Wording

/-!
# `Proofs.Ledger.Unambiguous` — what an answer says can be told from its text

Phrases are free: their words may be `is`, or the name of a metal, or a number. So the text of an answer is read from its
end, where each kind of answer has a word of its own: a number, the unit of a price, the verb, or the last word of a
fixed sentence. In front of it everything but the phrase is a single word, and what is left is the phrase.

## Contents
- **`append_space_inj`**: a text is cut at its last space in one way only.
- **`Answer.ShowsSame`**: two answers say the same, where costs count in hundredths.
- **`Answer.lastWord`**, **`Answer.lastWord_eq_of_text_eq`**: the word that an answer ends with.
- **`Answer.InWords.showsSame`**, **`Answer.ShowsSame.text_eq`**: equal texts, and answers that say the same.
- **`Ledger.Reachable.text_unambiguous`**: the texts of reachable ledgers are unambiguous.
-/

namespace TradeTalk

/-- A text is cut at its last space in one way only. -/
theorem append_space_inj {a b p q : List Char} (hp : ' ' ∉ p) (hq : ' ' ∉ q) :
    a ++ ' ' :: p = b ++ ' ' :: q ↔ a = b ∧ p = q := by
  constructor
  · intro h
    -- Read from the end, the first space is the one in the middle.
    have hreverse : p.reverse ++ ' ' :: a.reverse = q.reverse ++ ' ' :: b.reverse := by
      simpa using congrArg List.reverse h
    rcases List.append_eq_append_iff.mp hreverse with ⟨more, hmore, hrest⟩ | ⟨more, hmore, hrest⟩
    · cases more with
      | nil => exact ⟨by simpa using hrest, by simpa using hmore.symm⟩
      | cons c more =>
        obtain ⟨rfl, -⟩ := List.cons.inj hrest
        exact absurd (List.mem_reverse.mp (hmore ▸ by simp)) hq
    · cases more with
      | nil => exact ⟨by simpa using hrest.symm, by simpa using hmore⟩
      | cons c more =>
        obtain ⟨rfl, -⟩ := List.cons.inj hrest
        exact absurd (List.mem_reverse.mp (hmore ▸ by simp)) hp
  · rintro ⟨rfl, rfl⟩
    rfl

/-! ## Single words -/

/-- A number is no word that has anything but digits in it. -/
theorem toString_ne_of_any {n : Nat} (w : String) (h : w.toList.any (!·.isDigit) = true) : toString n ≠ w := by
  rintro rfl
  obtain ⟨c, hc, hdigit⟩ := List.any_eq_true.mp h
  rw [isDigit_of_mem_toString hc] at hdigit
  contradiction

theorem space_notMem_toString (n : Nat) : ' ' ∉ (toString n).toList := by
  intro hm
  exact absurd (isDigit_of_mem_toString hm) (by decide)

theorem Decimal.space_notMem_credits (d : Decimal) : ' ' ∉ d.credits.toList := by
  intro hm
  rcases mem_signed hm with hdigit | hpoint | hminus
  · exact absurd hdigit (by decide)
  · exact absurd hpoint (by decide)
  · exact absurd hminus (by decide)

namespace Answer

/-! ## Answers that say the same -/

/-- Two answers say the same: they are of one kind, with the same names and numbers. A cost is shown in hundredths, so only
    these count. -/
inductive ShowsSame : Answer → Answer → Prop where
  | noted : ShowsSame .noted .noted
  | number (phrase : String) (value : Nat) : ShowsSame (.number phrase value) (.number phrase value)
  | price (phrase metal : String) {cost cost' : Decimal}
      (h : Decimal.roundHalfAway (100 * cost.toRat) = Decimal.roundHalfAway (100 * cost'.toRat)) :
      ShowsSame (.price phrase metal cost) (.price phrase metal cost')
  | unknownName (name : String) : ShowsSame (.unknownName name) (.unknownName name)
  | notUnderstood : ShowsSame .notUnderstood .notUnderstood

/-- The word that the text of an answer ends with. -/
def lastWord : Answer → String
  | .noted => ""
  | .number _ value => toString value
  | .price .. => "Credits"
  | .unknownName _ => "is"
  | .notUnderstood => "about"

variable {a b : Answer}

theorem space_notMem_lastWord (a : Answer) : ' ' ∉ a.lastWord.toList := by
  cases a with
  | noted => decide
  | number phrase value => exact space_notMem_toString value
  | price phrase metal cost =>
    show ' ' ∉ "Credits".toList
    decide
  | unknownName name =>
    show ' ' ∉ "is".toList
    decide
  | notUnderstood => decide

/-- The text of an answer, unless it is silent, is its last word with a space in front of it and something before that. -/
theorem exists_text_eq (h : a ≠ .noted) : ∃ front, a.text.toList = front ++ ' ' :: a.lastWord.toList := by
  cases a with
  | noted => contradiction
  | number phrase value =>
    show ∃ front, (phrase ++ " is " ++ toString value).toList = front ++ ' ' :: (toString value).toList
    exact ⟨(phrase ++ " is").toList, by simp⟩
  | price phrase metal cost =>
    rw [text_price]
    exact ⟨(phrase ++ " " ++ metal ++ " is " ++ cost.credits).toList, by simp [lastWord]⟩
  | unknownName name =>
    show ∃ front, ("I don't know what " ++ name ++ " is").toList = front ++ ' ' :: "is".toList
    exact ⟨("I don't know what " ++ name).toList, by simp⟩
  | notUnderstood => exact ⟨"I have no idea what you are talking".toList, by decide⟩

/-- **Answers with the same text end with the same word.** -/
theorem lastWord_eq_of_text_eq (h : a.text = b.text) : a.lastWord = b.lastWord := by
  by_cases ha : a = .noted
  · have hb : b = .noted := by rw [← text_eq_empty_iff, ← h, text_eq_empty_iff, ha]
    rw [ha, hb]
  · have hb : b ≠ .noted := by rwa [ne_eq, ← text_eq_empty_iff, ← h, text_eq_empty_iff]
    obtain ⟨front, hfront⟩ := exists_text_eq ha
    obtain ⟨front', hfront'⟩ := exists_text_eq hb
    rw [h, hfront', append_space_inj b.space_notMem_lastWord a.space_notMem_lastWord] at hfront
    exact String.toList_inj.mp hfront.2.symm

theorem number_inj {p p' : String} {v v' : Nat} (h : (number p v).text = (number p' v').text) : p = p' ∧ v = v' := by
  have hvalue : toString v = toString v' := lastWord_eq_of_text_eq h
  have htext : p ++ " is " ++ toString v = p' ++ " is " ++ toString v' := h
  rw [hvalue, String.append_left_inj, String.append_left_inj] at htext
  rw [Nat.toString_eq_repr, Nat.toString_eq_repr, Nat.repr_eq_ofList_toDigits, Nat.repr_eq_ofList_toDigits,
    String.ofList_inj] at hvalue
  have hnumber := congrArg (Nat.ofDigitChars 10 · 0) hvalue
  rw [Nat.ofDigitChars_ten_toDigits, Nat.ofDigitChars_ten_toDigits] at hnumber
  exact ⟨htext, hnumber⟩

/-- The metal is the single word in front of the verb. -/
theorem price_inj {p m p' m' : String} {c c' : Decimal} (hm : isMetal m.toList = true) (hm' : isMetal m'.toList = true)
    (h : (price p m c).text = (price p' m' c').text) : p = p' ∧ m = m' ∧ c.credits = c'.credits := by
  have hlist : (p ++ " " ++ m ++ " is").toList ++ ' ' :: c.credits.toList =
      (p' ++ " " ++ m' ++ " is").toList ++ ' ' :: c'.credits.toList := by
    rw [text_price, text_price, String.append_left_inj] at h
    simpa using congrArg String.toList h
  obtain ⟨hfront, hcost⟩ := (append_space_inj c.space_notMem_credits c'.space_notMem_credits).mp hlist
  have hnames : p.toList ++ ' ' :: m.toList = p'.toList ++ ' ' :: m'.toList := by
    rw [String.toList_inj, String.append_left_inj] at hfront
    simpa using congrArg String.toList hfront
  obtain ⟨hphrase, hmetal⟩ := (append_space_inj (space_notMem_of_isWord (isWord_of_isMetal hm))
    (space_notMem_of_isWord (isWord_of_isMetal hm'))).mp hnames
  exact ⟨String.toList_inj.mp hphrase, String.toList_inj.mp hmetal, String.toList_inj.mp hcost⟩

/-- **Answers in words that have the same text say the same.** -/
theorem InWords.showsSame (ha : a.InWords) (hb : b.InWords) (h : a.text = b.text) : ShowsSame a b := by
  -- The kinds are told apart by the last words alone.
  have hlast := lastWord_eq_of_text_eq h
  cases a with
  | noted =>
    obtain rfl : b = .noted := text_eq_empty_iff.mp h.symm
    exact .noted
  | number phrase value =>
    cases b with
    | noted => exact absurd (text_eq_empty_iff.mp h) (by simp)
    | number phrase' value' =>
      obtain ⟨rfl, rfl⟩ := number_inj h
      exact .number phrase value
    | price phrase' metal cost => exact absurd hlast (toString_ne_of_any "Credits" (by decide))
    | unknownName name => exact absurd hlast (toString_ne_of_any "is" (by decide))
    | notUnderstood => exact absurd hlast (toString_ne_of_any "about" (by decide))
  | price phrase metal cost =>
    cases b with
    | price phrase' metal' cost' =>
      obtain ⟨rfl, rfl, hcredits⟩ := price_inj ha.2 hb.2 h
      have hround := congrArg Decimal.written hcredits
      rw [cost.credits_shown.2.1, cost'.credits_shown.2.1, div_left_inj' (by norm_num)] at hround
      exact .price phrase metal (by exact_mod_cast hround)
    | number phrase' value => exact absurd hlast.symm (toString_ne_of_any "Credits" (by decide))
    | _ => simp [lastWord] at hlast
  | unknownName name =>
    cases b with
    | unknownName name' =>
      have htext : "I don't know what " ++ name ++ " is" = "I don't know what " ++ name' ++ " is" := h
      rw [String.append_left_inj, String.append_right_inj] at htext
      exact htext ▸ .unknownName name
    | number phrase' value => exact absurd hlast.symm (toString_ne_of_any "is" (by decide))
    | _ => simp [lastWord] at hlast
  | notUnderstood =>
    cases b with
    | notUnderstood => exact .notUnderstood
    | number phrase' value => exact absurd hlast.symm (toString_ne_of_any "about" (by decide))
    | _ => simp [lastWord] at hlast

/-- **Answers that say the same have the same text**, if no cost has a sign. -/
theorem ShowsSame.text_eq (h : ShowsSame a b) (hsign : ∀ p m cost, a = .price p m cost → cost.negative = false)
    (hsign' : ∀ p m cost, b = .price p m cost → cost.negative = false) : a.text = b.text := by
  cases h with
  | @price phrase metal cost cost' hround =>
    have hcost := hsign phrase metal cost rfl
    have hcost' := hsign' phrase metal cost' rfl
    have hshown : cost.hundredths = cost'.hundredths := by
      simpa [Decimal.roundHalfAway_hundredths, hcost, hcost'] using hround
    rw [text_price, text_price, Decimal.credits_of_not_negative hcost, Decimal.credits_of_not_negative hcost', hshown]
  | noted => rfl
  | number phrase value => rfl
  | unknownName name => rfl
  | notUnderstood => rfl

end Answer

namespace Ledger

variable {l l' : Ledger} {line line' : String} {a a' : Answer}

theorem Reachable.cost_unsigned (h : l.Reachable) (ha : (l.tell line).1 = .ok a) (p m : String) (cost : Decimal)
    (he : a = .price p m cost) : cost.negative = false := by
  obtain ⟨_, _, _, _, _, -, -, -, -, -, -, hsign⟩ := h.tell_price_unsigned (ha.trans (congrArg Except.ok he))
  exact hsign

/-- **Answer texts are unambiguous.** Whatever two lines are answered by two reachable ledgers, the texts are equal exactly
    if the answers say the same: they are of one kind, with equal phrases and values, equal phrases and metals and costs
    that are equal in hundredths, or equal names. And only what is noted is answered in silence. -/
theorem Reachable.text_unambiguous (h : l.Reachable) (h' : l'.Reachable) (ha : (l.tell line).1 = .ok a)
    (ha' : (l'.tell line').1 = .ok a') : (a.text = a'.text ↔ a.ShowsSame a') ∧ (a.text = "" ↔ a = .noted) := by
  have hwords : a.InWords := h.inWords ha
  have hwords' : a'.InWords := h'.inWords ha'
  refine ⟨⟨hwords.showsSame hwords', ?_⟩, Answer.text_eq_empty_iff⟩
  intro hsame
  exact hsame.text_eq (h.cost_unsigned ha) (h'.cost_unsigned ha')

/-- A ledger by which one unit costs a third, in words that are those of an answer. -/
def byThird : Ledger :=
  (empty.tellAll ["Credits is I", "Credits Credits Credits Is is 1 Credits"]).2

/-- A ledger by which it costs a third in hundredths. -/
def byRoundedThird : Ledger :=
  (empty.tellAll ["Credits is I", "Credits Is is 0.33 Credits"]).2

/-- Two costs with one text, which are equal in hundredths. -/
theorem text_unambiguous_thirds :
    byThird.Reachable ∧ byRoundedThird.Reachable ∧
      (byThird.tell "how many Credits is Credits Is ?").1 =
        .ok (.price "Credits" "Is" ⟨false, 3333333333333333333333333333, 28, by decide, by decide⟩) ∧
      (byRoundedThird.tell "how many Credits is Credits Is").1 =
        .ok (.price "Credits" "Is" ⟨false, 33, 2, by decide, by decide⟩) ∧
      (Answer.price "Credits" "Is" ⟨false, 3333333333333333333333333333, 28, by decide, by decide⟩).text =
        "Credits Is is 0.33 Credits" ∧
      Answer.ShowsSame (.price "Credits" "Is" ⟨false, 3333333333333333333333333333, 28, by decide, by decide⟩)
        (.price "Credits" "Is" ⟨false, 33, 2, by decide, by decide⟩) := by
  have hreach : byThird.Reachable := reachable_iff.mpr ⟨_, rfl⟩
  have hreach' : byRoundedThird.Reachable := reachable_iff.mpr ⟨_, rfl⟩
  have hanswer : (byThird.tell "how many Credits is Credits Is ?").1 =
      .ok (.price "Credits" "Is" ⟨false, 3333333333333333333333333333, 28, by decide, by decide⟩) := by decide +kernel
  have hanswer' : (byRoundedThird.tell "how many Credits is Credits Is").1 =
      .ok (.price "Credits" "Is" ⟨false, 33, 2, by decide, by decide⟩) := by decide +kernel
  refine ⟨hreach, hreach', hanswer, hanswer', by decide +kernel, ?_⟩
  exact (hreach.text_unambiguous hreach' hanswer hanswer').1.mp (by decide +kernel)

end Ledger

end TradeTalk
