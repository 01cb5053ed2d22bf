import TradeTalk.Document
import TradeTalk.Json.Token

/-!
# `Proofs.Json.Scanning` — the tokens of a printed document

A printed document is cut into the tokens that it is made of. Every text is quoted so that the scanner finds its
characters again: each escape is undone by itself, and of the characters left as they are none ends the text. The lines
and their depths are gone with the spaces.

## Contents
- **`Document.tokens`**: the tokens of a document.
- **`ofCodes?_map_toNat`**: the codes of characters stand for them.
- **`scan_escape`**: an escaped character is found again.
- **`IsCutInto`**: characters that are cut into tokens, whatever follows them.
- **`isCutInto_quoted`**, **`isCutInto_pretty`**: quoted texts and printed documents are.
-/

namespace TradeTalk

namespace Document

mutual

/-- The tokens of a document. -/
def tokens : Document → List Json.Token
  | .text s => [.text s]
  | .array items => .openArray :: itemTokens items ++ [.closeArray]
  | .object fields => .openObject :: fieldTokens fields ++ [.closeObject]

/-- The tokens of the items of an array. -/
def itemTokens : List Document → List Json.Token
  | [] => []
  | [item] => item.tokens
  | item :: next :: items => item.tokens ++ .comma :: itemTokens (next :: items)

/-- The tokens of the fields of an object. -/
def fieldTokens : List (String × Document) → List Json.Token
  | [] => []
  | [(name, value)] => .text name :: .colon :: value.tokens
  | (name, value) :: next :: fields => .text name :: .colon :: value.tokens ++ .comma :: fieldTokens (next :: fields)

end

end Document

namespace Json.Token

open Document (escape hexDigit quoted newLine pretty prettyItems prettyFields tokens itemTokens fieldTokens)

/-! ## Codes of characters -/

/-- A character is no half of another. -/
theorem isLead_or_isTrail_toNat_eq_false (c : Char) : (isLead c.toNat || isTrail c.toNat) = false := by
  have hvalid : c.toNat < 0xD800 ∨ 0xDFFF < c.toNat := c.valid.imp_right And.left
  simp only [isLead, isTrail, Bool.or_eq_false_iff, Bool.and_eq_false_iff, decide_eq_false_iff_not]
  omega

/-- **The codes of some characters stand for these characters.** -/
theorem ofCodes?_map_toNat (cs : List Char) : ofCodes? (cs.map Char.toNat) = some cs := by
  induction cs with
  | nil => rfl
  | cons c cs ih =>
    have hwhole := isLead_or_isTrail_toNat_eq_false c
    cases cs with
    | nil => simp [ofCodes?, hwhole]
    | cons d cs =>
      rw [Bool.or_eq_false_iff] at hwhole
      rw [List.map_cons, List.map_cons, ofCodes?, if_neg (by simp [hwhole.1]), if_neg (by simp [hwhole.2]), ← List.map_cons,
        ih, Char.ofNat_toNat]
      rfl

/-! ## Quoted texts -/

theorem hexValue?_hexDigit (n : Nat) : hexValue? (hexDigit n) = some (n % 16) := by
  have hlt : n % 16 < 16 := Nat.mod_lt n (by decide)
  rw [hexDigit]
  generalize n % 16 = k at hlt ⊢
  decide +revert

variable {codes : List Nat} {rest : List Char}

/-- Four digits behind `\\u` are one code. -/
theorem scan_code (n : Nat) (h : n < 0x20) :
    scan (.inText codes) (['\\', 'u', '0', '0', hexDigit (n / 16), hexDigit n] ++ rest) = scan (.inText (n :: codes)) rest := by
  have hzero : hexValue? '0' = some 0 := by decide
  have hsplit : 16 * (n / 16 % 16) + n % 16 = n := by omega
  show scan (.inCode codes 3 0) ('0' :: '0' :: hexDigit (n / 16) :: hexDigit n :: rest) = _
  simp only [scan, hzero, hexValue?_hexDigit, Nat.mul_zero, Nat.zero_add, hsplit]

/-- A character that needs no escape. -/
theorem scan_plain {c : Char} (hquote : c ≠ '"') (hslash : c ≠ '\\') (hcontrol : ¬ c.toNat < 0x20) :
    scan (.inText codes) (c :: rest) = scan (.inText (c.toNat :: codes)) rest := by
  rw [scan, if_neg hquote, if_neg hslash, if_neg hcontrol]

/-- **An escaped character is found again.** -/
theorem scan_escape (c : Char) : scan (.inText codes) (escape c ++ rest) = scan (.inText (c.toNat :: codes)) rest := by
  fun_cases escape c with
  | case8 c hquote hslash _ _ _ _ _ hcontrol => exact scan_code c.toNat hcontrol
  | case9 c hquote hslash _ _ _ _ _ hcontrol => exact scan_plain hquote hslash hcontrol
  | _ => rfl

theorem scan_flatMap_escape (cs : List Char) :
    scan (.inText codes) (cs.flatMap escape ++ rest) = scan (.inText ((cs.map Char.toNat).reverse ++ codes)) rest := by
  induction cs generalizing codes with
  | nil => rfl
  | cons c cs ih =>
    rw [List.flatMap_cons, List.append_assoc, scan_escape, ih, List.map_cons, List.reverse_cons, List.append_assoc]
    rfl

/-! ## Characters that are cut into tokens -/

/-- Some characters are cut into some tokens, whatever follows them. -/
def IsCutInto (cs : List Char) (ts : List Token) : Prop :=
  ∀ rest, scan .between (cs ++ rest) = (scan .between rest).map (ts ++ ·)

/-- One stretch after another. -/
theorem IsCutInto.append {cs ds : List Char} {ts us : List Token} (h : IsCutInto cs ts) (h' : IsCutInto ds us) :
    IsCutInto (cs ++ ds) (ts ++ us) := by
  intro rest
  rw [List.append_assoc, h, h', Option.map_map]
  simp only [Function.comp_def, List.append_assoc]

/-- A mark is a token by itself. -/
theorem isCutInto_mark {c : Char} {t : Token} (hspace : isSpace c = false) (h : mark? c = some t) : IsCutInto [c] [t] := by
  intro rest
  rw [List.singleton_append, scan, if_neg (by simp [hspace]), h]
  rfl

/-- Spaces hold no token. -/
theorem isCutInto_spaces {cs : List Char} (h : ∀ c ∈ cs, isSpace c = true) : IsCutInto cs [] := by
  intro rest
  induction cs with
  | nil => simp
  | cons c cs ih =>
    rw [List.cons_append, scan, if_pos (h c List.mem_cons_self)]
    exact ih fun d hd => h d (List.mem_cons_of_mem _ hd)

/-- **A quoted text is one token.** -/
theorem isCutInto_quoted (s : String) : IsCutInto (quoted s) [text s] := by
  intro rest
  show scan (.inText []) ((s.toList.flatMap escape ++ ['"']) ++ rest) = _
  rw [List.append_assoc, scan_flatMap_escape, List.append_nil, List.singleton_append, scan, if_pos rfl,
    List.reverse_reverse, ofCodes?_map_toNat]
  simp only [String.ofList_toList, List.singleton_append]

/-- The start of a line holds no token. -/
theorem isCutInto_newLine (depth : Nat) : IsCutInto (newLine depth) [] := by
  apply isCutInto_spaces
  intro c hc
  rcases List.mem_cons.mp hc with rfl | hc
  · rfl
  · rw [List.eq_of_mem_replicate hc]
    rfl

/-! ## Printed documents -/

section

variable {depth : Nat} {body : List Char} {ts : List Token}

/-- A container on several lines: its marks, and what is between them. -/
theorem IsCutInto.enclosed {c d : Char} {t u : Token} (hc : IsCutInto [c] [t]) (hbody : IsCutInto body ts)
    (hd : IsCutInto [d] [u]) : IsCutInto (c :: body ++ newLine depth ++ [d]) (t :: ts ++ [u]) := by
  have hall := ((hc.append hbody).append (isCutInto_newLine depth)).append hd
  simpa using hall

/-- A field on a line of its own. -/
theorem IsCutInto.field (name : String) (hvalue : IsCutInto body ts) :
    IsCutInto (newLine depth ++ quoted name ++ ':' :: ' ' :: body) (text name :: colon :: ts) := by
  have hname := (isCutInto_newLine depth).append (isCutInto_quoted name)
  have hcolon := hname.append (isCutInto_mark (c := ':') rfl rfl)
  have hspace : IsCutInto [' '] [] := isCutInto_spaces (List.forall_mem_singleton.mpr rfl)
  have hall := (hcolon.append hspace).append hvalue
  simpa using hall

/-- A comma, and what follows it. -/
theorem IsCutInto.comma (h : IsCutInto body ts) : IsCutInto (',' :: body) (comma :: ts) :=
  (isCutInto_mark (c := ',') rfl rfl).append h

end

mutual

/-- **A printed document is cut into its tokens.** -/
theorem isCutInto_pretty (depth : Nat) (d : Document) : IsCutInto (d.pretty depth) d.tokens := by
  match d with
  | .text s => exact isCutInto_quoted s
  | .array [] => exact (isCutInto_mark (c := '[') rfl rfl).append (isCutInto_mark (c := ']') rfl rfl)
  | .array (item :: items) =>
    rw [pretty, tokens]
    exact (isCutInto_mark rfl rfl).enclosed (isCutInto_prettyItems (depth + 1) (item :: items)) (isCutInto_mark rfl rfl)
  | .object [] => exact (isCutInto_mark (c := '{') rfl rfl).append (isCutInto_mark (c := '}') rfl rfl)
  | .object (field :: fields) =>
    rw [pretty, tokens]
    exact (isCutInto_mark rfl rfl).enclosed (isCutInto_prettyFields (depth + 1) (field :: fields)) (isCutInto_mark rfl rfl)

theorem isCutInto_prettyItems (depth : Nat) (items : List Document) :
    IsCutInto (prettyItems depth items) (itemTokens items) := by
  match items with
  | [] => exact isCutInto_spaces (by simp [prettyItems])
  | [item] => exact (isCutInto_newLine depth).append (isCutInto_pretty depth item)
  | item :: next :: items =>
    have hfirst := (isCutInto_newLine depth).append (isCutInto_pretty depth item)
    exact hfirst.append (isCutInto_prettyItems depth (next :: items)).comma

theorem isCutInto_prettyFields (depth : Nat) (fields : List (String × Document)) :
    IsCutInto (prettyFields depth fields) (fieldTokens fields) := by
  match fields with
  | [] => exact isCutInto_spaces (by simp [prettyFields])
  | [(name, value)] => exact (isCutInto_pretty depth value).field name
  | (name, value) :: next :: fields =>
    have hfirst : IsCutInto (newLine depth ++ quoted name ++ ':' :: ' ' :: pretty depth value) _ :=
      (isCutInto_pretty depth value).field name
    have hall := hfirst.append (isCutInto_prettyFields depth (next :: fields)).comma
    simpa [prettyFields, fieldTokens] using hall

end

end Json.Token

end TradeTalk
