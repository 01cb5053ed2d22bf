import TradeTalk.Overview.Display
import TradeTalk.Proofs.Decimal.Printing
import TradeTalk.Proofs.Decimal.Quotient
import TradeTalk.Proofs.Json.Reading

/-!
# `Proofs.Overview.ReadBack` — an overview in JSON notation

An overview that is shown as a document can be read by any reader of JSON notation. It finds an object with two arrays,
and in these the rows, in order. Texts are found character by character, whatever characters they are of. An amount is
found as a text that reads as the amount, with all its digits; only a zero does not keep its sign. A unit price that is
not known is not there at all.

## Contents
- **`Json.WritesDecimal`**, **`Json.StatesWord`**, **`Json.StatesMetal`**, **`Json.StatesOverview`**: values that state a
  decimal, a row, and all rows.
- **`statesWord_document`**, **`statesMetal_document`**, **`statesOverview_document`**: the documents do.
- **`Overview.display_reads_back`**: and they are found in what is shown.
-/

namespace TradeTalk

namespace Json

/-! ## What values state -/

/-- A text that reads as a decimal: with its mantissa and its scale, and with its sign unless it is zero. -/
def WritesDecimal (json : Json) (d : Decimal) : Prop :=
  ∃ (text : String) (read : Decimal), json = .text text ∧ Decimal.ofString? text = some read ∧
    read.mantissa = d.mantissa ∧ read.scale = d.scale ∧ (d.mantissa ≠ 0 → read.negative = d.negative)

/-- An object that states what a word stands for. -/
structure StatesWord (json : Json) (row : WordRow) : Prop where
  word : json.field? "word" = some (.text row.word)
  symbol : json.field? "symbol" = some (.text (String.singleton row.symbol))

/-- An object that states the price of a metal. It has a unit price exactly if that is known. -/
structure StatesMetal (json : Json) (row : MetalRow) : Prop where
  metal : json.field? "metal" = some (.text row.metal)
  phrase : json.field? "phrase" = some (.text row.phrase)
  amount : ∃ amount, json.field? "amount" = some amount ∧ amount.WritesDecimal row.amount
  unitPrice : Option.Rel WritesDecimal (json.field? "unit_value") row.unitPrice

/-- An object that states all rows of an overview, in order. -/
structure StatesOverview (json : Json) (view : Overview) : Prop where
  words : ∃ symbols, json.field? "symbols" = some (.array symbols) ∧ List.Forall₂ StatesWord symbols view.words
  metals : ∃ metals, json.field? "metals" = some (.array metals) ∧ List.Forall₂ StatesMetal metals view.metals

/-! ## What the documents state -/

theorem writesDecimal_text (d : Decimal) : WritesDecimal (.text d.text) d := by
  obtain ⟨read, hread, -⟩ := Decimal.exists_ofParts? d.negative d.mantissa_lt d.scale_le
  obtain ⟨hmantissa, hscale, hnegative⟩ := Decimal.parts_of_ofParts? hread
  refine ⟨d.text, read, rfl, d.ofString?_text_eq.trans hread, hmantissa, hscale, ?_⟩
  intro hne
  simp [hnegative, hne]

theorem statesWord_document (row : WordRow) : StatesWord row.document.toJson row where
  word := rfl
  symbol := rfl

theorem statesMetal_document (row : MetalRow) : StatesMetal row.document.toJson row := by
  obtain ⟨metal, phrase, amount, unitPrice⟩ := row
  cases unitPrice with
  | none => exact ⟨rfl, rfl, ⟨_, rfl, writesDecimal_text amount⟩, .none⟩
  | some value => exact ⟨rfl, rfl, ⟨_, rfl, writesDecimal_text amount⟩, .some (writesDecimal_text value)⟩

theorem forall₂_itemsJson {α : Type} {document : α → Document} {states : Json → α → Prop}
    (h : ∀ row, states (document row).toJson row) (rows : List α) :
    List.Forall₂ states (Document.itemsJson (rows.map document)) rows := by
  induction rows with
  | nil => exact .nil
  | cons row rows ih => exact .cons (h row) ih

/-- **The document of an overview states all its rows.** -/
theorem statesOverview_document (view : Overview) : StatesOverview view.document.toJson view where
  words := ⟨_, rfl, forall₂_itemsJson statesWord_document view.words⟩
  metals := ⟨_, rfl, forall₂_itemsJson statesMetal_document view.metals⟩

end Json

namespace Overview

/-- **What is shown of an overview as a document reads back.** It is one document, followed by one line end, and a reader
    of JSON notation finds in it all that the overview says, row by row, whatever the texts and decimals are. -/
theorem display_reads_back (view : Overview) :
    ∃ (doc : String) (json : Json), view.display true = doc ++ "\n" ∧ doc.toList.getLast? = some '}' ∧
      Json.read? doc = some json ∧ Json.read? (view.display true) = some json ∧ json.StatesOverview view := by
  have hread (spaces : List Char) (h : ∀ c ∈ spaces, Json.Token.isSpace c = true) :
      Json.read? (String.ofList (view.document.pretty 0 ++ spaces)) = some view.document.toJson :=
    Json.read?_pretty view.document 0 h
  refine ⟨String.ofList (view.document.pretty 0), view.document.toJson, ?_, ?_, ?_, ?_, Json.statesOverview_document view⟩
  · show String.ofList (view.document.pretty 0 ++ ['\n']) = _
    rw [← String.toList_inj]
    simp
  · rw [String.toList_ofList]
    exact List.getLast?_concat
  · rw [← List.append_nil (view.document.pretty 0)]
    exact hread [] (List.forall_mem_nil _)
  · exact hread ['\n'] (List.forall_mem_singleton.mpr rfl)

end Overview

end TradeTalk
