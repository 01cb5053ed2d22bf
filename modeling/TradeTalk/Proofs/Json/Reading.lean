import TradeTalk.Json
import TradeTalk.Proofs.Json.Scanning

/-!
# `Proofs.Json.Reading` — a printed document reads back

The reader has no look-ahead, and what it has read stands in the frames around the place where it is. So a document is
read in whatever frames are open, and leaves them as they were, with its value behind it. Only at the start of a
container the reader has two ways to go on; it goes on as behind a comma unless the container is empty.

## Contents
- **`Document.toJson`**: the value of a document.
- **`State.run_cons`**, **`State.run_append`**: one token, and some tokens, ahead of others.
- **`run_tokens`**: the tokens of a document are read as its value.
- **`read?_pretty`**: so is the printed document, whatever its depth and whatever spaces follow.
-/

namespace TradeTalk

namespace Document

mutual

/-- The value of a document. -/
def toJson : Document → Json
  | .text s => .text s
  | .array items => .array (itemsJson items)
  | .object fields => .object (fieldsJson fields)

/-- The values of the items of an array. -/
def itemsJson : List Document → List Json
  | [] => []
  | item :: items => item.toJson :: itemsJson items

/-- The fields of an object with their values. -/
def fieldsJson : List (String × Document) → List (String × Json)
  | [] => []
  | (name, value) :: fields => (name, value.toJson) :: fieldsJson fields

end

end Document

namespace Json

open Document (tokens itemTokens fieldTokens toJson itemsJson fieldsJson)

namespace State

variable {s t : State} {token : Token} {ts : List Token} {v : Json} {around frames : List Frame}

theorem run_cons (h : s.next token = some t) (ts : List Token) : s.run (token :: ts) = t.run ts := by
  rw [run, List.foldlM_cons, h]
  rfl

theorem run_append (h : s.run ts = some t) (us : List Token) : s.run (ts ++ us) = t.run us := by
  rw [run] at h
  rw [run, List.foldlM_append, h]
  rfl

/-- At the start of an array, what comes is read as behind a comma. -/
theorem run_item (h : (value (.array [] :: around)).run ts = some (done v frames)) :
    (item around).run ts = some (done v frames) := by
  cases ts with
  | nil => exact absurd (Option.some.inj h) nofun
  | cons t ts =>
    -- A value does not start with the end of an array.
    cases t with
    | closeArray => exact absurd h nofun
    | _ => exact h

/-- At the start of an object, what comes is read as behind a comma. -/
theorem run_field (h : (name [] around).run ts = some (done v frames)) :
    (field around).run ts = some (done v frames) := by
  cases ts with
  | nil => exact absurd (Option.some.inj h) nofun
  | cons t ts =>
    cases t with
    | text s => exact h
    | _ => exact absurd h nofun

end State

open State (run_cons run_append run_item run_field)

mutual

/-- **The tokens of a document are read as its value**, whatever containers are open. -/
theorem run_tokens (d : Document) (around : List Frame) :
    (State.value around).run d.tokens = some (.done d.toJson around) := by
  match d with
  | .text s => rfl
  | .array [] => rfl
  | .array (item :: items) =>
    rw [tokens, List.cons_append, run_cons rfl]
    exact run_item (run_itemTokens (item :: items) (List.cons_ne_nil _ _) [] around)
  | .object [] => rfl
  | .object (field :: fields) =>
    rw [tokens, List.cons_append, run_cons rfl]
    exact run_field (run_fieldTokens (field :: fields) (List.cons_ne_nil _ _) [] around)

/-- The rest of an array is read, behind the items in front of it. -/
theorem run_itemTokens (items : List Document) (hne : items ≠ []) (before : List Json) (around : List Frame) :
    (State.value (.array before :: around)).run (itemTokens items ++ [.closeArray]) =
      some (.done (.array (before.reverse ++ itemsJson items)) around) := by
  match items, hne with
  | [item], _ =>
    rw [itemTokens, run_append (run_tokens item _), run_cons rfl, List.reverse_cons]
    rfl
  | item :: next :: items, _ =>
    rw [itemTokens, List.append_assoc, run_append (run_tokens item _), List.cons_append, run_cons rfl,
      run_itemTokens (next :: items) (List.cons_ne_nil _ _), List.reverse_cons, List.append_assoc]
    rfl

/-- The rest of an object is read, behind the fields in front of it. -/
theorem run_fieldTokens (fields : List (String × Document)) (hne : fields ≠ []) (before : List (String × Json))
    (around : List Frame) :
    (State.name before around).run (fieldTokens fields ++ [.closeObject]) =
      some (.done (.object (before.reverse ++ fieldsJson fields)) around) := by
  match fields, hne with
  | [(name, value)], _ =>
    rw [fieldTokens, List.cons_append, List.cons_append, run_cons rfl, run_cons rfl, run_append (run_tokens value _),
      run_cons rfl, List.reverse_cons]
    rfl
  | (name, value) :: next :: fields, _ =>
    rw [fieldTokens, List.append_assoc, List.cons_append, List.cons_append, run_cons rfl, run_cons rfl,
      run_append (run_tokens value _), List.cons_append, run_cons rfl,
      run_fieldTokens (next :: fields) (List.cons_ne_nil _ _), List.reverse_cons, List.append_assoc]
    rfl

end

/-- **A printed document reads back**, whatever its depth and whatever spaces follow it. -/
theorem read?_pretty (d : Document) (depth : Nat) {spaces : List Char} (h : ∀ c ∈ spaces, Token.isSpace c = true) :
    read? (String.ofList (d.pretty depth ++ spaces)) = some d.toJson := by
  have hspaces : Token.scan .between spaces = some [] := by
    have hcut := Token.isCutInto_spaces h []
    rwa [List.append_nil] at hcut
  rw [read?, String.toList_ofList, Token.isCutInto_pretty, hspaces, Option.map_some, List.append_nil, Option.bind_some,
    ofTokens?, run_tokens]
  rfl

/-- The reader takes more than documents are printed with, but only what is in JSON notation: a character may be written
    in two halves, and one half is none. -/
example : read? "\"\\uD83d\\uDe00\\t\"" = some (.text "😀\t") ∧ read? "\"\\uD83D\"" = none := ⟨rfl, rfl⟩

/-- Arrays end without a comma, and numbers start without a zero. -/
example : read? "[1, -2.5e3]" = some (.array [.number "1", .number "-2.5e3"]) ∧ read? "[1,]" = none ∧
    read? "[01]" = none := ⟨rfl, rfl, rfl⟩

end Json

end TradeTalk
