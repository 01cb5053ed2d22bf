/-!
# `TradeTalk.Text.Lines` — inputs cut into lines

An input is a sequence of bytes. A newline ends a line and does not belong to it; bytes after the last newline are a
line too, an open one.

## Contents
- **`RawLine`**: the bytes of a line, and whether a newline ended it.
- **`rawLines`**: the lines of an input.
- **`RawLine.text?`**: the text of a line, if its bytes are UTF-8.
- **`rawLines_append`**: cutting two inputs at once, if the first ends with a newline.
-/

namespace TradeTalk.Text

/-- A line of an input. -/
structure RawLine where
  bytes : List UInt8
  /-- Whether a newline followed. -/
  ended : Bool
  deriving DecidableEq, Repr

/-- The byte that ends a line. -/
def newline : UInt8 := 10

/-- Puts one more byte in front of an input that is cut already. -/
def addByte (b : UInt8) (ls : List RawLine) : List RawLine :=
  if b = newline then ⟨[], true⟩ :: ls
  else
    match ls with
    | [] => [⟨[b], false⟩]
    | l :: ls => ⟨b :: l.bytes, l.ended⟩ :: ls

/-- The lines of an input. -/
def rawLines (bytes : List UInt8) : List RawLine :=
  bytes.foldr addByte []

/-- The text of a line. -/
def RawLine.text? (l : RawLine) : Option String :=
  String.fromUTF8? l.bytes.toByteArray

/-- The bytes of a line with the newline that ended it. -/
def RawLine.toBytes (l : RawLine) : List UInt8 :=
  if l.ended then l.bytes ++ [newline] else l.bytes

/-! ## Small laws -/

@[simp] theorem rawLines_nil : rawLines [] = [] := rfl

@[simp] theorem rawLines_cons (b : UInt8) (bytes : List UInt8) :
    rawLines (b :: bytes) = addByte b (rawLines bytes) := rfl

/-- Whether an input is empty or ends with a newline. -/
def isClosed (bytes : List UInt8) : Bool :=
  bytes.getLast?.all (· == newline)

theorem addByte_append {b : UInt8} {ls more : List RawLine} (h : ls ≠ []) :
    addByte b (ls ++ more) = addByte b ls ++ more := by
  cases ls with
  | nil => contradiction
  | cons l ls =>
    simp only [addByte, List.cons_append]
    split <;> rfl

theorem rawLines_eq_nil_iff {bytes : List UInt8} : rawLines bytes = [] ↔ bytes = [] := by
  cases bytes with
  | nil => simp
  | cons b bytes =>
    simp only [rawLines_cons, addByte, reduceCtorEq, iff_false]
    split
    · simp
    · split <;> simp

/-- **Two inputs are cut one after the other** if the first is closed. -/
theorem rawLines_append {a : List UInt8} (b : List UInt8) (h : isClosed a = true) :
    rawLines (a ++ b) = rawLines a ++ rawLines b := by
  induction a with
  | nil => rfl
  | cons x a ih =>
    cases a with
    | nil =>
      have hx : x = newline := by simpa [isClosed] using h
      simp [addByte, hx]
    | cons y a =>
      have h' : isClosed (y :: a) = true := by simpa [isClosed, List.getLast?_cons_cons] using h
      have hne : rawLines (y :: a) ≠ [] := by simp only [ne_eq, rawLines_eq_nil_iff]; simp
      rw [List.cons_append, rawLines_cons, ih h', addByte_append hne]
      rfl

end TradeTalk.Text
