import Reckon.Text.Rune

/-!
# Positions and spans

A position names a place in a source: the file, the line and the byte column, both counted from
one, and the byte offset, counted from zero. Reading a rune moves a position past it.
-/

namespace Reckon

open Text (Rune)

/-- A place in a source text. The default value, on line zero, names no place. -/
structure Position where
  /-- The name of the source, empty for text that has none. -/
  file : String := ""
  /-- The line, counted from one. -/
  line : Nat := 0
  /-- The column in bytes, counted from one. -/
  column : Nat := 0
  /-- The offset in bytes, counted from zero. -/
  offset : Nat := 0
deriving DecidableEq, Repr, Inhabited

namespace Position

/-- The first place of a source. -/
def first (file : String) : Position :=
  { file, line := 1, column := 1, offset := 0 }

/-- Whether the position names a place. -/
def isValid (position : Position) : Bool :=
  0 < position.line

/-- The place just after `rune`, when `position` is the place of `rune`. -/
def advance (position : Position) (rune : Rune) : Position :=
  if rune.char == '\n' then
    { position with
      line := position.line + 1, column := 1, offset := position.offset + rune.width }
  else
    { position with
      column := position.column + rune.width, offset := position.offset + rune.width }

/-- The place just after `runes`, when `position` is the place of the first of them. -/
def advanceAll (position : Position) (runes : List Rune) : Position :=
  runes.foldl advance position

/-- The place `columns` to the right on the same line, at the same offset. It is where a reader
stands that went past the end of the text. -/
def overrun (position : Position) (columns : Nat) : Position :=
  { position with column := position.column + columns }

/-- Whether two positions agree on line and column. -/
def isAdjacent (left right : Position) : Bool :=
  left.line == right.line && left.column == right.column

/-- The text of a position: line and column, after the file name if there is one. -/
def render (position : Position) : String :=
  let place := toString position.line ++ ":" ++ toString position.column
  if position.file == "" then place else position.file ++ ":" ++ place

theorem advanceAll_append (position : Position) (left right : List Rune) :
    position.advanceAll (left ++ right) = (position.advanceAll left).advanceAll right := by
  simp [advanceAll, List.foldl_append]

@[simp] theorem advanceAll_nil (position : Position) : position.advanceAll [] = position := rfl

@[simp] theorem advanceAll_cons (position : Position) (rune : Rune) (runes : List Rune) :
    position.advanceAll (rune :: runes) = (position.advance rune).advanceAll runes := rfl

@[simp] theorem advance_file (position : Position) (rune : Rune) :
    (position.advance rune).file = position.file := by
  unfold advance; split <;> rfl

@[simp] theorem advance_offset (position : Position) (rune : Rune) :
    (position.advance rune).offset = position.offset + rune.width := by
  unfold advance; split <;> rfl

@[simp] theorem overrun_zero (position : Position) : position.overrun 0 = position := rfl

end Position

/-- The stretch of source a construct was read from. -/
structure Span where
  /-- The place of the first character. -/
  start : Position := {}
  /-- The place just after the last character. -/
  stop : Position := {}
deriving DecidableEq, Repr, Inhabited

namespace Span

/-- The empty span at a place. -/
def point (position : Position) : Span :=
  ⟨position, position⟩

/-- The text of a span: its two ends joined by a dash. -/
def render (span : Span) : String :=
  span.start.render ++ "-" ++ span.stop.render

end Span

end Reckon
