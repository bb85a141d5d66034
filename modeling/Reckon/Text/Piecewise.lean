import Reckon.Text.Rune

/-!
# Converting a text piece by piece

A long text is converted through a window that shows a limited number of bytes, into a space that
holds a limited number of bytes. A converter sees one window at a time and starts afresh in each.
It says how much it wrote and how much of the window that accounts for. It stops early if its next
output does not fit, or if it has to see more of the text to decide.

While a conversion changes nothing, each window starts where the one before it ended. From the
first change on, the output is collected in one space, and window and space grow only when nothing
else helps.
-/

namespace Reckon.Text

/-- Why a converter stopped. -/
inductive Stop where
  /-- The window is used up. -/
  | done
  /-- The next output does not fit the space. -/
  | shortRoom
  /-- What comes after the window decides how to go on. -/
  | shortInput
deriving DecidableEq, Repr

/-- What a converter made of one window. -/
structure Piece where
  /-- The bytes written. -/
  written : List UInt8
  /-- The number of bytes of the window that these account for. -/
  consumed : Nat
  /-- Why there are no more. -/
  stop : Stop
deriving DecidableEq, Repr

namespace Piece

/-- Nothing written and nothing used. -/
def empty (stop : Stop) : Piece :=
  ⟨[], 0, stop⟩

/-- A piece with more in front of it. -/
def after (piece : Piece) (written : List UInt8) (consumed : Nat) : Piece :=
  ⟨written ++ piece.written, consumed + piece.consumed, piece.stop⟩

end Piece

/-- Converts a window, given the room for output and whether the text ends with the window. -/
abbrev Converter := Nat → Bool → List UInt8 → Piece

namespace Converter

/-- The size that window and space have at first. -/
def initialSize : Nat := 128

/-- The next larger size: double at first, and half as much again later. -/
def grown (size : Nat) : Nat :=
  if size ≤ 32 then 64 else if size ≤ 256 then 2 * size else size + size / 2

/-- Convert the rest of a text, with `filled` bytes of the space in use. -/
def finish (convert : Converter) : (fuel space window filled : Nat) → List UInt8 → List UInt8
  | 0, _, _, _, _ => []
  | fuel + 1, space, window, filled, rest =>
      let atEnd := decide (rest.length ≤ window)
      let piece := convert (space - filled) atEnd (rest.take window)
      let later := rest.drop piece.consumed
      let filled := filled + piece.written.length
      match piece.stop with
      | .shortRoom =>
          let space := if piece.written.isEmpty then grown space else space
          piece.written ++ finish convert fuel space window filled later
      | .shortInput =>
          if atEnd then piece.written
          else
            let window := if piece.consumed == 0 then grown window else window
            piece.written ++ finish convert fuel space window filled later
      | .done =>
          if later.isEmpty then piece.written
          else piece.written ++ finish convert fuel space window filled later

/-- Convert a text of which the first `kept` bytes stay as they are, given the rest. -/
def convertFrom (convert : Converter) : (fuel kept : Nat) → List UInt8 → List UInt8
  | 0, _, _ => []
  | fuel + 1, kept, rest =>
      let piece := convert initialSize (rest.length ≤ initialSize) (rest.take initialSize)
      let later := rest.drop piece.consumed
      let finished := piece.stop = .done ∧ later.isEmpty
      let filled := kept + piece.written.length
      let same := piece.written = rest.take piece.consumed
      let start := if same then filled else kept
      let space :=
        if start = 0 ∨ filled ≤ initialSize then initialSize
        else kept + rest.length + piece.written.length - piece.consumed
      let stuck := piece.stop = .shortRoom ∨ (piece.stop = .shortInput ∧ piece.consumed = 0)
      if finished then piece.written
      else if same ∧ ¬stuck then piece.written ++ convertFrom convert fuel filled later
      else piece.written ++ finish convert fuel space initialSize filled later

/-- Convert a whole text. Every round uses up a byte or makes window or space larger, and no
converter needs more than a few times the initial size, which bounds the rounds. -/
def run (convert : Converter) (text : List UInt8) : List UInt8 :=
  convertFrom convert (8 * text.length + 64) 0 text

/-- Convert a string. -/
def runText (convert : Converter) (text : String) : String :=
  Rune.text (Rune.decode (convert.run text.toUTF8.toList))

end Converter

end Reckon.Text
