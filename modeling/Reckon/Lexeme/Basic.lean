import Reckon.Source.Position
import Reckon.Text.Quoted
import Reckon.Token

/-!
# Lexemes

A lexeme is a token together with what it says and the stretch of source it was read from. A
template lexeme also holds its fixed parts and, for each replacement between two parts, the
lexemes of the replaced expression.
-/

namespace Reckon

/-- One piece of a source text. -/
structure Lexeme where
  /-- The class of the lexeme. -/
  token : Token
  /-- What the lexeme says: the content of a string, the text of anything else. -/
  lit : String := ""
  /-- The stretch of source it covers. -/
  span : Span := {}
  /-- The bytes it was read from. -/
  raw : List UInt8 := []
  /-- The fixed parts of a template. -/
  parts : List String := []
  /-- The lexemes of the replacements of a template. -/
  subs : List (List Lexeme) := []
deriving Inhabited

namespace Lexeme

/-- The lexeme that ends a source at `position`. -/
def endOfSource (position : Position) : Lexeme :=
  { token := .eof, span := .point position }

/-- Whether the parser sees the lexeme. -/
def isSignificant (lexeme : Lexeme) : Bool :=
  lexeme.token.isSignificant

/-- The payload of a lexeme as bytes. A comment is passed on as it was written, which may be no
UTF-8; every other payload is text. -/
def payload (lexeme : Lexeme) : List UInt8 :=
  if lexeme.token == .comment then lexeme.raw else lexeme.lit.toUTF8.toList

/-- The description of a lexeme in a listing. -/
def describe (lexeme : Lexeme) : String :=
  match lexeme.token with
  | .name | .number | .illegal | .string | .badString =>
      lexeme.token.spelling ++ " " ++ Text.quote lexeme.lit
  | .template =>
      lexeme.token.spelling ++ " " ++ Text.quoteAll lexeme.parts ++ " (" ++
        toString lexeme.subs.length ++ " replacements)"
  | .semicolon => if lexeme.lit == "newline" then "; (newline)" else lexeme.token.spelling
  | token => token.spelling

end Lexeme

/-!
## A cursor over significant lexemes

The parser reads lexemes one at a time and never sees blanks and comments. A cursor holds the
lexemes that are still to be read and the lexeme that ends them, on which it stays for good.
-/

/-- A place in a stream of significant lexemes. -/
@[ext]
structure Cursor where
  /-- The significant lexemes from here to the end, without the end itself. -/
  ahead : List Lexeme
  /-- The lexeme that ends the stream. -/
  final : Lexeme
  /-- No lexeme before the end ends the stream. -/
  ahead_ne_eof : ∀ lexeme ∈ ahead, lexeme.token ≠ .eof
  /-- The stream ends with an end of source. -/
  final_eq_eof : final.token = .eof

namespace Cursor

/-- The lexeme that ends a list of lexemes: its first end of source. A list without one ends where
its last lexeme does, and an empty list nowhere. -/
def finalOf (lexemes : List Lexeme) : Lexeme :=
  match lexemes.find? (·.token.isEof) with
  | some lexeme => lexeme
  | none =>
      match lexemes.getLast? with
      | some last => .endOfSource last.span.stop
      | none => .endOfSource {}

theorem token_finalOf (lexemes : List Lexeme) : (finalOf lexemes).token = .eof := by
  unfold finalOf
  split
  · next lexeme found => simpa [Token.isEof] using List.find?_some found
  · split <;> rfl

/-- The significant lexemes of a list before its first end of source. -/
def aheadOf (lexemes : List Lexeme) : List Lexeme :=
  (lexemes.takeWhile fun lexeme => !lexeme.token.isEof).filter (·.isSignificant)

theorem token_ne_eof_of_mem_aheadOf {lexemes : List Lexeme} {lexeme : Lexeme}
    (member : lexeme ∈ aheadOf lexemes) : lexeme.token ≠ .eof := by
  have taken := List.all_takeWhile (l := lexemes) (p := fun lexeme => !lexeme.token.isEof)
  have passed := List.all_eq_true.mp taken lexeme (List.mem_filter.mp member).1
  simpa [Token.isEof] using passed

/-- The cursor on the first significant lexeme of a list. -/
def ofLexemes (lexemes : List Lexeme) : Cursor where
  ahead := aheadOf lexemes
  final := finalOf lexemes
  ahead_ne_eof _ := token_ne_eof_of_mem_aheadOf
  final_eq_eof := token_finalOf lexemes

/-- The lexeme under the cursor. -/
def current (cursor : Cursor) : Lexeme :=
  cursor.ahead.headD cursor.final

/-- The cursor one significant lexeme further on; at the end it stays. -/
def advance (cursor : Cursor) : Cursor :=
  { cursor with
    ahead := cursor.ahead.tail
    ahead_ne_eof := fun _ member => cursor.ahead_ne_eof _ (List.mem_of_mem_tail member) }

/-- The significant lexeme after the current one. -/
def peek (cursor : Cursor) : Lexeme :=
  cursor.advance.current

/-- The number of lexemes before the end. -/
def remaining (cursor : Cursor) : Nat :=
  cursor.ahead.length

@[simp] theorem final_advance (cursor : Cursor) : cursor.advance.final = cursor.final := rfl

@[simp] theorem ahead_advance (cursor : Cursor) : cursor.advance.ahead = cursor.ahead.tail := rfl

end Cursor

end Reckon
