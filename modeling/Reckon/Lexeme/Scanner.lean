import Reckon.Lexeme.Recognizer

/-!
# Scanning a source

The scanner cuts a source into lexemes, one after the other and without gaps, and ends with the
lexeme for the end of the source. It never fails: what cannot be read becomes a malformed lexeme.

A newline ends a statement when the last significant lexeme may end one and the innermost open
bracket is no parenthesis. Such a newline is a semicolon lexeme of its own.
-/

namespace Reckon

open Text (Rune)

namespace Lexeme

/-- What the scanner remembers between lexemes. -/
structure ScanState where
  /-- Whether newlines may end statements at all. -/
  automaticSemicolons : Bool := true
  /-- Whether the last significant lexeme may end a statement. -/
  mayEnd : Bool := false
  /-- The open brackets, innermost first. -/
  brackets : List Token := []

namespace ScanState

/-- Whether a newline at this point ends the statement. -/
def newlineEnds (state : ScanState) : Bool :=
  state.automaticSemicolons && state.mayEnd && state.brackets.head? != some .leftParen

/-- The state after a lexeme. An opening bracket is remembered; any closing bracket ends the
innermost open one. Blanks and comments change nothing. -/
def after (state : ScanState) (token : Token) : ScanState :=
  if token.isSignificant then
    { state with
      mayEnd := token.mayEndStatement
      brackets :=
        match token with
        | .leftParen | .leftBracket | .leftBrace => token :: state.brackets
        | .rightParen | .rightBracket | .rightBrace => state.brackets.tail
        | _ => state.brackets }
  else state

end ScanState

/-- Scan the runes from `position` on. The first argument bounds the number of lexemes; one more
than the number of runes is always enough, because each lexeme takes at least one rune and the
replacements of a template are shorter than the template. -/
def scanFrom : Nat → ScanState → Position → List Rune → List Lexeme
  | 0, _, position, _ => [endOfSource position]
  | _ + 1, _, position, [] => [endOfSource position]
  | bound + 1, state, position, first :: rest =>
      let found := Recognized.next state.newlineEnds first rest
      let runes := first :: rest
      let covered := runes.take found.length
      let stop := (position.advanceAll covered).overrun found.overrun
      let lexeme : Lexeme :=
        { token := found.token
          lit := found.lit
          span := ⟨position, stop⟩
          raw := Rune.source covered
          parts := found.parts
          subs := found.replacements.map fun replacement =>
            scanFrom bound {} (position.advanceAll (runes.take replacement.start))
              replacement.body }
      lexeme :: scanFrom bound (state.after found.token) stop (runes.drop found.length)

/-- All lexemes of a source, blanks, comments and the end included. -/
def scanWith (state : ScanState) (file : String) (source : List UInt8) : List Lexeme :=
  let runes := Rune.decode source
  scanFrom (runes.length + 1) state (.first file) runes

/-- All lexemes of a source, with newlines ending statements. -/
def scan (file : String) (source : List UInt8) : List Lexeme :=
  scanWith {} file source

/-- All lexemes of a text that belongs to no file. -/
def scanText (text : String) : List Lexeme :=
  scan "" text.toUTF8.toList

end Lexeme

end Reckon
