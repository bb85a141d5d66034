import Reckon.Lexeme.Basic
import Reckon.Text.Letter

/-!
# Recognizing one lexeme

Each function here looks at the runes ahead and says how many of them the next lexeme takes and
what it says. None of them knows about positions: the scanner turns counts into spans.

A recognized lexeme takes at least one rune and never more than there are.
-/

namespace Reckon

open Text (Rune isLetter isDigit isHexDigit isNameRest hexValue)

/-- A replacement inside a template: where its text starts, counted in runes from the start of the
template, and the text itself. -/
structure Replacement where
  /-- The number of runes of the template before the text. -/
  start : Nat
  /-- The text between the braces. -/
  body : List Rune
deriving DecidableEq, Repr

/-- What the runes ahead turned out to be. -/
structure Recognized where
  /-- The class of the lexeme. -/
  token : Token
  /-- What it says. -/
  lit : String
  /-- The number of runes it takes. -/
  length : Nat
  /-- The columns that the reader counted past the end of the text, zero for every lexeme that
  is complete. -/
  overrun : Nat := 0
  /-- The fixed parts of a template. -/
  parts : List String := []
  /-- The replacements of a template. -/
  replacements : List Replacement := []
deriving Repr

namespace Recognized

/-- A blank that is no newline. -/
def isBlank (c : Char) : Bool :=
  c == ' ' || c == '\t' || c == '\r'

/-- The quote that delimits strings besides the double quote. -/
def singleQuote : Char := '\x27'

/-- The quote that delimits templates. -/
def backQuote : Char := '\x60'

/-- The leading runes whose characters satisfy a test. -/
def leading (test : Char → Bool) (runes : List Rune) : List Rune :=
  runes.takeWhile fun rune => test rune.char

/-- The character at the front, if there is one. -/
def front? (runes : List Rune) : Option Char :=
  runes.head?.map Rune.char

/-! ## Blanks and comments -/

/-- A run of blanks. Newlines belong to it unless they end a statement here. -/
def blanks (newlineEnds : Bool) (runes : List Rune) : Recognized :=
  let taken := leading (fun c => isBlank c || (c == '\n' && !newlineEnds)) runes
  { token := .space, lit := Rune.text taken, length := taken.length }

/-- The number of runes up to and with the end of a block comment, or all that are left. -/
def blockCommentLength : List Rune → Nat
  | [] => 0
  | first :: rest =>
      if first.char == '*' && front? rest == some '/' then 2 else blockCommentLength rest + 1

/-- A comment, at the slash that starts it. -/
def comment (runes : List Rune) : Recognized :=
  let length :=
    if front? (runes.drop 1) == some '/' then (leading (· != '\n') runes).length
    else 2 + blockCommentLength (runes.drop 2)
  { token := .comment, lit := Rune.text (runes.take length), length }

/-! ## Names and numbers -/

/-- A name or a reserved word. -/
def word (runes : List Rune) : Recognized :=
  let taken := leading isNameRest runes
  let lit := Rune.text taken
  { token := .ofWord lit, lit, length := taken.length }

/-- The length of a fraction: a point and at least one digit, so that `1..5` stays a range. -/
def fractionLength (runes : List Rune) : Nat :=
  match runes with
  | point :: rest =>
      let digits := leading isDigit rest
      if point.char == '.' && !digits.isEmpty then digits.length + 1 else 0
  | [] => 0

/-- The length of an exponent: the mark, then digits or a sign with any digits after it. -/
def exponentLength (runes : List Rune) : Nat :=
  match runes with
  | mark :: next :: rest =>
      if mark.char == 'e' || mark.char == 'E' then
        if isDigit next.char then 1 + (leading isDigit (next :: rest)).length
        else if next.char == '+' || next.char == '-' then 2 + (leading isDigit rest).length
        else 0
      else 0
  | _ => 0

/-- The length of the number at the front: hexadecimal after `0x`, decimal otherwise. -/
def numberLength (runes : List Rune) : Nat :=
  match runes with
  | zero :: mark :: rest =>
      if zero.char == '0' && (mark.char == 'x' || mark.char == 'X') then
        2 + (leading isHexDigit rest).length
      else decimalLength runes
  | _ => decimalLength runes
where
  /-- The length of a decimal number with its fraction and exponent. -/
  decimalLength (runes : List Rune) : Nat :=
    let whole := (leading isDigit runes).length
    let fraction := fractionLength (runes.drop whole)
    whole + fraction + exponentLength (runes.drop (whole + fraction))

/-- A number, kept as it was written. -/
def number (runes : List Rune) : Recognized :=
  let length := numberLength runes
  { token := .number, lit := Rune.text (runes.take length), length }

/-! ## Strings -/

/-- The character with a code, or the replacement character if no character has it. -/
def charOfCode (code : Nat) : Char :=
  if code.isValidChar then Char.ofNat code else Rune.replacement

/-- The character written by up to `count` hexadecimal digits, and how many there were. -/
def hexEscape (count : Nat) (runes : List Rune) : Char × Nat :=
  let digits := leading isHexDigit (runes.take count)
  (charOfCode (digits.foldl (fun code digit => code * 16 + hexValue digit.char) 0), digits.length)

/-- The character an escape stands for, given the runes after the backslash, and how many of these
belong to the escape. An escape without a meaning stands for the character itself. -/
def escape (runes : List Rune) : Char × Nat :=
  match runes with
  | [] => ('\\', 0)
  | rune :: rest =>
      match rune.char with
      | 'n' => ('\n', 1)
      | 't' => ('\t', 1)
      | 'r' => ('\r', 1)
      | '0' => (Char.ofNat 0, 1)
      | 'x' => let (c, used) := hexEscape 2 rest; (c, used + 1)
      | 'u' => let (c, used) := hexEscape 4 rest; (c, used + 1)
      | c => (c, 1)

/-- The content of a string after its opening quote. -/
structure Quotation where
  /-- The decoded characters. -/
  content : List Char
  /-- The runes read, the closing quote included. -/
  length : Nat
  /-- Whether the closing quote is there. -/
  closed : Bool

/-- Read a string up to its closing quote, a newline or the end of the text. The first argument is
the number of runes that an escape has used already. -/
def quotation (quote : Char) : Nat → List Rune → Quotation
  | _, [] => ⟨[], 0, false⟩
  | used + 1, _ :: rest =>
      let tail := quotation quote used rest
      { tail with length := tail.length + 1 }
  | 0, rune :: rest =>
      if rune.char == quote then ⟨[], 1, true⟩
      else if rune.char == '\\' then
        let (c, used) := escape rest
        let tail := quotation quote used rest
        { tail with content := c :: tail.content, length := tail.length + 1 }
      else if rune.char == '\n' then ⟨[], 0, false⟩
      else
        let tail := quotation quote 0 rest
        { tail with content := rune.char :: tail.content, length := tail.length + 1 }

/-- A string literal that starts with `quote`. -/
def string (quote : Char) (runes : List Rune) : Recognized :=
  let body := quotation quote 0 (runes.drop 1)
  { token := if body.closed then .string else .badString
    lit := String.ofList body.content
    length := body.length + 1 }

/-! ## Templates -/

/-- Where the reader of a replacement stands: in the expression, inside a string that `quote`
closes, or just after a backslash in such a string. -/
inductive ReplacementMode where
  | code
  | quoted (quote : Char)
  | escaped (quote : Char)
deriving DecidableEq, Repr

/-- How the text of a replacement ends. -/
inductive ReplacementEnd where
  /-- At the matching brace, after `length` runes. -/
  | closed (length : Nat)
  /-- At the end of the source, with the columns counted past it. -/
  | unclosed (overrun : Nat)
deriving DecidableEq, Repr

/-- One rune more before the end. -/
def ReplacementEnd.succ : ReplacementEnd → ReplacementEnd
  | .closed length => .closed (length + 1)
  | .unclosed overrun => .unclosed overrun

/-- Find the brace that closes a replacement. Braces nest, and braces inside strings do not count;
a string ends at its quote or at a newline. -/
def replacementEnd : ReplacementMode → Nat → List Rune → ReplacementEnd
  | .code, _, [] => .unclosed 0
  | .quoted _, _, [] => .unclosed 1
  | .escaped _, _, [] => .unclosed 2
  | .code, depth, rune :: rest =>
      if rune.char == '\x7b' then (replacementEnd .code (depth + 1) rest).succ
      else if rune.char == '\x7d' then
        match depth with
        | 0 => .closed 0
        | outer + 1 => (replacementEnd .code outer rest).succ
      else if rune.char == '"' || rune.char == singleQuote then
        (replacementEnd (.quoted rune.char) depth rest).succ
      else (replacementEnd .code depth rest).succ
  | .quoted quote, depth, rune :: rest =>
      if rune.char == quote || rune.char == '\n' then (replacementEnd .code depth rest).succ
      else if rune.char == '\\' then (replacementEnd (.escaped quote) depth rest).succ
      else (replacementEnd (.quoted quote) depth rest).succ
  | .escaped quote, depth, _ :: rest => (replacementEnd (.quoted quote) depth rest).succ

/-- What has been read of a template. -/
structure TemplateState where
  /-- The runes read, the opening quote included. -/
  length : Nat := 1
  /-- The characters of the part being read. -/
  current : List Char := []
  /-- The finished parts. -/
  parts : List String := []
  /-- The finished replacements. -/
  replacements : List Replacement := []

/-- Read a template after its opening quote. The first argument is the number of runes that an
escape or a replacement has used already. -/
def templateFrom : Nat → TemplateState → List Rune → Recognized
  | _, state, [] =>
      { token := .badString
        lit := String.ofList state.current
        length := state.length
        parts := state.parts
        replacements := state.replacements }
  | used + 1, state, _ :: rest => templateFrom used { state with length := state.length + 1 } rest
  | 0, state, rune :: rest =>
      let read := { state with length := state.length + 1 }
      if rune.char == backQuote then
        { token := .template
          lit := ""
          length := read.length
          parts := state.parts ++ [String.ofList state.current]
          replacements := state.replacements }
      else if rune.char == '\\' then
        let (c, used) := escape rest
        templateFrom used { read with current := state.current ++ [c] } rest
      else if rune.char == '$' && front? rest == some '\x7b' then
        let parts := state.parts ++ [String.ofList state.current]
        match replacementEnd .code 0 (rest.drop 1) with
        | .closed length =>
            let replacement := ⟨read.length + 1, (rest.drop 1).take length⟩
            templateFrom (length + 2)
              { length := read.length
                current := []
                parts
                replacements := state.replacements ++ [replacement] }
              rest
        | .unclosed overrun =>
            { token := .badString
              lit := String.join parts
              length := read.length + rest.length
              overrun }
      else templateFrom 0 { read with current := state.current ++ [rune.char] } rest

/-- A template string, at its opening quote. -/
def template (runes : List Rune) : Recognized :=
  templateFrom 0 {} (runes.drop 1)

/-! ## Operators and delimiters -/

/-- The operator or delimiter that starts with `c`, if there is one, and the number of characters
it takes when `next` follows. -/
def operator? (c : Char) (next : Option Char) : Option (Token × Nat) :=
  match c with
  | '+' => some (.plus, 1)
  | '-' => some (.minus, 1)
  | '*' => some (.star, 1)
  | '/' => some (.slash, 1)
  | '%' => some (.percent, 1)
  | '^' => some (.caret, 1)
  | '?' => some (.question, 1)
  | ':' => some (.colon, 1)
  | '&' => if next == some '&' then some (.andAnd, 2) else none
  | '|' =>
      if next == some '|' then some (.orOr, 2)
      else if next == some '>' then some (.pipe, 2)
      else none
  | '<' => if next == some '=' then some (.lessEqual, 2) else some (.less, 1)
  | '>' => if next == some '=' then some (.greaterEqual, 2) else some (.greater, 1)
  | '=' =>
      if next == some '=' then some (.equal, 2)
      else if next == some '>' then some (.arrow, 2)
      else some (.assign, 1)
  | '!' => if next == some '=' then some (.notEqual, 2) else some (.bang, 1)
  | '.' => if next == some '.' then some (.range, 2) else some (.dot, 1)
  | '(' => some (.leftParen, 1)
  | ')' => some (.rightParen, 1)
  | '[' => some (.leftBracket, 1)
  | ']' => some (.rightBracket, 1)
  | '\x7b' => some (.leftBrace, 1)
  | '\x7d' => some (.rightBrace, 1)
  | ',' => some (.comma, 1)
  | ';' => some (.semicolon, 1)
  | _ => none

/-- An operator or delimiter. A character that starts none is an illegal lexeme by itself. -/
def symbol (c : Char) (next : Option Char) : Recognized :=
  match operator? c next with
  | some (token, length) => { token, lit := token.spelling, length }
  | none => { token := .illegal, lit := String.singleton c, length := 1 }

/-! ## The next lexeme -/

/-- Recognize the lexeme at the front of `first :: rest`. With `newlineEnds` a newline here ends
the statement, and is a semicolon. -/
def next (newlineEnds : Bool) (first : Rune) (rest : List Rune) : Recognized :=
  let runes := first :: rest
  let c := first.char
  let following := front? rest
  if c == '\n' && newlineEnds then { token := .semicolon, lit := "newline", length := 1 }
  else if isBlank c || c == '\n' then blanks newlineEnds runes
  else if c == '/' && (following == some '/' || following == some '*') then comment runes
  else if isLetter c then word runes
  else if isDigit c || (c == '.' && following.any isDigit) then number runes
  else if c == '"' || c == singleQuote then string c runes
  else if c == backQuote then template runes
  else symbol c following

end Recognized

end Reckon
