import Reckon.Text.Letter
import Reckon.Yaml.Input

/-!
# Scalars of YAML

The forms of a scalar: plain, in quotes, and as a block of lines. Line breaks in plain and quoted
scalars are folded: a single one is a space, and of several all but one are kept.
-/

namespace Reckon.Yaml

namespace Scan

/-! ## Gaps inside of scalars -/

/-- What stands between two words of a scalar. -/
structure Gap where
  /-- The blanks, if the next word is on the same line. -/
  blanks : List Char := []
  /-- The first line break. -/
  first : List Char := []
  /-- The other line breaks. -/
  later : List Char := []
  /-- Whether the next word is on another line. -/
  crossed : Bool := false

/-- What a gap contributes to the scalar. -/
def Gap.folded (gap : Gap) : List Char :=
  if !gap.crossed then gap.blanks
  else if gap.first != ['\n'] then gap.first ++ gap.later
  else if gap.later.isEmpty then [' ']
  else gap.later

/-- Go past a gap. After a line break no tab may stand before the column `margin` in a construct
that started on the line `start`. The first argument bounds the number of characters. -/
def takeGap (start margin : Nat) : Nat → Gap → Scan Gap
  | 0, gap => return gap
  | bound + 1, gap => do
    let input ← here
    match input.rest with
    | [] => return gap
    | c :: _ =>
        if isBlank c then do
          if gap.crossed && c == '\t' && input.mark.column < margin then
            fail start "found a tab character that violates indentation"
          modify Input.next
          takeGap start margin bound
            (if gap.crossed then gap else { gap with blanks := gap.blanks ++ [c] })
        else if isBreak c then do
          let taken ← takeBreak
          takeGap start margin bound
            (if gap.crossed then { gap with later := gap.later ++ taken }
             else { gap with blanks := [], first := taken, crossed := true })
        else return gap

/-! ## Plain scalars -/

/-- Whether a character has a meaning inside of flow collections. -/
def isFlowMark (c : Char) : Bool :=
  c == ',' || c == '?' || c == '[' || c == ']' || c == '{' || c == '}'

/-- A word of a plain scalar. It ends at a gap, before a colon that separates a key, and inside of a
flow collection before its marks. -/
def plainWord (inFlow : Bool) : List Char → List Char
  | [] => []
  | c :: rest =>
      if isGap c || (c == ':' && rest.head?.all isGap) || (inFlow && isFlowMark c) then []
      else c :: plainWord inFlow rest

/-- The words of a plain scalar, joined to what is read already, which ends with a gap. Outside of
flow collections they stand from the column `margin` on. The result is the text and whether a line
break follows it. The bound is on the number of words. -/
def plainWords (inFlow : Bool) (start margin : Nat) :
    Nat → List Char → Gap → Scan (List Char × Bool)
  | 0, text, gap => return (text, gap.crossed)
  | bound + 1, text, gap => do
    need 4
    let input ← get
    if input.atBoundary || input.starts '#' then return (text, gap.crossed)
    else
      let word := plainWord inFlow input.rest
      forward word.length
      need 2
      let text := if word.isEmpty then text else text ++ gap.folded ++ word
      let crossed := gap.crossed && word.isEmpty
      let input ← get
      if !input.has 0 isGap then return (text, crossed)
      else
        let gap ← takeGap start margin (input.rest.length + 1) {}
        if !inFlow && (← get).mark.column < margin then return (text, gap.crossed)
        else plainWords inFlow start margin bound text gap

/-- A plain scalar, and whether a line break follows it. -/
def plainScalar (inFlow : Bool) (margin : Nat) : Scan (String × Bool) := do
  let input ← get
  let (text, crossed) ←
    plainWords inFlow input.mark.line margin (input.rest.length + 1) [] {}
  return (String.ofList text, crossed)

/-! ## Quoted scalars -/

/-- The character after a backslash in double quotes, for escapes of one character. -/
def escaped? (c : Char) : Option Char :=
  match c with
  | '0' => some (Char.ofNat 0)
  | 'a' => some (Char.ofNat 7)
  | 'b' => some (Char.ofNat 8)
  | 't' | '\t' => some '\t'
  | 'n' => some '\n'
  | 'v' => some (Char.ofNat 11)
  | 'f' => some (Char.ofNat 12)
  | 'r' => some '\r'
  | 'e' => some (Char.ofNat 27)
  | ' ' => some ' '
  | '"' => some '"'
  | '\x27' => some '\x27'
  | '\\' => some '\\'
  | 'N' => some (Char.ofNat 0x85)
  | '_' => some (Char.ofNat 0xA0)
  | 'L' => some (Char.ofNat 0x2028)
  | 'P' => some (Char.ofNat 0x2029)
  | _ => none

/-- The number of hexadecimal digits after an escape. -/
def escapeWidth? (c : Char) : Option Nat :=
  match c with
  | 'x' => some 2
  | 'u' => some 4
  | 'U' => some 8
  | _ => none

/-- Whether a number is that of a character. -/
def isCharCode (code : Nat) : Bool :=
  code < 0xD800 || (0xDFFF < code && code ≤ 0x10FFFF)

/-- The character of an escape, from the backslash on. -/
def takeEscape (start : Nat) : Scan Char := do
  let input ← get
  let mark := (input.rest.drop 1).head?
  match mark.bind escaped?, mark.bind escapeWidth? with
  | some c, _ => do
    forward 2
    return c
  | none, none => fail start "found unknown escape character"
  | none, some width => do
    forward 2
    need width
    let digits := (← get).rest.take width
    if digits.length = width && digits.all Text.isHexDigit then
      let code := digits.foldl (fun n d => 16 * n + Text.hexValue d) 0
      if isCharCode code then
        forward width
        return Char.ofNat code
      else fail start "found invalid Unicode character escape code"
    else fail start "did not find expected hexdecimal number"

/-- A word of a quoted scalar, after what is read already, which runs backwards. It ends at a gap and
before the closing quote. The result says also whether it ends with an escaped line break. -/
def quotedWord (quote : Char) (start : Nat) : Nat → List Char → Scan (List Char × Bool)
  | 0, read => return (read.reverse, false)
  | bound + 1, read => do
    need 2
    let input ← get
    match input.rest with
    | [] => return (read.reverse, false)
    | c :: rest =>
        if isGap c then return (read.reverse, false)
        else if c == quote then
          if quote != '"' && rest.head? == some quote then do
            forward 2
            quotedWord quote start bound (quote :: read)
          else return (read.reverse, false)
        else if c == '\\' && quote == '"' then
          if rest.head?.any isBreak then do
            forward 2
            return (read.reverse, true)
          else do
            let escaped ← takeEscape start
            quotedWord quote start bound (escaped :: read)
        else do
          modify Input.next
          quotedWord quote start bound (c :: read)

/-- The words of a quoted scalar up to its closing quote, joined to what is read already. -/
def quotedWords (quote : Char) (start : Nat) : Nat → List Char → Scan (List Char)
  | 0, _ => fail start "found unexpected end of stream"
  | bound + 1, text => do
    need 4
    let input ← get
    if input.atBoundary then fail start "found unexpected document indicator"
    else if input.rest.isEmpty then fail start "found unexpected end of stream"
    else
      let (word, escapedBreak) ← quotedWord quote start (input.rest.length + 1) []
      let text := text ++ word
      if ← skipChar? quote then return text
      else
        let gap ← takeGap start 0 (input.rest.length + 1) { crossed := escapedBreak }
        quotedWords quote start bound (text ++ gap.folded)

/-- A quoted scalar. -/
def quotedScalar (quote : Char) : Scan String := do
  let input ← get
  modify Input.next
  return String.ofList (← quotedWords quote input.mark.line (input.rest.length + 1) [])

/-! ## Block scalars -/

/-- What becomes of the line breaks at the end of a block. -/
inductive Chomping where
  /-- One is kept. -/
  | clip
  /-- None is kept. -/
  | strip
  /-- All are kept. -/
  | keep
deriving DecidableEq, Repr

/-- The mark of a chomping, if there is one. -/
def takeChomping? : Scan (Option Chomping) := do
  if ← skipChar? '+' then return some .keep
  else if ← skipChar? '-' then return some .strip
  else return none

/-- The digit that says how far the lines of a block are indented; zero if there is none. -/
def takeIncrement (start : Nat) : Scan Nat := do
  match (← here).rest with
  | [] => return 0
  | c :: _ =>
      if !Text.isDigit c then return 0
      else if c == '0' then fail start "found an indentation indicator equal to 0"
      else do
        modify Input.next
        return Text.hexValue c

/-- The marks of a block in either order: its chomping and its indentation. -/
def takeBlockMarks (start : Nat) : Scan (Chomping × Nat) := do
  match ← takeChomping? with
  | some chomping => return (chomping, ← takeIncrement start)
  | none => do
    match ← takeIncrement start with
    | 0 => return (.clip, 0)
    | increment => return ((← takeChomping?).getD .clip, increment)

/-- Go past the indentation and the empty lines of a block. An indentation of zero is not known yet.
The result is the greatest column and the line breaks. -/
def takeEmptyLines (start indent : Nat) : Nat → Nat → List Char → Scan (Nat × List Char)
  | 0, greatest, breaks => return (greatest, breaks)
  | bound + 1, greatest, breaks => do
    let input ← here
    let spaces := (input.rest.takeWhile (· == ' ')).length
    forward (if indent = 0 then spaces else min spaces (indent - input.mark.column))
    let input ← here
    let column := input.mark.column
    let greatest := max greatest column
    if (indent = 0 || column < indent) && input.starts '\t' then
      fail start "found a tab character where an indentation space is expected"
    else if input.has 0 isBreak then do
      let taken ← takeBreak
      takeEmptyLines start indent bound greatest (breaks ++ taken)
    else return (greatest, breaks)

/-- The lines of a block from the place on, joined to what is read already. The argument `leading`
is the break before the place, `breaks` the empty lines after that, and `loose` says whether the
line before started with a blank. The result is the text and the breaks at its end. -/
def blockLines (folded : Bool) (start indent : Nat) :
    Nat → List Char → List Char → List Char → Bool → Scan (List Char × List Char × List Char)
  | 0, text, leading, breaks, _ => return (text, leading, breaks)
  | bound + 1, text, leading, breaks, loose => do
    let input ← here
    if input.mark.column = indent && !input.rest.isEmpty then
      let blank := input.has 0 isBlank
      let joint :=
        if folded && !loose && !blank && leading == ['\n'] then
          if breaks.isEmpty then [' '] else []
        else leading
      let line ← takeWhile fun c => !isBreak c
      let leading ← takeBreak
      let (_, empty) ← takeEmptyLines start indent (input.rest.length + 1) 0 []
      blockLines folded start indent bound (text ++ joint ++ breaks ++ line) leading empty blank
    else return (text, leading, breaks)

/-- A block scalar inside of a block at a column, if there is one. -/
def blockScalar (folded : Bool) (outer : Option Nat) : Scan String := do
  let input ← get
  let start := input.mark.line
  let bound := input.rest.length + 1
  modify Input.next
  let (chomping, increment) ← takeBlockMarks start
  skipBlanks
  if (← get).starts '#' then skipLineRest
  if !(← get).lacks 0 isBreak then fail start "did not find expected comment or line break"
  let _ ← takeBreak
  let given := if increment = 0 then 0 else outer.getD 0 + increment
  let (greatest, breaks) ← takeEmptyLines start given bound 0 []
  let least := match outer with
    | some column => column + 1
    | none => 1
  let indent := if given = 0 then max greatest least else given
  let (text, leading, breaks) ← blockLines folded start indent bound [] [] breaks false
  let tail :=
    match chomping with
    | .strip => []
    | .clip => leading
    | .keep => leading ++ breaks
  return String.ofList (text ++ tail)

end Scan

end Reckon.Yaml
