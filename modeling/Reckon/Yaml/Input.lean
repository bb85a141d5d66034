import Reckon.Text.Rune
import Reckon.Yaml.Basic

/-!
# The characters of a YAML text

A place in a text, with its line and column, and the elementary steps from there. A text arrives in
chunks. A character that may not occur in a text is a problem as soon as something is asked of its
chunk, and not before: contents that end earlier are not affected.
-/

namespace Reckon.Yaml

/-! ## Classes of characters -/

/-- Whether a character is a space or a tab. -/
def isBlank (c : Char) : Bool :=
  c == ' ' || c == '\t'

/-- The line and paragraph separators. -/
def isSeparator (c : Char) : Bool :=
  c == Char.ofNat 0x2028 || c == Char.ofNat 0x2029

/-- Whether a character ends a line. -/
def isBreak (c : Char) : Bool :=
  c == '\r' || c == '\n' || c == Char.ofNat 0x85 || isSeparator c

/-- Whether a character ends a word. -/
def isGap (c : Char) : Bool :=
  isBlank c || isBreak c

/-- Whether a character may stand in a name. -/
def isNameChar (c : Char) : Bool :=
  c.isAlphanum || c == '_' || c == '-'

/-- The mark that may stand at the start of a line. -/
def byteOrderMark : Char := Char.ofNat 0xFEFF

/-- Whether a character may occur in a text. -/
def isAllowed (c : Char) : Bool :=
  c == '\t' || c == '\n' || c == '\r' || (' ' ≤ c && c ≤ '~') || c == Char.ofNat 0x85 ||
    (0xA0 ≤ c.toNat && c.toNat != 0xFFFE && c.toNat != 0xFFFF)

/-! ## Places -/

/-- A place in a text. -/
structure Mark where
  /-- The number of characters before it. -/
  index : Nat := 0
  /-- The number of lines before it. -/
  line : Nat := 0
  /-- The number of characters before it on its line. -/
  column : Nat := 0
deriving DecidableEq, Repr, Inhabited

/-- A place in a text and what comes after it. -/
structure Input where
  /-- The place. -/
  mark : Mark := {}
  /-- The characters from the place on, up to the first chunk with a flaw. -/
  rest : List Char := []
  /-- What is wrong with the chunk after these. -/
  flaw : Option Problem := none
  /-- The number of line breaks since the last character that was no blank. -/
  breaks : Nat := 0
deriving Inhabited

namespace Input

/-- The greatest number of bytes in a chunk. -/
def chunkSize : Nat := 512

/-- The runes of the first chunk. -/
def takeChunk (room : Nat) : List Text.Rune → List Text.Rune
  | [] => []
  | rune :: rest => if room < rune.width then [] else rune :: takeChunk (room - rune.width) rest

/-- The characters up to the first chunk with a character that may not occur, and whether there is
one. The first argument bounds the number of chunks. -/
def soundChunks : Nat → List Text.Rune → List Char × Bool
  | 0, _ => ([], false)
  | _ + 1, [] => ([], false)
  | bound + 1, runes =>
      let chunk := takeChunk chunkSize runes
      if chunk.all fun rune => isAllowed rune.char then
        let (more, flawed) := soundChunks bound (runes.drop chunk.length)
        (chunk.map Text.Rune.char ++ more, flawed)
      else ([], true)

/-- The start of a text. A byte order mark there does not count. -/
def ofText (text : String) : Input :=
  let runes := Text.Rune.ofString text
  let (chars, flawed) := soundChunks (runes.length + 1) runes
  let rest := if chars.head? == some byteOrderMark then chars.drop 1 else chars
  { rest, flaw := if flawed then some (.unplaced "control characters are not allowed") else none }

/-- The place after one character, which ends no line. -/
def afterChar (input : Input) (c : Char) (rest : List Char) : Input :=
  { input with
    mark := { input.mark with index := input.mark.index + 1, column := input.mark.column + 1 }
    rest, breaks := if isBlank c then input.breaks else 0 }

/-- The place after a line break of a number of characters. -/
def afterBreak (input : Input) (size : Nat) : Input :=
  { input with
    mark := { index := input.mark.index + size, line := input.mark.line + 1, column := 0 }
    rest := input.rest.drop size, breaks := input.breaks + 1 }

/-- The number of characters of the line break at a place; zero if there is none. -/
def breakSize (input : Input) : Nat :=
  match input.rest with
  | '\r' :: '\n' :: _ => 2
  | c :: _ => if isBreak c then 1 else 0
  | [] => 0

/-- The place after the next character or line break. -/
def next (input : Input) : Input :=
  match input.breakSize, input.rest with
  | 0, c :: rest => input.afterChar c rest
  | 0, [] => input
  | size, _ => input.afterBreak size

/-- Whether the character at a distance satisfies a test. -/
def has (input : Input) (distance : Nat) (test : Char → Bool) : Bool :=
  (input.rest.drop distance).head?.any test

/-- Whether there is no character at a distance, or one that satisfies a test. -/
def lacks (input : Input) (distance : Nat) (test : Char → Bool) : Bool :=
  (input.rest.drop distance).head?.all test

/-- Whether a character stands at a place. -/
def starts (input : Input) (c : Char) : Bool :=
  input.has 0 (· == c)

/-- Whether a line starts with a mark of three equal characters. -/
def atDocumentMark (input : Input) (c : Char) : Bool :=
  input.mark.column == 0 && input.rest.take 3 == [c, c, c] && input.lacks 3 isGap

/-- Whether a document starts or ends at a place. -/
def atBoundary (input : Input) : Bool :=
  input.atDocumentMark '-' || input.atDocumentMark '.'

end Input

/-! ## Steps -/

/-- A step through a text. -/
abbrev Scan := EStateM Problem Input

namespace Scan

/-- Fail with a construct that started on a line. -/
def fail {α : Type} (start : Nat) (description : String) : Scan α := do
  throw (.ofToken start (← get).mark.line description)

/-- Make sure that a number of characters can be seen, unless the text ends before. -/
def need (count : Nat) : Scan Unit := do
  let input ← get
  match input.flaw with
  | some problem => if input.rest.length < count then throw problem
  | none => return

/-- The place, once its character can be seen. -/
def here : Scan Input := do
  need 1
  get

/-- Go past a number of characters or line breaks. -/
def forward : Nat → Scan Unit
  | 0 => return
  | count + 1 => do
    modify Input.next
    forward count

/-- Go on while characters satisfy a test that no line break satisfies; they are the result. -/
def takeWhile (test : Char → Bool) : Scan (List Char) := do
  let taken := (← here).rest.takeWhile test
  forward taken.length
  need 1
  return taken

/-- Go past the blanks. -/
def skipBlanks : Scan Unit := do
  let _ ← takeWhile isBlank

/-- Go to the end of the line. -/
def skipLineRest : Scan Unit := do
  let _ ← takeWhile fun c => !isBreak c

/-- Go past a line break. What stands for it is a line feed, or the separator that it is. -/
def takeBreak : Scan (List Char) := do
  need 2
  let input ← get
  match input.rest with
  | c :: _ =>
      if isBreak c then
        modify Input.next
        return [if isSeparator c then c else '\n']
      else return []
  | [] => return []

/-- Go past a character if it is there. -/
def skipChar? (c : Char) : Scan Bool := do
  if (← here).starts c then
    modify Input.next
    return true
  else return false

/-- Go on to an index of the text. The first argument bounds the number of steps. -/
def forwardTo : Nat → Nat → Scan Unit
  | 0, _ => return
  | bound + 1, index => do
    if (← get).mark.index < index then
      modify Input.next
      forwardTo bound index

end Scan

/-! ## Comments -/

namespace Scan

/-- How far a comment is looked for. -/
def commentReach : Nat := 512

/-- Go past a comment after a token, if nothing but blanks stands between. -/
def skipLineComment : Scan Unit := do
  let input ← get
  if input.breaks = 0 then
    let blanks := (input.rest.takeWhile isBlank).length
    need (min (blanks + 1) commentReach)
    if blanks < commentReach && input.has blanks (· == '#') then
      skipLineRest

/-- Go past a comment and the comments on the lines after it. The first argument bounds their
number. -/
def skipComments : Nat → Scan Unit
  | 0 => return
  | bound + 1 => do
    skipLineRest
    let input ← get
    let gap := ((input.rest.drop 1).takeWhile isGap).length + 1
    if gap < commentReach && input.has gap (· == '#') then
      forwardTo gap (input.mark.index + gap)
      skipComments bound

/-- Go to the next character that is in no comment, no blank and no line break. Outside of flow
collections a tab may not stand where a key may start. The result says whether a key may start. -/
def skipGap (inFlow : Bool) : Nat → Bool → Scan Bool
  | 0, keyAllowed => return keyAllowed
  | bound + 1, keyAllowed => do
    let input ← here
    if input.mark.column == 0 then
      let _ ← skipChar? byteOrderMark
    let _ ← takeWhile fun c => c == ' ' || (c == '\t' && (inFlow || !keyAllowed))
    if (← get).starts '#' then
      skipComments (input.rest.length + 1)
    if (← get).has 0 isBreak then
      let _ ← takeBreak
      skipGap inFlow bound (keyAllowed || !inFlow)
    else return keyAllowed

end Scan

end Reckon.Yaml
