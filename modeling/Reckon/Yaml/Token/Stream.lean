import Reckon.Yaml.Token.Basic
import Reckon.Yaml.Token.Property
import Reckon.Yaml.Token.Scalar

/-!
# The tokens of a text

Tokens are cut off a text as they are asked for. Whether a node is a key shows only at the colon
after it, so tokens wait in a queue: at the colon, the token that announces the key is put in front
of those of the node. A key without a mark is on one line and not too long. Two tokens beyond the
one asked for are always cut off, so a problem there is found before the first of them is used.
-/

namespace Reckon.Yaml

/-- A place where a key may have started. There is one at each level of flow collections. -/
structure KeyStart where
  /-- Whether a key may have started. -/
  possible : Bool := false
  /-- Whether only a key can stand there. -/
  required : Bool := false
  /-- The number of the first token of the key. -/
  number : Nat := 0
  /-- Whether that token has to wait until the key is decided. -/
  awaited : Bool := false
  /-- The place. -/
  mark : Mark := {}
deriving Inhabited

/-- The tokens of a text that are still to come. -/
structure TokenStream where
  /-- The text that is not cut yet. -/
  input : Input
  /-- The tokens that wait. -/
  queue : List Token := []
  /-- The number of tokens that are gone. -/
  taken : Nat := 0
  /-- Whether the token at the start of the text is there. -/
  started : Bool := false
  /-- Whether a key without a mark may start at the place. -/
  keyAllowed : Bool := true
  /-- The columns of the open block collections, the innermost first. -/
  indents : List Nat := []
  /-- The place of a key at each level of flow collections, the innermost first. -/
  keys : List KeyStart := [{}]
deriving Inhabited

/-- A step through the tokens of a text. -/
abbrev Lexer := EStateM Problem TokenStream

namespace TokenStream

/-- The stream of a text. -/
def ofText (text : String) : TokenStream :=
  { input := .ofText text }

/-- Whether the place is inside of a flow collection. -/
def inFlow (stream : TokenStream) : Bool :=
  1 < stream.keys.length

/-- The least column of what is inside of the innermost block collection. -/
def margin (stream : TokenStream) : Nat :=
  match stream.indents with
  | column :: _ => column + 1
  | [] => 0

/-- The number of the next token. -/
def nextNumber (stream : TokenStream) : Nat :=
  stream.taken + stream.queue.length

/-- Put a token at the end of the queue. -/
def push (stream : TokenStream) (kind : Token.Kind) (line : Nat) : TokenStream :=
  { stream with queue := stream.queue ++ [⟨kind, line⟩] }

/-- Put a token in front of that with a number. If that is gone, the token goes to the end. -/
def insert (stream : TokenStream) (number : Nat) (kind : Token.Kind) (line : Nat) :
    TokenStream :=
  if number < stream.taken then stream.push kind line
  else { stream with queue := stream.queue.insertIdx (number - stream.taken) ⟨kind, line⟩ }

/-- Close the block collections from beyond a column, or all of them. -/
def unroll (stream : TokenStream) (keep : Nat → Bool) (line : Nat) : TokenStream :=
  if stream.inFlow then stream
  else
    let closed := stream.indents.takeWhile fun column => !keep column
    { stream with
      indents := stream.indents.drop closed.length
      queue := stream.queue ++ closed.map fun _ => ⟨.blockEnd, line⟩ }

end TokenStream

namespace Lexer

/-- Take a step through the text. -/
def scan {α : Type} (step : Scan α) : Lexer α := fun stream =>
  match step stream.input with
  | .ok result input => .ok result { stream with input }
  | .error problem input => .error problem { stream with input }

/-- Fail with a construct that started on a line. -/
def fail {α : Type} (start : Nat) (description : String) : Lexer α :=
  scan (Scan.fail start description)

/-- Fail at the place. -/
def failHere {α : Type} (description : String) : Lexer α := do
  fail (← get).input.mark.line description

/-- Put a token at the end of the queue. -/
def push (kind : Token.Kind) (line : Nat) : Lexer Unit :=
  modify (·.push kind line)

/-- Allow or forbid a key without a mark at the place. -/
def allowKey (allowed : Bool) : Lexer Unit :=
  modify fun stream => { stream with keyAllowed := allowed }

/-! ## Keys without a mark -/

/-- The greatest number of characters between the start of a key and its colon. -/
def keyReach : Nat := 1024

/-- What stands there cannot be a key, but it has to be one. -/
def missingColon {α : Type} (key : KeyStart) : Lexer α :=
  fail key.mark.line "could not find expected ':'"

/-- Give up the key that may have started at the innermost level. -/
def dropKey : Lexer Unit := do
  match (← get).keys with
  | [] => return
  | key :: rest =>
      if key.possible then
        if key.required then missingColon key
        else
          modify fun stream =>
            { stream with keys := { key with possible := false, awaited := false } :: rest }

/-- Note that a key may start at the place, if one is allowed. -/
def noteKey : Lexer Unit := do
  let stream ← get
  if stream.keyAllowed then
    let mark := stream.input.mark
    let required := !stream.inFlow && stream.indents.head? == some mark.column
    dropKey
    modify fun stream =>
      { stream with
        keys := { possible := true, required, number := stream.nextNumber, awaited := true, mark } ::
          stream.keys.drop 1 }

/-- Whether a key is still open: it has not gone on to another line, and not for too long. -/
def isOpen (key : KeyStart) : Lexer Bool := do
  let mark := (← get).input.mark
  if !key.possible then return false
  else if key.mark.line < mark.line || key.mark.index + keyReach < mark.index then
    if key.required then missingColon key else return false
  else return true

/-! ## Indentation and flow levels -/

/-- The greatest number of levels. -/
def maxDepth : Nat := 10000

/-- Open a block collection at a column, unless one is open there. The token goes in front of that
with a number, if one is given. -/
def roll (column : Nat) (number : Option Nat) (kind : Token.Kind) (line : Nat) : Lexer Unit := do
  let stream ← get
  if !stream.inFlow && stream.indents.head?.all (· < column) then
    if maxDepth ≤ stream.indents.length then
      fail ((stream.keys.head?.map (·.mark.line)).getD 0)
        ("exceeded max depth of " ++ toString maxDepth)
    let stream := { stream with indents := column :: stream.indents }
    set (match number with
      | some number => stream.insert number kind line
      | none => stream.push kind line)

/-- Close all block collections. -/
def unrollAll : Lexer Unit :=
  modify fun stream => stream.unroll (fun _ => false) stream.input.mark.line

/-- Enter a flow collection. -/
def enterFlow : Lexer Unit := do
  let stream ← get
  if maxDepth < stream.keys.length then
    failHere ("exceeded max depth of " ++ toString maxDepth)
  set { stream with keys := { number := stream.nextNumber, mark := stream.input.mark } ::
    stream.keys }

/-- Leave a flow collection. Without a key in it, its own start does not have to wait any more. -/
def leaveFlow : Lexer Unit :=
  modify fun stream =>
    match stream.keys with
    | inner :: outer :: rest =>
        { stream with
          keys := (outer :: rest).map fun key =>
            if key.number = inner.number then { key with awaited := false } else key }
    | _ => stream

/-! ## Cutting off tokens -/

/-- Cut off a token of one character. -/
def mark (kind : Token.Kind) : Lexer Unit := do
  push kind (← get).input.mark.line
  scan (modify Input.next)

/-- Cut off the end of the text. Each time this is done there is one more token for it. -/
def streamEnd : Lexer Unit := do
  modify fun stream =>
    let mark := stream.input.mark
    if mark.column = 0 then stream
    else { stream with input.mark := { mark with line := mark.line + 1, column := 0 } }
  unrollAll
  dropKey
  allowKey false
  push .streamEnd (← get).input.mark.line

/-- Cut off a directive. -/
def directive : Lexer Unit := do
  unrollAll
  dropKey
  allowKey false
  let line := (← get).input.mark.line
  match ← scan Scan.directive with
  | .version major minor => push (.version major minor) line
  | .handle handle meaning => push (.handle handle meaning) line

/-- Cut off a mark between documents. -/
def documentMark (kind : Token.Kind) : Lexer Unit := do
  unrollAll
  dropKey
  allowKey false
  push kind (← get).input.mark.line
  scan (Scan.forward 3)

/-- Cut off the opening mark of a flow collection. -/
def openFlow (kind : Token.Kind) : Lexer Unit := do
  noteKey
  enterFlow
  allowKey true
  mark kind

/-- Cut off the closing mark of a flow collection. -/
def closeFlow (kind : Token.Kind) : Lexer Unit := do
  dropKey
  leaveFlow
  allowKey false
  mark kind

/-- Cut off a comma. -/
def comma : Lexer Unit := do
  dropKey
  allowKey true
  mark .comma

/-- Cut off the mark of an item. Inside of flow collections it is out of place, which shows later. -/
def item : Lexer Unit := do
  let stream ← get
  if !stream.inFlow then
    if !stream.keyAllowed then
      failHere "block sequence entries are not allowed in this context"
    roll stream.input.mark.column none .blockSequence stream.input.mark.line
  dropKey
  allowKey true
  mark .item

/-- Cut off the mark of a key. -/
def keyMark : Lexer Unit := do
  let stream ← get
  if !stream.inFlow then
    if !stream.keyAllowed then failHere "mapping keys are not allowed in this context"
    roll stream.input.mark.column none .blockMapping stream.input.mark.line
  dropKey
  allowKey !stream.inFlow
  mark .key

/-- Cut off a colon. It decides the key before it, or follows a key with a mark. -/
def colon : Lexer Unit := do
  let key := (← get).keys.headD {}
  if ← isOpen key then
    modify (·.insert key.number .key key.mark.line)
    roll key.mark.column (some key.number) .blockMapping key.mark.line
    modify fun stream =>
      { stream with keys := { key with possible := false, awaited := false } ::
        stream.keys.drop 1 }
    allowKey false
  else
    modify fun stream =>
      { stream with keys := { key with possible := false } :: stream.keys.drop 1 }
    let stream ← get
    if !stream.inFlow then
      if !stream.keyAllowed then failHere "mapping values are not allowed in this context"
      roll stream.input.mark.column none .blockMapping stream.input.mark.line
    allowKey !stream.inFlow
  mark .value

/-- Cut off something that can be a key. -/
def keyPart (part : Scan Token.Kind) : Lexer Unit := do
  noteKey
  allowKey false
  let line := (← get).input.mark.line
  push (← scan part) line

/-- Cut off a plain scalar. If a line break follows it, a key may come next. -/
def plainScalar : Lexer Unit := do
  noteKey
  allowKey false
  let stream ← get
  let (text, crossed) ← scan (Scan.plainScalar stream.inFlow stream.margin)
  push (.scalar text true) stream.input.mark.line
  if crossed then allowKey true

/-- Cut off a block scalar. -/
def blockScalar (folded : Bool) : Lexer Unit := do
  dropKey
  allowKey true
  let stream ← get
  let text ← scan (Scan.blockScalar folded stream.indents.head?)
  push (.scalar text false) stream.input.mark.line

/-- Cut off a quoted scalar. -/
def quotedScalar (quote : Char) : Lexer Unit :=
  keyPart do return .scalar (← Scan.quotedScalar quote) false

/-- The characters that no plain scalar starts with, unless some of them stand before a word. -/
def isIndicator (c : Char) : Bool :=
  Scan.isFlowMark c || "-:#&*!|>'\"%@`".contains c

/-- Cut off what starts with a character that is no blank. -/
def contents (c : Char) : Lexer Unit := do
  let stream ← get
  let inFlow := stream.inFlow
  let alone := stream.input.lacks 1 isGap
  match c with
  | '[' => openFlow .openSequence
  | '{' => openFlow .openMapping
  | ']' => closeFlow .closeSequence
  | '}' => closeFlow .closeMapping
  | ',' => comma
  | _ =>
      if c == '-' && alone then item
      else if c == '?' && (inFlow || alone) then keyMark
      else if c == ':' && (inFlow || alone) then colon
      else if c == '*' then keyPart do return .reference (← Scan.nodeName)
      else if c == '&' then keyPart do return .anchor (← Scan.nodeName)
      else if c == '!' then keyPart do
        let (handle, suffix) ← Scan.nodeTag
        return .tag handle suffix
      else if c == '|' && !inFlow then blockScalar false
      else if c == '>' && !inFlow then blockScalar true
      else if c == '\x27' || c == '"' then quotedScalar c
      else if !(isGap c || isIndicator c) || c == '-' || (!inFlow && (c == '?' || c == ':')) then
        plainScalar
      else failHere "found character that cannot start any token"

/-- Cut off one token, or a few that belong together. -/
def cut : Lexer Unit := do
  scan (Scan.need 1)
  let stream ← get
  if !stream.started then
    set { stream with started := true }
    push .streamStart stream.input.mark.line
  else
    let line := stream.input.mark.line
    allowKey (← scan (Scan.skipGap stream.inFlow (stream.input.rest.length + 1) stream.keyAllowed))
    modify fun stream => stream.unroll (· ≤ stream.input.mark.column) line
    scan (Scan.need 4)
    let input := (← get).input
    match input.rest with
    | [] => streamEnd
    | c :: _ =>
        if input.mark.column = 0 && c == '%' then directive
        else if input.atDocumentMark '-' then documentMark .documentStart
        else if input.atDocumentMark '.' then documentMark .documentEnd
        else
          contents c
          if ((← get).queue.getLast?.map Token.kind) != some .item then
            scan Scan.skipLineComment

/-! ## Asking for tokens -/

/-- The number of tokens that wait at least. -/
def queueLength : Nat := 3

/-- Cut off tokens until the first of them may be used. The argument bounds their number. -/
def fill : Nat → Lexer Unit
  | 0 => return
  | bound + 1 => do
    let stream ← get
    let waits ←
      if stream.queue.length < queueLength then pure true
      else
        match stream.keys.find? fun key => key.awaited && key.number == stream.taken with
        | some key => isOpen key
        | none => pure false
    if waits then
      cut
      fill bound

/-- The next token. -/
def peek : Lexer Token := do
  fill ((← get).input.rest.length + 2 * queueLength)
  return (← get).queue.headD ⟨.streamEnd, 0⟩

/-- Take the next token. -/
def next : Lexer Unit :=
  modify fun stream => { stream with queue := stream.queue.drop 1, taken := stream.taken + 1 }

end Lexer

end Reckon.Yaml
