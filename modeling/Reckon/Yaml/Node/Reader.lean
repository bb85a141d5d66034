import Reckon.Yaml.Schema
import Reckon.Yaml.Token.Stream

/-!
# Reading documents

Nodes are put together from tokens. A node may start with a name and a tag, in either order; one of
these alone stands for an empty scalar. Where a key, a value or an item is missing, an empty scalar
takes its place. Only the first document of a text is read.
-/

namespace Reckon.Yaml

/-- What is known while nodes are put together. -/
structure Reader.State where
  /-- The tokens to come. -/
  stream : TokenStream
  /-- The meanings of the handles of tags. -/
  handles : List (String × String) := []
  /-- The numbers of the nodes with names, the latest first. -/
  names : List (String × Nat) := []
  /-- The nodes with names, once they are complete. -/
  named : List (Nat × Node) := []
  /-- The number of aliases so far. -/
  aliases : Nat := 0
deriving Inhabited

/-- A reader of nodes. -/
abbrev Reader := EStateM Problem Reader.State

namespace Reader

/-- Ask for tokens. -/
def lex {α : Type} (step : Lexer α) : Reader α := fun state =>
  match step state.stream with
  | .ok result stream => .ok result { state with stream }
  | .error problem stream => .error problem { state with stream }

/-- The next token. -/
def peek : Reader Token := lex Lexer.peek

/-- Take the next token. -/
def next : Reader Unit := lex Lexer.next

/-- Take the next token and look at the one after it. -/
def nextThenPeek : Reader Token := do
  next
  peek

/-- Fail because tokens do not fit together. -/
def misfit {α : Type} (start found : Nat) (description : String) : Reader α :=
  throw (.ofStructure start found description)

/-- The scalar that stands where nothing is written. -/
def absent (line : Nat) : Node :=
  .scalar (line + 1) "!!null" ""

/-! ## Names and tags -/

/-- What stands in front of a node. -/
structure Properties where
  /-- The line of the node. -/
  line : Nat
  /-- The name. -/
  name : Option String := none
  /-- The handle and the rest of the tag, and its line. -/
  tag : Option (String × String × Nat) := none

/-- The name and the tag in front of a node, in either order. -/
def properties : Reader Properties := do
  let token ← peek
  match token.kind with
  | .anchor name =>
      let second ← nextThenPeek
      match second.kind with
      | .tag handle suffix =>
          let _ ← nextThenPeek
          return { line := token.line, name, tag := some (handle, suffix, second.line) }
      | _ => return { line := token.line, name }
  | .tag handle suffix =>
      let tag := some (handle, suffix, token.line)
      let second ← nextThenPeek
      match second.kind with
      | .anchor name =>
          let _ ← nextThenPeek
          return { line := token.line, name, tag }
      | _ => return { line := token.line, tag }
  | _ => return { line := token.line }

/-- The tag in full; it is empty if there is none. -/
def fullTag (properties : Properties) : Reader String := do
  match properties.tag with
  | none => return ""
  | some ("", suffix, _) => return suffix
  | some (handle, suffix, line) =>
      match (← get).handles.lookup handle with
      | some meaning =>
          if meaning.isEmpty && suffix.isEmpty then undefined line else return meaning ++ suffix
      | none => undefined line
where
  /-- The handle has no meaning. -/
  undefined (line : Nat) : Reader String :=
    misfit properties.line line "found undefined tag handle"

/-- Whether a tag says something. -/
def isSpecific (tag : String) : Bool :=
  tag != "" && tag != "!"

/-- The tag of a node that has a tag of its own, or another one. -/
def tagOr (tag other : String) : String :=
  if isSpecific tag then shortTag tag else other

/-- Give a node its name, and complete it. The name is known inside of the node. -/
def named (name : Option String) (node : Reader Node) : Reader Node :=
  match name with
  | none => node
  | some name => do
    let number := (← get).names.length
    modify fun state => { state with names := (name, number) :: state.names }
    let result ← node
    modify fun state => { state with named := (number, result) :: state.named }
    return result

/-- The node that an alias stands for. -/
def reference (line : Nat) (name : String) : Reader Node := do
  let state ← get
  match state.names.lookup name with
  | none => throw (.unplaced ("unknown anchor '" ++ name ++ "' referenced"))
  | some target => do
    set { state with aliases := state.aliases + 1 }
    return .reference (line + 1) name state.aliases target

/-! ## Nodes -/

/-- Whether a token ends the key or the value of a block mapping before it starts. -/
def endsBlockPart (kind : Token.Kind) : Bool :=
  kind == .key || kind == .value || kind == .blockEnd

mutual

/-- Read a node. In blocks, `block` allows block collections, and `indentless` allows a sequence
whose items are at the column of the mapping that it is in. -/
def node : Nat → Bool → Bool → Reader Node
  | 0, _, _ => misfit 0 0 "document is too large"
  | bound + 1, block, indentless => do
    let token ← peek
    match token.kind with
    | .reference name =>
        next
        reference token.line name
    | _ =>
        let properties ← properties
        let token ← peek
        let tag ← fullTag properties
        let line := properties.line
        match token.kind with
        | .scalar text plain =>
            next
            named properties.name do
              return .scalar (line + 1) (tagOr tag (if plain then plainTag text else textTag)) text
        | .openSequence =>
            named properties.name do
              next
              return .sequence (line + 1) (tagOr tag "!!seq") (← flowItems bound token.line true)
        | .openMapping =>
            named properties.name do
              next
              return .mapping (line + 1) (tagOr tag "!!map") (← flowEntries bound token.line true)
        | kind =>
            if indentless && kind == .item then
              named properties.name do
                return .sequence (line + 1) (tagOr tag "!!seq") (← plainItems bound)
            else if block && kind == .blockSequence then
              named properties.name do
                next
                return .sequence (line + 1) (tagOr tag "!!seq") (← blockItems bound token.line)
            else if block && kind == .blockMapping then
              named properties.name do
                next
                return .mapping (line + 1) (tagOr tag "!!map") (← blockEntries bound token.line)
            else if properties.name.isSome || tag != "" then
              named properties.name do return .scalar (line + 1) (tagOr tag "!!null") ""
            else misfit line token.line "did not find expected node content"

/-- Read the items of a block sequence that started on a line. -/
def blockItems : Nat → Nat → Reader (List Node)
  | 0, _ => misfit 0 0 "document is too large"
  | bound + 1, start => do
    let token ← peek
    match token.kind with
    | .item =>
        let after ← nextThenPeek
        let first ←
          if after.kind == .item || after.kind == .blockEnd then pure (absent token.line)
          else node bound true false
        return first :: (← blockItems bound start)
    | .blockEnd =>
        next
        return []
    | _ => misfit start token.line "did not find expected '-' indicator"

/-- Read the items of a sequence at the column of the mapping that it is in. -/
def plainItems : Nat → Reader (List Node)
  | 0 => misfit 0 0 "document is too large"
  | bound + 1 => do
    let token ← peek
    match token.kind with
    | .item =>
        let after ← nextThenPeek
        let first ←
          if after.kind == .item || endsBlockPart after.kind then pure (absent token.line)
          else node bound true false
        return first :: (← plainItems bound)
    | _ => return []

/-- Read the entries of a block mapping that started on a line. -/
def blockEntries : Nat → Nat → Reader (List (Node × Node))
  | 0, _ => misfit 0 0 "document is too large"
  | bound + 1, start => do
    let token ← peek
    match token.kind with
    | .key =>
        let after ← nextThenPeek
        let key ←
          if endsBlockPart after.kind then pure (absent token.line) else node bound true true
        let value ← blockValue bound
        return (key, value) :: (← blockEntries bound start)
    | .blockEnd =>
        next
        return []
    | _ => misfit start token.line "did not find expected key"

/-- Read the value of an entry of a block mapping. -/
def blockValue : Nat → Reader Node
  | 0 => misfit 0 0 "document is too large"
  | bound + 1 => do
    let token ← peek
    if token.kind == .value then
      let after ← nextThenPeek
      if endsBlockPart after.kind then return absent token.line else node bound true true
    else return absent token.line

/-- Read the items of a sequence in brackets that started on a line. After the first of them a comma
comes before each. -/
def flowItems : Nat → Nat → Bool → Reader (List Node)
  | 0, _, _ => misfit 0 0 "document is too large"
  | bound + 1, start, first => do
    let token ← peek
    if token.kind == .closeSequence then
      next
      return []
    else if !first && token.kind != .comma then
      misfit start token.line "did not find expected ',' or ']'"
    else
      let token ← if first then pure token else nextThenPeek
      if token.kind == .closeSequence then
        next
        return []
      else if token.kind == .key then
        next
        let entry ← flowPair bound
        return .mapping (token.line + 1) "!!map" [entry] :: (← flowItems bound start false)
      else
        let item ← node bound false false
        return item :: (← flowItems bound start false)

/-- Read a pair that is an item of a sequence in brackets, after the mark of its key. A key that is
missing takes the colon with it. -/
def flowPair : Nat → Reader (Node × Node)
  | 0 => misfit 0 0 "document is too large"
  | bound + 1 => do
    let ends (kind : Token.Kind) : Bool := kind == .comma || kind == .closeSequence
    let token ← peek
    let key ←
      if token.kind == .value || ends token.kind then do
        next
        pure (absent token.line)
      else node bound false false
    let token ← peek
    if token.kind == .value then
      let after ← nextThenPeek
      let value ← if ends after.kind then pure (absent token.line) else node bound false false
      let _ ← peek
      return (key, value)
    else return (key, absent token.line)

/-- Read the entries of a mapping in braces that started on a line. After the first of them a comma
comes before each. -/
def flowEntries : Nat → Nat → Bool → Reader (List (Node × Node))
  | 0, _, _ => misfit 0 0 "document is too large"
  | bound + 1, start, first => do
    let token ← peek
    if token.kind == .closeMapping then
      next
      return []
    else if !first && token.kind != .comma then
      misfit start token.line "did not find expected ',' or '\x7d'"
    else
      let token ← if first then pure token else nextThenPeek
      if token.kind == .closeMapping then
        next
        return []
      else if token.kind == .key then
        let after ← nextThenPeek
        let key ←
          if after.kind == .value || endsEntry after.kind then pure (absent after.line)
          else node bound false false
        let value ← flowValue bound
        return (key, value) :: (← flowEntries bound start false)
      else
        let key ← node bound false false
        let after ← peek
        return (key, absent after.line) :: (← flowEntries bound start false)
where
  /-- Whether a token ends an entry. -/
  endsEntry (kind : Token.Kind) : Bool := kind == .comma || kind == .closeMapping

/-- Read the value of an entry of a mapping in braces. -/
def flowValue : Nat → Reader Node
  | 0 => misfit 0 0 "document is too large"
  | bound + 1 => do
    let token ← peek
    if token.kind == .value then
      let after ← nextThenPeek
      if after.kind == .comma || after.kind == .closeMapping then return absent after.line
      else node bound false false
    else return absent token.line

end

/-! ## Documents -/

/-- The meanings of handles that no directive gives. -/
def standardHandles : List (String × String) :=
  [("!", "!"), ("!!", standardTag)]

/-- Read the directives of a document. The argument bounds their number. -/
def directives : Nat → Bool → Reader Unit
  | 0, _ => return
  | bound + 1, versioned => do
    let token ← peek
    match token.kind with
    | .version major minor =>
        if versioned then misfit 0 token.line "found duplicate %YAML directive"
        else if major ≠ 1 || minor ≠ 1 then misfit 0 token.line "found incompatible YAML document"
        else
          next
          directives bound true
    | .handle handle meaning =>
        let state ← get
        if (state.handles.lookup handle).isSome then
          misfit 0 token.line "found duplicate %TAG directive"
        else
          set { state with handles := state.handles ++ [(handle, meaning)] }
          next
          directives bound versioned
    | _ => modify fun state => { state with handles := state.handles ++ standardHandles }

/-- Whether a token cannot be part of the contents of a document. -/
def isOutside (kind : Token.Kind) : Bool :=
  match kind with
  | .version .. | .handle .. | .documentStart | .documentEnd | .streamEnd => true
  | _ => false

/-- Read the first document, if there is one. -/
def document (bound : Nat) : Reader (Option Node) := do
  let _ ← peek
  let token ← nextThenPeek
  match token.kind with
  | .streamEnd => return none
  | .version .. | .handle .. | .documentStart =>
      directives bound false
      let token ← peek
      if token.kind != .documentStart then
        misfit 0 token.line "did not find expected <document start>"
      let first ← nextThenPeek
      let root ← if isOutside first.kind then pure (absent first.line) else node bound true false
      let _ ← peek
      return some root
  | _ =>
      directives bound false
      let root ← node bound true false
      let _ ← peek
      return some root

end Reader

/-- Read the first document of a text. There is none if the text has no contents. -/
def read (text : String) : Except Problem (Option Document) :=
  let stream := TokenStream.ofText text
  let size := stream.input.rest.length
  match Reader.document (4 * size + 16) { stream } with
  | .error problem _ => .error problem
  | .ok none _ => .ok none
  | .ok (some root) state =>
      .ok (some { root, named := state.named, aliases := state.aliases, size })

end Reckon.Yaml
