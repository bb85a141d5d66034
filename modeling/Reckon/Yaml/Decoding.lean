import Reckon.Yaml.Datum

/-!
# From nodes to data

A node is read as what is expected in its place. What does not fit is noted, and the reading goes
on. An alias is read as what it stands for, which must not contain it, and aliases must not make a
document grow out of proportion. The key `<<` merges other mappings into the one that it is in: what
these say holds unless the mapping itself, or one merged before, says something else.
-/

namespace Reckon.Yaml

/-! ## Mismatches -/

/-- Something in a document that does not fit. -/
inductive Mismatch where
  /-- A field that there is not. -/
  | unknownField (line : Nat) (name expected : String)
  /-- A field that was there before. -/
  | repeatedField (line : Nat) (name expected : String)
  /-- A key that was there before. -/
  | repeatedKey (line : Nat) (key : String) (before : Nat)
  /-- A node of the wrong kind; the text is that of a scalar. -/
  | wrongKind (line : Nat) (tag text expected : String)
deriving DecidableEq, Repr

namespace Mismatch

/-- A text as it is shown in a message: a long one is cut. -/
def shownText (text : String) : String :=
  let bytes := text.toUTF8.toList
  if 10 < bytes.length then Text.Rune.text (Text.Rune.decode (bytes.take 7)) ++ "..." else text

/-- The text of a mismatch. -/
def message : Mismatch → String
  | unknownField line name expected =>
      "line " ++ toString line ++ ": field " ++ name ++ " not found in type " ++ expected
  | repeatedField line name expected =>
      "line " ++ toString line ++ ": field " ++ name ++ " already set in type " ++ expected
  | repeatedKey line key before =>
      "line " ++ toString line ++ ": mapping key " ++ Text.quote key ++ " already defined at line " ++
        toString before
  | wrongKind line tag text expected =>
      let shown := if tag == "!!seq" || tag == "!!map" then text else " `" ++ shownText text ++ "`"
      "line " ++ toString line ++ ": cannot unmarshal " ++ tag ++ shown ++ " into " ++ expected

end Mismatch

/-! ## Readings -/

/-- What is known while nodes are read. -/
structure Decoding.State where
  /-- What does not fit. -/
  mismatches : List Mismatch := []
  /-- The number of nodes read. -/
  visits : Nat := 0
  /-- The number of nodes read as part of what an alias stands for. -/
  aliasVisits : Nat := 0
  /-- The aliases that are being read. -/
  active : List Nat := []
  /-- The keys that a mapping which is merged cannot set any more; none if nothing is merged. -/
  settled : Option (List Datum) := none
deriving Inhabited

/-- A reading of the nodes of a document. -/
abbrev Decoding := ReaderT Document (EStateM Problem Decoding.State)

namespace Decoding

/-- Note a mismatch. -/
def note (mismatch : Mismatch) : Decoding Unit :=
  modify fun state => { state with mismatches := state.mismatches ++ [mismatch] }

/-- Give up. -/
def fail {α : Type} (description : String) : Decoding α :=
  throw (.unplaced description)

/-- The greatest share of nodes that may be read as part of what an alias stands for, given the
number of all. It falls from 0.99 to 0.1. -/
def allowedShare (visits : Nat) : Float :=
  if visits ≤ 400000 then 0.99
  else if 4000000 ≤ visits then 0.10
  else 0.99 - 0.89 * (Float.ofNat (visits - 400000) / 3600000)

/-- Count a node. -/
def count : Decoding Unit := do
  modify fun state =>
    { state with
      visits := state.visits + 1
      aliasVisits := if state.active.isEmpty then state.aliasVisits else state.aliasVisits + 1 }
  let state ← get
  if 100 < state.aliasVisits && 1000 < state.visits then
    let share := Float.ofNat state.aliasVisits / Float.ofNat state.visits
    if allowedShare state.visits < share then fail "document contains excessive aliasing"

/-- Read a node, or what it stands for. -/
def visit {α : Type} (node : Node) (reading : Node → Decoding α) : Decoding α := do
  count
  match node with
  | .reference _ name number target =>
      let state ← get
      if state.active.contains number then fail ("anchor '" ++ name ++ "' value contains itself")
      set { state with active := number :: state.active }
      count
      let result ← reading ((← read).target target)
      modify fun state => { state with active := state.active.erase number }
      return result
  | node => reading node

/-- Note that a node is of the wrong kind. -/
def noteKind (node : Node) (expected : String) : Decoding Unit :=
  note (.wrongKind node.line node.tag node.text expected)

/-- Whether two nodes look the same as keys. -/
def looksSame : Node → Node → Bool
  | .scalar _ _ x, .scalar _ _ y => x == y
  | .reference _ x _ _, .reference _ y _ _ => x == y
  | .sequence .., .sequence .. | .mapping .., .mapping .. => true
  | _, _ => false

/-- The keys that occurred before. -/
def repeatedKeys : List (Node × Node) → List Mismatch
  | [] => []
  | (key, _) :: rest =>
      (rest.filterMap fun (other, _) =>
        if looksSame key other then some (.repeatedKey other.line other.text key.line) else none) ++
        repeatedKeys rest

/-- Note the keys that occurred before. The result says whether there was none. -/
def noteRepeated (entries : List (Node × Node)) : Decoding Bool := do
  let repeated := repeatedKeys entries
  repeated.forM note
  return repeated.isEmpty

/-- What a scalar stands for. -/
def scalar (tag text : String) : Decoding Datum :=
  match Datum.ofScalar tag text with
  | .ok datum => return datum
  | .error problem => throw problem

/-- A node as a text: a scalar by its text, unless it stands for nothing. -/
def text? (node : Node) : Decoding (Option String) :=
  visit node fun
    | .scalar _ tag text => do
      match ← scalar tag text with
      | .null => return none
      | .text decoded => return some decoded
      | _ => return some text
    | .mapping line tag entries => do
      if ← noteRepeated entries then noteKind (.mapping line tag entries) "string"
      return none
    | node => do
      noteKind node "string"
      return none

/-! ## Merging -/

/-- Whether the value of a key is merged. -/
def isMerge : Node → Bool
  | .scalar _ tag text => text == "<<" && tag == mergeTag
  | _ => false

/-- The value that is merged into a mapping: that of the last key for it. -/
def mergeSource? (entries : List (Node × Node)) : Option Node :=
  (entries.reverse.find? fun entry => isMerge entry.1).map Prod.snd

/-- Merge a mapping, or a list of mappings, into what the entries of a mapping gave. The keys of
these entries are settled first, and each merged mapping settles more. -/
def merge {σ : Type} (datum? : Node → Decoding (Option Datum)) (entries : List (Node × Node))
    (into : Node → σ → Decoding σ) (source : Node) (result : σ) : Decoding σ := do
  let before := (← get).settled
  if before.isNone then
    let keys ← entries.filterMapM fun entry => datum? entry.1
    modify fun state => { state with settled := some keys }
  let result ←
    match source with
    | .sequence _ _ items => items.foldlM (fun result item => mergeOne item result) result
    | source => mergeOne source result
  if before.isNone then modify fun state => { state with settled := none }
  return result
where
  /-- Merge one mapping. -/
  mergeOne (source : Node) (result : σ) : Decoding σ := do
    if (← read).isMapping source then into source result
    else fail "map merge requires map or sequence of maps as the value"

/-! ## Dictionaries -/

/-- How the entries of a mapping are read. -/
structure EntryReading (κ α : Type) where
  /-- A key. -/
  key : Node → Decoding (Option κ)
  /-- A value. -/
  value : Node → Decoding (Option α)
  /-- A key as a datum. -/
  keyDatum : κ → Datum
  /-- The value of an entry that stands for nothing. -/
  absent : α

namespace EntryReading

variable {κ α : Type}

/-- Whether a key is in a dictionary. -/
def has (reading : EntryReading κ α) (result : List (κ × α)) (key : κ) : Bool :=
  result.any fun entry => (reading.keyDatum entry.1).sameKey (reading.keyDatum key)

/-- Set the value of a key in a dictionary. -/
def put (reading : EntryReading κ α) (result : List (κ × α)) (key : κ) (value : α) :
    List (κ × α) :=
  if reading.has result key then
    result.map fun entry =>
      if (reading.keyDatum entry.1).sameKey (reading.keyDatum key) then (key, value) else entry
  else result ++ [(key, value)]

/-- Read one entry of a mapping into a dictionary. A value that stands for nothing replaces no other
one, except in a dictionary that is new. -/
def readEntry (reading : EntryReading κ α) (new : Bool) (key : κ) (node : Node)
    (result : List (κ × α)) : Decoding (List (κ × α)) := do
  if (reading.keyDatum key).isComposite then
    fail ("invalid map key: " ++ (reading.keyDatum key).literal)
  match ← reading.value node with
  | some value => return reading.put result key value
  | none =>
      if (← read).tagOf node == "!!null" && (new || !reading.has result key) then
        return reading.put result key reading.absent
      else return result

/-- Read the entries of a mapping into a dictionary, except those that merge others. The keys that
are settled are passed over, and the others settled, if there is something to settle. -/
def readOwn (reading : EntryReading κ α) (new : Bool) :
    List (Node × Node) → Option (List Datum) → List (κ × α) →
      Decoding (Option (List Datum) × List (κ × α))
  | [], settled, result => return (settled, result)
  | (node, value) :: rest, settled, result => do
    if isMerge node then reading.readOwn new rest settled result
    else
      match ← reading.key node with
      | none => reading.readOwn new rest settled result
      | some key =>
          let datum := reading.keyDatum key
          if settled.any (·.any datum.sameKey) then reading.readOwn new rest settled result
          else
            let result ← reading.readEntry new key value result
            reading.readOwn new rest (settled.map (datum :: ·)) result

/-- Read the entries of a mapping into a dictionary, with all that is merged. The first argument
bounds how deep mappings are merged. -/
def readAll (reading : EntryReading κ α) (datum? : Node → Decoding (Option Datum)) :
    Nat → Bool → List (Node × Node) → List (κ × α) → Decoding (List (κ × α))
  | 0, _, _, result => return result
  | bound + 1, new, entries, result => do
    let settled := (← get).settled
    modify fun state => { state with settled := none }
    let (settled, result) ← reading.readOwn new entries settled result
    modify fun state => { state with settled }
    match mergeSource? entries with
    | none => return result
    | some source =>
        let into (source : Node) (result : List (κ × α)) : Decoding (List (κ × α)) :=
          visit source fun
            | .mapping _ _ entries => do
              if ← noteRepeated entries then reading.readAll datum? bound false entries result
              else return result
            | _ => return result
        merge datum? entries into source result

end EntryReading

/-! ## Data -/

/-- Whether the keys of a mapping are all texts. -/
def hasTextKeys (entries : List (Node × Node)) : Decoding Bool := do
  let document ← read
  return entries.all fun entry =>
    let tag := document.tagOf entry.1
    tag == textTag || tag == mergeTag

/-- How the entries of a mapping from texts are read, given how a value is read. -/
def textEntries {α : Type} (absent : α) (value : Node → Decoding (Option α)) :
    EntryReading String α :=
  { key := text?, value, keyDatum := .text, absent }

/-- What a node stands for. The first argument bounds how deep nodes are nested. -/
def datum? : Nat → Node → Decoding (Option Datum)
  | 0, _ => fail "document is too deep"
  | bound + 1, node =>
      visit node fun
        | .scalar _ tag text => some <$> scalar tag text
        | .sequence _ _ items => do
          return some (.list (← items.filterMapM (datum? bound)))
        | .mapping _ _ entries => do
          if !(← noteRepeated entries) then return none
          else if ← hasTextKeys entries then
            let reading := textEntries .null (datum? bound)
            return some (.dictionary (← reading.readAll (datum? bound) bound false entries []))
          else
            let reading : EntryReading Datum Datum :=
              { key := datum? bound, value := datum? bound, keyDatum := id, absent := .null }
            return some (.table (← reading.readAll (datum? bound) bound false entries []))
        | .reference .. => return none

/-- What a node stands for, with a bound that the document gives. -/
def datumOf? (node : Node) : Decoding (Option Datum) := do
  datum? ((← read).depthBound + 1) node

/-- A node as a dictionary from texts, read into an empty one. Nothing is the empty one. -/
def dictionary {α : Type} (expected : String) (reading : EntryReading String α) (node : Node) :
    Decoding (List (String × α)) := do
  let bound := (← read).depthBound + 1
  visit node fun
    | .mapping _ _ entries => do
      if ← noteRepeated entries then reading.readAll datumOf? bound true entries []
      else return []
    | .scalar line tag text => do
      match ← scalar tag text with
      | .null => return []
      | _ => do
        noteKind (.scalar line tag text) expected
        return []
    | node => do
      noteKind node expected
      return []

end Decoding

end Reckon.Yaml
