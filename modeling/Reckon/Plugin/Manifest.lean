import Reckon.Plugin.Basic
import Reckon.Yaml.Decoding
import Reckon.Yaml.Node.Reader

/-!
# Plugin manifests

A manifest is a YAML document with a name, a version, an author, constants and functions. It is read
in three steps: the text into a document, the document into a manifest, and the manifest, once every
entry has been checked, into a plugin. Each step can fail, and the last two report all problems at
once.
-/

namespace Reckon

/-- What a manifest says. -/
structure Manifest where
  /-- The name. -/
  name : String := ""
  /-- The version. -/
  version : String := ""
  /-- The author. -/
  author : String := ""
  /-- The constants, by name. -/
  constants : List (String × HostValue) := []
  /-- The sources of the functions, by name. -/
  functions : List (String × String) := []
deriving Inhabited

namespace Manifest

/-! ## From a document -/

open Yaml (Decoding)

mutual

/-- What a node stands for, as a value of the host. -/
def hostValue : Yaml.Datum → HostValue
  | .null => .null
  | .boolean truth => .boolean truth
  | .integer n => .real (Decimal.ofInt n)
  | .float x => .real x
  | .timestamp _ => .unsupported "time.Time"
  | .text text => .string text
  | .list items => .list (hostValues items)
  | .dictionary entries => .dictionary (hostEntries entries)
  | .table _ => .unsupportedKeys "interface \x7b\x7d"

/-- Data as values of the host. -/
def hostValues : List Yaml.Datum → List HostValue
  | [] => []
  | datum :: rest => hostValue datum :: hostValues rest

/-- The entries of a dictionary with values of the host. -/
def hostEntries : List (String × Yaml.Datum) → List (String × HostValue)
  | [] => []
  | (key, datum) :: rest => (key, hostValue datum) :: hostEntries rest

end

/-- The name of what a document should be. -/
def typeName : String := "plugin.manifestFile"

/-- A node as constants. -/
def readConstants (node : Yaml.Node) : Decoding (List (String × HostValue)) := do
  let reading := Decoding.textEntries .null Decoding.datumOf?
  return hostEntries (← Decoding.dictionary "map[string]interface \x7b\x7d" reading node)

/-- A node as the sources of functions. -/
def readFunctions (node : Yaml.Node) : Decoding (List (String × String)) :=
  Decoding.dictionary "map[string]string" (Decoding.textEntries "" Decoding.text?) node

/-- Read one field of a manifest. -/
def readField (manifest : Manifest) (name : String) (node : Yaml.Node) :
    Decoding (Option Manifest) := do
  match name with
  | "name" => return some { manifest with name := (← Decoding.text? node).getD manifest.name }
  | "version" =>
      return some { manifest with version := (← Decoding.text? node).getD manifest.version }
  | "author" => return some { manifest with author := (← Decoding.text? node).getD manifest.author }
  | "constants" => return some { manifest with constants := ← readConstants node }
  | "functions" => return some { manifest with functions := ← readFunctions node }
  | _ => return none

/-- Read the fields of a manifest, except those that merge others. The fields that are settled are
passed over, and the others settled, if there is something to settle; `done` are those read
before. -/
def readFields : List (Yaml.Node × Yaml.Node) → List String → Option (List Yaml.Datum) →
    Manifest → Decoding (Option (List Yaml.Datum) × Manifest)
  | [], _, settled, manifest => return (settled, manifest)
  | (key, value) :: rest, done, settled, manifest => do
    if Decoding.isMerge key then readFields rest done settled manifest
    else
      match ← Decoding.text? key with
      | none => readFields rest done settled manifest
      | some name =>
          let datum := Yaml.Datum.text name
          if settled.any (·.any datum.sameKey) then readFields rest done settled manifest
          else
            let settled := settled.map (datum :: ·)
            if done.contains name then
              Decoding.note (.repeatedField key.line name typeName)
              readFields rest done settled manifest
            else
              match ← manifest.readField name value with
              | some manifest => readFields rest (name :: done) settled manifest
              | none =>
                  Decoding.note (.unknownField key.line name typeName)
                  readFields rest done settled manifest

/-- Read the entries of a mapping into a manifest, with all that is merged. The first argument bounds
how deep mappings are merged. -/
def readEntries : Nat → List (Yaml.Node × Yaml.Node) → Manifest → Decoding Manifest
  | 0, _, manifest => return manifest
  | bound + 1, entries, manifest => do
    let settled := (← get).settled
    modify fun state => { state with settled := none }
    let (settled, manifest) ← readFields entries [] settled manifest
    modify fun state => { state with settled }
    match Decoding.mergeSource? entries with
    | none => return manifest
    | some source =>
        let into (source : Yaml.Node) (manifest : Manifest) : Decoding Manifest :=
          Decoding.visit source fun
            | .mapping _ _ entries => do
              if ← Decoding.noteRepeated entries then readEntries bound entries manifest
              else return manifest
            | _ => return manifest
        Decoding.merge Decoding.datumOf? entries into source manifest

/-- Read a manifest. -/
def ofNode (node : Yaml.Node) : Decoding Manifest := do
  let bound := (← read).depthBound + 1
  Decoding.visit node fun
    | .mapping _ _ entries => do
      if ← Decoding.noteRepeated entries then readEntries bound entries {}
      else return {}
    | .scalar line tag text => do
      match ← Decoding.scalar tag text with
      | .null => return {}
      | _ => do
        Decoding.noteKind (.scalar line tag text) typeName
        return {}
    | node => do
      Decoding.noteKind node typeName
      return {}

/-- Read the manifest that a document is. -/
def ofDocument (document : Yaml.Document) :
    Except Yaml.Problem (Manifest × List Yaml.Mismatch) :=
  let reading : Decoding Manifest := do
    Decoding.count
    ofNode document.root
  match (reading.run document).run {} with
  | .ok manifest state => .ok (manifest, state.mismatches)
  | .error problem _ => .error problem

/-! ## Checking -/

/-- Something wrong with an entry of a manifest. -/
inductive Issue where
  /-- There is no name. -/
  | unnamed
  /-- The name of a constant is no name of the language. -/
  | constantName (name : String)
  /-- A constant cannot be converted. -/
  | constant (name : String) (fault : HostFault)
  /-- The name of a function is no name of the language. -/
  | functionName (name : String)
  /-- A function has the name of a constant. -/
  | ambiguous (name : String)
  /-- A function has no source. -/
  | emptySource (name : String)
deriving DecidableEq, Repr

/-- The text of an issue. -/
def Issue.message : Issue → String
  | unnamed => "name must be provided"
  | constantName name => "constants: " ++ Text.quote name ++ " is not a valid name"
  | constant name fault => "constants." ++ name ++ ": " ++ fault.message
  | functionName name => "functions: " ++ Text.quote name ++ " is not a valid name"
  | ambiguous name => "functions." ++ name ++ ": also defined as a constant"
  | emptySource name => "functions." ++ name ++ ": empty source"

/-- Whether a text is a name: it reads as a variable of that name. -/
def isName (text : String) : Bool :=
  match parseExpression 0 text with
  | .var name => name.name == text
  | _ => false

/-- A constant converted, or what is wrong with it. -/
def checkConstant (name : String) (value : HostValue) : StoreM (Except Issue (String × Value)) := do
  if isName name then
    match ← value.convert with
    | .ok value => return .ok (name, value)
    | .error fault => return .error (.constant name fault)
  else return .error (.constantName name)

/-- A function, or what is wrong with it. -/
def checkFunction (constants : List String) (name source : String) :
    Except Issue (String × String) :=
  if !isName name then .error (.functionName name)
  else if constants.contains name then .error (.ambiguous name)
  else if Text.trim source == "" then .error (.emptySource name)
  else .ok (name, source)

/-- The results that are right. -/
def rights {α : Type} (results : List (Except Issue α)) : List α :=
  results.filterMap Except.toOption

/-- The issues among results. -/
def issues {α : Type} (results : List (Except Issue α)) : List Issue :=
  results.filterMap fun
    | .ok _ => none
    | .error issue => some issue

/-- The plugin of a manifest, or all issues: the name first, then constants and functions, each in
the order of their names. -/
def toPlugin (manifest : Manifest) : StoreM (Except (List Issue) Plugin) := do
  let constants ← (HostValue.sortByKey manifest.constants).mapM fun (name, value) =>
    checkConstant name value
  let functions := (HostValue.sortByKey manifest.functions).map fun (name, source) =>
    checkFunction (manifest.constants.map Prod.fst) name source
  let found := (if manifest.name == "" then [Issue.unnamed] else []) ++ issues constants ++
    issues functions
  if found.isEmpty then
    return .ok { name := manifest.name, version := manifest.version, author := manifest.author
                 content := rights constants, functions := rights functions }
  else return .error found

/-! ## Loading -/

/-- Why a text is no manifest. -/
inductive LoadError where
  /-- It has no contents. -/
  | empty
  /-- It is no document. -/
  | malformed (problem : Yaml.Problem)
  /-- The document does not have the fields of a manifest. -/
  | mismatched (mismatches : List Yaml.Mismatch)
  /-- Some entries are wrong. -/
  | invalid (issues : List Issue)
deriving DecidableEq, Repr

/-- The text of an error. -/
def LoadError.message : LoadError → String
  | empty => "plugin: empty manifest"
  | malformed problem => "plugin: parse manifest: " ++ problem.message
  | mismatched mismatches =>
      "plugin: parse manifest: yaml: unmarshal errors:" ++
        String.join (mismatches.map fun mismatch => "\n  " ++ mismatch.message)
  | invalid issues =>
      "plugin manifest validation failed:" ++
        String.join (issues.map fun issue => "\n- " ++ issue.message)

/-- Load a plugin from the text of its manifest. -/
def load (text : String) : StoreM (Except LoadError Plugin) := do
  match Yaml.read text with
  | .error problem => return .error (.malformed problem)
  | .ok none => return .error .empty
  | .ok (some document) =>
      match ofDocument document with
      | .error problem => return .error (.malformed problem)
      | .ok (manifest, []) => do
        match ← manifest.toPlugin with
        | .ok plugin => return .ok plugin
        | .error issues => return .error (.invalid issues)
      | .ok (_, mismatches) => return .error (.mismatched mismatches)

end Manifest

end Reckon
