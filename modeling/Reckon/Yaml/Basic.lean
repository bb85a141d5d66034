/-!
# YAML documents

A document is a tree of scalars, sequences and mappings. A node can be given a name, and an alias
stands for the node of a name. Each node knows the line it starts on and a tag, which says what it
stands for. Reading a document can fail with a problem at a line.
-/

namespace Reckon.Yaml

/-- A node of a document. -/
inductive Node where
  /-- A text, which the tag gives a meaning. -/
  | scalar (line : Nat) (tag text : String)
  /-- A list. -/
  | sequence (line : Nat) (tag : String) (items : List Node)
  /-- Pairs of a key and a value, in order. -/
  | mapping (line : Nat) (tag : String) (entries : List (Node × Node))
  /-- A node that stands for another one. Aliases and the nodes that they stand for are numbered
  within a document. -/
  | reference (line : Nat) (name : String) (number target : Nat)
deriving Inhabited

namespace Node

/-- The line a node starts on, counted from one. -/
def line : Node → Nat
  | scalar line _ _ | sequence line _ _ | mapping line _ _ | reference line _ _ _ => line

/-- The text that a node is told apart by among keys: that of a scalar, and the name of an alias. A
collection has none. -/
def text : Node → String
  | scalar _ _ text => text
  | reference _ name _ _ => name
  | _ => ""

/-- The tag of a node; an alias has none of its own. -/
def tag : Node → String
  | scalar _ tag _ | sequence _ tag _ | mapping _ tag _ => tag
  | reference .. => ""

/-- Whether a node is a mapping. -/
def isMapping : Node → Bool
  | mapping .. => true
  | _ => false

end Node

/-- A document: its root, and the nodes that aliases can stand for, by their numbers. -/
structure Document where
  /-- The root. -/
  root : Node
  /-- The nodes with a name. -/
  named : List (Nat × Node) := []
  /-- The number of aliases. -/
  aliases : Nat := 0
  /-- The number of characters of its text, which bounds how deep nodes are nested. -/
  size : Nat := 0
deriving Inhabited

/-- The node that an alias stands for. -/
def Document.target (document : Document) (number : Nat) : Node :=
  (document.named.lookup number).getD document.root

/-- The tag of a node, looked up for an alias in what it stands for. -/
def Document.tagOf (document : Document) : Node → String
  | .reference _ _ _ target => (document.target target).tag
  | node => node.tag

/-- Whether a node is a mapping, or stands for one. -/
def Document.isMapping (document : Document) : Node → Bool
  | .reference _ _ _ target => (document.target target).isMapping
  | node => node.isMapping

/-- A bound on how deep nodes are nested, if what an alias stands for counts as nested in it. No
alias is nested in itself. -/
def Document.depthBound (document : Document) : Nat :=
  (document.aliases + 1) * (document.size + 2)

/-- Why a text is no document. -/
structure Problem where
  /-- The line of the problem, counted from one; zero if it is not shown. -/
  line : Nat
  /-- What is wrong. -/
  description : String
deriving DecidableEq, Repr, Inhabited

namespace Problem

/-- The text of a problem. -/
def message (problem : Problem) : String :=
  "yaml: " ++ (if problem.line = 0 then "" else "line " ++ toString problem.line ++ ": ") ++
    problem.description

/-- A problem that shows no line. -/
def unplaced (description : String) : Problem :=
  { line := 0, description }

/-- A problem with a construct that started on one line, found on another, both counted from zero.
A problem that is found on the first line shows no line. -/
def ofToken (start found : Nat) (description : String) : Problem :=
  { line := if start ≠ 0 then start + 1 else if found ≠ 0 then found + 1 else 0, description }

/-- A problem with how nodes fit together. -/
def ofStructure (start found : Nat) (description : String) : Problem :=
  { line := if start ≠ 0 then start else found, description }

end Problem

/-! ## Tags -/

/-- What the tags of the standard start with. -/
def standardTag : String := "tag:yaml.org,2002:"

/-- A tag with the start of the standard ones abbreviated. -/
def shortTag (tag : String) : String :=
  if tag.startsWith standardTag then
    "!!" ++ String.ofList (tag.toList.drop standardTag.length)
  else tag

end Reckon.Yaml
