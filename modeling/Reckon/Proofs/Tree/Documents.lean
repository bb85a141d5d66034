import Reckon.Proofs.Parsing.Shapes
import Reckon.Tree.Json

/-!
# What walks and documents report

A node may occur in a tree more than once, so a walk is compared with the places of the tree: each of
them is a node together with the nodes above it.  In pre-order, a node stands before what it is made of.
A walk visits the places in this order, but for those that are below a node at which it stops.

The document of a tree has an object for each node, except for names that stand in a node by themselves:
parameters, selectors and declared variables.  These are members of the object of the node.  A walk visits
them all.  So what is malformed is found in both ways, with the same place and the same name, and as often.
-/

namespace Reckon

namespace Node

/-! ## Induction over a tree -/

/-- What holds of a node if it holds of its children holds of every node. -/
theorem induction_children {holds : Node → Prop}
    (step : ∀ node : Node, (∀ child ∈ node.children, holds child) → holds node) (node : Node) :
    holds node := by
  induction size : node.walk.length using Nat.strongRecOn generalizing node with
  | _ size inductionHypothesis =>
      refine step node fun child member => ?_
      have smaller := length_walk_lt member
      exact inductionHypothesis _ (size ▸ smaller) child rfl

/-! ## Places -/

/-- A node at a place in a tree. -/
structure Place where
  /-- The nodes above it, from the outermost one. -/
  above : List Node
  /-- The node. -/
  node : Node

/-- The places of a tree in pre-order: its root, and then those of each of its children in turn.  The
root stands below the given nodes. -/
def places (above : List Node) (node : Node) : List Place :=
  ⟨above, node⟩ ::
    node.children.attach.flatMap fun child => child.1.places (above ++ [node])
termination_by node.walk.length
decreasing_by exact length_walk_lt child.2

theorem places_eq (above : List Node) (node : Node) :
    node.places above =
      ⟨above, node⟩ :: node.children.flatMap (places (above ++ [node])) := by
  rw [places, List.flatMap_subtype, List.unattach_attach]
  intro child member
  rfl

/-- Everything in a tree stands below what its root stands below. -/
theorem prefix_of_mem_places (node : Node) :
    ∀ above, ∀ place ∈ node.places above, above <+: place.above := by
  induction node using induction_children with
  | step node inductionHypothesis =>
      intro above place member
      rw [places_eq] at member
      rcases List.mem_cons.mp member with rfl | below
      · exact List.prefix_refl above
      · obtain ⟨child, isChild, inside⟩ := List.mem_flatMap.mp below
        have deeper := inductionHypothesis child isChild (above ++ [node]) place inside
        exact (List.prefix_append above [node]).trans deeper

/-! ## Walks -/

variable {descend : Node → Bool}

/-- Below a node at which a walk stops there is nothing for it. -/
theorem filter_places_of_refused {above : List Node} (refused : above.all descend = false)
    (node : Node) : (node.places above).filter (·.above.all descend) = [] := by
  refine List.filter_eq_nil_iff.mpr fun place member allowed => ?_
  obtain ⟨later, split⟩ := prefix_of_mem_places node above place member
  rw [← split, List.all_append, refused] at allowed
  cases allowed

theorem visit_eq_filter_places (node : Node) :
    ∀ above, above.all descend = true →
      node.visit descend =
        ((node.places above).filter (·.above.all descend)).map (·.node) := by
  induction node using induction_children with
  | step node inductionHypothesis =>
      intro above allowed
      rw [visit_eq, Node.above, places_eq, List.filter_cons_of_pos (by exact allowed),
        List.map_cons, List.filter_flatMap, List.map_flatMap]
      congr 1
      have deeper : (above ++ [node]).all descend = descend node := by simp [allowed]
      cases goesOn : descend node with
      | true =>
          exact List.flatMap_congr fun child member =>
            inductionHypothesis child member _ (deeper.trans goesOn)
      | false => simp [filter_places_of_refused (deeper.trans goesOn)]

end Node

/-! ## Objects in documents -/

namespace Json

mutual

/-- The objects in a document, at any depth: an object stands before those that it holds. -/
def objects : Json → List Json
  | .array items => objectsInItems items
  | .object members => .object members :: objectsInMembers members
  | _ => []

/-- The objects in the items of an array. -/
def objectsInItems : List Json → List Json
  | [] => []
  | first :: rest => first.objects ++ objectsInItems rest

/-- The objects in the members of an object. -/
def objectsInMembers : List (String × Json) → List Json
  | [] => []
  | (_, value) :: rest => value.objects ++ objectsInMembers rest

end

/-- The type of an object. -/
def kind? : Json → Option String
  | .object members =>
      match members.lookup "type" with
      | some (.string kind) => some kind
      | _ => none
  | _ => none

/-- The objects of a type in a document. -/
def objectsOf (kind : String) (document : Json) : List Json :=
  document.objects.filter (·.kind? == some kind)

/-- The keys of an object. -/
def keys : Json → List String
  | .object members => members.map Prod.fst
  | _ => []

@[simp]
theorem objects_string (text : String) : (string text).objects = [] := by
  rw [objects] <;> simp

@[simp]
theorem objects_bool (value : Bool) : (bool value).objects = [] := by
  rw [objects] <;> simp

@[simp]
theorem objects_array (items : List Json) : (array items).objects = items.flatMap objects := by
  rw [objects]
  induction items with
  | nil => rw [objectsInItems]; rfl
  | cons first rest inductionHypothesis =>
      rw [objectsInItems, inductionHypothesis, List.flatMap_cons]

theorem objectsInMembers_eq_flatMap (members : List (String × Json)) :
    objectsInMembers members = members.flatMap (·.2.objects) := by
  induction members with
  | nil => rw [objectsInMembers]; rfl
  | cons first rest inductionHypothesis =>
      rw [objectsInMembers, inductionHypothesis, List.flatMap_cons]

@[simp]
theorem objects_node (kind : String) (span : Span) (members : List (String × Json)) :
    (node kind span members).objects =
      node kind span members :: members.flatMap (·.2.objects) := by
  simp [node, objects, objectsInMembers_eq_flatMap]

@[simp]
theorem kind?_node (kind : String) (span : Span) (members : List (String × Json)) :
    (node kind span members).kind? = some kind := by
  simp [node, kind?, List.lookup_cons_self]

@[simp]
theorem keys_node (kind : String) (span : Span) (members : List (String × Json)) :
    (node kind span members).keys = "type" :: "pos" :: "end" :: members.map Prod.fst :=
  rfl

end Json

/-- The object of a malformed construct. -/
def Diagnostic.json (diagnostic : Diagnostic) : Json :=
  .object
    [("type", .string "Invalid"), ("pos", .string diagnostic.span.start.render),
      ("end", .string diagnostic.span.stop.render), ("code", .string diagnostic.defect.name),
      ("message", .string diagnostic.defect.description)]

/-! ## Documents of nodes -/

namespace Node

/-- The document of a node. -/
def json : Node → Json
  | .expr value => value.json
  | .entry value => value.json
  | .stmt value => value.json

@[simp] theorem json_expr (value : Expr) : (expr value).json = value.json := rfl

@[simp] theorem json_entry (value : Entry) : (entry value).json = value.json := rfl

@[simp] theorem json_stmt (value : Stmt) : (stmt value).json = value.json := rfl

/-- The children that have objects of their own in the document of a node: those that are no names. -/
def documented : Node → List Node
  | .expr (.function _ _ _ body) => [body.root]
  | .expr (.member _ owner _) => [.expr owner]
  | .stmt (.forIn _ _ _ source body) => [.expr source, .stmt (.block body)]
  | .stmt (.letIn _ _ value) => value.toList.map .expr
  | node => node.children

end Node

theorem Expr.jsons_eq_map (trees : List Expr) : Expr.jsons trees = trees.map Expr.json := by
  induction trees with
  | nil => rw [Expr.jsons]; rfl
  | cons first rest inductionHypothesis => rw [Expr.jsons, inductionHypothesis, List.map_cons]

theorem Expr.objects_rowJsons (rows : List (List Expr)) :
    (Expr.rowJsons rows).flatMap Json.objects = rows.flatten.flatMap (·.json.objects) := by
  induction rows with
  | nil => rw [Expr.rowJsons]; rfl
  | cons row rest inductionHypothesis =>
      rw [Expr.rowJsons, List.flatMap_cons, inductionHypothesis, Json.objects_array,
        Expr.jsons_eq_map, List.flatMap_map, List.flatten_cons, List.flatMap_append]

theorem Entry.jsons_eq_map (entries : List Entry) :
    Entry.jsons entries = entries.map Entry.json := by
  induction entries with
  | nil => rw [Entry.jsons]; rfl
  | cons first rest inductionHypothesis => rw [Entry.jsons, inductionHypothesis, List.map_cons]

theorem Stmt.jsons_eq_map (trees : List Stmt) : Stmt.jsons trees = trees.map Stmt.json := by
  induction trees with
  | nil => rw [Stmt.jsons]; rfl
  | cons first rest inductionHypothesis => rw [Stmt.jsons, inductionHypothesis, List.map_cons]

theorem Body.json_eq_root (body : Body) : body.json = body.root.json := by
  cases body with
  | expr value => rw [Body.json]; rfl
  | block statements => rw [Body.json, Body.root, Node.json, Stmt.json]

namespace Node

/-- The object of a node says what kind of node it is. -/
theorem kind?_json (node : Node) : node.json.kind? = some node.kind := by
  cases node with
  | expr value =>
      cases value with
      | range span first step last => cases step <;> simp [Expr.json, kind]
      | _ => simp [Expr.json, Defect.json, kind]
  | entry value => cases value <;> simp [Entry.json, Defect.json, kind]
  | stmt value =>
      cases value with
      | block body =>
          obtain ⟨span, statements⟩ := body
          simp [Stmt.json, Block.json, kind]
      | ifThen span test whenTrue whenFalse => cases whenFalse <;> simp [Stmt.json, kind]
      | returnValue span result => cases result <;> simp [Stmt.json, kind]
      | letIn span name value => cases value <;> simp [Stmt.json, kind]
      | _ => simp [Stmt.json, kind]

/-- The document of a node holds its object and the documents of its children, names apart. -/
theorem objects_json (node : Node) :
    node.json.objects = node.json :: node.documented.flatMap (·.json.objects) := by
  cases node with
  | expr value =>
      cases value with
      | range span first step last =>
          cases step <;> simp [Expr.json, documented, children]
      | binary span op left right implicit =>
          cases implicit <;> simp [Expr.json, documented, children]
      | function span frame params body =>
          simp [Expr.json, documented, Body.json_eq_root, List.flatMap_map]
      | matrix span rows =>
          simp [Expr.json, documented, children, Expr.objects_rowJsons, List.flatMap_map,
            -List.map_flatten]
      | _ =>
          simp [Expr.json, Defect.json, documented, children, Expr.jsons_eq_map, Entry.jsons_eq_map,
            List.flatMap_map]
  | entry value => cases value <;> simp [Entry.json, Defect.json, documented, children]
  | stmt value =>
      cases value with
      | block body =>
          obtain ⟨span, statements⟩ := body
          simp [Stmt.json, Block.json, documented, children, Stmt.jsons_eq_map, List.flatMap_map]
      | ifThen span test whenTrue whenFalse =>
          cases whenFalse <;> simp [Stmt.json, documented, children]
      | forIn span key value source body =>
          cases key <;> cases value <;> simp [Stmt.json, documented, Json.nameMember]
      | returnValue span result =>
          cases result <;> simp [Stmt.json, documented, children]
      | letIn span name value =>
          cases value <;> simp [Stmt.json, documented]
      | _ => simp [Stmt.json, documented, children]

theorem documented_subset (node : Node) : node.documented ⊆ node.children := by
  cases node with
  | expr value => cases value <;> simp [documented, children]
  | entry value => exact List.Subset.refl _
  | stmt value =>
      cases value with
      | letIn span name value => cases value <;> simp [documented, children]
      | _ => simp [documented, children]

/-- What is empty for names is found among the children with objects of their own. -/
theorem flatMap_documented {β : Type} {found : Node → List β} (node : Node)
    (noVariable : ∀ name, found (.expr (.var name)) = [])
    (noSelector : ∀ name, found (.expr (.identifier name)) = []) :
    node.documented.flatMap found = node.children.flatMap found := by
  have noNames (names : List Variable) : (variableNodes names).flatMap found = [] := by
    refine List.flatMap_eq_nil_iff.mpr fun node member => ?_
    obtain ⟨name, _, rfl⟩ := List.mem_map.mp member
    exact noVariable name
  cases node with
  | expr value => cases value <;> simp [documented, children, noNames, noSelector]
  | entry value => rfl
  | stmt value =>
      cases value with
      | letIn span name value => cases value <;> simp [documented, children, noVariable]
      | _ => simp [documented, children, noNames]

/-- The object of a node has no key twice. -/
theorem nodup_keys_json (node : Node) : node.json.keys.Nodup := by
  cases node with
  | expr value =>
      cases value with
      | range span first step last => cases step <;> simp [Expr.json]
      | binary span op left right implicit => cases implicit <;> simp [Expr.json]
      | _ => simp [Expr.json, Defect.json]
  | entry value => cases value <;> simp [Entry.json, Defect.json]
  | stmt value =>
      cases value with
      | block body =>
          obtain ⟨span, statements⟩ := body
          simp [Stmt.json, Block.json]
      | ifThen span test whenTrue whenFalse => cases whenFalse <;> simp [Stmt.json]
      | forIn span key value source body =>
          cases key <;> cases value <;> simp [Stmt.json, Json.nameMember]
      | returnValue span result => cases result <;> simp [Stmt.json]
      | letIn span name value => cases value <;> simp [Stmt.json]
      | _ => simp [Stmt.json]

/-! ## Documents of trees -/

/-- No object in the document of a tree has a key twice. -/
theorem nodup_keys_of_mem_objects (node : Node) :
    ∀ object ∈ node.json.objects, object.keys.Nodup := by
  induction node using induction_children with
  | step node inductionHypothesis =>
      intro object member
      rw [objects_json] at member
      rcases List.mem_cons.mp member with rfl | below
      · exact nodup_keys_json node
      · obtain ⟨child, isDocumented, inside⟩ := List.mem_flatMap.mp below
        exact inductionHypothesis child (documented_subset node isDocumented) object inside

theorem objectsOf_json_eq (kind : String) (node : Node) :
    node.json.objectsOf kind =
      (if node.kind == kind then [node.json] else []) ++
        node.documented.flatMap (·.json.objectsOf kind) := by
  have own : (node.json.kind? == some kind) = (node.kind == kind) := by
    rw [kind?_json]
    rfl
  rw [Json.objectsOf, objects_json, List.filter_cons, own, List.filter_flatMap]
  split <;> rfl

/-- For each kind of node that is no name, the document of a tree has the objects of the nodes of that
kind that a walk visits, in the order of the walk. -/
theorem objectsOf_json {kind : String} (notVariable : kind ≠ "Variable")
    (notIdentifier : kind ≠ "Identifier") (node : Node) :
    node.json.objectsOf kind = (node.walk.filter (·.kind == kind)).map json := by
  have noVariable (name : Variable) : (expr (.var name)).json.objectsOf kind = [] := by
    rw [objectsOf_json_eq]
    simpa [documented, children, Node.kind] using notVariable.symm
  have noSelector (name : Identifier) : (expr (.identifier name)).json.objectsOf kind = [] := by
    rw [objectsOf_json_eq]
    simpa [documented, children, Node.kind] using notIdentifier.symm
  induction node using induction_children with
  | step node inductionHypothesis =>
      rw [objectsOf_json_eq, flatMap_documented node noVariable noSelector,
        List.flatMap_congr inductionHypothesis, walk_eq, List.filter_cons, List.filter_flatMap]
      split <;> simp [List.map_flatMap]

/-- The nodes of the kind of malformed constructs are those with a diagnostic. -/
theorem kind_eq_invalid (node : Node) : (node.kind == "Invalid") = node.diagnostic?.isSome := by
  cases node with
  | expr value => cases value <;> rfl
  | entry value => cases value <;> rfl
  | stmt value => cases value <;> rfl

theorem json_of_diagnostic? {node : Node} {diagnostic : Diagnostic}
    (found : node.diagnostic? = some diagnostic) : node.json = diagnostic.json := by
  unfold diagnostic? at found
  split at found <;> cases found
  · rw [json_expr, Expr.json]
    rfl
  · rw [json_entry, Entry.json]
    rfl

/-- The objects of malformed constructs say what the diagnostics of a tree say, one after the other. -/
theorem objectsOf_invalid (node : Node) :
    node.json.objectsOf "Invalid" = node.diagnostics.map Diagnostic.json := by
  rw [objectsOf_json (by decide) (by decide), diagnostics]
  induction node.walk with
  | nil => rfl
  | cons first rest inductionHypothesis =>
      rw [List.filter_cons, List.filterMap_cons, kind_eq_invalid]
      cases found : first.diagnostic? with
      | none => simpa using inductionHypothesis
      | some diagnostic => simpa [json_of_diagnostic? found] using inductionHypothesis

end Node

/-! ## Documents of programs -/

section Programs

variable (trees : List Stmt)

theorem Stmt.objects_jsons :
    (Json.array (Stmt.jsons trees)).objects = (trees.map Node.stmt).flatMap (·.json.objects) := by
  rw [Json.objects_array, Stmt.jsons_eq_map, List.flatMap_map, List.flatMap_map]
  rfl

theorem Stmt.nodup_keys_of_mem_objects_jsons :
    ∀ object ∈ (Json.array (Stmt.jsons trees)).objects, object.keys.Nodup := by
  intro object member
  rw [Stmt.objects_jsons] at member
  obtain ⟨tree, _, inside⟩ := List.mem_flatMap.mp member
  exact tree.nodup_keys_of_mem_objects object inside

theorem Stmt.objectsOf_invalid_jsons :
    (Json.array (Stmt.jsons trees)).objectsOf "Invalid" =
      (Stmt.diagnostics trees).map Diagnostic.json := by
  rw [Json.objectsOf, Stmt.objects_jsons, List.filter_flatMap, Stmt.diagnostics_eq_flatMap,
    List.map_flatMap]
  exact List.flatMap_congr fun tree _ => tree.objectsOf_invalid

end Programs

/-- The document of a tree has an object for each of its diagnostics, with the place and the name that the
diagnostic says, and no other objects of malformed constructs; so has the document of a program.  Both come
from walks, and a walk visits the places of a tree in pre-order, but for those that are below a node at
which it stops. -/
theorem documents_report_diagnostics :
    (∀ tree : Expr,
      (∀ object ∈ tree.json.objects, object.keys.Nodup) ∧
        tree.json.objectsOf "Invalid" = tree.diagnostics.map Diagnostic.json) ∧
    (∀ trees : List Stmt,
      (∀ object ∈ (Json.array (Stmt.jsons trees)).objects, object.keys.Nodup) ∧
        (Json.array (Stmt.jsons trees)).objectsOf "Invalid" =
          (Stmt.diagnostics trees).map Diagnostic.json) ∧
    ∀ (descend : Node → Bool) (node : Node),
      node.visit descend =
        ((node.places []).filter (·.above.all descend)).map (·.node) := by
  refine ⟨fun tree => ⟨?_, ?_⟩, fun trees => ⟨?_, ?_⟩, fun descend node => ?_⟩
  · exact Node.nodup_keys_of_mem_objects (.expr tree)
  · exact Node.objectsOf_invalid (.expr tree)
  · exact Stmt.nodup_keys_of_mem_objects_jsons trees
  · exact Stmt.objectsOf_invalid_jsons trees
  · exact node.visit_eq_filter_places [] rfl

/-- A compound assignment with a malformed target, which stands in the tree twice.  A walk that does not go
into calls visits neither of the two. -/
theorem malformed_target_in_document :
    let place : Span := .point (.first "")
    let target : Expr := .call place (.var ⟨place, "f", none⟩) [.invalid place .invalidSymbol]
    let sum : Expr := .binary place .add target (.constant place .null) false
    let tree : Expr := .assignment place target sum
    let object := Diagnostic.json ⟨.invalidSymbol, place⟩
    let skipsCalls (node : Node) : Bool := node.kind != "Call"
    object ∈ tree.json.objects ∧ object ∈ (Json.array (Stmt.jsons [.expr tree])).objects ∧
      object.keys.Nodup ∧ tree.json.objectsOf "Invalid" = [object, object] ∧
      (Json.array (Stmt.jsons [.expr tree])).objectsOf "Invalid" = [object, object] ∧
      (((Node.expr tree).places []).filter (·.above.all skipsCalls)).map (·.node) =
        [.expr tree, .expr target, .expr sum, .expr target, .expr (.constant place .null)] := by
  intro place target sum tree object skipsCalls
  obtain ⟨ofTree, ofProgram, walks⟩ := documents_report_diagnostics
  have invalid : tree.json.objectsOf "Invalid" = [object, object] := (ofTree tree).2
  have invalid' : (Json.array (Stmt.jsons [.expr tree])).objectsOf "Invalid" = [object, object] :=
    (ofProgram [.expr tree]).2
  have member : object ∈ tree.json.objects :=
    List.mem_of_mem_filter (invalid ▸ List.mem_cons_self)
  have member' : object ∈ (Json.array (Stmt.jsons [.expr tree])).objects :=
    List.mem_of_mem_filter (invalid' ▸ List.mem_cons_self)
  exact ⟨member, member', (ofTree tree).1 object member, invalid, invalid',
    (walks skipsCalls (.expr tree)).symm⟩

end Reckon
