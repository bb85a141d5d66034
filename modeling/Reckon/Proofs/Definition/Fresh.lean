import Reckon.Proofs.Definition.Forgetting

/-!
# What does not know a frame

A tree in which no variable is tagged with a frame stays the same when the frame is forgotten, and so
does a machine that has only such trees and no activation of the frame.  The points of such machines
are guarded.
-/

namespace Reckon

/-! ## Trees -/

/-- No variable in some nodes changes with its tag. -/
def Untouched (tags : Retagging) (nodes : List Node) : Prop :=
  ∀ node ∈ nodes, ∀ name ∈ node.occurrences, name.retag tags = name

section Trees

variable {tags : Retagging}

theorem untouched_append {left right : List Node} :
    Untouched tags (left ++ right) ↔ Untouched tags left ∧ Untouched tags right :=
  List.forall_mem_append

theorem untouched_above {node : Node} {below : List Node} :
    Untouched tags (node.above (fun _ => true) below) ↔
      (∀ name ∈ node.occurrences, name.retag tags = name) ∧ Untouched tags below :=
  List.forall_mem_cons

theorem untouched_variableNodes {names : List Variable} :
    Untouched tags (variableNodes names) ↔ ∀ name ∈ names, name.retag tags = name := by
  simp [Untouched, variableNodes, Node.occurrences]

mutual

theorem Expr.retag_eq_self :
    ∀ tree : Expr, Untouched tags (tree.visit fun _ => true) → tree.retag tags = tree
  | .empty _, _ => by
      rw [Expr.retag]
  | .invalid _ _, _ => by
      rw [Expr.retag]
  | .constant _ _, _ => by
      rw [Expr.retag]
  | .identifier _, _ => by
      rw [Expr.retag]
  | .var name, same => by
      have unchanged := same (.expr (.var name)) (by rw [Expr.visit]; exact List.mem_singleton_self _)
        name (List.mem_singleton_self name)
      rw [Expr.retag, unchanged]
  | .binary _ _ left right _, same => by
      rw [Expr.visit, untouched_above, untouched_append] at same
      rw [Expr.retag, Expr.retag_eq_self left same.2.1, Expr.retag_eq_self right same.2.2]
  | .unary _ _ operand, same => by
      rw [Expr.visit, untouched_above] at same
      rw [Expr.retag, Expr.retag_eq_self operand same.2]
  | .factorial _ operand, same => by
      rw [Expr.visit, untouched_above] at same
      rw [Expr.retag, Expr.retag_eq_self operand same.2]
  | .range _ first none last, same => by
      rw [Expr.visit, untouched_above, untouched_append] at same
      rw [Expr.retag, Expr.retag_eq_self first same.2.1, Expr.retag_eq_self last same.2.2]
  | .range _ first (some step) last, same => by
      rw [Expr.visit, untouched_above, untouched_append, untouched_append] at same
      obtain ⟨_, ⟨sameFirst, sameStep⟩, sameLast⟩ := same
      rw [Expr.retag, Expr.retag_eq_self first sameFirst, Expr.retag_eq_self step sameStep,
        Expr.retag_eq_self last sameLast]
  | .conditional _ test whenTrue whenFalse, same => by
      rw [Expr.visit, untouched_above, untouched_append, untouched_append] at same
      obtain ⟨_, ⟨sameTest, sameTrue⟩, sameFalse⟩ := same
      rw [Expr.retag, Expr.retag_eq_self test sameTest, Expr.retag_eq_self whenTrue sameTrue,
        Expr.retag_eq_self whenFalse sameFalse]
  | .call _ callee args, same => by
      rw [Expr.visit, untouched_above, untouched_append] at same
      rw [Expr.retag, Expr.retag_eq_self callee same.2.1, Expr.retagAll_eq_self args same.2.2]
  | .arguments _ items, same => by
      rw [Expr.visit, untouched_above] at same
      rw [Expr.retag, Expr.retagAll_eq_self items same.2]
  | .matrix _ rows, same => by
      rw [Expr.visit, untouched_above] at same
      rw [Expr.retag, Expr.retagRows_eq_self rows same.2]
  | .object _ entries, same => by
      rw [Expr.visit, untouched_above] at same
      rw [Expr.retag, Entry.retagAll_eq_self entries same.2]
  | .function _ _ _ body, same => by
      rw [Expr.visit, untouched_above, untouched_append] at same
      rw [Expr.retag, Body.retag_eq_self body same.2.2]
  | .member _ owner _, same => by
      rw [Expr.visit, untouched_above, untouched_append] at same
      rw [Expr.retag, Expr.retag_eq_self owner same.2.1]
  | .assignment _ target value, same => by
      rw [Expr.visit, untouched_above, untouched_append] at same
      rw [Expr.retag, Expr.retag_eq_self target same.2.1, Expr.retag_eq_self value same.2.2]
  | .interpolated _ _ replacements, same => by
      rw [Expr.visit, untouched_above] at same
      rw [Expr.retag, Expr.retagAll_eq_self replacements same.2]
  | .markup _ tag attributes children, same => by
      rw [Expr.visit, untouched_above, untouched_append, untouched_append] at same
      obtain ⟨_, ⟨sameTag, sameAttributes⟩, sameChildren⟩ := same
      rw [Expr.retag, Expr.retag_eq_self tag sameTag, Entry.retagAll_eq_self attributes sameAttributes,
        Expr.retagAll_eq_self children sameChildren]

theorem Expr.retagAll_eq_self : ∀ trees : List Expr,
    Untouched tags (Expr.visitAll (fun _ => true) trees) → Expr.retagAll tags trees = trees
  | [], _ => by
      rw [Expr.retagAll]
  | first :: rest, same => by
      rw [Expr.visitAll, untouched_append] at same
      rw [Expr.retagAll, Expr.retag_eq_self first same.1, Expr.retagAll_eq_self rest same.2]

theorem Expr.retagRows_eq_self : ∀ rows : List (List Expr),
    Untouched tags (Expr.visitRows (fun _ => true) rows) → Expr.retagRows tags rows = rows
  | [], _ => by
      rw [Expr.retagRows]
  | row :: rest, same => by
      rw [Expr.visitRows, untouched_append] at same
      rw [Expr.retagRows, Expr.retagAll_eq_self row same.1, Expr.retagRows_eq_self rest same.2]

theorem Entry.retagAll_eq_self : ∀ entries : List Entry,
    Untouched tags (Entry.visitAll (fun _ => true) entries) → Entry.retagAll tags entries = entries
  | [], _ => by
      rw [Entry.retagAll]
  | .property _ _ value :: rest, same => by
      rw [Entry.visitAll, Entry.visit, untouched_append, untouched_above] at same
      rw [Entry.retagAll, Expr.retag_eq_self value same.1.2, Entry.retagAll_eq_self rest same.2]
  | .invalid _ _ :: rest, same => by
      rw [Entry.visitAll, untouched_append] at same
      rw [Entry.retagAll, Entry.retagAll_eq_self rest same.2]

theorem Body.retag_eq_self :
    ∀ body : Body, Untouched tags (body.visit fun _ => true) → body.retag tags = body
  | .expr value, same => by
      rw [Body.visit] at same
      rw [Body.retag, Expr.retag_eq_self value same]
  | .block (.mk _ statements), same => by
      rw [Body.visit, Block.visit, untouched_above] at same
      rw [Body.retag, Stmt.retagAll_eq_self statements same.2]

theorem Stmt.retag_eq_self :
    ∀ tree : Stmt, Untouched tags (tree.visit fun _ => true) → tree.retag tags = tree
  | .expr value, same => by
      rw [Stmt.visit, untouched_above] at same
      rw [Stmt.retag, Expr.retag_eq_self value same.2]
  | .block (.mk _ statements), same => by
      rw [Stmt.visit, Block.visit, untouched_above] at same
      rw [Stmt.retag, Stmt.retagAll_eq_self statements same.2]
  | .ifThen _ test (.mk _ statements) none, same => by
      rw [Stmt.visit, untouched_above, untouched_append, Block.visit, untouched_above] at same
      obtain ⟨_, sameTest, _, sameTrue⟩ := same
      rw [Stmt.retag, Expr.retag_eq_self test sameTest, Stmt.retagAll_eq_self statements sameTrue]
  | .ifThen _ test (.mk _ statements) (some whenFalse), same => by
      rw [Stmt.visit, untouched_above, untouched_append, untouched_append, Block.visit,
        untouched_above] at same
      obtain ⟨_, ⟨sameTest, _, sameTrue⟩, sameFalse⟩ := same
      rw [Stmt.retag, Expr.retag_eq_self test sameTest, Stmt.retagAll_eq_self statements sameTrue,
        Stmt.retag_eq_self whenFalse sameFalse]
  | .whileDo _ test (.mk _ statements), same => by
      rw [Stmt.visit, untouched_above, untouched_append, Block.visit, untouched_above] at same
      obtain ⟨_, sameTest, _, sameBody⟩ := same
      rw [Stmt.retag, Expr.retag_eq_self test sameTest, Stmt.retagAll_eq_self statements sameBody]
  | .forIn _ key value source (.mk _ statements), same => by
      rw [Stmt.visit, untouched_above, untouched_append, untouched_append, untouched_append,
        Block.visit, untouched_above, untouched_variableNodes, untouched_variableNodes] at same
      obtain ⟨_, ⟨⟨sameKey, sameValue⟩, sameSource⟩, _, sameBody⟩ := same
      have unchanged (name : Option Variable) (kept : ∀ inner ∈ name.toList, inner.retag tags = inner) :
          name.map (Variable.retag tags) = name := by
        cases name with
        | none =>
            rfl
        | some inner =>
            exact congrArg some (kept inner (List.mem_singleton_self inner))
      rw [Stmt.retag, unchanged key sameKey, unchanged value sameValue,
        Expr.retag_eq_self source sameSource, Stmt.retagAll_eq_self statements sameBody]
  | .returnValue _ none, _ => by
      rw [Stmt.retag]
  | .returnValue _ (some result), same => by
      rw [Stmt.visit, untouched_above] at same
      rw [Stmt.retag, Expr.retag_eq_self result same.2]
  | .jump _ _, _ => by
      rw [Stmt.retag]
  | .letIn _ name none, same => by
      rw [Stmt.visit, untouched_above, untouched_variableNodes] at same
      rw [Stmt.retag, same.2 name (List.mem_singleton_self name)]
  | .letIn _ name (some value), same => by
      rw [Stmt.visit, untouched_above, untouched_append, untouched_variableNodes] at same
      rw [Stmt.retag, same.2.1 name (List.mem_singleton_self name), Expr.retag_eq_self value same.2.2]

theorem Stmt.retagAll_eq_self : ∀ trees : List Stmt,
    Untouched tags (Stmt.visitAll (fun _ => true) trees) → Stmt.retagAll tags trees = trees
  | [], _ => by
      rw [Stmt.retagAll]
  | first :: rest, same => by
      rw [Stmt.visitAll, untouched_append] at same
      rw [Stmt.retagAll, Stmt.retag_eq_self first same.1, Stmt.retagAll_eq_self rest same.2]

end

/-- A node that does not know a frame. -/
theorem Node.Avoids.untouched {frame : FrameId} {node : Node} (avoids : node.Avoids frame) :
    ∀ name ∈ node.occurrences, name.retag (forget frame) = name :=
  fun name occurs => Variable.retag_forget_of_ne (avoids.occurrences name occurs)

end Trees

/-! ## Expressions declare nothing -/

section Declarations

/-- Some nodes declare no variable. -/
def DeclareNothing (nodes : List Node) : Prop :=
  ∀ node ∈ nodes, node.declared = []

theorem DeclareNothing.append {left right : List Node} (first : DeclareNothing left)
    (second : DeclareNothing right) : DeclareNothing (left ++ right) :=
  List.forall_mem_append.mpr ⟨first, second⟩

theorem DeclareNothing.above {descend : Node → Bool} {node : Node} {below : List Node}
    (here : node.declared = []) (inside : DeclareNothing below) :
    DeclareNothing (node.above descend below) := by
  refine List.forall_mem_cons.mpr ⟨here, ?_⟩
  split
  · exact inside
  · intro node member
    cases member

theorem declareNothing_nil : DeclareNothing [] := by
  intro node member
  cases member

theorem declareNothing_singleton {node : Node} (here : node.declared = []) :
    DeclareNothing [node] :=
  List.forall_mem_singleton.mpr here

mutual

theorem Expr.declareNothing_visit : ∀ tree : Expr, DeclareNothing (tree.visit Node.stays)
  | .empty _ => by
      rw [Expr.visit]
      exact declareNothing_singleton rfl
  | .invalid _ _ => by
      rw [Expr.visit]
      exact declareNothing_singleton rfl
  | .constant _ _ => by
      rw [Expr.visit]
      exact declareNothing_singleton rfl
  | .identifier _ => by
      rw [Expr.visit]
      exact declareNothing_singleton rfl
  | .var _ => by
      rw [Expr.visit]
      exact declareNothing_singleton rfl
  | .binary _ _ left right _ => by
      rw [Expr.visit]
      exact .above rfl ((Expr.declareNothing_visit left).append (Expr.declareNothing_visit right))
  | .unary _ _ operand => by
      rw [Expr.visit]
      exact .above rfl (Expr.declareNothing_visit operand)
  | .factorial _ operand => by
      rw [Expr.visit]
      exact .above rfl (Expr.declareNothing_visit operand)
  | .range _ first none last => by
      rw [Expr.visit]
      exact .above rfl ((Expr.declareNothing_visit first).append (Expr.declareNothing_visit last))
  | .range _ first (some step) last => by
      have bounds := (Expr.declareNothing_visit first).append (Expr.declareNothing_visit step)
      rw [Expr.visit]
      exact .above rfl (bounds.append (Expr.declareNothing_visit last))
  | .conditional _ test whenTrue whenFalse => by
      have first := (Expr.declareNothing_visit test).append (Expr.declareNothing_visit whenTrue)
      rw [Expr.visit]
      exact .above rfl (first.append (Expr.declareNothing_visit whenFalse))
  | .call _ callee args => by
      rw [Expr.visit]
      exact .above rfl ((Expr.declareNothing_visit callee).append (Expr.declareNothing_visitAll args))
  | .arguments _ items => by
      rw [Expr.visit]
      exact .above rfl (Expr.declareNothing_visitAll items)
  | .matrix _ rows => by
      rw [Expr.visit]
      exact .above rfl (Expr.declareNothing_visitRows rows)
  | .object _ entries => by
      rw [Expr.visit]
      exact .above rfl (Entry.declareNothing_visitAll entries)
  -- A walk that stays within one function ends here.
  | .function _ _ _ _ => by
      rw [Expr.visit]
      exact declareNothing_singleton rfl
  | .member _ owner _ => by
      rw [Expr.visit]
      exact .above rfl ((Expr.declareNothing_visit owner).append (declareNothing_singleton rfl))
  | .assignment _ target value => by
      rw [Expr.visit]
      exact .above rfl ((Expr.declareNothing_visit target).append (Expr.declareNothing_visit value))
  | .interpolated _ _ replacements => by
      rw [Expr.visit]
      exact .above rfl (Expr.declareNothing_visitAll replacements)
  | .markup _ tag attributes children => by
      have opening := (Expr.declareNothing_visit tag).append (Entry.declareNothing_visitAll attributes)
      rw [Expr.visit]
      exact .above rfl (opening.append (Expr.declareNothing_visitAll children))

theorem Expr.declareNothing_visitAll :
    ∀ trees : List Expr, DeclareNothing (Expr.visitAll Node.stays trees)
  | [] => by
      rw [Expr.visitAll]
      exact declareNothing_nil
  | first :: rest => by
      rw [Expr.visitAll]
      exact (Expr.declareNothing_visit first).append (Expr.declareNothing_visitAll rest)

theorem Expr.declareNothing_visitRows :
    ∀ rows : List (List Expr), DeclareNothing (Expr.visitRows Node.stays rows)
  | [] => by
      rw [Expr.visitRows]
      exact declareNothing_nil
  | row :: rest => by
      rw [Expr.visitRows]
      exact (Expr.declareNothing_visitAll row).append (Expr.declareNothing_visitRows rest)

theorem Entry.declareNothing_visitAll :
    ∀ entries : List Entry, DeclareNothing (Entry.visitAll Node.stays entries)
  | [] => by
      rw [Entry.visitAll]
      exact declareNothing_nil
  | .property _ _ value :: rest => by
      rw [Entry.visitAll, Entry.visit]
      exact .append (.above rfl (Expr.declareNothing_visit value)) (Entry.declareNothing_visitAll rest)
  | .invalid _ _ :: rest => by
      rw [Entry.visitAll, Entry.visit]
      exact .append (declareNothing_singleton rfl) (Entry.declareNothing_visitAll rest)

end

theorem Expr.declaresOwn (tree : Expr) (static : Option FrameId) :
    (Body.expr tree).DeclaresOwn static := by
  intro node member name declared
  rw [tree.declareNothing_visit node member] at declared
  cases declared

end Declarations

/-! ## Machines -/

/-- A machine that does not know a frame. -/
structure Machine.Fresh (frame : FrameId) (machine : Machine) : Prop where
  running : ∀ activation ∈ machine.arena.activations, activation.static ≠ some frame
  parked : ∀ realm ∈ machine.parked, ∀ activation ∈ realm.arena.activations,
    activation.static ≠ some frame
  functions : ∀ function ∈ machine.store.functions, ∀ {realm parent static params body},
    function.code = .closure realm parent static params body →
      static ≠ some frame ∧ ∀ node ∈ body.nodes, node.Avoids frame

theorem Arena.retag_eq_self {frame : FrameId} {arena : Arena}
    (fresh : ∀ activation ∈ arena.activations, activation.static ≠ some frame) :
    arena.retag (forget frame) = arena := by
  have same : arena.activations.map (Activation.retag (forget frame)) = arena.activations := by
    refine mapArray_eq_self fun activation member => ?_
    rw [Activation.retag, bind_forget_of_ne (fresh activation member)]
  rw [Arena.retag, same]

theorem Arena.not_under_of_fresh {comparison : Comparison} {arena : Arena}
    (fresh : ∀ (index : Nat) activation, arena.activations[index]? = some activation →
      activation.static ≠ some comparison.frame) (index : Nat) :
    ¬ arena.Under comparison index := by
  intro under
  induction under with
  | own found own =>
      exact fresh _ _ found own
  | inside _ _ _ inductionHypothesis =>
      exact inductionHypothesis

namespace Machine.Fresh

variable {frame : FrameId} {machine : Machine}

/-- Forgetting a frame that a machine does not know changes nothing. -/
theorem retag_eq_self (fresh : machine.Fresh frame) : machine.retag (forget frame) = machine := by
  have running : machine.toRealm.retag (forget frame) = machine.toRealm := by
    rw [Realm.retag, Arena.retag_eq_self fresh.running]
  have parked : machine.parked.map (Realm.retag (forget frame)) = machine.parked := by
    refine mapArray_eq_self fun realm member => ?_
    rw [Realm.retag, Arena.retag_eq_self (fresh.parked realm member)]
  have functions : machine.store.withCode (Code.retag (forget frame)) = machine.store := by
    have same : machine.store.functions.map (fun function =>
        { function with code := function.code.retag (forget frame) }) = machine.store.functions := by
      refine mapArray_eq_self fun function member => ?_
      have code : function.code.retag (forget frame) = function.code := by
        cases kind : function.code with
        | closure realm parent static params body =>
            obtain ⟨other, avoids⟩ := fresh.functions function member kind
            have unchanged := body.retag_eq_self fun node inBody => (avoids node inBody).untouched
            rw [Code.retag, bind_forget_of_ne other, unchanged]
        | _ =>
            rfl
      rw [code]
    rw [Store.withCode, same]
  rw [retag, running, parked, functions]

theorem static_ne (fresh : machine.Fresh frame) (realm index : Nat) (activation : Activation)
    (found : (machine.realmAt realm).arena.activations[index]? = some activation) :
    activation.static ≠ some frame := by
  have member := Array.mem_of_getElem? found
  by_cases runs : realm = machine.realm
  · rw [runs, realmAt_running] at member
    exact fresh.running activation member
  · rw [realmAt_of_ne _ runs] at member
    by_cases inRange : realm < machine.parked.size
    · rw [Array.getD, dif_pos inRange] at member
      exact fresh.parked _ (Array.getElem_mem inRange) activation member
    · rw [Array.getD, dif_neg inRange] at member
      have only : activation = { parent := none } := by simpa using member
      rw [only]
      intro impossible
      cases impossible

theorem guarded {comparison : Comparison} {point : Configuration}
    (fresh : point.machine.Fresh comparison.frame) :
    point.Guarded comparison (point.positions.map fun _ => .outside) := by
  have notUnder (realm index : Nat) : ¬ (point.machine.realmAt realm).arena.Under comparison index :=
    Arena.not_under_of_fresh (fresh.static_ne realm) index
  constructor
  case supplied =>
    intro realm index activation found own
    exact absurd own (fresh.static_ne realm index activation found)
  case closures =>
    intro function member realm parent static params body code
    obtain ⟨other, avoids⟩ := fresh.functions function member code
    refine ⟨.outside, ⟨other, notUnder realm parent⟩, Layer.allows_of_body avoids ?_⟩
    intro live static same
    cases same
  case layers =>
    show List.Forall₂ _ _ _
    rw [List.forall₂_map_left_iff, List.forall₂_same]
    intro position _
    exact notUnder position.1 position.2

end Machine.Fresh

end Reckon
