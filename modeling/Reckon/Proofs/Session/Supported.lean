import Reckon.Proofs.Parsing.Shapes
import Reckon.Proofs.Scene.Tags
import Reckon.Proofs.Tree.Walk

/-!
# The evaluator knows what it evaluates

The evaluator refuses operators that it does not know.  The trees of sources have none of them, and they
have the other shapes that their evaluation relies on.  Functions are created from such trees, so their
bodies have these shapes too, however late they are called: no run refuses a construct.
-/

namespace Reckon

open Eval

/-! ## Shapes -/

namespace Node

/-- What the evaluation of a node relies on. -/
structure IsShaped (node : Node) : Prop where
  binary : ∀ {span op left right implicit}, node = .expr (.binary span op left right implicit) →
    isComputed op = true ∨ op ∈ [.and, .or, .pipe]
  unary : ∀ {span op operand}, node = .expr (.unary span op operand) →
    (prefixOperation? op).isSome = true ∨ op = .await
  assignment : ∀ {span target value}, node = .expr (.assignment span target value) →
    (Node.expr target).kind ∈ ["Variable", "Member", "Call"]
  object : ∀ {span entries}, node = .expr (.object span entries) →
    ∀ entry ∈ entries, (Node.entry entry).kind ∈ ["Property", "Invalid"]
  markup : ∀ {span tag attributes children}, node = .expr (.markup span tag attributes children) →
    (∀ entry ∈ attributes, (Node.entry entry).kind ∈ ["Property", "Invalid"]) ∧
      ∀ child ∈ tag :: children, (Node.expr child).kind ≠ "Property"
  property : ∀ child ∈ node.children, child.kind = "Property" → node.kind ∈ ["Object", "Jsx"]
  interpolated : ∀ {span parts replacements},
    node = .expr (.interpolated span parts replacements) → parts.length = replacements.length + 1
  function : ∀ {span frame params body}, node = .expr (.function span frame params body) →
    body.root.kind = "BlockStmt" ∨ ∃ value, body.root = .expr value
  matrix : ∀ {span rows}, node = .expr (.matrix span rows) → ∀ row ∈ rows, row ≠ []
  block : node.kind ∈ ["IfStmt", "WhileStmt", "ForStmt"] →
    ∃ body, .stmt (.block body) ∈ node.children

theorem kind_expr_ne_property (value : Expr) : (expr value).kind ≠ "Property" := by
  cases value <;> simp [kind]

theorem kind_stmt_ne_property (value : Stmt) : (stmt value).kind ≠ "Property" := by
  cases value <;> simp [kind]

theorem kind_entry (value : Entry) : (entry value).kind ∈ ["Property", "Invalid"] := by
  cases value <;> simp [kind]

/-- Only objects and elements have entries. -/
theorem kind_parent_of_entry {node : Node} {value : Entry} (member : entry value ∈ node.children) :
    node.kind ∈ ["Object", "Jsx"] := by
  unfold children at member
  split at member <;> simp [variableNodes] at member
  · simp [kind]
  · next body =>
    cases body <;> cases member
  · simp [kind]

/-- Most shapes are those of the types of trees. -/
theorem IsFilled.isShaped {node : Node} (filled : node.IsFilled) (balanced : node.IsBalanced) :
    node.IsShaped where
  binary := by
    rintro _ op _ _ _ rfl
    cases op <;> decide
  unary := by
    rintro _ op _ rfl
    cases op <;> decide
  assignment := by
    rintro _ target _ rfl
    have assignable : target.isAssignable = true := filled
    cases target with
    | var _ | call _ _ _ | member _ _ _ => simp [kind]
    | _ => cases assignable
  object := fun _ entry _ => kind_entry entry
  markup := fun _ => ⟨fun entry _ => kind_entry entry, fun child _ => kind_expr_ne_property child⟩
  property := by
    intro child member isProperty
    cases child with
    | expr value => exact absurd isProperty (kind_expr_ne_property value)
    | stmt value => exact absurd isProperty (kind_stmt_ne_property value)
    | entry value => exact kind_parent_of_entry member
  interpolated := by
    rintro _ _ _ rfl
    exact balanced
  function := by
    rintro _ _ _ body rfl
    cases body with
    | expr value => exact .inr ⟨value, rfl⟩
    | block statements => exact .inl rfl
  matrix := by
    rintro _ _ rfl
    exact filled
  block := by
    intro isLoop
    cases node with
    | expr value => cases value <;> simp [kind] at isLoop
    | entry value => cases value <;> simp [kind] at isLoop
    | stmt value =>
        cases value with
        | ifThen _ _ whenTrue other => exact ⟨whenTrue, by cases other <;> simp [children]⟩
        | whileDo _ _ body => exact ⟨body, by simp [children]⟩
        | forIn _ _ _ _ body => exact ⟨body, by simp [children]⟩
        | _ => simp [kind] at isLoop

/-- A tree all of whose nodes have their shapes. -/
abbrev IsSupported (node : Node) : Prop :=
  node.Throughout IsShaped

theorem isSupported_of_filled {node : Node} (filled : node.Throughout IsFilled)
    (balanced : node.Throughout IsBalanced) : node.IsSupported :=
  fun inner below => (filled inner below).isShaped (balanced inner below)

theorem isSupported_parseExpression (number : Nat) (text : String) :
    (Node.expr (parseExpression number text)).IsSupported :=
  isSupported_of_filled (filled_parseExpression number text) (balanced_parseExpression number text)

theorem isSupported_parseProgram (number : Nat) (file : String) (bytes : List UInt8) {tree : Stmt}
    (member : tree ∈ parseProgram number file bytes) : (Node.stmt tree).IsSupported :=
  isSupported_of_filled (filled_parseProgram number file bytes member)
    (balanced_parseProgram number file bytes member)

/-! ## Parts of trees -/

variable {holds : Node → Prop} {node : Node} {visited : List Node}

theorem nodes_eq_walk (node : Node) : node.nodes = node.walk := by
  cases node <;> rfl

/-- What holds throughout a tree holds throughout everything that a walk visits. -/
theorem Throughout.of_walks (all : node.Throughout holds) (walks : Walks visited node.walk) :
    ∀ inner ∈ visited, inner.Throughout holds := by
  intro inner member other below
  rw [← nodes_eq_walk] at below
  exact all other (walks.closed inner (walks.subset member) below)

theorem Throughout.visit_expr {tree : Expr} (all : (expr tree).Throughout holds) :
    ∀ inner ∈ tree.visit stays, inner.Throughout holds :=
  all.of_walks (tree.walks_visit stays)

theorem Throughout.visit_stmt {tree : Stmt} (all : (stmt tree).Throughout holds) :
    ∀ inner ∈ tree.visit stays, inner.Throughout holds :=
  all.of_walks (tree.walks_visit stays)

theorem Throughout.visit_body {body : Body} (all : body.root.Throughout holds) :
    ∀ inner ∈ body.visit stays, inner.Throughout holds := by
  refine all.of_walks ?_
  rw [walk, ← Body.visit_eq_root]
  exact body.walks_visit stays

/-- The body of a function that is created is a child of the node that creates it. -/
theorem Throughout.created (all : node.Throughout holds) {params : List String}
    {static : Option FrameId} {body : Body} (created : node.created? = some (params, static, body)) :
    body.root.Throughout holds := by
  unfold created? at created
  split at created
  · cases created
    exact all.child (List.mem_append_right _ (.head _))
  · split at created
    · cases created
      exact all.child (.tail _ (.head _))
    · cases created
  · cases created

end Node

/-! ## Refusals -/

/-- The evaluator refuses an operator that is not in its table. -/
theorem compute_refuses {op : BinaryOp} (unknown : isComputed op = false) (x y : Value)
    (machine : Machine) : (compute op x y).run machine =
      .error (.unsupported ("unsupported operator " ++ op.symbol)) machine := by
  rw [compute, unknown, if_neg Bool.false_ne_true]
  rfl

/-- A program cannot tell a refusal from an exception that it throws with the same text. -/
theorem unsupported_like_raise (store : Store) (message : String) :
    (Failure.unsupported message).message store = (Failure.raise message).message store ∧
      Library.caught store (.unsupported message) = Library.caught store (.raise message) ∧
      Library.isCatchable (.unsupported message) = Library.isCatchable (.raise message) :=
  ⟨rfl, rfl, rfl⟩

/-! ## Runs -/

/-- The body of every function of the program is supported. -/
def Machine.IsSupported (machine : Machine) : Prop :=
  ∀ function ∈ machine.store.functions, ∀ realm parent static params body,
    function.code = .closure realm parent static params body → body.root.IsSupported

namespace Machine.IsSupported

variable {machine : Machine}

theorem extend (supported : machine.IsSupported) {store : Store}
    (extended : machine.store.Extends store) : IsSupported { machine with store } := by
  intro function member realm parent static params body isClosure
  rcases extended.added function member with homeless | ⟨earlier, isEarlier, same⟩
  · rw [isClosure] at homeless
    cases homeless
  · exact supported earlier isEarlier realm parent static params body (same.trans isClosure)

/-- A function is added whose body is supported if it has one. -/
theorem push (supported : machine.IsSupported) {added : Function} {after : Machine}
    (functions : after.store.functions = machine.store.functions.push added)
    (body : ∀ realm parent static params body,
      added.code = .closure realm parent static params body → body.root.IsSupported) :
    after.IsSupported := by
  intro function member
  rw [functions] at member
  rcases Array.mem_push.mp member with earlier | rfl
  · exact supported function earlier
  · exact body

theorem found (supported : machine.IsSupported) : machine.found.IsSupported := by
  refine supported.push rfl fun realm parent static params body isClosure => ?_
  cases isClosure

end Machine.IsSupported

theorem Failure.isUnsupported_of_isOrdinary {failure : Failure}
    (ordinary : failure.isOrdinary = true) : failure.isUnsupported = false := by
  cases failure with
  | exception thrown => exact Bool.not_eq_true _ |>.mp (by simpa [isOrdinary] using ordinary)
  | _ => rfl

/-- That everything is supported is kept by evaluation, which refuses nothing. -/
def supporting : Regime some where
  World := Unit
  holds _ machine := machine.IsSupported
  node _ node := node.IsSupported
  fails _ failure machine := machine.IsSupported ∧ failure.isUnsupported = false
  ordinary held ordinary := ⟨held, Failure.isUnsupported_of_isOrdinary ordinary⟩
  malformed held _ _ := ⟨held, rfl⟩
  resume failed _ := failed.1
  pass held := held
  stop held _ := ⟨held, rfl⟩
  cancel held := held
  extend held extended := held.extend extended
  print _ held := held
  read _ _ := Machine.read?_retag_some _ _
  assignee _ _ := Machine.assignee_retag_some _ _
  assign _ held _ := held
  declaree _ _ _ := Machine.declaree_retag_some _ _
  declare _ held _ _ := held
  create := by
    intro _ machine _ params static body name held allowed created
    refine ⟨Option.bind_fun_some static, held.push rfl ?_⟩
    intro _ _ _ _ _ isClosure
    cases isClosure
    exact allowed.created created
  enter := by
    rintro _ machine parent static params body held _ ⟨function, member, isClosure⟩
    have supported := held function member _ _ _ _ _ isClosure
    exact ⟨(), supported.visit_body, fun _ => held, fun _ after => after, fun _ _ failed => failed⟩
  visit held _ := ⟨(), held, fun _ after => after, fun _ _ failed => failed⟩

/-- From a machine, an action leads to one whose functions are supported, and refuses nothing. -/
abbrev Machine.Supports {α : Type} (machine : Machine) (action : Eval α) : Prop :=
  Leaves Machine.IsSupported (fun failure => failure.isUnsupported = false) machine action

namespace Machine

variable {machine : Machine}

theorem supports_of_keeps {α : Type} {world : supporting.World} {first action : Eval α}
    (kept : supporting.Keeps world first action) (held : machine.IsSupported) :
    machine.Supports action := by
  have ends := (kept machine held).ends
  exact ⟨ends.holds fun _ _ => And.left, ends.failsOnly fun _ _ => And.right⟩

theorem keeps_eval {tree : Expr} (supported : (Node.expr tree).IsSupported)
    (world : supporting.World) :
    supporting.Keeps world ((tree.retag some).eval Eval.apply) (tree.eval Eval.apply) := by
  have allowed : supporting.Allows world (tree.visit Node.stays) := supported.visit_expr
  exact Regime.keeps_eval (Regime.keeps_apply world) tree allowed

theorem keeps_exec {tree : Stmt} (supported : (Node.stmt tree).IsSupported)
    (world : supporting.World) :
    supporting.Keeps world ((tree.retag some).exec Eval.apply) (tree.exec Eval.apply) := by
  have allowed : supporting.Allows world (tree.visit Node.stays) := supported.visit_stmt
  exact Regime.keeps_exec (Regime.keeps_apply world) tree allowed

theorem keeps_call (callee : Value) (args : List Value) (world : supporting.World) :
    supporting.Keeps world (Eval.call Eval.apply callee args) (Eval.call Eval.apply callee args) :=
  Regime.keeps_call (Regime.keeps_apply world) callee args

theorem keeps_callFunction (callee : Value) (args : List Value) (world : supporting.World) :
    supporting.Keeps world (callFunction Eval.apply callee args)
      (callFunction Eval.apply callee args) :=
  Regime.keeps_callFunction (Regime.keeps_apply world) callee args

/-- An expression is supported in a new realm too. -/
theorem supports_apart {tree : Expr} (held : machine.IsSupported)
    (supported : (Node.expr tree).IsSupported) :
    machine.found.Supports (inRealm machine.parked.size (tree.eval Eval.apply)) := by
  have known : ∃ function ∈ machine.found.store.functions,
      function.code.home? = some machine.parked.size :=
    ⟨Session.printFunction machine.parked.size, Array.mem_push_self, rfl⟩
  let world : supporting.World := ()
  have kept : supporting.KeepsAt world machine.found
      (inRealm machine.parked.size ((tree.retag some).eval Eval.apply))
      (inRealm machine.parked.size (tree.eval Eval.apply)) :=
    Regime.keepsAt_inRealm held.found known fun inner there _ _ => keeps_eval supported inner there
  exact ⟨kept.ends.holds fun _ _ => And.left, kept.ends.failsOnly fun _ _ => And.right⟩

end Machine

/-! ## Sessions -/

/-- What the requests of a host keep, if it runs only supported trees. -/
def supportingHost : Hosting where
  idle := Machine.IsSupported
  fails failure := failure.isUnsupported = false
  expr tree := (Node.expr tree).IsSupported
  stmt tree := (Node.stmt tree).IsSupported
  ordinary := Failure.isUnsupported_of_isOrdinary
  cancelled := rfl
  wellFormed number text _ := Node.isSupported_parseExpression number text
  extend held extended := held.extend extended
  report _ _ held := held
  bind _ _ held := held
  eval held supported := Machine.supports_of_keeps (Machine.keeps_eval supported ()) held
  exec held supported := Machine.supports_of_keeps (Machine.keeps_exec supported ()) held
  call callee args held := Machine.supports_of_keeps (Machine.keeps_call callee args ()) held
  apart := Machine.supports_apart

/-- The trees of all sources have the shapes that their evaluation relies on.  Whatever sources a host
runs in a session, and whatever else it asks of it, the bodies of all functions are of these trees, and
no request fails because the evaluator refuses a construct.  The same is true of everything that runs
within a request: from any machine whose functions are supported, no tree, no call and no callback fails
so, not even one that is made to catch what it fails with.  Programs may throw exceptions with the same
texts, but this is another matter. -/
theorem no_run_refuses_a_construct (maxDepth : Int) (output : Output) :
    (∀ number text, (Node.expr (parseExpression number text)).IsSupported) ∧
    (∀ number file bytes, ∀ tree ∈ parseProgram number file bytes, (Node.stmt tree).IsSupported) ∧
    (∀ requests : List Request, (∀ request ∈ requests, request.IsParsed) →
      let session := requests.foldl Request.perform (Session.new maxDepth output {})
      session.machine.IsSupported ∧
      ∀ request : Request, request.IsParsed → ∀ report, request.report? session = some report →
        report.failure.isUnsupported = false) ∧
    ∀ machine : Machine, machine.IsSupported →
      (∀ tree, (Node.expr tree).IsSupported → machine.Supports (tree.eval Eval.apply)) ∧
      (∀ tree, (Node.stmt tree).IsSupported → machine.Supports (tree.exec Eval.apply)) ∧
      (∀ callee args, machine.Supports (Eval.call Eval.apply callee args)) ∧
      ∀ callee args, machine.Supports (callFunction Eval.apply callee args) := by
  have exprs (number : Nat) (text : String) : supportingHost.expr (parseExpression number text) :=
    Node.isSupported_parseExpression number text
  have stmts (number : Nat) (file : String) (bytes : List UInt8) (tree : Stmt)
      (member : tree ∈ parseProgram number file bytes) : supportingHost.stmt tree :=
    Node.isSupported_parseProgram number file bytes member
  refine ⟨exprs, stmts, fun requests parsed => ?_, fun machine held => ?_⟩
  · have first : supportingHost.idle (Session.new maxDepth output {}).machine := by
      intro function member realm parent static params body isClosure
      rw [Configuration.code_of_mem_initial member] at isClosure
      cases isClosure
    have idle := supportingHost.performAll first (Hosting.admitsAll_of_isParsed exprs stmts parsed)
    refine ⟨idle, fun request isParsed report => ?_⟩
    exact (Hosting.perform idle (Hosting.admits_of_isParsed exprs stmts isParsed)).2 report
  · refine ⟨fun tree supported => ?_, fun tree supported => ?_, fun callee args => ?_,
      fun callee args => ?_⟩
    · exact Machine.supports_of_keeps (Machine.keeps_eval supported ()) held
    · exact Machine.supports_of_keeps (Machine.keeps_exec supported ()) held
    · exact Machine.supports_of_keeps (Machine.keeps_call callee args ()) held
    · exact Machine.supports_of_keeps (Machine.keeps_callFunction callee args ()) held

/-- A program that throws the text itself, from a function, and throws it again when it was caught. -/
theorem thrown_text_is_no_refusal :
    let request := Request.run ""
      "f = (x) => throw(\"unsupported operator +\"); throw(catch(() => f(-1)).error)".toUTF8.toList
    ∃ report, request.report? (Session.new 100 (.text "") {}) = some report ∧
      report.failure.isUnsupported = false := by
  intro request
  have reported : (request.report? (Session.new 100 (.text "") {})).isSome = true := by
    decide +kernel
  obtain ⟨report, told⟩ := Option.isSome_iff_exists.mp reported
  have sessions := (no_run_refuses_a_construct 100 (.text "")).2.2.1 [] fun _ member => by cases member
  exact ⟨report, told, sessions.2 request trivial report told⟩

end Reckon
