import Reckon.Proofs.Arena.Chain
import Reckon.Proofs.Session.Evaluation

/-!
# Quiet expressions

An expression is quiet if it neither assigns nor calls anything outside of the functions that it
creates.  Its evaluation reads variables, puts values into the store and waits for futures, and it may
fail on the way, but it leaves the variables of every activation as they are.
-/

namespace Reckon

open Eval

/-- Whether the evaluation of a node neither assigns nor calls anything itself. -/
def Node.isQuiet : Node → Bool
  | .expr (.assignment ..) | .expr (.call ..) | .expr (.binary _ .pipe ..) => false
  | .expr (.markup _ (.identifier _) ..) => true
  | .expr (.markup ..) => false
  | _ => true

/-- None of the nodes assigns or calls anything. -/
def Quiet (nodes : List Node) : Prop :=
  ∀ node ∈ nodes, node.isQuiet = true

instance (nodes : List Node) : Decidable (Quiet nodes) :=
  inferInstanceAs (Decidable (∀ node ∈ nodes, node.isQuiet = true))

/-- The expression neither assigns nor calls anything outside of the functions that it creates. -/
def Expr.IsQuiet (tree : Expr) : Prop :=
  Quiet (tree.visit Node.stays)

instance (tree : Expr) : Decidable tree.IsQuiet :=
  inferInstanceAs (Decidable (Quiet _))

section Quiet

variable {node : Node} {left right below : List Node}

theorem quiet_append : Quiet (left ++ right) ↔ Quiet left ∧ Quiet right :=
  List.forall_mem_append

theorem quiet_above (stays : node.stays = true) :
    Quiet (node.above Node.stays below) ↔ node.isQuiet = true ∧ Quiet below := by
  rw [Node.above, if_pos stays]
  exact List.forall_mem_cons

end Quiet

namespace Eval

variable {α β : Type}

/-- The action leaves the variables of all activations as they are, also if it fails. -/
def Steady (action : Eval α) : Prop :=
  ∀ machine index,
    (machineOf (action.run machine)).arena.bindings index = machine.arena.bindings index

/-! ## Actions -/

theorem steady_pure (value : α) : Steady (pure value) :=
  fun _ _ => rfl

theorem steady_throw (failure : Failure) : Steady (throw failure : Eval α) :=
  fun _ _ => rfl

theorem steady_orCrash (result : Except Crash α) : Steady (orCrash result) := by
  cases result with
  | ok value => exact steady_pure value
  | error crash => exact steady_throw _

theorem Steady.bind {action : Eval α} {next : α → Eval β} (first : Steady action)
    (rest : ∀ value, Steady (next value)) : Steady (action >>= next) := by
  intro machine index
  have before := first machine index
  rw [EStateM.run_bind]
  cases ran : action.run machine with
  | ok value middle =>
      rw [ran] at before
      exact (rest value middle index).trans before
  | error failure middle =>
      rw [ran] at before
      exact before

theorem steady_get {next : Machine → Eval α} (rest : ∀ machine, Steady (next machine)) :
    Steady (get >>= next) :=
  fun machine index => rest machine machine index

theorem steady_store {next : Store → Eval α} (rest : ∀ store, Steady (next store)) :
    Steady (Eval.store >>= next) :=
  fun machine index => rest machine.store machine index

theorem steady_modify {change : Machine → Machine}
    (same : ∀ machine, (change machine).arena = machine.arena) : Steady (modify change) :=
  fun machine index => congrArg (Arena.bindings · index) (same machine)

theorem steady_ite {condition : Prop} [Decidable condition] {first second : Eval α}
    (whenTrue : Steady first) (whenFalse : Steady second) :
    Steady (if condition then first else second) := by
  by_cases decided : condition
  · rwa [if_pos decided]
  · rwa [if_neg decided]

theorem steady_onStore (action : StoreM α) : Steady (onStore action) :=
  fun _ _ => rfl

theorem steady_follow (action : FollowM α) : Steady (follow action) := by
  refine (steady_onStore action.run).bind fun found => ?_
  cases found with
  | none => exact steady_throw _
  | some result => exact steady_pure result

theorem steady_newMap (record : Record) : Steady (newMap record) :=
  steady_onStore _

theorem steady_newArray (values : List Value) : Steady (newArray values) :=
  steady_onStore _

theorem steady_isTruthy (value : Value) : Steady (isTruthy value) :=
  steady_store fun _ => steady_pure _

theorem steady_textOf (value : Value) : Steady (textOf value) :=
  steady_store fun _ => steady_pure _

theorem steady_stop : Steady (Eval.stop : Eval α) :=
  fun _ _ => rfl

theorem steady_checkCancelled : Steady checkCancelled :=
  steady_get fun _ => steady_ite steady_stop (steady_modify fun _ => rfl)

theorem steady_waitForever : Steady (waitForever : Eval α) :=
  steady_get fun _ => steady_ite steady_stop (steady_throw _)

theorem steady_readVariable (name : Variable) : Steady (readVariable name) := by
  intro machine index
  rw [Regime.run_readVariable]
  cases machine.read? name <;> rfl

theorem steady_newClosure (name : String) (params : List String) (static : Option FrameId)
    (body : Body) : Steady (newClosure name params static body) := by
  intro machine index
  rw [Regime.run_newClosure]
  exact machine.arena.bindings_capture machine.current index

theorem steady_setFuture (ref : FutureRef) (future : Future) : Steady (setFuture ref future) :=
  steady_modify fun _ => rfl

theorem steady_delivered (outcome : Outcome) : Steady (delivered outcome) := by
  cases outcome with
  | ok result => exact steady_pure result
  | error error => exact steady_throw _

theorem steady_outcomeOf (ref : FutureRef) (future : Future) : Steady (outcomeOf ref future) := by
  unfold outcomeOf
  split
  · exact steady_throw _
  · refine (steady_setFuture _ _).bind fun _ => ?_
    split
    · exact steady_delivered _
    · exact steady_checkCancelled.bind fun _ =>
        (steady_setFuture _ _).bind fun _ => steady_delivered _
    · exact steady_waitForever

theorem steady_await (value : Value) : Steady (await value) := by
  cases value with
  | future ref =>
      refine steady_store fun store => steady_ite ?_ (steady_outcomeOf _ _)
      exact steady_checkCancelled.bind fun _ => steady_outcomeOf _ _
  | _ => exact steady_pure _

theorem steady_compute (op : BinaryOp) (x y : Value) : Steady (compute op x y) :=
  steady_ite (steady_follow _) (steady_throw _)

theorem steady_unary (op : UnaryOp) (value : Value) : Steady (unary op value) := by
  cases op with
  | await => exact steady_await value
  | negate => exact steady_follow (Operator.negate value)
  | plus => exact steady_follow (Operator.plus value)
  | not => exact steady_follow (Operator.not value)

end Eval

/-! ## Trees -/

section Trees

variable {apply : Applier}

mutual

theorem Expr.steady_eval : ∀ tree : Expr, tree.IsQuiet → Steady (tree.eval apply)
  | .empty _, _ => by
      simp only [Expr.eval]
      exact steady_pure _
  | .invalid _ _, _ => by
      simp only [Expr.eval]
      exact steady_throw _
  | .constant _ _, _ => by
      simp only [Expr.eval]
      exact steady_pure _
  | .var name, _ => by
      simp only [Expr.eval]
      exact steady_readVariable name
  | .identifier _, _ => by
      simp only [Expr.eval]
      exact steady_pure _
  | .binary span op left right implicit, quiet => by
      rw [Expr.IsQuiet, Expr.visit, quiet_above rfl, quiet_append] at quiet
      obtain ⟨here, leftQuiet, rightQuiet⟩ := quiet
      have leftSteady := Expr.steady_eval left leftQuiet
      have rightSteady := Expr.steady_eval right rightQuiet
      have truth : Steady (do return .boolean (← isTruthy (← right.eval apply)) : Eval Value) :=
        rightSteady.bind fun y => (steady_isTruthy y).bind fun _ => steady_pure _
      cases op with
      | pipe => cases here
      | and =>
          simp only [Expr.eval]
          exact leftSteady.bind fun x => (steady_isTruthy x).bind fun _ =>
            steady_ite truth (steady_pure _)
      | or =>
          simp only [Expr.eval]
          exact leftSteady.bind fun x => (steady_isTruthy x).bind fun _ =>
            steady_ite (steady_pure _) truth
      | _ =>
          simp only [Expr.eval]
          exact leftSteady.bind fun x => rightSteady.bind fun y => steady_compute _ x y
  | .unary span op operand, quiet => by
      rw [Expr.IsQuiet, Expr.visit, quiet_above rfl] at quiet
      simp only [Expr.eval]
      exact (Expr.steady_eval operand quiet.2).bind (steady_unary op)
  | .factorial span operand, quiet => by
      rw [Expr.IsQuiet, Expr.visit, quiet_above rfl] at quiet
      simp only [Expr.eval]
      exact (Expr.steady_eval operand quiet.2).bind fun x => steady_follow _
  | .range span first none last, quiet => by
      rw [Expr.IsQuiet, Expr.visit, quiet_above rfl, quiet_append] at quiet
      simp only [Expr.eval]
      exact (Expr.steady_eval first quiet.2.1).bind fun _ =>
        (Expr.steady_eval last quiet.2.2).bind fun _ => steady_orCrash _
  | .range span first (some step) last, quiet => by
      rw [Expr.IsQuiet, Expr.visit, quiet_above rfl, quiet_append, quiet_append] at quiet
      obtain ⟨_, ⟨firstQuiet, stepQuiet⟩, lastQuiet⟩ := quiet
      simp only [Expr.eval]
      exact (Expr.steady_eval first firstQuiet).bind fun _ =>
        (Expr.steady_eval step stepQuiet).bind fun _ =>
          (Expr.steady_eval last lastQuiet).bind fun _ => steady_orCrash _
  | .conditional span test whenTrue whenFalse, quiet => by
      rw [Expr.IsQuiet, Expr.visit, quiet_above rfl, quiet_append, quiet_append] at quiet
      obtain ⟨_, ⟨testQuiet, trueQuiet⟩, falseQuiet⟩ := quiet
      simp only [Expr.eval]
      refine (Expr.steady_eval test testQuiet).bind fun value =>
        (steady_isTruthy value).bind fun _ => ?_
      exact steady_ite (Expr.steady_eval whenTrue trueQuiet) (Expr.steady_eval whenFalse falseQuiet)
  | .call span callee args, quiet => by
      rw [Expr.IsQuiet, Expr.visit, quiet_above rfl] at quiet
      cases quiet.1
  | .arguments span items, quiet => by
      rw [Expr.IsQuiet, Expr.visit, quiet_above rfl] at quiet
      simp only [Expr.eval]
      refine (Expr.steady_evalAll items quiet.2).bind fun values => ?_
      split
      · exact steady_pure _
      · exact steady_pure _
      · exact steady_newArray _
  | .matrix span rows, quiet => by
      rw [Expr.IsQuiet, Expr.visit, quiet_above rfl] at quiet
      simp only [Expr.eval]
      exact (Expr.steady_evalRows rows quiet.2).bind fun values => steady_onStore _
  | .object span entries, quiet => by
      rw [Expr.IsQuiet, Expr.visit, quiet_above rfl] at quiet
      simp only [Expr.eval]
      exact (Entry.steady_evalAll entries quiet.2).bind fun _ => steady_newMap _
  | .function span frame params body, _ => by
      simp only [Expr.eval]
      exact steady_newClosure _ _ _ _
  | .member span owner selector, quiet => by
      rw [Expr.IsQuiet, Expr.visit, quiet_above rfl, quiet_append] at quiet
      simp only [Expr.eval]
      refine (Expr.steady_eval owner quiet.2.1).bind fun value => ?_
      split
      · exact steady_store fun _ => steady_pure _
      · exact steady_pure _
  | .assignment span target value, quiet => by
      rw [Expr.IsQuiet, Expr.visit, quiet_above rfl] at quiet
      cases quiet.1
  | .interpolated span parts replacements, quiet => by
      rw [Expr.IsQuiet, Expr.visit, quiet_above rfl] at quiet
      simp only [Expr.eval]
      exact (Expr.steady_evalTexts replacements quiet.2).bind fun _ => steady_pure _
  | .markup span tag attributes children, quiet => by
      rw [Expr.IsQuiet, Expr.visit, quiet_above rfl, quiet_append, quiet_append] at quiet
      obtain ⟨here, ⟨_, attributesQuiet⟩, childrenQuiet⟩ := quiet
      simp only [Expr.eval]
      refine (Entry.steady_evalAll attributes attributesQuiet).bind fun _ =>
        (steady_newMap _).bind fun _ => (Expr.steady_evalAll children childrenQuiet).bind fun _ =>
          (steady_newArray _).bind fun _ => ?_
      cases tag with
      | identifier name =>
          unfold element
          exact steady_newMap _
      | _ => cases here

theorem Expr.steady_evalAll :
    ∀ trees : List Expr, Quiet (Expr.visitAll Node.stays trees) → Steady (Expr.evalAll apply trees)
  | [], _ => by
      simp only [Expr.evalAll]
      exact steady_pure _
  | first :: rest, quiet => by
      rw [Expr.visitAll, quiet_append] at quiet
      simp only [Expr.evalAll]
      exact (Expr.steady_eval first quiet.1).bind fun _ =>
        (Expr.steady_evalAll rest quiet.2).bind fun _ => steady_pure _

theorem Expr.steady_evalRows :
    ∀ rows : List (List Expr), Quiet (Expr.visitRows Node.stays rows) →
      Steady (Expr.evalRows apply rows)
  | [], _ => by
      simp only [Expr.evalRows]
      exact steady_pure _
  | row :: rest, quiet => by
      rw [Expr.visitRows, quiet_append] at quiet
      simp only [Expr.evalRows]
      exact (Expr.steady_evalAll row quiet.1).bind fun _ =>
        (Expr.steady_evalRows rest quiet.2).bind fun _ => steady_pure _

theorem Expr.steady_evalTexts :
    ∀ trees : List Expr, Quiet (Expr.visitAll Node.stays trees) →
      Steady (Expr.evalTexts apply trees)
  | [], _ => by
      simp only [Expr.evalTexts]
      exact steady_pure _
  | first :: rest, quiet => by
      rw [Expr.visitAll, quiet_append] at quiet
      simp only [Expr.evalTexts]
      exact (Expr.steady_eval first quiet.1).bind fun value => (steady_textOf value).bind fun _ =>
        (Expr.steady_evalTexts rest quiet.2).bind fun _ => steady_pure _

theorem Entry.steady_evalAll :
    ∀ entries : List Entry, Quiet (Entry.visitAll Node.stays entries) →
      Steady (Entry.evalAll apply entries)
  | [], _ => by
      simp only [Entry.evalAll]
      exact steady_pure _
  | .property span key value :: rest, quiet => by
      rw [Entry.visitAll, Entry.visit, quiet_append, quiet_above rfl] at quiet
      simp only [Entry.evalAll]
      exact (Expr.steady_eval value quiet.1.2).bind fun _ =>
        (Entry.steady_evalAll rest quiet.2).bind fun _ => steady_pure _
  | .invalid span defect :: rest, _ => by
      simp only [Entry.evalAll]
      exact steady_throw _

end

end Trees

end Reckon
