import Reckon.Proofs.Session.Keeping

/-!
# Evaluation keeps every regime

Built-in functions, trees and the application of functions keep each regime.  For trees this goes by
recursion on the tree, with one case for each construct; for the application of functions it goes by
induction on the depth of calls.
-/

namespace Reckon

open Eval

namespace Regime

variable {tags : Retagging} {regime : Regime tags} {world : regime.World}

/-! ## Built-in functions -/

section Library

open Library

variable {call : Caller}

theorem keeps_forEntries {α : Type} {action : String → Value → Eval α} (ref : MapRef)
    (kept : ∀ key value, regime.Keeps world (action key value) (action key value)) :
    regime.Keeps world (forEntries ref action) (forEntries ref action) := by
  refine keeps_store fun store => keeps_mapM (fun key => ?_) _
  exact keeps_store fun later => kept key _

variable (kept : ∀ callee args, regime.Keeps world (call callee args) (call callee args))

include kept

theorem keeps_mapEach (f collection : Value) :
    regime.Keeps world (mapEach call f collection) (mapEach call f collection) := by
  unfold mapEach
  split
  · refine (keeps_mapM (fun cell => kept f [cell]) _).bind fun results => ?_
    split
    · exact keeps_pure _
    · exact keeps_newArray _
  · refine (keeps_forEntries _ fun key value => ?_).bind fun entries => keeps_newMap _
    exact (kept f [value]).bind fun _ => keeps_pure _
  · exact kept f _

theorem keeps_reduce (f initial collection : Value) :
    regime.Keeps world (reduce call f initial collection) (reduce call f initial collection) := by
  refine keeps_store fun store => ?_
  rw [store.elements?_withCode]
  split
  · exact keeps_foldlM (fun soFar element => kept f [soFar, element]) _ _
  · exact kept f _

theorem keeps_filter (predicate collection : Value) :
    regime.Keeps world (Library.filter call predicate collection)
      (Library.filter call predicate collection) := by
  unfold Library.filter
  split
  · refine (keeps_filterM (fun cell => ?_) _).bind fun _ => keeps_pure _
    exact (kept predicate [cell]).bind keeps_isTruthy
  · refine keeps_store fun store => ?_
    refine (keeps_forEntries _ fun key value => ?_).bind fun judged => ?_
    · exact (kept predicate [value]).bind fun result =>
        (keeps_isTruthy result).bind fun _ => keeps_pure _
    · exact keeps_ite (fun _ => keeps_newArray _) fun _ => keeps_newMap _
  · refine (kept predicate _).bind fun result => (keeps_isTruthy result).bind fun passed => ?_
    split <;> exact keeps_pure _

theorem keeps_decidedBy (predicate : Value) (wanted : Bool) (elements : List Value) :
    regime.Keeps world (decidedBy call predicate wanted elements)
      (decidedBy call predicate wanted elements) := by
  induction elements with
  | nil =>
      exact keeps_pure _
  | cons element rest inductionHypothesis =>
      refine (kept predicate [element]).bind fun result =>
        (keeps_isTruthy result).bind fun passed => ?_
      split
      · exact keeps_pure _
      · exact inductionHypothesis

omit kept in
theorem keeps_elementsOf (value : Value) :
    regime.Keeps world (elementsOf value) (elementsOf value) :=
  keeps_store fun _ => keeps_pure _

omit kept in
theorem caught_withCode (change : Code → Code) (store : Store) (failure : Failure) :
    caught (store.withCode change) failure = caught store failure := by
  cases failure with
  | exception thrown => rfl
  | _ => rfl

omit kept in
theorem run_rescue (f : Value) (machine : Machine) : (rescue call f).run machine =
    match (call f []).run machine with
    | .ok value later =>
        (newMap (.ofEntries [("value", value), ("error", .null)])).run later
    | .error failure later =>
        if isCatchable failure then
          (newMap (.ofEntries [("value", .null), ("error", caught later.store failure)])).run later
        else .error failure later :=
  rfl

theorem keeps_rescue (f : Value) : regime.Keeps world (rescue call f) (rescue call f) := by
  intro machine held
  obtain ⟨same, ends⟩ := kept f [] machine held
  cases ran : (call f []).run machine with
  | ok value later =>
      rw [ran] at same ends
      have made := keeps_newMap (.ofEntries [("value", value), ("error", .null)]) later ends
      constructor
      · rw [run_rescue, run_rescue, same, ran]
        exact made.same
      · rw [run_rescue, ran]
        exact made.ends
  | error failure later =>
      rw [ran] at same ends
      have message : caught (later.retag tags).store failure = caught later.store failure :=
        caught_withCode _ later.store failure
      by_cases catchable : isCatchable failure = true
      · have made := keeps_newMap
          (.ofEntries [("value", .null), ("error", caught later.store failure)]) later
          (regime.resume ends catchable)
        constructor
        · rw [run_rescue, run_rescue, same, ran]
          simp only [retagResult, message, if_pos catchable]
          exact made.same
        · rw [run_rescue, ran]
          simp only [if_pos catchable]
          exact made.ends
      · constructor
        · rw [run_rescue, run_rescue, same, ran]
          simp only [retagResult, if_neg catchable]
        · rw [run_rescue, ran]
          simp only [if_neg catchable]
          exact ends

omit kept in
theorem keeps_sleep (value : Value) : regime.Keeps world (sleep value) (sleep value) := by
  unfold sleep
  split
  · exact keeps_ite (fun _ => keeps_pure _) fun _ => keeps_newFuture _
  · exact keeps_pure _

omit kept in
theorem keeps_resolve (value : Value) : regime.Keeps world (resolve value) (resolve value) := by
  unfold resolve
  split
  · exact keeps_pure _
  · exact keeps_newFuture _

omit kept in
theorem keeps_keys (value : Value) : regime.Keeps world (keys value) (keys value) := by
  unfold keys
  split
  · exact keeps_store fun _ => keeps_newArray _
  · exact keeps_ite (fun _ => keeps_pure _) fun _ => keeps_orCrash _
  · exact keeps_newArray _

theorem keeps_libraryRun (function : Builtin) (args : List Value) :
    regime.Keeps world (Library.run call function args) (Library.run call function args) := by
  unfold Library.run
  dsimp only
  split
  · exact keeps_mapEach kept _ _
  · exact keeps_reduce kept _ _ _
  · exact keeps_filter kept _ _
  · exact (keeps_elementsOf _).bind fun elements =>
      (keeps_decidedBy kept _ _ elements).bind fun _ => keeps_pure _
  · exact (keeps_elementsOf _).bind fun elements =>
      (keeps_decidedBy kept _ _ elements).bind fun _ => keeps_pure _
  · exact keeps_throw rfl
  · exact keeps_rescue kept _
  · exact keeps_sleep _
  · exact keeps_resolve _
  · exact keeps_orCrash _
  · exact keeps_keys _
  · split
    · exact keeps_pure _
    · exact keeps_throw rfl
  · split
    · next found => exact keeps_follow (blind_pure? found)
    · exact keeps_pure _

end Library

/-! ## Calls -/

section Trees

variable {apply : Applier}

theorem Store.name_function_withCode (change : Code → Code) (store : Store) (ref : FunctionRef) :
    ((store.withCode change).function ref).name = (store.function ref).name := by
  cases ref with
  | builtin function =>
      rfl
  | stored index =>
      by_cases inRange : index < store.functions.size
      · simp [Store.function, Store.withCode, Array.getD, inRange]
      · simp [Store.function, Store.withCode, Array.getD, inRange]

theorem keeps_call (applies : ∀ ref args, regime.Keeps world (apply ref args) (apply ref args))
    (callee : Value) (args : List Value) :
    regime.Keeps world (Eval.call apply callee args) (Eval.call apply callee args) := by
  refine keeps_checkCancelled.bind fun _ => ?_
  split
  · refine keeps_store fun store => ?_
    rw [Store.name_function_withCode]
    exact (applies _ args).mapFailure fun _ _ => fails_calling _
  · exact keeps_orCrash _
  · split
    · refine keeps_store fun store => (keeps_textOf _).bind fun key => ?_
      exact keeps_pure _
    · exact keeps_pure _
  · exact keeps_pure _
  · exact keeps_pure _

theorem keeps_setFuture (ref : FutureRef) (future : Future) :
    regime.Keeps world (setFuture ref future) (setFuture ref future) :=
  keeps_modify fun _ held => ⟨rfl, regime.extend held (Store.extends_of_functions_eq rfl)⟩

/-- A failure because of an error of the host, with the name of a function or without it. -/
theorem isOrdinary_of_hostError (error : HostError) :
    error.failure.isOrdinary = true ∧ ∀ name, (error.failure.calling name).isOrdinary = true := by
  cases error <;> exact ⟨rfl, fun _ => rfl⟩

theorem keeps_delivered (outcome : Outcome) :
    regime.Keeps world (delivered outcome) (delivered outcome) := by
  cases outcome with
  | ok result => exact keeps_pure _
  | error error => exact keeps_throw ((isOrdinary_of_hostError error).2 _)

theorem keeps_outcomeOf (ref : FutureRef) (future : Future) :
    regime.Keeps world (outcomeOf ref future) (outcomeOf ref future) := by
  unfold outcomeOf
  split
  · exact keeps_throw rfl
  · refine (keeps_setFuture _ _).bind fun _ => ?_
    split
    · exact keeps_delivered _
    · exact keeps_checkCancelled.bind fun _ => (keeps_setFuture _ _).bind fun _ => keeps_delivered _
    · exact keeps_waitForever

theorem keeps_await (value : Value) : regime.Keeps world (await value) (await value) := by
  unfold await
  split
  · refine keeps_store fun store => ?_
    rw [store.future_withCode]
    exact keeps_ite (fun _ => keeps_checkCancelled.bind fun _ => keeps_outcomeOf _ _)
      fun _ => keeps_outcomeOf _ _
  · exact keeps_pure _

theorem keeps_compute {op : BinaryOp} (computed : isComputed op = true) (x y : Value) :
    regime.Keeps world (compute op x y) (compute op x y) := by
  rw [compute_of_isComputed computed]
  exact keeps_follow (blind_binary op x y)

theorem keeps_unary (op : UnaryOp) (value : Value) :
    regime.Keeps world (Eval.unary op value) (Eval.unary op value) := by
  cases op with
  | await => exact keeps_await value
  | _ => exact keeps_follow (blind_lift _ value)

theorem keeps_element (applies : ∀ ref args, regime.Keeps world (apply ref args) (apply ref args))
    (isComponent : Bool) (tag attributes children : Value) :
    regime.Keeps world (element apply isComponent tag attributes children)
      (element apply isComponent tag attributes children) := by
  unfold element
  split
  · exact keeps_call applies _ _
  · exact keeps_newMap _

theorem keeps_setMember (owner : Value) (key : String) (value : Value) :
    regime.Keeps world (setMember owner key value) (setMember owner key value) := by
  unfold setMember
  split
  · exact keeps_modify fun _ held => ⟨rfl, regime.extend held (Store.extends_of_functions_eq rfl)⟩
  · exact keeps_throw rfl

/-! ## Loops -/

/-- After a round of a loop, either the loop ends or it goes on. -/
theorem keeps_afterRound {first second : Eval Completion} (goOn : regime.Keeps world first second)
    (completion : Completion) :
    regime.Keeps world
      (match completion with
        | .returned result => pure (.returned result)
        | .exitLoop => pure (.normal .null)
        | .normal _ | .nextRound => first)
      (match completion with
        | .returned result => pure (.returned result)
        | .exitLoop => pure (.normal .null)
        | .normal _ | .nextRound => second) := by
  cases completion with
  | returned value => exact keeps_pure _
  | exitLoop => exact keeps_pure _
  | normal _ => exact goOn
  | nextRound => exact goOn

theorem keeps_repeatWhile {firstTest secondTest : Eval Value}
    {firstBody secondBody : Eval Completion} (test : regime.Keeps world firstTest secondTest)
    (body : regime.Keeps world firstBody secondBody) (rounds : Nat) :
    regime.Keeps world (repeatWhile firstTest firstBody rounds)
      (repeatWhile secondTest secondBody rounds) := by
  induction rounds with
  | zero =>
      exact keeps_throw rfl
  | succ rounds inductionHypothesis =>
      refine keeps_checkCancelled.bind fun _ => test.bind fun value =>
        (keeps_isTruthy value).bind fun passed => keeps_ite (fun _ => ?_) fun _ => keeps_pure _
      exact body.bind (keeps_afterRound inductionHypothesis)

theorem loopItems_withCode (change : Code → Code) (store : Store) (value : Value) :
    loopItems (store.withCode change) value = loopItems store value := by
  cases value <;> rfl

theorem keeps_forEach {node : Node} {key : Option Variable} {value : Variable}
    {firstBody secondBody : Eval Completion} (allowed : regime.node world node)
    (keyDeclared : ∀ name, key = some name → name ∈ node.declared)
    (valueDeclared : value ∈ node.declared) (body : regime.Keeps world firstBody secondBody)
    (items : List (Value × Value)) :
    regime.Keeps world
      (forEach (key.map (Variable.retag tags)) (value.retag tags) firstBody items)
      (forEach key value secondBody items) := by
  induction items with
  | nil =>
      exact keeps_pure _
  | cons item rest inductionHypothesis =>
      have round := body.bind (keeps_afterRound inductionHypothesis)
      refine keeps_checkCancelled.bind fun _ => ?_
      cases key with
      | none =>
          exact (keeps_declareVariable allowed valueDeclared _).bind fun _ => round
      | some name =>
          exact (keeps_declareVariable allowed (keyDeclared name rfl) _).bind fun _ =>
            (keeps_declareVariable allowed valueDeclared _).bind fun _ => round

/-! ## Trees -/

variable (regime) in
/-- Every node may be part of a tree that runs. -/
def Allows (world : regime.World) (nodes : List Node) : Prop :=
  ∀ node ∈ nodes, regime.node world node

theorem allows_append {left right : List Node} :
    regime.Allows world (left ++ right) ↔
      regime.Allows world left ∧ regime.Allows world right :=
  List.forall_mem_append

theorem allows_above {node : Node} {below : List Node} (stays : node.stays = true) :
    regime.Allows world (node.above Node.stays below) ↔
      regime.node world node ∧ regime.Allows world below := by
  rw [Node.above, if_pos stays]
  exact List.forall_mem_cons

theorem allows_above_stmt {tree : Stmt} {below : List Node} :
    regime.Allows world ((Node.stmt tree).above Node.stays below) ↔
      regime.node world (.stmt tree) ∧ regime.Allows world below :=
  allows_above rfl

theorem allows_singleton {node : Node} :
    regime.Allows world [node] ↔ regime.node world node :=
  List.forall_mem_singleton

theorem definitionParams_retagAll (args : List Expr) :
    definitionParams (Expr.retagAll tags args) = definitionParams args := by
  unfold definitionParams
  generalize 0 = start
  induction args generalizing start with
  | nil =>
      rfl
  | cons first rest inductionHypothesis =>
      simp only [Expr.retagAll, List.zipIdx_cons, List.mapM_cons, inductionHypothesis]
      cases first with
      | range span first step last =>
          cases step <;> rfl
      | _ =>
          rfl

/-- A definition with a parameter that is no name is refused by an exception. -/
theorem raise_of_definitionParams {args : List Expr} {failure : Failure}
    (refused : definitionParams args = .error failure) : ∃ message, failure = .raise message := by
  unfold definitionParams at refused
  generalize 0 = start at refused
  induction args generalizing start with
  | nil =>
      cases refused
  | cons first rest inductionHypothesis =>
      rw [List.zipIdx_cons, List.mapM_cons] at refused
      split at refused
      · simp only [bind, Except.bind] at refused
        split at refused
        · next later =>
          cases refused
          exact inductionHypothesis (start + 1) later
        · cases refused
      · cases refused
        exact ⟨_, rfl⟩

theorem isOrdinary_of_definitionParams {args : List Expr} {failure : Failure}
    (refused : definitionParams args = .error failure) : failure.isOrdinary = true := by
  obtain ⟨_, rfl⟩ := raise_of_definitionParams refused
  rfl

theorem definitionName_retag (callee : Expr) :
    definitionName (callee.retag tags) = definitionName callee := by
  cases callee with
  | range span first step last =>
      cases step <;> rfl
  | _ =>
      rfl

theorem keeps_definition {span inner : Span} {callee : Expr} {args : List Expr} {body : Expr}
    (allowed : regime.node world (.expr (.assignment span (.call inner callee args) body))) :
    regime.Keeps world (definition (callee.retag tags) (Expr.retagAll tags args) (body.retag tags))
      (definition callee args body) := by
  unfold definition
  rw [definitionParams_retagAll, definitionName_retag]
  cases params : definitionParams args with
  | error failure =>
      exact keeps_throw (isOrdinary_of_definitionParams params)
  | ok names =>
      have created : (Node.expr (.assignment span (.call inner callee args) body)).created? =
          some (names, none, .expr body) := by
        simp only [Node.created?, params]
      have kept := keeps_newClosure allowed created (definitionName callee)
      simpa only [Body.retag] using kept

mutual

theorem keeps_eval (applies : ∀ ref args, regime.Keeps world (apply ref args) (apply ref args)) :
    ∀ tree : Expr, regime.Allows world (tree.visit Node.stays) →
      regime.Keeps world ((tree.retag tags).eval apply) (tree.eval apply)
  | .empty _, _ => by
      simp only [Expr.retag, Expr.eval]
      exact keeps_pure _
  | .invalid _ _, allowed => by
      simp only [Expr.visit, allows_singleton] at allowed
      simp only [Expr.retag, Expr.eval]
      exact keeps_malformed allowed rfl
  | .constant _ _, _ => by
      simp only [Expr.retag, Expr.eval]
      exact keeps_pure _
  | .var name, allowed => by
      simp only [Expr.visit, allows_singleton] at allowed
      simp only [Expr.retag, Expr.eval]
      exact keeps_readVariable allowed
  | .identifier _, _ => by
      simp only [Expr.retag, Expr.eval]
      exact keeps_pure _
  | .binary span op left right implicit, allowed => by
      rw [Expr.visit, allows_above rfl] at allowed
      simp only [allows_append] at allowed
      obtain ⟨_, leftAllowed, rightAllowed⟩ := allowed
      have leftKept := keeps_eval applies left leftAllowed
      have rightKept := keeps_eval applies right rightAllowed
      cases op with
      | and =>
          simp only [Expr.retag, Expr.eval]
          refine leftKept.bind fun x => (keeps_isTruthy x).bind fun _ =>
            keeps_ite (fun _ => ?_) fun _ => keeps_pure _
          exact rightKept.bind fun y => (keeps_isTruthy y).bind fun _ => keeps_pure _
      | or =>
          simp only [Expr.retag, Expr.eval]
          refine leftKept.bind fun x => (keeps_isTruthy x).bind fun _ =>
            keeps_ite (fun _ => keeps_pure _) fun _ => ?_
          exact rightKept.bind fun y => (keeps_isTruthy y).bind fun _ => keeps_pure _
      | pipe =>
          simp only [Expr.retag, Expr.eval]
          exact leftKept.bind fun x => rightKept.bind fun f => keeps_call applies f [x]
      | _ =>
          simp only [Expr.retag, Expr.eval]
          exact leftKept.bind fun x => rightKept.bind fun y => keeps_compute rfl x y
  | .unary span op operand, allowed => by
      rw [Expr.visit, allows_above rfl] at allowed
      simp only [Expr.retag, Expr.eval]
      exact (keeps_eval applies operand allowed.2).bind (keeps_unary op)
  | .factorial span operand, allowed => by
      rw [Expr.visit, allows_above rfl] at allowed
      simp only [Expr.retag, Expr.eval]
      exact (keeps_eval applies operand allowed.2).bind fun x => keeps_follow (blind_lift _ x)
  | .range span first none last, allowed => by
      rw [Expr.visit, allows_above rfl] at allowed
      simp only [allows_append] at allowed
      simp only [Expr.retag, Expr.eval]
      exact (keeps_eval applies first allowed.2.1).bind fun _ =>
        (keeps_eval applies last allowed.2.2).bind fun _ => keeps_orCrash _
  | .range span first (some step) last, allowed => by
      rw [Expr.visit, allows_above rfl] at allowed
      simp only [allows_append] at allowed
      obtain ⟨_, ⟨firstAllowed, stepAllowed⟩, lastAllowed⟩ := allowed
      simp only [Expr.retag, Expr.eval]
      exact (keeps_eval applies first firstAllowed).bind fun _ =>
        (keeps_eval applies step stepAllowed).bind fun _ =>
          (keeps_eval applies last lastAllowed).bind fun _ => keeps_orCrash _
  | .conditional span test whenTrue whenFalse, allowed => by
      rw [Expr.visit, allows_above rfl] at allowed
      simp only [allows_append] at allowed
      obtain ⟨_, ⟨testAllowed, trueAllowed⟩, falseAllowed⟩ := allowed
      simp only [Expr.retag, Expr.eval]
      refine (keeps_eval applies test testAllowed).bind fun value =>
        (keeps_isTruthy value).bind fun _ => ?_
      exact keeps_ite (fun _ => keeps_eval applies whenTrue trueAllowed) fun _ =>
        keeps_eval applies whenFalse falseAllowed
  | .call span callee args, allowed => by
      rw [Expr.visit, allows_above rfl] at allowed
      simp only [allows_append] at allowed
      simp only [Expr.retag, Expr.eval]
      exact (keeps_eval applies callee allowed.2.1).bind fun f =>
        (keeps_evalAll applies args allowed.2.2).bind fun values => keeps_call applies f values
  | .arguments span items, allowed => by
      rw [Expr.visit, allows_above rfl] at allowed
      simp only [Expr.retag, Expr.eval]
      refine (keeps_evalAll applies items allowed.2).bind fun values => ?_
      split
      · exact keeps_pure _
      · exact keeps_pure _
      · exact keeps_newArray _
  | .matrix span rows, allowed => by
      rw [Expr.visit, allows_above rfl] at allowed
      simp only [Expr.retag, Expr.eval]
      exact (keeps_evalRows applies rows allowed.2).bind fun values =>
        keeps_onStore (blind_matrixLiteral values)
  | .object span entries, allowed => by
      rw [Expr.visit, allows_above rfl] at allowed
      simp only [Expr.retag, Expr.eval]
      exact (keeps_evalEntries applies entries allowed.2).bind fun _ => keeps_newMap _
  | .function span frame params body, allowed => by
      have here := allowed _ (List.mem_cons_self ..)
      simp only [Expr.retag, Expr.eval]
      exact keeps_newClosure here rfl ""
  | .member span owner selector, allowed => by
      rw [Expr.visit, allows_above rfl] at allowed
      simp only [allows_append] at allowed
      simp only [Expr.retag, Expr.eval]
      refine (keeps_eval applies owner allowed.2.1).bind fun value => ?_
      split
      · exact keeps_store fun _ => keeps_pure _
      · exact keeps_pure _
  | .assignment span target value, allowed => by
      rw [Expr.visit, allows_above rfl] at allowed
      simp only [allows_append] at allowed
      obtain ⟨here, targetAllowed, valueAllowed⟩ := allowed
      have valueKept := keeps_eval applies value valueAllowed
      cases target with
      | var name =>
          simp only [Expr.visit, allows_singleton] at targetAllowed
          simp only [Expr.retag, Expr.eval]
          exact valueKept.bind fun result =>
            (keeps_assignVariable targetAllowed result).bind fun _ => keeps_pure _
      | member inner owner selector =>
          rw [Expr.visit, allows_above rfl] at targetAllowed
          simp only [allows_append] at targetAllowed
          have ownerKept := keeps_eval applies owner targetAllowed.2.1
          simp only [Expr.retag, Expr.eval]
          exact valueKept.bind fun result => ownerKept.bind fun object =>
            (keeps_setMember object _ result).bind fun _ => keeps_pure _
      | call inner callee args =>
          rw [Expr.visit, allows_above rfl] at targetAllowed
          simp only [allows_append] at targetAllowed
          have defined := keeps_definition here
          cases callee with
          | var name =>
              simp only [Expr.visit, allows_singleton] at targetAllowed
              simp only [Expr.retag, Expr.eval]
              exact defined.bind fun f =>
                (keeps_assignVariable targetAllowed.2.1 f).bind fun _ => keeps_pure _
          | member place owner selector =>
              rw [Expr.visit, allows_above rfl] at targetAllowed
              simp only [allows_append] at targetAllowed
              have ownerKept := keeps_eval applies owner targetAllowed.2.1.2.1
              simp only [Expr.retag, Expr.eval]
              exact defined.bind fun f => ownerKept.bind fun object =>
                (keeps_setMember object _ f).bind fun _ => keeps_pure _
          | invalid place defect =>
              simp only [Expr.visit, allows_singleton] at targetAllowed
              simp only [Expr.retag, Expr.eval]
              exact defined.bind fun _ => keeps_malformed targetAllowed.2.1 rfl
          | range place first step last =>
              cases step <;>
                (simp only [Expr.retag, Expr.eval]
                 exact defined.bind fun _ => keeps_throw rfl)
          | _ =>
              simp only [Expr.retag, Expr.eval]
              exact defined.bind fun _ => keeps_throw rfl
      | invalid inner defect =>
          simp only [Expr.visit, allows_singleton] at targetAllowed
          simp only [Expr.retag, Expr.eval]
          exact valueKept.bind fun _ => keeps_malformed targetAllowed rfl
      | range inner first step last =>
          cases step <;>
            (simp only [Expr.retag, Expr.eval]
             exact valueKept.bind fun _ => keeps_throw rfl)
      | _ =>
          simp only [Expr.retag, Expr.eval]
          exact valueKept.bind fun _ => keeps_throw rfl
  | .interpolated span parts replacements, allowed => by
      rw [Expr.visit, allows_above rfl] at allowed
      simp only [Expr.retag, Expr.eval]
      exact (keeps_evalTexts applies replacements allowed.2).bind fun _ => keeps_pure _
  | .markup span tag attributes children, allowed => by
      rw [Expr.visit, allows_above rfl] at allowed
      simp only [allows_append] at allowed
      obtain ⟨_, ⟨tagAllowed, attributesAllowed⟩, childrenAllowed⟩ := allowed
      have tagKept := keeps_eval applies tag tagAllowed
      have attributesKept := keeps_evalEntries applies attributes attributesAllowed
      have childrenKept := keeps_evalAll applies children childrenAllowed
      simp only [Expr.retag, Expr.eval]
      refine attributesKept.bind fun _ => (keeps_newMap _).bind fun props =>
        childrenKept.bind fun _ => (keeps_newArray _).bind fun list => ?_
      cases tag with
      | identifier name =>
          exact keeps_element applies _ _ _ _
      | range place first step last =>
          cases step <;> exact tagKept.bind fun component => keeps_element applies _ component _ _
      | _ =>
          exact tagKept.bind fun component => keeps_element applies _ component _ _

theorem keeps_evalAll (applies : ∀ ref args, regime.Keeps world (apply ref args) (apply ref args)) :
    ∀ trees : List Expr, regime.Allows world (Expr.visitAll Node.stays trees) →
      regime.Keeps world (Expr.evalAll apply (Expr.retagAll tags trees)) (Expr.evalAll apply trees)
  | [], _ => by
      simp only [Expr.retagAll, Expr.evalAll]
      exact keeps_pure _
  | first :: rest, allowed => by
      simp only [Expr.visitAll, allows_append] at allowed
      simp only [Expr.retagAll, Expr.evalAll]
      exact (keeps_eval applies first allowed.1).bind fun _ =>
        (keeps_evalAll applies rest allowed.2).bind fun _ => keeps_pure _

theorem keeps_evalRows (applies : ∀ ref args, regime.Keeps world (apply ref args) (apply ref args)) :
    ∀ rows : List (List Expr), regime.Allows world (Expr.visitRows Node.stays rows) →
      regime.Keeps world (Expr.evalRows apply (Expr.retagRows tags rows)) (Expr.evalRows apply rows)
  | [], _ => by
      simp only [Expr.retagRows, Expr.evalRows]
      exact keeps_pure _
  | row :: rest, allowed => by
      simp only [Expr.visitRows, allows_append] at allowed
      simp only [Expr.retagRows, Expr.evalRows]
      exact (keeps_evalAll applies row allowed.1).bind fun _ =>
        (keeps_evalRows applies rest allowed.2).bind fun _ => keeps_pure _

theorem keeps_evalTexts
    (applies : ∀ ref args, regime.Keeps world (apply ref args) (apply ref args)) :
    ∀ trees : List Expr, regime.Allows world (Expr.visitAll Node.stays trees) →
      regime.Keeps world (Expr.evalTexts apply (Expr.retagAll tags trees))
        (Expr.evalTexts apply trees)
  | [], _ => by
      simp only [Expr.retagAll, Expr.evalTexts]
      exact keeps_pure _
  | first :: rest, allowed => by
      simp only [Expr.visitAll, allows_append] at allowed
      simp only [Expr.retagAll, Expr.evalTexts]
      exact (keeps_eval applies first allowed.1).bind fun value => (keeps_textOf value).bind fun _ =>
        (keeps_evalTexts applies rest allowed.2).bind fun _ => keeps_pure _

theorem keeps_evalEntries
    (applies : ∀ ref args, regime.Keeps world (apply ref args) (apply ref args)) :
    ∀ entries : List Entry, regime.Allows world (Entry.visitAll Node.stays entries) →
      regime.Keeps world (Entry.evalAll apply (Entry.retagAll tags entries))
        (Entry.evalAll apply entries)
  | [], _ => by
      simp only [Entry.retagAll, Entry.evalAll]
      exact keeps_pure _
  | .property span key value :: rest, allowed => by
      simp only [Entry.visitAll, Entry.visit, allows_append] at allowed
      rw [allows_above rfl] at allowed
      simp only [Entry.retagAll, Entry.evalAll]
      exact (keeps_eval applies value allowed.1.2).bind fun _ =>
        (keeps_evalEntries applies rest allowed.2).bind fun _ => keeps_pure _
  | .invalid span defect :: rest, allowed => by
      simp only [Entry.visitAll, Entry.visit, allows_append, allows_singleton] at allowed
      simp only [Entry.retagAll, Entry.evalAll]
      exact keeps_malformed allowed.1 rfl

end

mutual

theorem keeps_exec (applies : ∀ ref args, regime.Keeps world (apply ref args) (apply ref args)) :
    ∀ tree : Stmt, regime.Allows world (tree.visit Node.stays) →
      regime.Keeps world ((tree.retag tags).exec apply) (tree.exec apply)
  | .expr value, allowed => by
      simp only [Stmt.visit, allows_above_stmt] at allowed
      simp only [Stmt.retag, Stmt.exec]
      exact (keeps_eval applies value allowed.2).bind fun _ => keeps_pure _
  | .block (.mk span statements), allowed => by
      simp only [Stmt.visit, Block.visit, allows_above_stmt] at allowed
      simp only [Stmt.retag, Stmt.exec]
      exact keeps_execAll applies statements allowed.2
  | .ifThen span test (.mk inner statements) none, allowed => by
      simp only [Stmt.visit, Block.visit, allows_above_stmt, allows_append] at allowed
      obtain ⟨_, testAllowed, _, trueAllowed⟩ := allowed
      simp only [Stmt.retag, Stmt.exec]
      refine (keeps_eval applies test testAllowed).bind fun value =>
        (keeps_isTruthy value).bind fun _ => ?_
      exact keeps_ite (fun _ => keeps_execAll applies statements trueAllowed) fun _ => keeps_pure _
  | .ifThen span test (.mk inner statements) (some whenFalse), allowed => by
      simp only [Stmt.visit, Block.visit, allows_above_stmt, allows_append] at allowed
      obtain ⟨_, ⟨testAllowed, _, trueAllowed⟩, falseAllowed⟩ := allowed
      simp only [Stmt.retag, Stmt.exec]
      refine (keeps_eval applies test testAllowed).bind fun value =>
        (keeps_isTruthy value).bind fun _ => ?_
      exact keeps_ite (fun _ => keeps_execAll applies statements trueAllowed) fun _ =>
        keeps_exec applies whenFalse falseAllowed
  | .whileDo span test (.mk inner statements), allowed => by
      simp only [Stmt.visit, Block.visit, allows_above_stmt, allows_append] at allowed
      simp only [Stmt.retag, Stmt.exec]
      exact keeps_repeatWhile (keeps_eval applies test allowed.2.1)
        (keeps_execAll applies statements allowed.2.2.2) roundLimit
  | .forIn span key none source (.mk inner statements), allowed => by
      simp only [Stmt.visit, Block.visit, allows_above_stmt, allows_append] at allowed
      obtain ⟨_, ⟨_, sourceAllowed⟩, _⟩ := allowed
      simp only [Stmt.retag, Stmt.exec]
      exact (keeps_eval applies source sourceAllowed).bind fun _ => keeps_pure _
  | .forIn span key (some value) source (.mk inner statements), allowed => by
      simp only [Stmt.visit, Block.visit, allows_above_stmt, allows_append] at allowed
      obtain ⟨here, ⟨_, sourceAllowed⟩, _, bodyAllowed⟩ := allowed
      simp only [Stmt.retag, Stmt.exec]
      refine (keeps_eval applies source sourceAllowed).bind fun collection =>
        keeps_store fun store => ?_
      rw [loopItems_withCode]
      refine keeps_forEach here ?_ ?_ (keeps_execAll applies statements bodyAllowed) _
      · rintro name rfl
        simp [Node.declared]
      · simp [Node.declared]
  | .returnValue span none, _ => by
      simp only [Stmt.retag, Stmt.exec]
      exact keeps_pure _
  | .returnValue span (some result), allowed => by
      simp only [Stmt.visit, allows_above_stmt] at allowed
      simp only [Stmt.retag, Stmt.exec]
      exact (keeps_eval applies result allowed.2).bind fun _ => keeps_pure _
  | .jump span .exitLoop, _ => by
      simp only [Stmt.retag, Stmt.exec]
      exact keeps_pure _
  | .jump span .nextRound, _ => by
      simp only [Stmt.retag, Stmt.exec]
      exact keeps_pure _
  | .letIn span name none, allowed => by
      simp only [Stmt.visit, allows_above_stmt] at allowed
      simp only [Stmt.retag, Stmt.exec]
      exact (keeps_declareVariable allowed.1 (by simp [Node.declared]) _).bind fun _ => keeps_pure _
  | .letIn span name (some value), allowed => by
      simp only [Stmt.visit, allows_above_stmt, allows_append] at allowed
      simp only [Stmt.retag, Stmt.exec]
      exact (keeps_eval applies value allowed.2.2).bind fun result =>
        (keeps_declareVariable allowed.1 (by simp [Node.declared]) result).bind fun _ =>
          keeps_pure _

theorem keeps_execAll (applies : ∀ ref args, regime.Keeps world (apply ref args) (apply ref args)) :
    ∀ trees : List Stmt, regime.Allows world (Stmt.visitAll Node.stays trees) →
      regime.Keeps world (Stmt.execAll apply (Stmt.retagAll tags trees)) (Stmt.execAll apply trees)
  | [], _ => by
      simp only [Stmt.retagAll, Stmt.execAll]
      exact keeps_pure _
  | first :: rest, allowed => by
      simp only [Stmt.visitAll, allows_append] at allowed
      simp only [Stmt.retagAll, Stmt.execAll]
      refine keeps_checkCancelled.bind fun _ =>
        (keeps_exec applies first allowed.1).bind fun completion => ?_
      cases completion with
      | normal _ => exact keeps_execAll applies rest allowed.2
      | _ => exact keeps_pure _

end

theorem keeps_bodyRun (applies : ∀ ref args, regime.Keeps world (apply ref args) (apply ref args))
    {body : Body} (allowed : regime.Allows world (body.visit Node.stays)) :
    regime.Keeps world ((body.retag tags).run apply) (body.run apply) := by
  cases body with
  | expr value =>
      simp only [Body.retag, Body.run]
      exact keeps_eval applies value allowed
  | block statements =>
      obtain ⟨span, statements⟩ := statements
      simp only [Body.visit, Block.visit, allows_above_stmt] at allowed
      simp only [Body.retag, Body.run]
      refine (keeps_execAll applies statements allowed.2).bind fun completion => ?_
      split <;> exact keeps_pure _

/-! ## Applying functions -/

theorem run_invoke (apply : Applier) (parent : Nat) (static : Option FrameId) (params : List String)
    (body : Body) (args : List Value) (machine : Machine) :
    (invoke apply parent static params body args).run machine =
      if machine.isCancelled then .error .cancelled machine.stop
      else if machine.maxDepth ≤ machine.depth then .error .depthExceeded machine.pass
      else
        (cleaningUp (body.run apply)
          (·.leave machine.arena.size machine.current machine.depth)).run
            (machine.pass.enter parent static (parameterRecord params args)) := by
  unfold invoke
  rw [EStateM.run_bind, run_checkCancelled]
  by_cases cancelled : machine.isCancelled = true
  · rw [if_pos cancelled, if_pos cancelled]
  · rw [if_neg cancelled, if_neg cancelled]
    have sameMaxDepth : machine.pass.maxDepth = machine.maxDepth := rfl
    have sameDepth : machine.pass.depth = machine.depth := rfl
    by_cases deep : machine.maxDepth ≤ machine.depth
    · simp only [EStateM.run_bind, EStateM.run_get, sameMaxDepth, sameDepth, if_pos deep]
      rfl
    · simp only [EStateM.run_bind, EStateM.run_get, sameMaxDepth, sameDepth, if_neg deep]
      rfl

theorem keepsAt_invoke
    (applies : ∀ world ref args, regime.Keeps world (apply ref args) (apply ref args))
    {machine : Machine} {parent : Nat} {static : Option FrameId} {params : List String} {body : Body}
    (held : regime.holds world machine)
    (known : ∃ function ∈ machine.store.functions,
      function.code = .closure machine.realm parent static params body) (args : List Value) :
    regime.KeepsAt world machine
      (invoke apply parent (static.bind tags) params (body.retag tags) args)
      (invoke apply parent static params body args) := by
  have runs : (invoke apply parent (static.bind tags) params (body.retag tags) args).run
        (machine.retag tags) =
      if machine.isCancelled then .error .cancelled (machine.stop.retag tags)
      else if machine.maxDepth ≤ machine.depth then .error .depthExceeded (machine.pass.retag tags)
      else
        (cleaningUp ((body.retag tags).run apply)
          (·.leave machine.arena.size machine.current machine.depth)).run
            ((machine.pass.enter parent static (parameterRecord params args)).retag tags) := by
    have enters : (machine.pass.retag tags).enter parent (static.bind tags)
        (parameterRecord params args) =
          (machine.pass.enter parent static (parameterRecord params args)).retag tags := by
      simp only [Machine.enter, Machine.arena_retag, Arena.enter_retag, Arena.size_retag]
      rfl
    rw [run_invoke, Machine.stop_retag, Machine.pass_retag, enters, Machine.arena_retag,
      Arena.size_retag]
    rfl
  have passed := regime.pass held
  by_cases cancelled : machine.isCancelled = true
  · constructor
    · rw [runs, run_invoke, if_pos cancelled, if_pos cancelled]
      rfl
    · rw [run_invoke, if_pos cancelled]
      exact regime.stop held (Machine.willEnd_of_isCancelled cancelled)
  · by_cases deep : machine.maxDepth ≤ machine.depth
    · constructor
      · rw [runs, run_invoke, if_neg cancelled, if_neg cancelled, if_pos deep, if_pos deep]
        rfl
      · rw [run_invoke, if_neg cancelled, if_pos deep]
        exact regime.ordinary passed rfl
    · obtain ⟨inner, allowed, entered, left, failed⟩ := regime.enter passed deep known
      have kept := (keeps_bodyRun (applies inner) allowed _ (entered args)).cleaningUp
        (fun after => ?_) left failed
      · constructor
        · rw [runs, run_invoke, if_neg cancelled, if_neg cancelled, if_neg deep, if_neg deep]
          exact kept.same
        · rw [run_invoke, if_neg cancelled, if_neg deep]
          exact kept.ends
      · simp only [Machine.leave, Machine.arena_retag, Arena.release_retag]
        rfl

theorem keeps_runNative (function : Native) (args : List Value) :
    regime.Keeps world (runNative function args) (runNative function args) := by
  cases function with
  | collect => exact keeps_newArray args
  | fail message => exact keeps_throw rfl
  | throwMessage message => exact keeps_throw rfl
  | cancel =>
      have cancels : regime.Keeps world (modify Machine.cancel) (modify Machine.cancel) :=
        keeps_modify fun _ held => ⟨Machine.cancel_retag _ _, regime.cancel held⟩
      exact cancels.bind fun _ => keeps_pure _
  | start => exact keeps_newFuture _
  | startFailing message => exact keeps_newFuture _
  | answer reply =>
      unfold runNative
      dsimp only
      split
      · exact keeps_pure _
      · exact keeps_throw (isOrdinary_of_hostError _).1

theorem keeps_callFunction
    (applies : ∀ ref args, regime.Keeps world (apply ref args) (apply ref args)) (callee : Value)
    (args : List Value) :
    regime.Keeps world (callFunction apply callee args) (callFunction apply callee args) := by
  cases callee with
  | function ref => exact applies ref args
  | _ => exact keeps_pure _

theorem keepsAt_runCode
    (applies : ∀ world ref args, regime.Keeps world (apply ref args) (apply ref args))
    {machine : Machine} {code : Code} (held : regime.holds world machine)
    (known : code.home? = none ∨ ∃ function ∈ machine.store.functions, function.code = code)
    (args : List Value) :
    regime.KeepsAt world machine (runCode apply (code.retag tags) args) (runCode apply code args) := by
  cases code with
  | builtin function =>
      exact keeps_libraryRun (keeps_callFunction (applies world)) function args machine held
  | native function =>
      exact keeps_runNative function args machine held
  | print realm =>
      obtain ⟨function, member, same⟩ := known.resolve_left (by simp [Code.home?])
      exact keepsAt_inRealm held ⟨function, member, by rw [same]; rfl⟩
        fun inner there _ _ arrived => keeps_print args there arrived
  | closure realm parent static params body =>
      obtain ⟨function, member, same⟩ := known.resolve_left (by simp [Code.home?])
      refine keepsAt_inRealm held ⟨function, member, by rw [same]; rfl⟩ ?_
      intro inner there sameStore sameRealm arrived
      refine keepsAt_invoke applies arrived ⟨function, ?_, ?_⟩ args
      · rw [sameStore]
        exact member
      · rw [sameRealm]
        exact same

theorem function_withCode (store : Store) (ref : FunctionRef) :
    (store.withCode (Code.retag tags)).function ref =
      { store.function ref with code := (store.function ref).code.retag tags } := by
  cases ref with
  | builtin function =>
      rfl
  | stored index =>
      by_cases inRange : index < store.functions.size
      · simp [Store.function, Store.withCode, Array.getD, inRange]
      · simp [Store.function, Store.withCode, Array.getD, inRange]
        rfl

/-- The code of a function belongs to no realm, or is in the store. -/
theorem home?_function (store : Store) (ref : FunctionRef) :
    (store.function ref).code.home? = none ∨
      ∃ function ∈ store.functions, function.code = (store.function ref).code := by
  cases ref with
  | builtin function =>
      exact .inl rfl
  | stored index =>
      by_cases inRange : index < store.functions.size
      · refine .inr ⟨store.functions[index], Array.getElem_mem inRange, ?_⟩
        simp [Store.function, Array.getD, inRange]
      · refine .inl ?_
        simp [Store.function, Array.getD, inRange]
        rfl

theorem keeps_applyWith
    (applies : ∀ world ref args, regime.Keeps world (apply ref args) (apply ref args))
    (ref : FunctionRef) (args : List Value) :
    regime.Keeps world (applyWith apply ref args) (applyWith apply ref args) := by
  intro machine held
  have known := home?_function machine.store ref
  have runs (before : Machine) : (applyWith apply ref args).run before =
      (if ((before.store.function ref).bound ++ args).length <
          (before.store.function ref).threshold then
        if args.isEmpty then pure (.function ref)
        else newFunction ((before.store.function ref).bind args)
      else runCode apply (before.store.function ref).code
        ((before.store.function ref).bound ++ args)).run before := rfl
  have function : (machine.retag tags).store.function ref =
      { machine.store.function ref with code := (machine.store.function ref).code.retag tags } :=
    function_withCode machine.store ref
  suffices chosen : regime.KeepsAt world machine
      (if ((machine.store.function ref).bound ++ args).length <
          (machine.store.function ref).threshold then
        if args.isEmpty then pure (.function ref)
        else newFunction
          { (machine.store.function ref).bind args with
            code := (machine.store.function ref).code.retag tags }
      else runCode apply ((machine.store.function ref).code.retag tags)
        ((machine.store.function ref).bound ++ args))
      (if ((machine.store.function ref).bound ++ args).length <
          (machine.store.function ref).threshold then
        if args.isEmpty then pure (.function ref)
        else newFunction ((machine.store.function ref).bind args)
      else runCode apply (machine.store.function ref).code
        ((machine.store.function ref).bound ++ args)) by
    constructor
    · rw [runs, runs, function]
      exact chosen.same
    · rw [runs]
      exact chosen.ends
  split
  · split
    · exact keeps_pure _ machine held
    · exact keepsAt_newFunction rfl held known
  · exact keepsAt_runCode applies held known _

theorem keeps_applyTo (depth : Nat) (world : regime.World) (ref : FunctionRef) (args : List Value) :
    regime.Keeps world (applyTo depth ref args) (applyTo depth ref args) := by
  induction depth generalizing world ref args with
  | zero =>
      exact keeps_throw rfl
  | succ depth inductionHypothesis =>
      exact keeps_applyWith inductionHypothesis ref args

/-- The application of functions keeps every regime. -/
theorem keeps_apply (world : regime.World) (ref : FunctionRef) (args : List Value) :
    regime.Keeps world (Eval.apply ref args) (Eval.apply ref args) :=
  keeps_applyTo nestingLimit world ref args

end Trees

end Regime

end Reckon
