import Reckon.Proofs.Failure.Passing
import Reckon.Proofs.Future.Awaiting

/-!
# Evaluation passes failures on

A program passes on what the functions that it calls fail with, marked with their names, and never fails
with a bare fault of the host.  Built-in functions pass on what the functions fail with that they call, as
it is.  Only the one that catches failures does not.
-/

namespace Reckon

open Eval

/-- Whether a failure is a bare fault of the host. -/
def Failure.isHost : Failure → Bool
  | .host _ => true
  | _ => false

theorem Failure.isHost_calling (failure : Failure) (name : String) :
    (failure.calling name).isHost = false := by
  cases failure <;> rfl

/-- How a program passes failures on. -/
def Passage.program : Passage Failure where
  said := id
  mark application := .calling application.function.name
  allows failure := failure.isHost = false

/-- How built-in functions pass failures on. -/
def Passage.library : Passage Failure where
  said := id
  mark _ := id
  allows _ := True

/-! ## Calls -/

/-- A call passes on what the application fails with that it makes, and marks it. -/
theorem passing_application (ref : FunctionRef) (args : List Value) :
    Passing .program fun apply =>
      store >>= fun store => mapFailure (.calling (store.function ref).name) (apply ref args) := by
  have runs (apply : Applier) (machine : Machine) :
      (store >>= fun store =>
          mapFailure (.calling (store.function ref).name) (apply ref args)).run machine =
        (mapFailure (.calling (Application.function ⟨ref, args, machine⟩).name)
          (apply ref args)).run machine := rfl
  constructor
  · intro apply other machine
    have depends : DependsOn (fun apply => store >>= fun store =>
        mapFailure (.calling (store.function ref).name) (apply ref args)) machine
        ⟨ref, args, machine⟩ := by
      intro first second same
      have applied : (first ref args).run machine = (second ref args).run machine := same
      rw [runs, runs, run_mapFailure, run_mapFailure, applied]
    refine depends.passes (fun apply reason fails => ?_) apply other
    obtain ⟨after, ran⟩ := fails
    have applied : (apply ref args).run machine = .error reason after := ran
    exact ⟨Passage.program.mark ⟨ref, args, machine⟩ reason, after,
      by rw [runs, run_mapFailure, applied]; rfl, rfl⟩
  · intro apply machine failure after failed
    rw [runs, run_mapFailure] at failed
    split at failed <;> cases failed
    exact Failure.isHost_calling _ _

theorem passing_call (callee : Value) (args : List Value) :
    Passing .program fun apply => call apply callee args := by
  refine (passing_checkCancelled rfl).bind fun _ => ?_
  cases callee with
  | function ref => exact passing_application ref args
  | matrix matrix => exact passing_orCrash _ fun _ => rfl
  | map ref =>
      dsimp only
      split
      · exact passing_store.bind fun _ => (passing_textOf _).bind fun _ => passing_pure _
      · exact passing_pure _
  | _ => exact passing_pure _

/-- A call of a function looks whether to stop, and then applies it. -/
theorem run_call_of_function {machine : Machine} (goesOn : machine.isCancelled = false)
    (apply : Applier) (ref : FunctionRef) (args : List Value) :
    (call apply (.function ref) args).run machine =
      (mapFailure (.calling (Application.function ⟨ref, args, machine.pass⟩).name)
        (apply ref args)).run machine.pass := by
  have looked : checkCancelled.run machine = .ok () machine.pass := by
    rw [Regime.run_checkCancelled, goesOn, if_neg Bool.false_ne_true]
  rw [call, EStateM.run_bind, looked]
  rfl

/-! ## Waiting and operators -/

/-- What a future is completed with, or will be if nobody completes it before. -/
def Future.fate? : Future → Option Outcome
  | .pending _ => none
  | .running _ outcome | .ending outcome | .done outcome => some outcome

/-- Why a wait for a future fails: the run is cancelled or never ends, something else waits already, or
the future fails, and the wait marks its error. -/
inductive FailedWait (future : Future) : Failure → Prop
  | cancelled : FailedWait future .cancelled
  | exhausted : FailedWait future .exhausted
  | busy : FailedWait future Eval.busy
  | failed {error : HostError} : future.fate? = some (.error error) →
      FailedWait future (error.failure.calling "await")

theorem FailedWait.isHost {future : Future} {reason : Failure} (failed : FailedWait future reason) :
    reason.isHost = false := by
  cases failed with
  | failed _ => exact Failure.isHost_calling _ _
  | _ => rfl

/-- How a wait for a future passes failures on. -/
def Passage.wait (future : Future) : Passage Failure :=
  { Passage.program with allows := FailedWait future }

variable {future : Future}

theorem passing_waitForever : Passing (.wait future) fun _ => (waitForever : Eval Value) := by
  refine passing_of_fails fun machine failure after failed => ?_
  rw [run_waitForever] at failed
  split at failed <;> cases failed
  · exact .cancelled
  · exact .exhausted

theorem passing_delivered {outcome : Outcome} (fate : future.fate? = some outcome) :
    Passing (.wait future) fun _ => delivered outcome := by
  cases outcome with
  | ok result => exact passing_pure result
  | error error => exact passing_throw (.failed fate)

theorem passing_outcomeOf (ref : FutureRef) (future : Future) :
    Passing (.wait future) fun _ => outcomeOf ref future := by
  cases future with
  | pending waiting =>
      cases waiting with
      | none => exact (passing_modify _).bind fun _ => passing_waitForever
      | some _ => exact passing_throw .busy
  | running waiting outcome =>
      cases waiting with
      | none =>
          have looked : Passing (.wait (.running none outcome)) fun _ => checkCancelled :=
            passing_checkCancelled FailedWait.cancelled
          exact (passing_modify _).bind fun _ => looked.bind fun _ => (passing_modify _).bind fun _ =>
            passing_delivered rfl
      | some _ => exact passing_throw .busy
  | ending _ => exact (passing_modify _).bind fun _ => passing_delivered rfl
  | done _ => exact (passing_modify _).bind fun _ => passing_delivered rfl

/-- A wait for a future that was looked up. -/
theorem passing_waitFor (ref : FutureRef) (future : Future) :
    Passing (.wait future) fun _ => (do
      if future.isEnding then checkCancelled
      outcomeOf ref future) := by
  refine passing_ite (fun _ => ?_) fun _ => passing_outcomeOf ref future
  exact (passing_checkCancelled FailedWait.cancelled).bind fun _ => passing_outcomeOf ref future

theorem fails_of_await {ref : FutureRef} {machine after : Machine} {reason : Failure}
    (failed : (await (.future ref)).run machine = .error reason after) :
    FailedWait (machine.store.future ref) reason :=
  (passing_waitFor ref (machine.store.future ref)).fails apply failed

theorem passing_await (value : Value) : Passing .program fun _ => await value := by
  cases value with
  | future ref =>
      exact passing_store.bind fun _ =>
        (passing_waitFor ref _).allowing fun _ failed => FailedWait.isHost failed
  | _ => exact passing_pure _

theorem passing_compute (op : BinaryOp) (x y : Value) :
    Passing .program fun _ => compute op x y :=
  passing_ite (fun _ => passing_follow _ rfl) fun _ => passing_throw rfl

theorem passing_unary (op : UnaryOp) (value : Value) :
    Passing .program fun _ => Eval.unary op value := by
  unfold Eval.unary
  cases op with
  | await => exact passing_await value
  | _ => exact passing_follow _ rfl

/-! ## Variables and members -/

theorem passing_readVariable (name : Variable) : Passing .program fun _ => readVariable name := by
  refine passing_of_fails fun machine failure after failed => ?_
  rw [Regime.run_readVariable] at failed
  split at failed <;> cases failed
  rfl

theorem passing_newClosure (name : String) (params : List String) (static : Option FrameId)
    (body : Body) : Passing .program fun _ => newClosure name params static body :=
  passing_get.bind fun _ => passing_get.bind fun _ => (passing_modify _).bind fun _ =>
    passing_onStore _

theorem passing_setMember (owner : Value) (key : String) (value : Value) :
    Passing .program fun _ => setMember owner key value := by
  unfold setMember
  split
  · exact passing_modify _
  · exact passing_throw rfl

theorem passing_definition (callee : Expr) (args : List Expr) (body : Expr) :
    Passing .program fun _ => definition callee args body := by
  unfold definition
  split
  · next refused =>
    obtain ⟨message, rfl⟩ := Regime.raise_of_definitionParams refused
    exact passing_throw rfl
  · exact passing_newClosure _ _ _ _

theorem passing_element (isComponent : Bool) (tag attributes children : Value) :
    Passing .program fun apply => element apply isComponent tag attributes children := by
  unfold element
  split
  · exact passing_call _ _
  · exact passing_onStore _

/-! ## Loops -/

variable {test : Applier → Eval Value} {body : Applier → Eval Completion}

/-- After a round of a loop, either the loop ends or it goes on. -/
theorem passing_afterRound (goOn : Passing .program body) (completion : Completion) :
    Passing .program fun apply =>
      match completion with
      | .returned result => pure (.returned result)
      | .exitLoop => pure (.normal .null)
      | .normal _ | .nextRound => body apply := by
  cases completion with
  | returned _ => exact passing_pure _
  | exitLoop => exact passing_pure _
  | normal _ => exact goOn
  | nextRound => exact goOn

theorem passing_repeatWhile (tested : Passing .program test) (round : Passing .program body)
    (rounds : Nat) : Passing .program fun apply => repeatWhile (test apply) (body apply) rounds := by
  induction rounds with
  | zero => exact passing_throw rfl
  | succ rounds inductionHypothesis =>
      exact (passing_checkCancelled rfl).bind fun _ => tested.bind fun value =>
        (passing_isTruthy value).bind fun _ => passing_ite
          (fun _ => round.bind (passing_afterRound inductionHypothesis)) fun _ => passing_pure _

theorem passing_forEach (key : Option Variable) (value : Variable) (round : Passing .program body)
    (items : List (Value × Value)) :
    Passing .program fun apply => forEach key value (body apply) items := by
  induction items with
  | nil => exact passing_pure _
  | cons item rest inductionHypothesis =>
      have goOn := round.bind (passing_afterRound inductionHypothesis)
      refine (passing_checkCancelled rfl).bind fun _ => ?_
      cases key with
      | none => exact (passing_modify _).bind fun _ => goOn
      | some name => exact (passing_modify _).bind fun _ => (passing_modify _).bind fun _ => goOn

/-! ## Built-in functions -/

section Library

open Library

variable {passage : Passage Failure} {call : Applier → Caller}

theorem passing_forEntries {α : Type} {action : Applier → String → Value → Eval α} (ref : MapRef)
    (passing : ∀ key value, Passing passage fun apply => action apply key value) :
    Passing passage fun apply => forEntries ref (action apply) :=
  passing_store.bind fun _ => passing_mapM (fun key => passing_store.bind fun _ => passing key _) _

variable (calls : ∀ callee args, Passing passage fun apply => call apply callee args)

include calls

theorem passing_mapEach (f collection : Value) :
    Passing passage fun apply => mapEach (call apply) f collection := by
  unfold mapEach
  split
  · refine (passing_mapM (fun cell => calls f [cell]) _).bind fun _ => ?_
    split
    · exact passing_pure _
    · exact passing_onStore _
  · refine (passing_forEntries _ fun key value => ?_).bind fun _ => passing_onStore _
    exact (calls f [value]).bind fun _ => passing_pure _
  · exact calls f _

theorem passing_reduce (f initial collection : Value) :
    Passing passage fun apply => reduce (call apply) f initial collection := by
  refine passing_store.bind fun _ => ?_
  split
  · exact passing_foldlM (fun soFar element => calls f [soFar, element]) _ _
  · exact calls f _

theorem passing_filter (predicate collection : Value) :
    Passing passage fun apply => Library.filter (call apply) predicate collection := by
  unfold Library.filter
  split
  · refine (passing_filterM (fun cell => ?_) _).bind fun _ => passing_pure _
    exact (calls predicate [cell]).bind passing_isTruthy
  · refine passing_store.bind fun _ => (passing_forEntries _ fun key value => ?_).bind fun _ => ?_
    · exact (calls predicate [value]).bind fun result =>
        (passing_isTruthy result).bind fun _ => passing_pure _
    · exact passing_ite (fun _ => passing_onStore _) fun _ => passing_onStore _
  · exact (calls predicate _).bind fun result => (passing_isTruthy result).bind fun _ =>
      passing_ite (fun _ => passing_pure _) fun _ => passing_pure _

theorem passing_decidedBy (predicate : Value) (wanted : Bool) (elements : List Value) :
    Passing passage fun apply => decidedBy (call apply) predicate wanted elements := by
  induction elements with
  | nil => exact passing_pure _
  | cons element rest inductionHypothesis =>
      exact (calls predicate [element]).bind fun result => (passing_isTruthy result).bind fun _ =>
        passing_ite (fun _ => passing_pure _) fun _ => inductionHypothesis

end Library

/-- A built-in function calls a function as it is applied. -/
theorem passing_callFunction (callee : Value) (args : List Value) :
    Passing .library fun apply => callFunction apply callee args := by
  cases callee with
  | function ref =>
      constructor
      · intro apply other machine
        have depends : DependsOn (fun apply => callFunction apply (.function ref) args) machine
            ⟨ref, args, machine⟩ := fun _ _ same => same
        exact depends.passes (fun _ reason ⟨after, ran⟩ => ⟨reason, after, ran, rfl⟩) apply other
      · exact fun _ _ _ _ _ => trivial
  | _ => exact passing_pure _

open Library in
/-- Every built-in function passes failures on, but the one that catches them. -/
theorem passing_libraryRun {function : Builtin} (passes : function ≠ .rescue) (args : List Value) :
    Passing .library fun apply => Library.run (callFunction apply) function args := by
  have calls := passing_callFunction
  have elements (value : Value) : Passing .library fun _ => elementsOf value :=
    passing_store.bind fun _ => passing_pure _
  unfold Library.run
  dsimp only
  split
  · exact passing_mapEach calls _ _
  · exact passing_reduce calls _ _ _
  · exact passing_filter calls _ _
  · exact (elements _).bind fun _ => (passing_decidedBy calls _ _ _).bind fun _ => passing_pure _
  · exact (elements _).bind fun _ => (passing_decidedBy calls _ _ _).bind fun _ => passing_pure _
  · exact passing_throw trivial
  · exact absurd rfl passes
  · exact passing_of_fails fun _ _ _ _ => trivial
  · exact passing_of_fails fun _ _ _ _ => trivial
  · exact passing_orCrash _ fun _ => trivial
  · exact passing_of_fails fun _ _ _ _ => trivial
  · exact passing_of_fails fun _ _ _ _ => trivial
  · exact passing_of_fails fun _ _ _ _ => trivial

/-! ## Trees -/

mutual

theorem Expr.passing_eval : ∀ tree : Expr, Passing .program fun apply => tree.eval apply
  | .empty _ => by
      simp only [Expr.eval]
      exact passing_pure _
  | .invalid _ _ => by
      simp only [Expr.eval]
      exact passing_throw rfl
  | .constant _ _ => by
      simp only [Expr.eval]
      exact passing_pure _
  | .var name => by
      simp only [Expr.eval]
      exact passing_readVariable name
  | .identifier _ => by
      simp only [Expr.eval]
      exact passing_pure _
  | .binary _ op left right _ => by
      have leftPasses := left.passing_eval
      have rightPasses := right.passing_eval
      cases op with
      | and =>
          simp only [Expr.eval]
          refine leftPasses.bind fun x => (passing_isTruthy x).bind fun _ =>
            passing_ite (fun _ => ?_) fun _ => passing_pure _
          exact rightPasses.bind fun y => (passing_isTruthy y).bind fun _ => passing_pure _
      | or =>
          simp only [Expr.eval]
          refine leftPasses.bind fun x => (passing_isTruthy x).bind fun _ =>
            passing_ite (fun _ => passing_pure _) fun _ => ?_
          exact rightPasses.bind fun y => (passing_isTruthy y).bind fun _ => passing_pure _
      | pipe =>
          simp only [Expr.eval]
          exact leftPasses.bind fun x => rightPasses.bind fun f => passing_call f [x]
      | _ =>
          simp only [Expr.eval]
          exact leftPasses.bind fun x => rightPasses.bind fun y => passing_compute _ x y
  | .unary _ op operand => by
      simp only [Expr.eval]
      exact operand.passing_eval.bind fun x => passing_unary op x
  | .factorial _ operand => by
      simp only [Expr.eval]
      exact operand.passing_eval.bind fun _ => passing_follow _ rfl
  | .range _ first none last => by
      simp only [Expr.eval]
      exact first.passing_eval.bind fun _ => last.passing_eval.bind fun _ =>
        passing_orCrash _ fun _ => rfl
  | .range _ first (some step) last => by
      simp only [Expr.eval]
      exact first.passing_eval.bind fun _ => step.passing_eval.bind fun _ =>
        last.passing_eval.bind fun _ => passing_orCrash _ fun _ => rfl
  | .conditional _ test whenTrue whenFalse => by
      simp only [Expr.eval]
      exact test.passing_eval.bind fun x => (passing_isTruthy x).bind fun _ =>
        passing_ite (fun _ => whenTrue.passing_eval) fun _ => whenFalse.passing_eval
  | .call _ callee args => by
      simp only [Expr.eval]
      exact callee.passing_eval.bind fun f => (Expr.passing_evalAll args).bind fun values =>
        passing_call f values
  | .arguments _ items => by
      simp only [Expr.eval]
      refine (Expr.passing_evalAll items).bind fun values => ?_
      split
      · exact passing_pure _
      · exact passing_pure _
      · exact passing_onStore _
  | .matrix _ rows => by
      simp only [Expr.eval]
      exact (Expr.passing_evalRows rows).bind fun _ => passing_onStore _
  | .object _ entries => by
      simp only [Expr.eval]
      exact (Entry.passing_evalAll entries).bind fun _ => passing_onStore _
  | .function _ _ _ _ => by
      simp only [Expr.eval]
      exact passing_newClosure _ _ _ _
  | .member _ owner _ => by
      simp only [Expr.eval]
      refine owner.passing_eval.bind fun value => ?_
      split
      · exact passing_store.bind fun _ => passing_pure _
      · exact passing_pure _
  | .assignment _ target value => by
      have valuePasses := value.passing_eval
      cases target with
      | var name =>
          simp only [Expr.eval]
          exact valuePasses.bind fun _ => (passing_modify _).bind fun _ => passing_pure _
      | member _ owner selector =>
          have ownerPasses := owner.passing_eval
          simp only [Expr.eval]
          exact valuePasses.bind fun result => ownerPasses.bind fun object =>
            (passing_setMember object _ result).bind fun _ => passing_pure _
      | call _ callee args =>
          have defined := passing_definition callee args value
          cases callee with
          | var name =>
              simp only [Expr.eval]
              exact defined.bind fun _ => (passing_modify _).bind fun _ => passing_pure _
          | member _ owner selector =>
              have ownerPasses := owner.passing_eval
              simp only [Expr.eval]
              exact defined.bind fun f => ownerPasses.bind fun object =>
                (passing_setMember object _ f).bind fun _ => passing_pure _
          | _ =>
              simp only [Expr.eval]
              exact defined.bind fun _ => passing_throw rfl
      | _ =>
          simp only [Expr.eval]
          exact valuePasses.bind fun _ => passing_throw rfl
  | .interpolated _ _ replacements => by
      simp only [Expr.eval]
      exact (Expr.passing_evalTexts replacements).bind fun _ => passing_pure _
  | .markup _ tag attributes children => by
      simp only [Expr.eval]
      refine (Entry.passing_evalAll attributes).bind fun _ => (passing_onStore _).bind fun props =>
        (Expr.passing_evalAll children).bind fun _ => (passing_onStore _).bind fun list => ?_
      split
      · exact passing_element _ _ _ _
      · exact tag.passing_eval.bind fun _ => passing_element _ _ _ _

theorem Expr.passing_evalAll : ∀ trees : List Expr,
    Passing .program fun apply => Expr.evalAll apply trees
  | [] => by
      simp only [Expr.evalAll]
      exact passing_pure _
  | first :: rest => by
      simp only [Expr.evalAll]
      exact first.passing_eval.bind fun _ => (Expr.passing_evalAll rest).bind fun _ => passing_pure _

theorem Expr.passing_evalRows : ∀ rows : List (List Expr),
    Passing .program fun apply => Expr.evalRows apply rows
  | [] => by
      simp only [Expr.evalRows]
      exact passing_pure _
  | row :: rest => by
      simp only [Expr.evalRows]
      exact (Expr.passing_evalAll row).bind fun _ => (Expr.passing_evalRows rest).bind fun _ =>
        passing_pure _

theorem Expr.passing_evalTexts : ∀ trees : List Expr,
    Passing .program fun apply => Expr.evalTexts apply trees
  | [] => by
      simp only [Expr.evalTexts]
      exact passing_pure _
  | first :: rest => by
      simp only [Expr.evalTexts]
      exact first.passing_eval.bind fun _ => (passing_textOf _).bind fun _ =>
        (Expr.passing_evalTexts rest).bind fun _ => passing_pure _

theorem Entry.passing_evalAll : ∀ entries : List Entry,
    Passing .program fun apply => Entry.evalAll apply entries
  | [] => by
      simp only [Entry.evalAll]
      exact passing_pure _
  | .property _ _ value :: rest => by
      simp only [Entry.evalAll]
      exact value.passing_eval.bind fun _ => (Entry.passing_evalAll rest).bind fun _ =>
        passing_pure _
  | .invalid _ _ :: _ => by
      simp only [Entry.evalAll]
      exact passing_throw rfl

end

mutual

theorem Stmt.passing_exec : ∀ tree : Stmt, Passing .program fun apply => tree.exec apply
  | .expr value => by
      simp only [Stmt.exec]
      exact value.passing_eval.bind fun _ => passing_pure _
  | .block (.mk _ statements) => by
      simp only [Stmt.exec]
      exact Stmt.passing_execAll statements
  | .ifThen _ test (.mk _ statements) none => by
      simp only [Stmt.exec]
      exact test.passing_eval.bind fun value => (passing_isTruthy value).bind fun _ =>
        passing_ite (fun _ => Stmt.passing_execAll statements) fun _ => passing_pure _
  | .ifThen _ test (.mk _ statements) (some whenFalse) => by
      simp only [Stmt.exec]
      exact test.passing_eval.bind fun value => (passing_isTruthy value).bind fun _ =>
        passing_ite (fun _ => Stmt.passing_execAll statements) fun _ => whenFalse.passing_exec
  | .whileDo _ test (.mk _ statements) => by
      simp only [Stmt.exec]
      exact passing_repeatWhile test.passing_eval (Stmt.passing_execAll statements) roundLimit
  | .forIn _ key value source (.mk _ statements) => by
      simp only [Stmt.exec]
      refine source.passing_eval.bind fun collection => ?_
      cases value with
      | none => exact passing_pure _
      | some name => exact passing_store.bind fun _ =>
          passing_forEach key name (Stmt.passing_execAll statements) _
  | .returnValue _ none => by
      simp only [Stmt.exec]
      exact passing_pure _
  | .returnValue _ (some result) => by
      simp only [Stmt.exec]
      exact result.passing_eval.bind fun _ => passing_pure _
  | .jump _ .exitLoop => by
      simp only [Stmt.exec]
      exact passing_pure _
  | .jump _ .nextRound => by
      simp only [Stmt.exec]
      exact passing_pure _
  | .letIn _ _ none => by
      simp only [Stmt.exec]
      exact (passing_modify _).bind fun _ => passing_pure _
  | .letIn _ _ (some value) => by
      simp only [Stmt.exec]
      exact value.passing_eval.bind fun _ => (passing_modify _).bind fun _ => passing_pure _

theorem Stmt.passing_execAll : ∀ trees : List Stmt,
    Passing .program fun apply => Stmt.execAll apply trees
  | [] => by
      simp only [Stmt.execAll]
      exact passing_pure _
  | first :: rest => by
      simp only [Stmt.execAll]
      refine (passing_checkCancelled rfl).bind fun _ => first.passing_exec.bind fun completion => ?_
      cases completion with
      | normal _ => exact Stmt.passing_execAll rest
      | _ => exact passing_pure _

end

theorem Body.passing_run (body : Body) : Passing .program fun apply => body.run apply := by
  cases body with
  | expr value => exact value.passing_eval
  | block statements =>
      obtain ⟨span, statements⟩ := statements
      simp only [Body.run]
      refine (Stmt.passing_execAll statements).bind fun completion => ?_
      split <;> exact passing_pure _

/-! ## Functions of the program -/

theorem passing_invoke (parent : Nat) (static : Option FrameId) (params : List String) (body : Body)
    (args : List Value) :
    Passing .program fun apply => invoke apply parent static params body args := by
  refine (passing_checkCancelled rfl).bind fun _ => passing_get.bind fun _ => passing_get.bind fun _ =>
    passing_get.bind fun _ => passing_ite (fun _ => ?_) fun _ => ?_
  · exact (passing_throw rfl).bind fun _ => passing_get.bind fun _ => (passing_modify _).bind fun _ =>
      body.passing_run.cleaningUp _
  · exact passing_get.bind fun _ => (passing_modify _).bind fun _ => body.passing_run.cleaningUp _

end Reckon
