import Reckon.Proofs.Failure.Delivery
import Reckon.Proofs.Session.Hosting

/-!
# Failures reach the host

What a host runs in a session reports what the functions that it calls fail with.  Together with the way
of a failure inside of them this says what a host is told: every failure that it is told of began
somewhere, reached the host unless something caught it, and is marked with one name if it was a bare fault
of the host.
-/

namespace Reckon

open Eval SessionM

namespace Task

/-- Execute statements, given how functions are applied. -/
def execWith (apply : Applier) (last : Value) : List Stmt → SessionM Value
  | [] => return last
  | statement :: rest => do
    reporting (fun failure => { failure }) checkCancelled
    let completion ← reporting (.atPosition statement.span.start) (statement.exec apply)
    match completion with
    | .returned value => return value
    | .exitLoop | .nextRound => execWith apply last rest
    | .normal value => execWith apply (if Session.isResult statement then value else last) rest

/-- Run a task, given how functions are applied. -/
def performWith (apply : Applier) : Task → SessionM Value
  | exec statements => execWith apply .null statements
  | eval tree => do
    reporting (fun failure => { failure }) checkCancelled
    reporting (.atPosition tree.span.start) (tree.eval apply)
  | call callee args => reporting (fun failure => { failure }) (Eval.call apply callee args)

theorem execWith_apply (last : Value) (statements : List Stmt) :
    execWith Eval.apply last statements = Session.execFrom last statements := by
  induction statements generalizing last with
  | nil => rfl
  | cons statement rest inductionHypothesis =>
      refine bind_congr fun _ => bind_congr fun completion => ?_
      cases completion with
      | returned _ => rfl
      | exitLoop => exact inductionHypothesis last
      | nextRound => exact inductionHypothesis last
      | normal _ => exact inductionHypothesis _

theorem performWith_apply (task : Task) : task.performWith Eval.apply = task.perform := by
  cases task with
  | exec statements => exact execWith_apply .null statements
  | eval _ => rfl
  | call _ _ => rfl

end Task

/-- How tasks pass failures on: with at most one place in front of them. -/
def Passage.task : Passage Report where
  said := Report.failure
  mark application := .calling application.function.name
  allows report := report.failure.isHost = false ∧
    (report.contexts = [] ∨ ∃ position : Position, report.contexts = [position.render])

/-! ## Tasks -/

variable {α : Type} {action : Applier → Eval α}

theorem Passing.reporting {report : Failure → Report} (passing : Passing .program action)
    (reports : ∀ failure, (report failure).failure = failure)
    (places : ∀ failure, (report failure).contexts = [] ∨
      ∃ position : Position, (report failure).contexts = [position.render]) :
    Passing .task fun apply => reporting report (action apply) := by
  constructor
  · intro apply application session
    rcases passing.passes apply application session.machine with ignores | delivers
    · refine .inl fun other agrees => ?_
      rw [Hosting.run_reporting, Hosting.run_reporting, ignores other agrees]
    · refine .inr fun other agrees reason failed => ?_
      obtain ⟨failure, after, ran, said⟩ := delivers other agrees reason failed
      refine ⟨report failure, { session with machine := after }, ?_, (reports failure).trans said⟩
      rw [Hosting.run_reporting, ran]
  · intro apply session told after failed
    rw [Hosting.run_reporting] at failed
    cases ran : (action apply).run session.machine with
    | ok _ _ =>
        rw [ran] at failed
        cases failed
    | error failure _ =>
        rw [ran] at failed
        cases failed
        exact ⟨(reports failure).symm ▸ passing.fails apply ran, places failure⟩

theorem Passing.reportingPlain (passing : Passing .program action) :
    Passing .task fun apply => SessionM.reporting (fun failure => { failure }) (action apply) :=
  passing.reporting (fun _ => rfl) fun _ => .inl rfl

theorem Passing.reportingAt (passing : Passing .program action) (position : Position) :
    Passing .task fun apply => SessionM.reporting (.atPosition position) (action apply) := by
  refine passing.reporting (Hosting.failure_atPosition position) fun failure => ?_
  cases failure with
  | malformed _ => exact .inl rfl
  | unbound _ _ _ => exact .inl rfl
  | cancelled => exact .inl rfl
  | crashed _ => exact .inl rfl
  | _ => exact .inr ⟨position, rfl⟩

theorem Task.passing_execWith (last : Value) (statements : List Stmt) :
    Passing .task fun apply => execWith apply last statements := by
  induction statements generalizing last with
  | nil => exact passing_pure last
  | cons statement rest inductionHypothesis =>
      refine (passing_checkCancelled rfl).reportingPlain.bind fun _ =>
        (statement.passing_exec.reportingAt _).bind fun completion => ?_
      cases completion with
      | returned value => exact passing_pure value
      | exitLoop => exact inductionHypothesis last
      | nextRound => exact inductionHypothesis last
      | normal value => exact inductionHypothesis _

theorem Task.passing_performWith (task : Task) :
    Passing .task fun apply => task.performWith apply := by
  cases task with
  | exec statements => exact passing_execWith .null statements
  | eval tree =>
      exact (passing_checkCancelled rfl).reportingPlain.bind fun _ => tree.passing_eval.reportingAt _
  | call callee args => exact (passing_call callee args).reportingPlain

/-! ## What a host is told -/

/-- A task makes an application, and it matters what this one gives. -/
def Host.Starts (host : Host) (depth : Nat) (task : Task) (session : Session)
    (first : Application) : Prop :=
  ¬Ignores (host.applyTo depth) (fun apply => task.performWith apply) session first

variable {host : Host} {depth : Nat} {task : Task} {session : Session} {first : Application}
  {reason : Failure}

/-- A task fails with what the first application on a route fails with, marked. -/
theorem Host.Starts.reports (starts : host.Starts depth task session first)
    (failed : first.FailsIn (host.applyTo depth) reason) :
    ∃ report after, (task.performWith (host.applyTo depth)).run session = .error report after ∧
      report.failure = reason.calling first.function.name := by
  have delivers := (task.passing_performWith.passes (host.applyTo depth) first session).resolve_left
    starts
  exact delivers _ (fun _ _ => rfl) reason failed

/-- A task that calls a function makes this application, if it is not stopped before. -/
theorem starts_of_call (goesOn : session.machine.isCancelled = false) (ref : FunctionRef)
    (args : List Value) :
    host.Starts depth (.call (.function ref) args) session ⟨ref, args, session.machine.pass⟩ := by
  let first : Application := ⟨ref, args, session.machine.pass⟩
  have delivers : Delivers Report.failure (.calling first.function.name) (host.applyTo depth)
      (fun apply => (Task.call (.function ref) args).performWith apply) session first := by
    intro other _ reason ⟨after, ran⟩
    have applied : (other ref args).run session.machine.pass = .error reason after := ran
    refine ⟨{ failure := reason.calling first.function.name }, { session with machine := after },
      ?_, rfl⟩
    change (reporting (fun failure => { failure }) (call other (.function ref) args)).run session = _
    rw [Hosting.run_reporting, run_call_of_function goesOn, run_mapFailure, applied]
  have differ (name : String) : Failure.calling name .cancelled ≠ .calling name .depthExceeded :=
    nofun
  exact delivers.not_ignores (differ _)

/-- Whatever the functions of a host do, those of the host of every session among them: a host is told of
no bare fault, and of at most one place; what a function fails with that a task calls, by way of any number
of others that do not catch it, is what the host is told of, and if it is a bare fault of the host, it is
marked once, with the name of the innermost function on the way that a program called; there is no other
failure than those that begin in the task itself, in a function of the host, in a function that catches or
in one that nothing else makes fail; what is caught is the value of the exception that was thrown, or the
message of the fault with one mark; and a wait for a future passes on its error in the same way. -/
theorem failures_are_marked_once (host : Host) (depth : Nat) (task : Task) (session : Session) :
    task.performWith (Host.usual.applyTo nestingLimit) = task.perform ∧
    (∀ report after, (task.performWith (host.applyTo depth)).run session = .error report after →
      report.failure.isHost = false ∧
      (report.contexts = [] ∨ ∃ position : Position, report.contexts = [position.render]) ∧
      ((∀ first reason, host.Starts depth task session first →
          ¬first.FailsIn (host.applyTo depth) reason) ∨
        ∃ first bottom origin mark reason, host.Starts depth task session first ∧
          Route host depth first bottom origin mark ∧
          origin.FailsIn (host.applyTo bottom) reason ∧ host.IsOrigin bottom origin ∧
          report.failure = reason.calling (mark.getD first).function.name)) ∧
    (∀ first bottom origin mark reason, host.Starts depth task session first →
      Route host depth first bottom origin mark → origin.FailsIn (host.applyTo bottom) reason →
      ∃ report after, (task.performWith (host.applyTo depth)).run session = .error report after ∧
        report.failure = reason.calling (mark.getD first).function.name) ∧
    (∀ depth application next bottom origin mark reason,
      application.function.code = .builtin .rescue → host.Makes depth application next →
      Route host depth next bottom origin mark → origin.FailsIn (host.applyTo bottom) reason →
      ∃ after, application.run (host.applyTo (depth + 1)) =
        if Library.isCatchable (reason.marked mark) then
          (newMap (.ofEntries [("value", .null),
            ("error", Library.caught after.store (reason.marked mark))])).run after
        else .error (reason.marked mark) after) ∧
    (∀ ref machine, (∀ error, machine.store.future ref = .done (.error error) →
        ∃ after, (await (.future ref)).run machine =
          .error (error.failure.calling "await") after) ∧
      ∀ reason after, (await (.future ref)).run machine = .error reason after →
        FailedWait (machine.store.future ref) reason) := by
  have marked (mark : Option Application) (first : Application) (reason : Failure) :
      (reason.marked mark).calling first.function.name =
        reason.calling (mark.getD first).function.name :=
    Failure.calling_marked reason mark
  refine ⟨?_, fun report after failed => ?_, ?_, ?_, fun ref machine => ⟨?_, ?_⟩⟩
  · rw [Host.applyTo_usual]
    exact task.performWith_apply
  · obtain ⟨notHost, places⟩ := task.passing_performWith.fails (host.applyTo depth) failed
    refine ⟨notHost, places, ?_⟩
    by_cases inner : ∃ first cause, host.Starts depth task session first ∧
        first.FailsIn (host.applyTo depth) cause
    case neg => exact .inl fun first cause starts fails => inner ⟨first, cause, starts, fails⟩
    case pos =>
      obtain ⟨first, cause, starts, fails⟩ := inner
      obtain ⟨bottom, origin, mark, reason, route, failedFirst, isOrigin, rfl⟩ := traced fails
      refine .inr ⟨first, bottom, origin, mark, reason, starts, route, failedFirst, isOrigin, ?_⟩
      -- A run has one result, so what comes along this route is what was reported.
      obtain ⟨_, _, same, said⟩ := starts.reports fails
      cases failed.symm.trans same
      exact said.trans (marked mark first reason)
  · intro first bottom origin mark reason starts route failed
    obtain ⟨report, after, ran, said⟩ := starts.reports (route.fails failed)
    exact ⟨report, after, ran, said.trans (marked mark first reason)⟩
  · intro depth application next bottom origin mark reason code makes route failed
    obtain ⟨after, ran⟩ := route.fails failed
    exact ⟨after, catches code makes ran⟩
  · intro error done
    exact ⟨_, run_await_of_done done⟩
  · exact fun reason after failed => fails_of_await failed

/-! A function of the host that fails, given to a built-in function that calls it. -/

/-- A session in which a function of the host fails. -/
def Session.failing : Session :=
  sessionOf ((define "f" (.native (.fail "boom"))).run (new 100 (.text "") {}))

/-- The application of `map` in this session. -/
def Application.mapped : Application where
  ref := .builtin .map
  args := [.function (.stored 1), .null]
  machine := Session.failing.machine.pass

/-- The application of the function of the host that it makes. -/
def Application.calledBack : Application where
  ref := .stored 1
  args := [.null]
  machine := Session.failing.machine.pass

theorem mapped_makes_calledBack : Host.usual.Makes 1 .mapped .calledBack := by
  have delivers : Delivers id id (Host.usual.applyTo 1) (Host.usual.within .mapped)
      Application.mapped.machine .calledBack :=
    fun _ _ reason ⟨after, ran⟩ => ⟨reason, after, ran, rfl⟩
  have differ : Failure.cancelled ≠ .depthExceeded := nofun
  exact delivers.not_ignores differ

/-- The fault is marked with the name of the built-in function, which is what the task calls. -/
theorem fault_of_callback_is_marked :
    let mapped := Application.mapped
    ∃ report after, ((Task.call (.function mapped.ref) mapped.args).performWith
        (Host.usual.applyTo 2)).run Session.failing = .error report after ∧
      report.failure = .exception (HostFault.toException { root := "boom" } "map") := by
  intro mapped
  have fails : Application.calledBack.FailsIn (Host.usual.applyTo 1) (.host { root := "boom" }) :=
    ⟨_, rfl⟩
  have passes : Builtin.map ≠ .rescue := by decide
  have route : Route Host.usual 2 mapped 1 .calledBack none :=
    .calledBack rfl passes mapped_makes_calledBack (.here 1 .calledBack)
  exact (failures_are_marked_once Host.usual 2 _ Session.failing).2.2.1 mapped 1 .calledBack none _
    (starts_of_call rfl mapped.ref mapped.args) route fails

end Reckon
