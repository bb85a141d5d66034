import Reckon.Proofs.Future.Protocol
import Reckon.Proofs.Session.Hosting

/-!
# Waiting for a future

To wait for a future is to register a callback with it and to stop until the future is completed or the
context is cancelled.  If the context is cancelled first, the callback stays registered although nothing
waits any more.  Nobody else can wait for the future from then on, until it is completed.
-/

namespace Reckon

open Future

theorem Store.future_setFuture {store : Store} {ref : FutureRef}
    (inRange : ref.index < store.futures.size) (future : Future) :
    (store.setFuture ref future).future ref = future := by
  rw [Store.future, Store.setFuture, Array.getD_eq_getD_getElem?,
    Array.getElem?_setIfInBounds_self_of_lt inRange, Option.getD_some]

namespace Eval

variable {machine after : Machine} {ref : FutureRef} {callback : Callback} {outcome : Outcome}

/-- The exception of a wait for a future for which something waits already. -/
def busy : Failure :=
  .exception (HostFault.toException { root := Refusal.busy.message } "await")

/-- Nothing is looked at first, unless the future is about to be completed. -/
theorem run_await (notEnding : (machine.store.future ref).isEnding = false) :
    (await (.future ref)).run machine =
      (outcomeOf ref (machine.store.future ref)).run machine := by
  change (do
    if (machine.store.future ref).isEnding then checkCancelled
    outcomeOf ref (machine.store.future ref) : Eval Value).run machine = _
  rw [notEnding]
  rfl

theorem run_await_of_done (done : machine.store.future ref = .done outcome) :
    (await (.future ref)).run machine = (delivered outcome).run
      { machine with store := machine.store.setFuture ref (.done outcome) } := by
  rw [run_await (done ▸ rfl), done]
  rfl

theorem run_await_of_waiting (waiting : (machine.store.future ref).waiting? = some callback) :
    (await (.future ref)).run machine = .error busy machine := by
  have notEnding : (machine.store.future ref).isEnding = false := by
    cases future : machine.store.future ref with
    | ending _ => rw [future] at waiting; cases waiting
    | _ => rfl
  rw [run_await notEnding, outcomeOf, register_of_waiting waiting]
  rfl

theorem run_await_of_pending (pending : machine.store.future ref = .pending none) :
    (await (.future ref)).run machine = waitForever.run
      { machine with store := machine.store.setFuture ref (.pending (some 0)) } := by
  rw [run_await (pending ▸ rfl), pending]
  rfl

theorem run_await_of_running (running : machine.store.future ref = .running none outcome) :
    (await (.future ref)).run machine =
      (do checkCancelled; setFuture ref (.done outcome); delivered outcome : Eval Value).run
        { machine with store := machine.store.setFuture ref (.running (some 0) outcome) } := by
  rw [run_await (running ▸ rfl), running]
  rfl

theorem run_waitForever {α : Type} (machine : Machine) :
    (waitForever : Eval α).run machine =
      if machine.willEnd then .error .cancelled machine.stop else .error .exhausted machine := by
  unfold waitForever
  rw [EStateM.run_bind, EStateM.run_get]
  dsimp only
  split <;> rfl

theorem delivered_ne_cancelled : (delivered outcome).run machine ≠ .error .cancelled after := by
  cases outcome with
  | ok _ => exact nofun
  | error error => cases error <;> exact nofun

/-- A wait for a future that nobody completes ends when the context is cancelled, if it ever is. -/
theorem await_of_pending_is_cancelled (pending : machine.store.future ref = .pending none)
    (ends : machine.willEnd = true) :
    ∃ after, (await (.future ref)).run machine = .error .cancelled after := by
  rw [run_await_of_pending pending, run_waitForever]
  exact ⟨_, if_pos ends⟩

/-- A wait that is cancelled leaves its callback with the future. -/
theorem future_of_cancelled_await (inRange : ref.index < machine.store.futures.size)
    (isOpen : (machine.store.future ref).outcome? = none)
    (vacant : (machine.store.future ref).waiting? = none)
    (cancelled : (await (.future ref)).run machine = .error .cancelled after) :
    (after.store.future ref).outcome? = none ∧ (after.store.future ref).waiting? = some 0 := by
  cases future : machine.store.future ref with
  | ending _ => rw [future] at isOpen; cases isOpen
  | done _ => rw [future] at isOpen; cases isOpen
  | pending waiting =>
      rw [future] at vacant
      cases vacant
      have same : after.store = machine.store.setFuture ref (.pending (some 0)) := by
        rw [run_await_of_pending future, run_waitForever] at cancelled
        split at cancelled <;> cases cancelled
        rfl
      rw [same, Store.future_setFuture inRange]
      exact ⟨rfl, rfl⟩
  | running waiting outcome =>
      rw [future] at vacant
      cases vacant
      have same : after.store = machine.store.setFuture ref (.running (some 0) outcome) := by
        rw [run_await_of_running future, EStateM.run_bind, Regime.run_checkCancelled] at cancelled
        split at cancelled
        case h_2 stopped =>
          split at stopped <;> cases stopped
          cases cancelled
          rfl
        case h_1 => exact absurd cancelled delivered_ne_cancelled
      rw [same, Store.future_setFuture inRange]
      exact ⟨rfl, rfl⟩

/-- A wait that was cancelled has left its callback with the future: as long as the future is like that,
every wait for it fails at once, in any run, and once it is completed, a wait for it gives the outcome. -/
theorem cancelled_await_stands_in_the_way (inRange : ref.index < machine.store.futures.size)
    (isOpen : (machine.store.future ref).outcome? = none)
    (vacant : (machine.store.future ref).waiting? = none)
    (cancelled : (await (.future ref)).run machine = .error .cancelled after) :
    (∀ later : Machine, later.store.future ref = after.store.future ref →
      (await (.future ref)).run later = .error busy later) ∧
    ∀ outcome, ∃ completed,
      (after.store.future ref).complete outcome = .ok (completed, some 0) ∧
      ∀ later : Machine, later.store.future ref = completed →
        (await (.future ref)).run later = (delivered outcome).run
          { later with store := later.store.setFuture ref completed } := by
  obtain ⟨stillOpen, waits⟩ := future_of_cancelled_await inRange isOpen vacant cancelled
  refine ⟨fun later same => run_await_of_waiting (same ▸ waits), fun outcome => ?_⟩
  refine ⟨.done outcome, ?_, fun later same => run_await_of_done same⟩
  rw [complete_of_open stillOpen, waits]

end Eval

namespace Session

open SessionM

/-- A session with a future that is not completed, and a function that cancels the context. -/
def awaiting : Session :=
  let session := new 100 (.text "") {}
  let session := sessionOf ((define "p" .future).run session)
  sessionOf ((define "cancel" (.native .cancel)).run session)

/-- Run a source under a context of its own. -/
def runApart (session : Session) (source : String) : EStateM.Result Report Session Value :=
  (under {} (run "" source.toUTF8.toList)).run session

/-- What a host is told of a cancelled run, or of the fault behind an exception. -/
def complaint (result : EStateM.Result Report Session Value) : Option String :=
  (reportOf result).bind fun report =>
    match report.failure with
    | .cancelled => some "cancelled"
    | .exception thrown => thrown.cause.map HostFault.message
    | _ => none

/-- A wait for a future is cancelled, and so is another one later. The second one fails otherwise. -/
theorem second_await_is_not_cancelled :
    let first := awaiting.runApart "cancel() + await p"
    let second := (sessionOf first).runApart "cancel() + await p"
    complaint first = some "cancelled" ∧
      complaint second = some "await: future already has a pending callback" := by
  decide +kernel

end Session

end Reckon
