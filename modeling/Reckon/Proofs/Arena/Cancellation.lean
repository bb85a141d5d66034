import Reckon.Proofs.Arena.Restoration

/-!
# Cancellation

A task that looks at its context and finds it cancelled fails, whatever is in progress: no function that
catches failures, no call, no loop and no other realm holds the failure up.  From the look until the host
has its report, calls and visits end and nothing else happens.  So nothing is printed meanwhile, and
neither a map nor a variable that is left is written.
-/

namespace Reckon

open SessionM

/-! ## What is written -/

/-- What has been written is what was written then: all output, all maps, and the variables of all
activations that are left. -/
structure Progress.Remains (progress : Progress) (machine : Machine) : Prop where
  output : ∀ realm, (machine.realmAt realm).output = progress.output realm
  bindings : ∀ realm index, index < (machine.realmAt realm).arena.size →
    (machine.realmAt realm).arena.bindings index = progress.bindings realm index
  maps : machine.store.maps = progress.maps

theorem Machine.remains_progress (machine : Machine) : machine.progress.Remains machine :=
  ⟨fun _ => rfl, fun _ _ _ => rfl, rfl⟩

theorem Arena.bindings_release {arena : Arena} {index place : Nat}
    (left : place < (arena.release index).size) :
    (arena.release index).bindings place = arena.bindings place := by
  rcases arena.release_cases index with same | ⟨_, _, _, popped⟩
  · rw [same]
  · rw [popped, size, Array.size_pop] at left
    rw [popped, bindings, Array.getElem?_pop, if_pos left]
    rfl

namespace Configuration

variable {point after stopped last : Configuration} {progress : Progress}

/-! ## Endings -/

/-- Any number of moves that end what was started last. -/
abbrev Unwinds : Configuration → Configuration → Prop :=
  Relation.ReflTransGen Ending

theorem Ending.context (ending : Ending point after) :
    after.machine.context = point.machine.context := by
  cases ending with
  | leave _ => rfl
  | back _ => rfl

/-- The end of a call gives its own variables back at most. -/
theorem Ending.remains (ending : Ending point after) (sound : point.Sound)
    (remains : progress.Remains point.machine) : progress.Remains after.machine := by
  cases ending with
  | leave innermost =>
      have advances := sound.advances_leave innermost
      refine ⟨fun realm => ?_, fun realm index left => ?_, remains.maps⟩
      · rw [← remains.output realm]
        by_cases same : realm = point.machine.realm
        · rw [same, advances.realmAt_running, Machine.realmAt_running]
          rfl
        · rw [advances.realmAt_of_ne same]
      · have before := remains.bindings realm index
        by_cases same : realm = point.machine.realm
        · rw [same, Machine.realmAt_running] at before
          rw [same, advances.realmAt_running] at left ⊢
          have inRange := Nat.lt_of_lt_of_le left (Arena.size_release_le _ _)
          exact (Arena.bindings_release left).trans (before inRange)
        · rw [advances.realmAt_of_ne same] at left ⊢
          exact before left
  | back innermost =>
      have same := point.machine.realmAt_switchTo sound.running
      refine ⟨fun realm => ?_, fun realm index left => ?_, remains.maps⟩
      · rw [same]
        exact remains.output realm
      · rw [same] at left ⊢
        exact remains.bindings realm index left

theorem Unwinds.context (unwinds : Unwinds point after) :
    after.machine.context = point.machine.context := by
  induction unwinds with
  | refl => rfl
  | tail _ ending inductionHypothesis => exact ending.context.trans inductionHypothesis

theorem Unwinds.run (unwinds : Unwinds point after) : Run point after := by
  induction unwinds with
  | refl => exact .refl
  | tail _ ending inductionHypothesis => exact inductionHypothesis.tail ending.step

theorem Unwinds.remains (unwinds : Unwinds point after) (sound : point.Sound)
    (remains : progress.Remains point.machine) : progress.Remains after.machine := by
  induction unwinds with
  | refl => exact remains
  | tail before ending inductionHypothesis =>
      have here := (Run.sound (Unwinds.run before) sound).1
      exact ending.remains here inductionHypothesis

/-! ## Runs that are told to stop -/

/-- The point at which a run is told to stop. -/
def told (point : Configuration) : Configuration :=
  { point with machine := point.machine.stop }

/-- A run is not told to stop, or it has done nothing since but end what was in progress. -/
def heeding (start : Configuration) : Course where
  reaches point := Run start point ∧ point.machine.context.told = []
  cancels point := ∃ stopped, (Run start stopped ∧ stopped.machine.context.told = []) ∧
    stopped.machine.willEnd = true ∧ Unwinds stopped.told point
  step reached step same := ⟨reached.1.tail step, same.trans reached.2⟩
  stop reached ends := ⟨_, reached, ends, .refl⟩
  ending := by
    rintro _ _ ⟨stopped, reached, ends, unwinds⟩ ending
    exact ⟨stopped, reached, ends, unwinds.tail ending⟩

/-- A run on top of a point was told to stop once, because its context is cancelled.  Then it ended what
was in progress, and what had been written remained. -/
structure Interrupts (point : Configuration) (stopped last : Configuration) : Prop where
  run : Run point.alone stopped
  cancelled : stopped.machine.willEnd = true
  unwinds : Unwinds stopped.told last
  ended : last.pending = []
  told : last.machine.context.told = [stopped.machine.progress]
  remains : stopped.machine.progress.Remains last.machine

theorem interrupts_of_unwinds (sound : point.Sound) (run : Run point.alone stopped)
    (untold : stopped.machine.context.told = []) (cancelled : stopped.machine.willEnd = true)
    (unwinds : Unwinds stopped.told last) (ended : last.pending = []) :
    point.Interrupts stopped last := by
  have here : stopped.told.Sound := by
    have step := Step.report stopped stopped.machine.output stopped.machine.stop.context
    exact (step.sound (Run.sound run sound.alone).1).1
  refine ⟨run, cancelled, unwinds, ended, ?_, unwinds.remains here ?_⟩
  · have same : last.machine.context.told =
        stopped.machine.progress :: stopped.machine.context.told :=
      congrArg Context.told unwinds.context
    rw [same, untold]
  · have remains := stopped.machine.remains_progress
    exact ⟨remains.output, remains.bindings, remains.maps⟩

/-! ## Tasks -/

/-- What the course of a run says of its end. -/
theorem told_cases (sound : point.Sound) {result : EStateM.Result Report Session Value}
    (answers : (heeding point.alone).regime.Answers ([] : List Pending) result) :
    ((sessionOf result).machine.context.told = [] ∧
        ∀ report, reportOf result = some report → report.failure ≠ .cancelled) ∨
      ∃ report stopped last, reportOf result = some report ∧ report.failure = .cancelled ∧
        point.Interrupts stopped last ∧ last.machine = (sessionOf result).machine := by
  cases result with
  | ok value after =>
      obtain ⟨last, ⟨_, untold⟩, machine, _⟩ := answers
      rw [machine] at untold
      exact .inl ⟨untold, fun _ failed => nomatch failed⟩
  | error report after =>
      obtain ⟨last, failed, machine, ended⟩ := answers
      by_cases cancelled : report.failure = .cancelled
      · obtain ⟨stopped, ⟨run, untold⟩, ends, unwinds⟩ := failed.cancelled cancelled
        have interrupts := interrupts_of_unwinds sound run untold ends unwinds ended
        exact .inr ⟨report, stopped, last, rfl, cancelled, interrupts, machine⟩
      · obtain ⟨_, untold⟩ := failed.other cancelled
        rw [machine] at untold
        refine .inl ⟨untold, ?_⟩
        rintro _ ⟨⟩
        exact cancelled

/-- At every point of a session, and whenever the context of a task is cancelled, the task is told to stop
or not.  If it is, it fails as cancelled, and from then on it only ends what is in progress: what had been
written remains.  If it is not, it does not fail as cancelled. -/
theorem cancellation_reaches_the_host {maxDepth : Int} {output : Output} {point : Configuration}
    (reached : Run (initial maxDepth output) point) (sources : Nat) (cancelled : Bool)
    (patience : Option Nat) (task : Task) :
    let session : Session := { machine := point.machine, sources }
    let context : Context := { cancelled, patience }
    let result := task.perform.run (session.withContext context)
    let after := sessionOf result
    (reportOf ((SessionM.under context task.perform).run session) = reportOf result ∧
      sessionOf ((SessionM.under context task.perform).run session) =
        after.withContext session.machine.context) ∧
    ((after.machine.context.told = [] ∧
        ∀ report, reportOf result = some report → report.failure ≠ .cancelled) ∨
      ∃ report stopped last, reportOf result = some report ∧ report.failure = .cancelled ∧
        point.Interrupts stopped last ∧ last.machine = after.machine) := by
  intro session context result after
  have sound := (reached.sound (sound_initial maxDepth output)).1
  have answers := (heeding point.alone).answers_task ⟨point.run_under context, rfl⟩ sources task
  exact ⟨⟨reportOf_under .., sessionOf_under ..⟩, told_cases sound answers⟩

/-- A loop whose body catches everything that fails in it, under a context that is cancelled in its second
round, when the function that may fail is called. -/
theorem cancelled_loop_reports_cancellation :
    let first := initial 100 (.text "")
    let program := Task.exec
      (parseProgram 0 "" "while true \x7b catch(() => print(\"x\")) \x7d".toUTF8.toList)
    let session : Session := { machine := first.machine, sources := 1 }
    let result := program.perform.run (session.withContext { patience := some 9 })
    Run first first ∧ session.printed = "" ∧ (sessionOf result).printed = "x\n" ∧
      ∃ report stopped last, reportOf result = some report ∧ report.failure = .cancelled ∧
        first.Interrupts stopped last ∧ last.machine = (sessionOf result).machine := by
  intro first program session result
  have printed : (sessionOf result).printed = "x\n" := by decide +kernel
  have told : (sessionOf result).machine.context.told.isEmpty = false := by decide +kernel
  refine ⟨.refl, rfl, printed, ?_⟩
  rcases (cancellation_reaches_the_host .refl 1 false (some 9) program).2 with ⟨untold, _⟩ | interrupts
  · rw [untold] at told
    cases told
  · exact interrupts

end Configuration

end Reckon
