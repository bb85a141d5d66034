import Reckon.Proofs.Arena.Requests
import Reckon.Proofs.Arena.Moves
import Reckon.Proofs.Arena.Standing
import Reckon.Proofs.Session.Hosting

/-!
# What a task restores

A host may run a task at every point of a session, also while calls are in progress.  However the task
ends, the realms stand where they stood, the context is the one before, and all activations are still at
their places.  If no function was created in an activation of a call, there are no other activations.
-/

namespace Reckon

open SessionM

namespace SessionM

variable {α : Type}

theorem run_under (context : Context) (action : SessionM α) (session : Session) :
    (under context action).run session =
      match action.run (session.withContext context) with
      | .ok result after => .ok result (after.withContext session.machine.context)
      | .error report after => .error report (after.withContext session.machine.context) :=
  rfl

/-- The session after an action under a context, whether it failed or not. -/
theorem sessionOf_under (context : Context) (action : SessionM α) (session : Session) :
    sessionOf ((under context action).run session) =
      (sessionOf (action.run (session.withContext context))).withContext session.machine.context := by
  rw [run_under]
  cases action.run (session.withContext context) <;> rfl

/-- A context does not change what is reported. -/
theorem reportOf_under (context : Context) (action : SessionM α) (session : Session) :
    reportOf ((under context action).run session) =
      reportOf (action.run (session.withContext context)) := by
  rw [run_under]
  cases action.run (session.withContext context) <;> rfl

end SessionM

namespace Configuration

variable {start point after last : Configuration}

/-! ## Runs on top of a point -/

/-- A point with nothing to return to: what runs from here does not end what was in progress. -/
def alone (point : Configuration) : Configuration :=
  { point with pending := [] }

theorem Sound.alone (sound : point.Sound) : point.alone.Sound := by
  constructor
  case running => exact sound.running
  case homes => exact sound.homes
  case visits => exact fun _ => nofun
  case arenas => exact sound.arenas
  case closures => exact sound.closures
  case stacked => exact fun realm => (sound.stacked realm).current_lt
  case numbered => exact sound.numbered

/-- What a run on top of a point keeps: the activations with their numbers, and as long as no new one is
captured, those of the calls in progress are the only new ones. -/
structure Overlies (start point : Configuration) : Prop where
  rests : ∀ realm, (start.machine.realmAt realm).arena.Rests (point.machine.realmAt realm).arena
    (callsIn realm point.machine.realm point.pending)
  packed : ∀ realm, Arena.Packed (start.machine.realmAt realm).arena.size
      (point.machine.realmAt realm).arena.size (callsIn realm point.machine.realm point.pending) ∨
    ∃ index, (start.machine.realmAt realm).arena.size ≤ index ∧
      point.machine.store.HasClosure realm index
  parked : start.machine.parked.size ≤ point.machine.parked.size
  serials : ∀ realm index, realm < start.machine.parked.size →
    index < (start.machine.realmAt realm).arena.size →
      point.serial realm index = start.serial realm index

theorem overlies_self (alone : start.pending = []) : start.Overlies start := by
  constructor
  case rests =>
    intro realm
    rw [alone]
    exact Arena.rests_self _
  case packed =>
    intro realm
    rw [alone]
    exact .inl rfl
  case parked => exact Nat.le_refl _
  case serials => exact fun _ _ _ _ => rfl

theorem Step.parked_le (step : Step point after) :
    point.machine.parked.size ≤ after.machine.parked.size := by
  cases step with
  | visit known => exact Nat.le_of_eq Array.size_setIfInBounds.symm
  | back innermost => exact Nat.le_of_eq Array.size_setIfInBounds.symm
  | found => exact Nat.le_of_lt (Nat.lt_of_lt_of_eq (Nat.lt_succ_self _) (Array.size_push _).symm)
  | _ => exact Nat.le_refl _

/-- A step gives a number to a new activation only. -/
theorem Step.serial_eq (step : Step point after) {realm index : Nat}
    (known : realm < point.machine.parked.size)
    (old : index < (point.machine.realmAt realm).arena.size) :
    after.serial realm index = point.serial realm index := by
  cases step with
  | enter bindings allowed created =>
      refine if_neg ?_
      rintro ⟨rfl, rfl⟩
      rw [Machine.realmAt_running] at old
      exact Nat.lt_irrefl _ old
  | found =>
      refine if_neg ?_
      rintro ⟨rfl, _⟩
      exact Nat.lt_irrefl _ known
  | _ => rfl

theorem Step.overlies (step : Step point after) (sound : point.Sound) (witnessed : point.Witnessed)
    (global : start.Sound) (overlies : start.Overlies point) : start.Overlies after := by
  have moves := step.moves sound
  constructor
  case rests =>
    intro realm
    exact (moves realm).rests (overlies.rests realm)
  case packed =>
    intro realm
    rcases overlies.packed realm with packed | ⟨index, new, created⟩
    · rcases (moves realm).packed (global.arenas realm).size_pos packed with
        stillPacked | ⟨index, new, captured⟩
      · exact .inl stillPacked
      · exact .inr ⟨index, new, step.witnessed sound witnessed realm index captured⟩
    · exact .inr ⟨index, new, (step.sound sound).2.hasClosure created⟩
  case parked => exact Nat.le_trans overlies.parked step.parked_le
  case serials =>
    intro realm index known old
    have knownLater := Nat.lt_of_lt_of_le known overlies.parked
    have oldLater := Nat.lt_of_lt_of_le old (overlies.rests realm).size
    exact (step.serial_eq knownLater oldLater).trans (overlies.serials realm index known old)

theorem Run.overlies (run : Run start point) (sound : start.Sound) (witnessed : start.Witnessed)
    (alone : start.pending = []) : start.Overlies point := by
  induction run with
  | refl => exact overlies_self alone
  | tail before step inductionHypothesis =>
      have here := (Run.sound before sound).1
      exact step.overlies here (Run.witnessed before sound witnessed) sound inductionHypothesis

/-! ## Restoration -/

/-- A later point at which the realms stand where they stood, and all activations are still there.  If
functions were created in the global activation only, there are no others. -/
structure Restores (point last : Configuration) : Prop where
  standing : last.machine.standing = point.machine.standing
  activations : ∀ {realm index : Nat} {activation : Activation},
    (point.machine.realmAt realm).arena.activations[index]? = some activation →
      ∃ later, (last.machine.realmAt realm).arena.activations[index]? = some later ∧
        activation.Continues later
  serials : ∀ realm index, realm < point.machine.parked.size →
    index < (point.machine.realmAt realm).arena.size →
      last.serial realm index = point.serial realm index
  size : ∀ realm, (∀ index, last.machine.store.HasClosure realm index →
      index = 0 ∨ point.machine.store.HasClosure realm index) →
    (last.machine.realmAt realm).arena.size = (point.machine.realmAt realm).arena.size

/-- The functions that were there before were created in activations that were there before. -/
theorem Sound.lt_of_hasClosure (sound : point.Sound) {realm index : Nat}
    (created : point.machine.store.HasClosure realm index) :
    index < (point.machine.realmAt realm).arena.size := by
  obtain ⟨function, member, static, params, body, code⟩ := created
  exact (sound.closures function member realm index static params body code).lt_size

theorem Run.restores (run : Run point.alone last) (ended : last.pending = []) (sound : point.Sound)
    (witnessed : point.Witnessed) : point.Restores last := by
  have overlies := run.overlies sound.alone witnessed rfl
  constructor
  case standing => exact run.standing_eq sound.alone rfl ended
  case activations => exact (overlies.rests _).kept
  case serials => exact overlies.serials
  case size =>
    intro realm global
    rcases overlies.packed realm with packed | ⟨index, new, created⟩
    · rw [ended] at packed
      exact packed
    · -- A captured activation is that of a function, which is global or was there before.
      have old : index < (point.machine.realmAt realm).arena.size := by
        rcases global index created with rfl | earlier
        · exact (sound.arenas realm).size_pos
        · exact sound.lt_of_hasClosure earlier
      exact absurd old (Nat.not_lt_of_le new)

theorem witnessed_initial (maxDepth : Int) (output : Output) :
    (initial maxDepth output).Witnessed := by
  intro realm index captured
  by_cases first : realm = 0
  · subst first
    have moves : Arena.Moves 0 (initial maxDepth output).machine.store {} []
        ((initial maxDepth output).machine.realmAt 0).arena [] := .bind ..
    rcases moves.captured_cases captured with earlier | created
    · exact absurd earlier Arena.not_captured_new
    · exact created
  · rw [realmAt_initial_of_ne maxDepth output first] at captured
    exact absurd captured Arena.not_captured_new

/-! ## Tasks -/

/-- The point at which a task starts under a context. -/
def under (point : Configuration) (context : Context) : Configuration :=
  { point.alone with machine := { point.machine with context } }

theorem run_under (point : Configuration) (context : Context) :
    Run point.alone (point.under context) :=
  .single (.report point.alone point.machine.output context)

/-- What a task does is a course from the point at which it starts. -/
theorem Course.answers_task (course : Course) {context : Context}
    (reached : course.reaches (point.under context)) (sources : Nat) (task : Task) :
    course.regime.Answers ([] : List Pending)
      (task.perform.run (Session.withContext { machine := point.machine, sources } context)) :=
  Regime.serves_task (fun _ _ => trivial) _ ⟨point.under context, reached, rfl, rfl⟩

/-- What a task does at a point is a run on top of it. -/
theorem exists_run_task (point : Configuration) (sources : Nat) (context : Context) (task : Task) :
    ∃ last, Run point.alone last ∧ last.pending = [] ∧
      last.machine = (sessionOf
        ((SessionM.under context task.perform).run { machine := point.machine, sources })).machine := by
  have answers := (runs point.alone).answers_task (point.run_under context) sources task
  obtain ⟨middle, run, machine, pending⟩ := answers.holds fun _ _ => reached_of_fails
  refine ⟨_, run.tail (.report middle middle.machine.output point.machine.context), pending, ?_⟩
  rw [sessionOf_under]
  change { middle.machine with context := point.machine.context } = Session.machine _
  rw [machine]
  rfl

/-- At every point of a session, and however a task ends there, the context is the one before, the realms
stand where they stood and all activations are still there, and none is left over unless a function was
created in an activation of a call.  The task and every evaluation within it is a run on top of the point.
During such runs, no depth gets past its bound, unless it was greater from the start. -/
theorem tasks_restore_the_machine {maxDepth : Int} {output : Output} {point : Configuration}
    (reached : Run (initial maxDepth output) point) (sources : Nat) (context : Context) (task : Task) :
    let after :=
      sessionOf ((SessionM.under context task.perform).run { machine := point.machine, sources })
    after.machine.context = point.machine.context ∧
      (∃ last, Run point.alone last ∧ last.pending = [] ∧ last.machine = after.machine ∧
        point.Restores last) ∧
      ∀ middle, Run point.alone middle →
        (∀ realm, ((middle.machine.realmAt realm).depth : Int) ≤
          max (point.machine.realmAt realm).maxDepth (point.machine.realmAt realm).depth) ∧
        (∀ tree : Expr, middle.TracesAt (tree.eval Eval.apply)) ∧
        (∀ tree : Stmt, middle.TracesAt (tree.exec Eval.apply)) ∧
        ∀ callee args, middle.TracesAt (Eval.call Eval.apply callee args) := by
  intro after
  have initialSound := sound_initial maxDepth output
  have sound := (reached.sound initialSound).1
  have witnessed := reached.witnessed initialSound (witnessed_initial maxDepth output)
  refine ⟨?_, ?_, ?_⟩
  · exact congrArg (·.machine.context) (sessionOf_under context task.perform _)
  · obtain ⟨last, run, ended, machine⟩ := exists_run_task point sources context task
    exact ⟨last, run, ended, machine, run.restores ended sound witnessed⟩
  · intro middle run
    have bounds := run.bounds sound.alone rfl
    exact ⟨bounds.depth, (traces_eval · middle), (traces_exec · middle), (traces_call · · middle)⟩

/-- A program that runs into the bound, while a call of another function is in progress. -/
theorem task_within_call_restores_the_machine :
    let first := initial 3 (.text "")
    let created := first.machine.create "f" ["x"] none (.expr (.empty {}))
    let point : Configuration :=
      { machine := created.enter 0 none (Eval.parameterRecord ["x"] [.null])
        pending := [.call 1 0 0]
        serial := fun realm index => if realm = 0 ∧ index = 1 then 1 else 0
        next := 2 }
    let program := Task.exec (parseProgram 1 "" "g = (n) => g(n + 1)\ng(0)".toUTF8.toList)
    let after :=
      sessionOf ((SessionM.under {} program.perform).run { machine := point.machine, sources := 2 })
    Run first point ∧ after.machine.context = point.machine.context ∧
      (∃ last, Run point.alone last ∧ last.pending = [] ∧ last.machine = after.machine ∧
        point.Restores last) ∧
      ∀ middle, Run point.alone middle → (middle.machine.realmAt 0).depth ≤ 3 := by
  intro first created point program after
  have creates : Run first { first with machine := created } := .single (.create first _ _ _ _)
  have known : ∃ function ∈ created.store.functions,
      function.code = .closure 0 0 none ["x"] (.expr (.empty {})) := ⟨_, Array.mem_push_self, rfl⟩
  have reached : Run first point :=
    creates.tail (.enter (Eval.parameterRecord ["x"] [.null]) (by decide) known)
  obtain ⟨context, restores, during⟩ := tasks_restore_the_machine reached 2 {} program
  refine ⟨reached, context, restores, fun middle run => ?_⟩
  exact Int.ofNat_le.mp ((during middle run).1 0)

end Configuration

end Reckon
