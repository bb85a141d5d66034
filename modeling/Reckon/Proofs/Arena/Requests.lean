import Reckon.Proofs.Arena.Configuration

/-!
# Requests are runs

Whatever a host asks of a session, the machine gets from the point before the request to the point
after it by steps, also if the request fails.  The same is true of every evaluation within a request,
with the same calls in progress before and after.
-/

namespace Reckon

open Eval

theorem Variable.retag_some (name : Variable) : name.retag some = name := by
  rw [retag, Option.bind_fun_some]

namespace Arena

theorem retag_some (arena : Arena) : arena.retag some = arena := by
  have same : Activation.retag some = id := by
    funext activation
    simp [Activation.retag]
  rw [retag, same, Array.map_id]

end Arena

namespace Machine

theorem tagged?_retag_some (machine : Machine) (name : Variable) :
    (machine.retag some).tagged? name = machine.tagged? name := by
  simp only [tagged?, arena_retag, Arena.retag_some]
  rfl

theorem read?_retag_some (machine : Machine) (name : Variable) :
    (machine.retag some).read? (name.retag some) = machine.read? name := by
  simp only [read?, tagged?_retag_some, Variable.retag_some, arena_retag, Arena.retag_some]
  rfl

theorem assignee_retag_some (machine : Machine) (name : Variable) :
    (machine.retag some).assignee (name.retag some) = machine.assignee name := by
  simp only [assignee, tagged?_retag_some, Variable.retag_some, binder, arena_retag,
    Arena.retag_some]
  rfl

theorem declaree_retag_some (machine : Machine) (name : Variable) :
    (machine.retag some).declaree (name.retag some) = machine.declaree name := by
  simp only [declaree, Variable.retag_some, arena_retag, Arena.retag_some]
  rfl

end Machine

namespace Configuration

/-! ## Evaluation -/

/-- The points that evaluation comes to.  When it was told to stop, it fails at other points perhaps. -/
structure Course where
  reaches : Configuration → Prop
  cancels : Configuration → Prop
  step : ∀ {point after}, reaches point → Step point after →
    after.machine.context.told = point.machine.context.told → reaches after
  stop : ∀ {point}, reaches point → point.machine.willEnd = true →
    cancels { point with machine := point.machine.stop }
  ending : ∀ {point after}, cancels point → Ending point after → cancels after

namespace Course

variable (course : Course)

/-- A point at which evaluation fails. -/
structure FailsAt (failure : Failure) (point : Configuration) : Prop where
  cancelled : failure = .cancelled → course.cancels point
  other : failure ≠ .cancelled → course.reaches point

variable {course} {failure : Failure} {point after : Configuration}

theorem failsAt_of_ne (other : failure ≠ .cancelled) (reached : course.reaches point) :
    course.FailsAt failure point :=
  ⟨fun cancelled => absurd cancelled other, fun _ => reached⟩

theorem FailsAt.ending (failed : course.FailsAt failure point) (ending : Ending point after)
    (told : after.machine.context.told = point.machine.context.told) :
    course.FailsAt failure after where
  cancelled cancelled := course.ending (failed.cancelled cancelled) ending
  other other := course.step (failed.other other) ending.step told

variable (course)

/-- To be at a point of a course, with the same calls in progress, is kept by evaluation. -/
def regime : Regime some where
  World := List Pending
  holds pending machine :=
    ∃ point, course.reaches point ∧ point.machine = machine ∧ point.pending = pending
  node _ _ := True
  fails pending failure machine :=
    ∃ point, course.FailsAt failure point ∧ point.machine = machine ∧ point.pending = pending
  ordinary := by
    rintro _ failure _ ⟨point, reached, machine, pending⟩ ordinary
    refine ⟨point, failsAt_of_ne ?_ reached, machine, pending⟩
    rintro rfl
    cases ordinary
  malformed := by
    rintro _ _ _ _ ⟨point, reached, machine, pending⟩ _ _
    exact ⟨point, failsAt_of_ne nofun reached, machine, pending⟩
  resume := by
    rintro _ failure _ ⟨point, failed, machine, pending⟩ catchable
    refine ⟨point, failed.other ?_, machine, pending⟩
    rintro rfl
    cases catchable
  pass := by
    rintro _ _ ⟨point, reached, rfl, rfl⟩
    have step := Step.report point point.machine.output point.machine.context.pass
    exact ⟨_, course.step reached step rfl, rfl, rfl⟩
  stop := by
    rintro _ _ ⟨point, reached, rfl, rfl⟩ ends
    have stopped := course.stop reached ends
    exact ⟨_, ⟨fun _ => stopped, absurd rfl⟩, rfl, rfl⟩
  cancel := by
    rintro _ _ ⟨point, reached, rfl, rfl⟩
    have step := Step.report point point.machine.output point.machine.cancel.context
    exact ⟨_, course.step reached step rfl, rfl, rfl⟩
  extend := by
    rintro _ _ store ⟨point, reached, rfl, rfl⟩ extended
    exact ⟨_, course.step reached (.extend extended) rfl, rfl, rfl⟩
  print := by
    rintro _ _ output ⟨point, reached, rfl, rfl⟩
    have step := Step.report point output point.machine.context
    exact ⟨_, course.step reached step rfl, rfl, rfl⟩
  read _ _ := Machine.read?_retag_some _ _
  assignee _ _ := Machine.assignee_retag_some _ _
  assign := by
    rintro _ _ name value ⟨point, reached, rfl, rfl⟩ _
    exact ⟨_, course.step reached (.bind point _ name.name value) rfl, rfl, rfl⟩
  declaree _ _ _ := Machine.declaree_retag_some _ _
  declare := by
    rintro _ _ _ name value ⟨point, reached, rfl, rfl⟩ _ _
    exact ⟨_, course.step reached (.bind point _ name.name value) rfl, rfl, rfl⟩
  create := by
    rintro _ _ _ params static body name ⟨point, reached, rfl, rfl⟩ _ _
    have step := Step.create point name params static body
    exact ⟨Option.bind_fun_some static, _, course.step reached step rfl, rfl, rfl⟩
  enter := by
    rintro _ _ parent static params body ⟨point, reached, rfl, rfl⟩ allowed known
    refine ⟨.call point.machine.arena.size point.machine.current point.machine.depth ::
      point.pending, fun _ _ => trivial, fun args => ?_, ?_, ?_⟩
    · have step := Step.enter (parameterRecord params args) allowed known
      exact ⟨_, course.step reached step rfl, rfl, rfl⟩
    · rintro _ ⟨inner, innerReached, rfl, innermost⟩
      exact ⟨_, course.step innerReached (.leave innermost) rfl, rfl, rfl⟩
    · rintro _ _ ⟨inner, failed, rfl, innermost⟩
      exact ⟨_, failed.ending (.leave innermost) rfl, rfl, rfl⟩
  visit := by
    rintro _ _ realm ⟨point, reached, rfl, rfl⟩ known
    refine ⟨.visit point.machine.realm :: point.pending, ?_, ?_, ?_⟩
    · exact ⟨_, course.step reached (.visit known) rfl, rfl, rfl⟩
    · rintro _ ⟨inner, innerReached, rfl, innermost⟩
      exact ⟨_, course.step innerReached (.back innermost) rfl, rfl, rfl⟩
    · rintro _ _ ⟨inner, failed, rfl, innermost⟩
      exact ⟨_, failed.ending (.back innermost) rfl, rfl, rfl⟩

end Course

/-- To be reached from a point by steps. -/
def runs (start : Configuration) : Course where
  reaches := Run start
  cancels := Run start
  step run step _ := run.tail step
  stop {point} run _ := run.tail (.report point point.machine.output point.machine.stop.context)
  ending run ending := run.tail ending.step

/-- To be reached from a point by steps, with the same calls in progress, is kept by evaluation. -/
def traces (start : Configuration) : Regime some :=
  (runs start).regime

/-- Evaluation also fails at points that steps lead to. -/
theorem reached_of_fails {start : Configuration} {pending : List Pending} {failure : Failure}
    {machine : Machine} (failed : (traces start).fails pending failure machine) :
    (traces start).holds pending machine := by
  obtain ⟨point, failsAt, same⟩ := failed
  refine ⟨point, ?_, same⟩
  by_cases cancelled : failure = .cancelled
  · exact failsAt.cancelled cancelled
  · exact failsAt.other cancelled

/-- What an action does at a point is a run, and it leaves no call in progress. -/
def TracesAt {α : Type} (point : Configuration) (action : Eval α) : Prop :=
  ∃ after, Run point after ∧ after.pending = point.pending ∧
    after.machine = machineOf (action.run point.machine)

/-- What an action does at any point is a run. -/
def Traces {α : Type} (action : Eval α) : Prop :=
  ∀ point : Configuration, point.TracesAt action

theorem tracesAt_of_keepsAt {α : Type} {point : Configuration} {first action : Eval α}
    (kept : (traces point).KeepsAt point.pending point.machine first action) :
    point.TracesAt action := by
  obtain ⟨after, run, machine, pending⟩ := kept.ends.holds fun _ _ => reached_of_fails
  exact ⟨after, run, pending, machine⟩

theorem traces_of_keeps {α : Type} {first action : Eval α}
    (kept : ∀ start world, (traces start).Keeps world first action) : Traces action := by
  intro point
  exact tracesAt_of_keepsAt (kept point point.pending point.machine ⟨point, .refl, rfl, rfl⟩)

theorem tracesAt_inRealm (point : Configuration) {realm : Nat}
    (known : ∃ function ∈ point.machine.store.functions, function.code.home? = some realm)
    (tree : Expr) : point.TracesAt (inRealm realm (tree.eval Eval.apply)) := by
  have evaluated (inner : (traces point).World) :
      (traces point).Keeps inner ((tree.retag some).eval Eval.apply) (tree.eval Eval.apply) :=
    Regime.keeps_eval (Regime.keeps_apply inner) tree fun _ _ => trivial
  exact tracesAt_of_keepsAt <| Regime.keepsAt_inRealm ⟨point, .refl, rfl, rfl⟩ known
    fun inner there _ _ arrived => evaluated inner there arrived

theorem traces_eval (tree : Expr) : Traces (tree.eval Eval.apply) :=
  traces_of_keeps fun _ world =>
    Regime.keeps_eval (Regime.keeps_apply world) tree fun _ _ => trivial

theorem traces_exec (tree : Stmt) : Traces (tree.exec Eval.apply) :=
  traces_of_keeps fun _ world =>
    Regime.keeps_exec (Regime.keeps_apply world) tree fun _ _ => trivial

theorem traces_call (callee : Value) (args : List Value) :
    Traces (Eval.call Eval.apply callee args) :=
  traces_of_keeps fun _ world => Regime.keeps_call (Regime.keeps_apply world) callee args

/-! ## Requests -/

theorem leaves_of_tracesAt {α : Type} {start point : Configuration} {action : Eval α}
    (reached : Run start point) (idle : point.pending = []) (traced : point.TracesAt action) :
    Leaves (fun machine => ∃ point, Run start point ∧ point.pending = [] ∧ point.machine = machine)
      (fun _ => True) point.machine action := by
  obtain ⟨after, run, samePending, machine⟩ := traced
  constructor
  · exact ⟨after, reached.trans run, samePending.trans idle, machine⟩
  · cases action.run point.machine <;> trivial

/-- Between requests, the machine is at a point that steps lead to, with nothing in progress. -/
def hosting (start : Configuration) : Hosting where
  idle machine := ∃ point, Run start point ∧ point.pending = [] ∧ point.machine = machine
  fails _ := True
  expr _ := True
  stmt _ := True
  ordinary _ := trivial
  cancelled := trivial
  wellFormed _ _ _ := trivial
  extend := by
    rintro _ store ⟨point, run, idle, rfl⟩ extended
    exact ⟨_, run.tail (.extend extended), idle, rfl⟩
  report := by
    rintro _ output context ⟨point, run, idle, rfl⟩
    exact ⟨_, run.tail (.report point output context), idle, rfl⟩
  bind := by
    rintro _ name value ⟨point, run, idle, rfl⟩
    exact ⟨_, run.tail (.bind point 0 name value), idle, rfl⟩
  eval := by
    rintro _ tree ⟨point, run, idle, rfl⟩ _
    exact leaves_of_tracesAt run idle (traces_eval tree point)
  exec := by
    rintro _ tree ⟨point, run, idle, rfl⟩ _
    exact leaves_of_tracesAt run idle (traces_exec tree point)
  call := by
    rintro _ callee args ⟨point, run, idle, rfl⟩
    exact leaves_of_tracesAt run idle (traces_call callee args point)
  apart := by
    -- The new realm can be visited, since the function that prints there belongs to it.
    rintro _ tree ⟨point, run, idle, rfl⟩ _
    have founded := run.tail (.found point)
    refine leaves_of_tracesAt founded idle (tracesAt_inRealm _ ?_ tree)
    exact ⟨Session.printFunction point.machine.parked.size, Array.mem_push_self, rfl⟩

theorem admits (start : Configuration) (session : Session) (request : Request) :
    (hosting start).Admits session request := by
  induction request generalizing session with
  | under context request inductionHypothesis => exact inductionHypothesis (session.withContext context)
  | _ => simp [Hosting.Admits, hosting]

theorem admitsAll (start : Configuration) (session : Session) (requests : List Request) :
    (hosting start).AdmitsAll session requests := by
  induction requests generalizing session with
  | nil =>
      trivial
  | cons request rest inductionHypothesis =>
      exact ⟨admits start session request, inductionHypothesis _⟩

/-- The requests of a host are a run that leaves nothing in progress. -/
theorem exists_run_performAll {point : Configuration} {session : Session}
    (machine : point.machine = session.machine) (pending : point.pending = [])
    (requests : List Request) :
    ∃ after, Run point after ∧ after.pending = [] ∧
      after.machine = (requests.foldl Request.perform session).machine :=
  (hosting point).performAll ⟨point, .refl, pending, machine⟩ (admitsAll point session requests)

end Configuration

/-! ## Captured activations

A function of the program only knows the index of the activation it was created in.  Through all
requests of a host, and at every point within them, that index refers to the same activation, and so do
the indices of the activations around it. -/

namespace Configuration

variable {point after : Configuration}

/-! ## The first point -/

theorem realmAt_initial_of_ne (maxDepth : Int) (output : Output) {realm : Nat}
    (other : realm ≠ 0) : (initial maxDepth output).machine.realmAt realm = {} := by
  rw [Machine.realmAt_of_ne _ other]
  simp [initial, Session.new, Session.bind, Array.getD]

theorem realmAt_initial (maxDepth : Int) (output : Output) (realm : Nat) :
    ((initial maxDepth output).machine.realmAt realm).arena.Sound ∧
      ((initial maxDepth output).machine.realmAt realm).current = 0 := by
  by_cases first : realm = 0
  · subst first
    exact ⟨(Arena.isGentle_set _ _).sound Arena.sound_new 0, rfl⟩
  · rw [realmAt_initial_of_ne maxDepth output first]
    exact ⟨Arena.sound_new, rfl⟩

/-- The only function at first is the one that prints. -/
theorem code_of_mem_initial {maxDepth : Int} {output : Output} {function : Function}
    (member : function ∈ (initial maxDepth output).machine.store.functions) :
    function.code = .print 0 := by
  simp [initial, Session.new, Session.bind, Store.newFunction] at member
  rw [member]
  rfl

theorem sound_initial (maxDepth : Int) (output : Output) : (initial maxDepth output).Sound := by
  constructor
  case running => exact Nat.zero_lt_one
  case homes =>
    intro function member realm home
    rw [code_of_mem_initial member] at home
    cases home
    exact Nat.zero_lt_one
  case visits =>
    intro realm member
    cases member
  case arenas =>
    intro realm
    exact (realmAt_initial maxDepth output realm).1
  case closures =>
    intro function member realm parent static params body code
    rw [code_of_mem_initial member] at code
    cases code
  case stacked =>
    intro realm
    obtain ⟨sound, current⟩ := realmAt_initial maxDepth output realm
    rw [current]
    exact sound.size_pos
  case numbered =>
    intro realm index inRange
    exact Nat.zero_lt_one

/-! ## Captured activations -/

/-- At a later point, a function that was created in an activation has the same code, and that
activation and all around it are still the same ones, at the same places. -/
structure Intact (point after : Configuration) (function realm parent : Nat) : Prop where
  code : (after.machine.store.functions[function]?).map Function.code =
    (point.machine.store.functions[function]?).map Function.code
  inRange : parent < (after.machine.realmAt realm).arena.size
  chain : List.Forall₂ Arena.SameEntry ((point.machine.realmAt realm).arena.chain parent)
    ((after.machine.realmAt realm).arena.chain parent)
  serials : ∀ entry ∈ (point.machine.realmAt realm).arena.chain parent,
    after.serial realm entry.1 = point.serial realm entry.1

theorem Run.intact (run : Run point after) (sound : point.Sound) {index : Nat} {function : Function}
    {realm parent : Nat} {static : Option FrameId} {params : List String} {body : Body}
    (found : point.machine.store.functions[index]? = some function)
    (code : function.code = .closure realm parent static params body) :
    point.Intact after index realm parent := by
  obtain ⟨laterSound, persists⟩ := run.sound sound
  have member : function ∈ point.machine.store.functions := Array.mem_of_getElem? found
  have captured := sound.closures function member realm parent static params body code
  have preserves := persists.arenas realm
  constructor
  case code =>
    obtain ⟨later, laterFound, sameCode⟩ := persists.functions found
    rw [found, laterFound]
    exact congrArg some sameCode
  case inRange => exact (preserves.captured captured).lt_size
  case chain => exact preserves.chain (sound.arenas realm) (laterSound.arenas realm) captured
  case serials =>
    intro entry onChain
    have entryCaptured := (sound.arenas realm).captured_of_mem_chainFrom captured onChain
    exact persists.serials realm entry.1 entryCaptured

/-- Whatever a host asks of a session, its machine moves by steps, and so it does in every evaluation
within a request, from any point.  At every point that steps lead to, every walk through activations
ends, and from then on every function keeps the activation it was created in and those around it.  A
later activation at the same place would have a greater number. -/
theorem closures_keep_activations (maxDepth : Int) (output : Output) :
    (∀ requests : List Request, ∃ point, Run (initial maxDepth output) point ∧
      point.pending = [] ∧
      point.machine = (requests.foldl Request.perform (Session.new maxDepth output {})).machine) ∧
    (∀ tree : Expr, Traces (tree.eval Eval.apply)) ∧
    (∀ tree : Stmt, Traces (tree.exec Eval.apply)) ∧
    (∀ callee args, Traces (Eval.call Eval.apply callee args)) ∧
    ∀ point, Run (initial maxDepth output) point →
      (∀ realm, (point.machine.realmAt realm).arena.Grounded ∧
        (point.machine.realmAt realm).current < (point.machine.realmAt realm).arena.size ∧
        ∀ index, index < (point.machine.realmAt realm).arena.size →
          point.serial realm index < point.next) ∧
      ∀ after, Run point after → ∀ index function realm parent static params body,
        point.machine.store.functions[index]? = some function →
        function.code = .closure realm parent static params body →
        point.Intact after index realm parent := by
  refine ⟨exists_run_performAll rfl rfl, traces_eval, traces_exec, traces_call, ?_⟩
  intro point reached
  obtain ⟨sound, _⟩ := reached.sound (sound_initial maxDepth output)
  constructor
  · intro realm
    exact ⟨(sound.arenas realm).grounded, (sound.stacked realm).current_lt, sound.numbered realm⟩
  · intro after run index function realm parent static params body found code
    exact run.intact sound found code

end Configuration

end Reckon
