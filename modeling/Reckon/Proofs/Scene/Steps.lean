import Reckon.Proofs.Arena.Requests
import Reckon.Proofs.Arena.Positions

/-!
# Scenes

A scene is a point of a run together with the code that runs there: the nodes of the function or of the
program in progress, outside of the functions that are created in it.  The code of what waits for it to
end is kept beside it.

The steps of a scene say what code does: it sets and declares only variables that stand in it, and
creates only functions that stand in it.  Code starts as a program of the host, from the global
activation, or as the body of a function.  Evaluation is a run of scenes, and it fails because of a
malformed construct only if that stands in the code of some scene of the run.
-/

namespace Reckon

open Eval

namespace Configuration

/-- The point after the start of a call. -/
def enter (point : Configuration) (parent : Nat) (static : Option FrameId) (bindings : Record) :
    Configuration where
  machine := point.machine.enter parent static bindings
  pending := .call point.machine.arena.size point.machine.current point.machine.depth :: point.pending
  serial realm index :=
    if realm = point.machine.realm ∧ index = point.machine.arena.size then point.next
    else point.serial realm index
  next := point.next + 1

/-- The point after a realm was added. -/
def found (point : Configuration) : Configuration :=
  { point with
    machine := point.machine.found
    serial := fun realm index =>
      if realm = point.machine.parked.size ∧ index = 0 then point.next
      else point.serial realm index
    next := point.next + 1 }

end Configuration

/-- A point of a run with the code that runs. -/
structure Scene where
  point : Configuration
  code : List Node := []
  suspended : List (List Node) := []

/-- What is in progress, with its code. -/
structure Stage where
  pending : List Pending
  code : List Node
  suspended : List (List Node)

namespace Scene

/-- What is in progress in a scene. -/
def stage (scene : Scene) : Stage :=
  ⟨scene.point.pending, scene.code, scene.suspended⟩

/-- The scene with another machine. -/
def withMachine (scene : Scene) (machine : Machine) : Scene :=
  { scene with point := { scene.point with machine } }

/-- The scene before the first request to a session. -/
def initial (maxDepth : Int) (output : Output) : Scene where
  point := .initial maxDepth output

variable (programs : List Node → Prop)

/-- One move of the machine, made by the code that runs or by the host. -/
inductive Step : Scene → Scene → Prop
  | start {scene : Scene} {code : List Node} : programs code → scene.point.machine.current = 0 →
      Step scene { scene with code }
  | extend {scene : Scene} {store : Store} : scene.point.machine.store.Extends store →
      Step scene (scene.withMachine { scene.point.machine with store })
  | report (scene : Scene) (output : Output) (context : Context) :
      Step scene (scene.withMachine { scene.point.machine with output, context })
  | define {scene : Scene} (name : String) (value : Value) : scene.point.pending = [] →
      Step scene (scene.withMachine (scene.point.machine.bindAt 0 name value))
  | assign {scene : Scene} {name : Variable} (value : Value) : .expr (.var name) ∈ scene.code →
      Step scene (scene.withMachine
        (scene.point.machine.bindAt (scene.point.machine.assignee name) name.name value))
  | declare {scene : Scene} {node : Node} {name : Variable} (value : Value) : node ∈ scene.code →
      name ∈ node.declared →
      Step scene (scene.withMachine
        (scene.point.machine.bindAt (scene.point.machine.declaree name) name.name value))
  | create {scene : Scene} {node : Node} {params : List String} {static : Option FrameId}
      {body : Body} (name : String) : node ∈ scene.code →
      node.created? = some (params, static, body) →
      Step scene (scene.withMachine (scene.point.machine.create name params static body))
  | enter {scene : Scene} {parent : Nat} {static : Option FrameId} {params : List String}
      {body : Body} (bindings : Record) :
      ¬ scene.point.machine.maxDepth ≤ scene.point.machine.depth →
      (∃ function ∈ scene.point.machine.store.functions,
        function.code = .closure scene.point.machine.realm parent static params body) →
      Step scene
        { point := scene.point.enter parent static bindings
          code := body.visit Node.stays
          suspended := scene.code :: scene.suspended }
  | leave {scene : Scene} {index caller depth : Nat} {rest : List Pending} {code : List Node}
      {others : List (List Node)} : scene.point.pending = .call index caller depth :: rest →
      scene.suspended = code :: others →
      Step scene
        { point :=
            { scene.point with
              machine := scene.point.machine.leave index caller depth
              pending := rest }
          code
          suspended := others }
  | visit {scene : Scene} {realm : Nat} :
      (∃ function ∈ scene.point.machine.store.functions, function.code.home? = some realm) →
      Step scene
        { point :=
            { scene.point with
              machine := scene.point.machine.switchTo realm
              pending := .visit scene.point.machine.realm :: scene.point.pending }
          code := []
          suspended := scene.code :: scene.suspended }
  | back {scene : Scene} {realm : Nat} {rest : List Pending} {code : List Node}
      {others : List (List Node)} : scene.point.pending = .visit realm :: rest →
      scene.suspended = code :: others →
      Step scene
        { point :=
            { scene.point with machine := scene.point.machine.switchTo realm, pending := rest }
          code
          suspended := others }
  | found (scene : Scene) : Step scene { scene with point := scene.point.found }

/-- Any number of moves. -/
abbrev Run : Scene → Scene → Prop :=
  Relation.ReflTransGen (Step programs)

variable {programs} {scene after : Scene}

/-- A step of a scene is a step of its point, or none. -/
theorem Step.point (step : Step programs scene after) :
    Configuration.Run scene.point after.point := by
  cases step with
  | start _ _ => exact .refl
  | extend extended => exact .single (.extend extended)
  | report output context => exact .single (.report _ output context)
  | define name value _ => exact .single (.bind _ 0 name value)
  | assign value _ => exact .single (.bind _ _ _ value)
  | declare value _ _ => exact .single (.bind _ _ _ value)
  | create name _ _ => exact .single (.create _ name _ _ _)
  | enter bindings allowed known => exact .single (.enter bindings allowed known)
  | leave innermost _ => exact .single (.leave innermost)
  | visit known => exact .single (.visit known)
  | back innermost _ => exact .single (.back innermost)
  | found => exact .single (.found _)

theorem Run.point (run : Run programs scene after) : Configuration.Run scene.point after.point := by
  induction run with
  | refl => exact .refl
  | tail _ step inductionHypothesis => exact inductionHypothesis.trans step.point

/-! ## Evaluation -/

variable (programs) in
/-- A failure from a scene on: if a construct is malformed, it stands in the code of a later scene. -/
def Reports (scene : Scene) (failure : Failure) : Prop :=
  ∀ diagnostic, failure = .malformed diagnostic →
    ∃ later, Run programs scene later ∧ ∃ node ∈ later.code, node.diagnostic? = some diagnostic

theorem reports_of_isMalformed {failure : Failure} (other : failure.isMalformed = false) :
    scene.Reports programs failure := by
  intro diagnostic malformed
  rw [malformed] at other
  cases other

theorem Reports.of_run {failure : Failure} (run : Run programs scene after)
    (reports : after.Reports programs failure) : scene.Reports programs failure := by
  intro diagnostic malformed
  obtain ⟨later, laterRun, found⟩ := reports diagnostic malformed
  exact ⟨later, run.trans laterRun, found⟩

variable (programs) in
/-- To be in a scene that steps lead to, with the same things in progress, is kept by evaluation. -/
def traces (start : Scene) : Regime some where
  World := Stage
  holds stage machine :=
    ∃ scene, Run programs start scene ∧ scene.point.machine = machine ∧ scene.stage = stage
  node stage node := ∃ scene, Run programs start scene ∧ scene.code = stage.code ∧ node ∈ scene.code
  fails stage failure machine :=
    (∃ scene, Run programs start scene ∧ scene.point.machine = machine ∧ scene.stage = stage) ∧
      start.Reports programs failure
  ordinary := by
    rintro _ _ _ reached ordinary
    exact ⟨reached, reports_of_isMalformed (Failure.isMalformed_of_isOrdinary ordinary)⟩
  malformed := by
    rintro _ _ node _ reached ⟨scene, run, _, member⟩ isInvalid
    refine ⟨reached, fun diagnostic malformed => ?_⟩
    cases malformed
    exact ⟨scene, run, node, member, isInvalid⟩
  resume failed _ := failed.1
  pass := by
    rintro _ _ ⟨scene, run, rfl, rfl⟩
    exact ⟨_, run.tail (.report scene scene.point.machine.output scene.point.machine.pass.context),
      rfl, rfl⟩
  stop := by
    rintro _ _ ⟨scene, run, rfl, rfl⟩ _
    exact ⟨⟨_, run.tail (.report scene scene.point.machine.output scene.point.machine.stop.context),
      rfl, rfl⟩, reports_of_isMalformed rfl⟩
  extend := by
    rintro _ _ store ⟨scene, run, rfl, rfl⟩ extended
    exact ⟨_, run.tail (.extend extended), rfl, rfl⟩
  print := by
    rintro _ _ output ⟨scene, run, rfl, rfl⟩
    exact ⟨_, run.tail (.report scene output scene.point.machine.context), rfl, rfl⟩
  cancel := by
    rintro _ _ ⟨scene, run, rfl, rfl⟩
    exact ⟨_, run.tail (.report scene scene.point.machine.output scene.point.machine.cancel.context),
      rfl, rfl⟩
  read _ _ := Machine.read?_retag_some _ _
  assignee _ _ := Machine.assignee_retag_some _ _
  assign := by
    rintro _ _ name value ⟨scene, run, rfl, rfl⟩ ⟨other, _, same, member⟩
    rw [same] at member
    exact ⟨_, run.tail (.assign value member), rfl, rfl⟩
  declaree _ _ _ := Machine.declaree_retag_some _ _
  declare := by
    rintro _ _ node name value ⟨scene, run, rfl, rfl⟩ ⟨other, _, same, member⟩ declared
    rw [same] at member
    exact ⟨_, run.tail (.declare value member declared), rfl, rfl⟩
  create := by
    rintro _ _ node params static body name ⟨scene, run, rfl, rfl⟩ ⟨other, _, same, member⟩ created
    rw [same] at member
    exact ⟨Option.bind_fun_some static, _, run.tail (.create name member created), rfl, rfl⟩
  enter := by
    rintro _ _ parent static params body ⟨scene, run, rfl, rfl⟩ allowed known
    have entered (bindings : Record) : Run programs start
        { point := scene.point.enter parent static bindings
          code := body.visit Node.stays
          suspended := scene.code :: scene.suspended } := run.tail (.enter bindings allowed known)
    let stage : Stage := ⟨(scene.point.enter parent static {}).pending, body.visit Node.stays,
      scene.code :: scene.suspended⟩
    have leaving after (reached : ∃ inner, Run programs start inner ∧ inner.point.machine = after ∧
        inner.stage = stage) :
        ∃ outer, Run programs start outer ∧
          outer.point.machine = after.leave scene.point.machine.arena.size
            scene.point.machine.current scene.point.machine.depth ∧ outer.stage = scene.stage := by
      obtain ⟨inner, innerRun, rfl, same⟩ := reached
      obtain ⟨pending, _, suspended⟩ := Stage.mk.inj same
      exact ⟨_, innerRun.tail (.leave pending suspended), rfl, rfl⟩
    refine ⟨stage, ?_, fun args => ?_, leaving, fun _ after => .imp_left (leaving after)⟩
    · intro node member
      exact ⟨_, entered {}, rfl, member⟩
    · exact ⟨_, entered (parameterRecord params args), rfl, rfl⟩
  visit := by
    rintro _ _ realm ⟨scene, run, rfl, rfl⟩ known
    let stage : Stage := ⟨.visit scene.point.machine.realm :: scene.point.pending, [],
      scene.code :: scene.suspended⟩
    have returning after (reached : ∃ inner, Run programs start inner ∧ inner.point.machine = after ∧
        inner.stage = stage) :
        ∃ outer, Run programs start outer ∧
          outer.point.machine = after.switchTo scene.point.machine.realm ∧
            outer.stage = scene.stage := by
      obtain ⟨inner, innerRun, rfl, same⟩ := reached
      obtain ⟨pending, _, suspended⟩ := Stage.mk.inj same
      exact ⟨_, innerRun.tail (.back pending suspended), rfl, rfl⟩
    exact ⟨stage, ⟨_, run.tail (.visit known), rfl, rfl⟩, returning,
      fun _ after => .imp_left (returning after)⟩

variable (programs) in
/-- What an action does in a scene is a run, after which the same things are in progress. -/
structure TracesAt {α : Type} (scene : Scene) (action : Eval α) : Prop where
  run : ∃ after, Run programs scene after ∧ after.stage = scene.stage ∧
    after.point.machine = machineOf (action.run scene.point.machine)
  fails : FailsOnly (scene.Reports programs) (action.run scene.point.machine)

theorem tracesAt_of_keeps {α : Type} {first action : Eval α}
    (kept : (traces programs scene).Keeps scene.stage first action) :
    scene.TracesAt programs action := by
  obtain ⟨_, ends⟩ := kept scene.point.machine ⟨scene, .refl, rfl, rfl⟩
  obtain ⟨after, run, machine, stage⟩ := ends.holds fun _ _ => And.left
  exact ⟨⟨after, run, stage, machine⟩, ends.failsOnly fun _ _ => And.right⟩

theorem tracesAt_eval {tree : Expr} (inCode : tree.visit Node.stays ⊆ scene.code) :
    scene.TracesAt programs (tree.eval Eval.apply) := by
  let world : (traces programs scene).World := scene.stage
  have allowed : (traces programs scene).Allows world (tree.visit Node.stays) :=
    fun _ member => ⟨scene, .refl, rfl, inCode member⟩
  exact tracesAt_of_keeps (Regime.keeps_eval (Regime.keeps_apply world) tree allowed)

theorem tracesAt_exec {tree : Stmt} (inCode : tree.visit Node.stays ⊆ scene.code) :
    scene.TracesAt programs (tree.exec Eval.apply) := by
  let world : (traces programs scene).World := scene.stage
  have allowed : (traces programs scene).Allows world (tree.visit Node.stays) :=
    fun _ member => ⟨scene, .refl, rfl, inCode member⟩
  exact tracesAt_of_keeps (Regime.keeps_exec (Regime.keeps_apply world) tree allowed)

theorem tracesAt_call (callee : Value) (args : List Value) :
    scene.TracesAt programs (Eval.call Eval.apply callee args) := by
  let world : (traces programs scene).World := scene.stage
  exact tracesAt_of_keeps (Regime.keeps_call (Regime.keeps_apply world) callee args)

theorem tracesAt_callFunction (callee : Value) (args : List Value) :
    scene.TracesAt programs (Eval.callFunction Eval.apply callee args) := by
  let world : (traces programs scene).World := scene.stage
  exact tracesAt_of_keeps (Regime.keeps_callFunction (Regime.keeps_apply world) callee args)

/-! ## Requests -/

variable (programs) in
/-- Between requests, the machine is in a scene that steps lead to, with nothing in progress. -/
def Idle (start : Scene) (machine : Machine) : Prop :=
  ∃ scene, Run programs start scene ∧ scene.point.pending = [] ∧ scene.suspended = [] ∧
    scene.point.machine = machine

section Hosting

variable {start : Scene} (sound : start.point.Sound) (rooted : start.point.Rooted)

theorem TracesAt.leaves {α : Type} {action : Eval α} (reached : Run programs start scene)
    (pending : scene.point.pending = []) (suspended : scene.suspended = [])
    (traced : scene.TracesAt programs action) :
    Leaves (start.Idle programs) (start.Reports programs) scene.point.machine action := by
  obtain ⟨⟨after, run, stage, machine⟩, fails⟩ := traced
  obtain ⟨samePending, _, sameSuspended⟩ := Stage.mk.inj stage
  constructor
  · exact ⟨after, reached.trans run, samePending.trans pending, sameSuspended.trans suspended, machine⟩
  · exact fails.mono fun _ => Reports.of_run reached

include sound

include rooted in
/-- Between requests, a program starts from the global activation. -/
theorem leaves_program {α : Type} {code : List Node} {action : Eval α} (admitted : programs code)
    (reached : Run programs start scene) (pending : scene.point.pending = [])
    (suspended : scene.suspended = [])
    (traced : ({ scene with code } : Scene).TracesAt programs action) :
    Leaves (start.Idle programs) (start.Reports programs) scene.point.machine action := by
  have current := (Configuration.Run.rooted reached.point sound rooted).current_eq_zero pending
  have begins := reached.tail (.start admitted current)
  have leaves := traced.leaves begins pending suspended
  exact leaves

/-- A program in a realm of its own starts from the global activation there. -/
theorem leaves_apart {tree : Expr} (admitted : programs (tree.visit Node.stays))
    (reached : Run programs start scene) (pending : scene.point.pending = [])
    (suspended : scene.suspended = []) :
    Leaves (start.Idle programs) (start.Reports programs) scene.point.machine.found
      (inRealm scene.point.machine.parked.size (tree.eval Eval.apply)) := by
  have running := (Configuration.Run.sound reached.point sound).1.running
  have different : scene.point.machine.parked.size ≠ scene.point.machine.found.realm :=
    Nat.ne_of_gt running
  obtain ⟨print, newest⟩ := Configuration.realmAt_found_newest scene.point.machine running
  let realm := scene.point.machine.parked.size
  let founded : Scene := { scene with point := scene.point.found }
  let arrived : Scene :=
    { point :=
        { founded.point with
          machine := founded.point.machine.switchTo realm
          pending := .visit founded.point.machine.realm :: founded.point.pending }
      code := []
      suspended := founded.code :: founded.suspended }
  have visits : Run programs start arrived := by
    refine (reached.tail (.found scene)).tail (.visit ?_)
    exact ⟨Session.printFunction realm, Array.mem_push_self, rfl⟩
  have fresh : arrived.point.machine.current = 0 := by
    have same := founded.point.machine.realmAt_switchTo
      (Nat.lt_of_lt_of_eq (Nat.lt_succ_of_lt running) (Array.size_push _).symm) realm realm
    have here : arrived.point.machine.realmAt realm = arrived.point.machine.toRealm :=
      Machine.realmAt_running _
    rw [← here]
    exact congrArg Realm.current (same.trans newest)
  have starts : Run programs start { arrived with code := tree.visit Node.stays } :=
    visits.tail (.start admitted fresh)
  have traced : ({ arrived with code := tree.visit Node.stays } : Scene).TracesAt programs
      (tree.eval Eval.apply) := tracesAt_eval (List.Subset.refl _)
  obtain ⟨⟨after, run, stage, machine⟩, fails⟩ := traced
  obtain ⟨samePending, _, sameSuspended⟩ := Stage.mk.inj stage
  have returns := (starts.trans run).tail (.back samePending sameSuspended)
  constructor
  · refine ⟨_, returns, pending, suspended, ?_⟩
    rw [Regime.run_inRealm, if_neg different, machineOf_cleaningUp]
    exact congrArg (·.switchTo scene.point.machine.realm) machine
  · rw [Regime.run_inRealm, if_neg different]
    exact (fails.mono fun _ => Reports.of_run starts).cleaningUp _

variable (programs) in
include rooted in
/-- What the requests of a host keep, if it runs only some programs. -/
def hosting (wellFormed : ∀ number text, (parseExpression number text).diagnostics = [] →
    programs ((parseExpression number text).visit Node.stays)) : Hosting where
  idle := start.Idle programs
  fails := start.Reports programs
  expr tree := programs (tree.visit Node.stays)
  stmt tree := programs (tree.visit Node.stays)
  ordinary other := reports_of_isMalformed (Failure.isMalformed_of_isOrdinary other)
  cancelled := reports_of_isMalformed rfl
  wellFormed := wellFormed
  extend := by
    rintro _ store ⟨scene, run, pending, suspended, rfl⟩ extended
    exact ⟨_, run.tail (.extend extended), pending, suspended, rfl⟩
  report := by
    rintro _ output context ⟨scene, run, pending, suspended, rfl⟩
    exact ⟨_, run.tail (.report scene output context), pending, suspended, rfl⟩
  bind := by
    rintro _ name value ⟨scene, run, pending, suspended, rfl⟩
    exact ⟨_, run.tail (.define name value pending), pending, suspended, rfl⟩
  eval := by
    rintro _ tree ⟨scene, run, pending, suspended, rfl⟩ admitted
    exact leaves_program sound rooted admitted run pending suspended
      (tracesAt_eval (List.Subset.refl _))
  exec := by
    rintro _ tree ⟨scene, run, pending, suspended, rfl⟩ admitted
    exact leaves_program sound rooted admitted run pending suspended
      (tracesAt_exec (List.Subset.refl _))
  call := by
    rintro _ callee args ⟨scene, run, pending, suspended, rfl⟩
    exact TracesAt.leaves run pending suspended (tracesAt_call callee args)
  apart := by
    rintro _ tree ⟨scene, run, pending, suspended, rfl⟩ admitted
    exact leaves_apart sound admitted run pending suspended

end Hosting

/-! ## The first scene -/

theorem rooted_initial (maxDepth : Int) (output : Output) :
    (initial maxDepth output).point.Rooted :=
  fun realm => (Configuration.realmAt_initial maxDepth output realm).2

theorem idle_initial (maxDepth : Int) (output : Output) :
    (initial maxDepth output).Idle programs (Session.new maxDepth output {}).machine :=
  ⟨_, .refl, rfl, rfl, rfl⟩

end Scene

end Reckon
