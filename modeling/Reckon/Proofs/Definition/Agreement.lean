import Reckon.Proofs.Arena.Requests
import Reckon.Proofs.Definition.Fresh

/-!
# Definitions and functions

`f(x, y) = body` makes a function without a frame, and `f = (x, y) => body` one with a frame, whose
parameters are tagged in the body.  If no tag says otherwise, the two do the same: run at the same
point, they lead to machines that differ in the frame only, and whatever runs afterwards on both gives
the same results, prints the same and leads to such machines again.
-/

namespace Reckon

open Eval Regime

/-! ## The two assignments -/

/-- Create a function and assign it to a variable. -/
def Machine.assignFunction (machine : Machine) (f : Variable) (name : String) (params : List String)
    (static : Option FrameId) (body : Body) : Machine :=
  let created := machine.create name params static body
  created.bindAt (created.assignee f) f.name (.function (.stored machine.store.functions.size))

section Runs

variable (apply : Applier) (machine : Machine) (f : Variable)

theorem Expr.run_assignment_function (outer inner : Span) (frame : FrameId) (params : List Variable)
    (body : Body) :
    ((Expr.assignment outer (.var f) (.function inner frame params body)).eval apply).run machine =
      .ok (.function (.stored machine.store.functions.size))
        (machine.assignFunction f "" (params.map (·.name)) (some frame) body) := by
  simp only [Expr.eval, EStateM.run_bind, run_newClosure, run_assignVariable]
  rfl

theorem Expr.run_assignment_definition (outer inner : Span) {args : List Expr} {params : List String}
    (names : definitionParams args = .ok params) (body : Expr) :
    ((Expr.assignment outer (.call inner (.var f) args) body).eval apply).run machine =
      .ok (.function (.stored machine.store.functions.size))
        (machine.assignFunction f f.name params none (.expr body)) := by
  simp only [Expr.eval, definition, names, definitionName, EStateM.run_bind, run_newClosure,
    run_assignVariable]
  rfl

end Runs

theorem Machine.create_retag (tags : Retagging) (machine : Machine) (name : String)
    (params : List String) (static : Option FrameId) (body : Body) :
    (machine.create name params static body).retag tags =
      (machine.retag tags).create name params (static.bind tags) (body.retag tags) := by
  simp [create, retag, Realm.retag, Store.newFunction, Store.withCode, Code.retag]

/-! ## Pairs of machines -/

namespace Comparison

variable (comparison : Comparison)

/-- A machine in which a function has the compared frame, and one in which it has none.  What runs now
is not inside of the function. -/
structure Pairs (machine other : Machine) : Prop where
  holds : ∃ layers pending, comparison.Holds (.outside :: layers) pending machine
  other : other = machine.retag (forget comparison.frame)

/-- The same value or the same failure, and machines that are a pair. -/
structure SameResult {α : Type} (first second : EStateM.Result Failure Machine α) : Prop where
  result : second = retagResult (forget comparison.frame) first
  pairs : comparison.Pairs (machineOf first) (machineOf second)

variable {comparison} {machine other : Machine}

/-- Nothing but the frames of functions and activations differs in a pair. -/
theorem Pairs.observes (pairs : comparison.Pairs machine other) :
    other.output = machine.output ∧ other.store.maps = machine.store.maps ∧
      other.store.futures = machine.store.futures ∧
        ∀ index, other.arena.bindings index = machine.arena.bindings index := by
  obtain ⟨_, rfl⟩ := pairs
  exact ⟨rfl, rfl, rfl, fun index => Arena.bindings_retag _ _ index⟩

/-- What keeps the regime gives the same results on both machines. -/
theorem Pairs.keeps {α : Type} {first second : Eval α} (pairs : comparison.Pairs machine other)
    (kept : ∀ layers pending, comparison.regime.Keeps (.outside, layers, pending) second first) :
    comparison.SameResult (first.run machine) (second.run other) := by
  obtain ⟨⟨layers, pending, held⟩, rfl⟩ := pairs
  obtain ⟨same, ends⟩ := kept layers pending machine held
  refine ⟨same, ⟨layers, pending, ends.holds fun _ _ after => after⟩, ?_⟩
  rw [same]
  cases first.run machine <;> rfl

/-- Calls of the same function do the same. -/
theorem Pairs.apply (pairs : comparison.Pairs machine other) (ref : FunctionRef) (args : List Value) :
    comparison.SameResult ((Eval.apply ref args).run machine) ((Eval.apply ref args).run other) :=
  pairs.keeps fun _ _ => Regime.keeps_apply _ ref args

/-- Programs that do not know the frame do the same. -/
theorem Pairs.execAll (pairs : comparison.Pairs machine other) {trees : List Stmt}
    (avoids : ∀ node ∈ Stmt.visitAll (fun _ => true) trees, node.Avoids comparison.frame) :
    comparison.SameResult ((Stmt.execAll Eval.apply trees).run machine)
      ((Stmt.execAll Eval.apply trees).run other) := by
  have unchanged : Stmt.retagAll (forget comparison.frame) trees = trees :=
    Stmt.retagAll_eq_self trees fun node member => (avoids node member).untouched
  refine pairs.keeps fun layers pending => ?_
  have allowed : comparison.regime.Allows (.outside, layers, pending)
      (Stmt.visitAll Node.stays trees) :=
    Layer.allows_of_walks (Stmt.walks_visitAll Node.stays trees) avoids nofun
  have kept := keeps_execAll (keeps_apply _) trees allowed
  rw [unchanged] at kept
  exact kept

end Comparison

/-! ## The two functions -/

section Definition

variable {frame : FrameId} {params : List String} {body : Expr} {point : Configuration}

/-- A body without functions and declarations is suitable if all that it tags are parameters. -/
theorem suitable_of_plain
    (plain : ∀ node ∈ (Body.expr body).nodes, node.created? = none ∧ node.declared = [])
    (names : ∀ name ∈ namesOf frame (Body.expr body).nodes, name ∈ params) :
    Suitable frame params body := by
  have guarded (inner : FrameId) : guardedBy frame (.expr body) inner = [] := by
    refine List.flatMap_eq_nil_iff.mpr fun node member => ?_
    rw [(plain node member).1]
  refine ⟨names, fun node member => ⟨fun _ _ inner _ _ => ?_, fun name declared => ?_, ?_⟩⟩
  · have nothing : (Comparison.of frame params body).guarded inner = [] := guarded inner
    rw [nothing]
    exact List.not_mem_nil
  · rw [(plain node member).2] at declared
    cases declared
  · intro _ _ _ created
    rw [(plain node member).1] at created
    cases created

/-- The body of the function is inside of it. -/
theorem Suitable.allows (suitable : Suitable frame params body) :
    ∀ node ∈ (Body.expr body).visit Node.stays,
      (Layer.inside params (some frame)).Allows (Comparison.of frame params body) node := by
  refine Layer.allows_of_body (fun node member => ⟨suitable.fits node member, ?_⟩) ?_
  · intro name occurs own
    exact suitable.names _ (mem_namesOf.mpr ⟨node, member, name, occurs, own, rfl⟩)
  · exact fun _ => body.declaresOwn _

/-- After the function is created, what runs is still outside of it. -/
theorem Suitable.holds_create (suitable : Suitable frame params body) (sound : point.Sound)
    (fresh : point.machine.Fresh frame) (name : String) :
    ∃ layers, (Comparison.of frame params body).Holds (.outside :: layers) point.pending
      (point.machine.create name params (some frame) (.expr body)) := by
  have guarded : point.Guarded (Comparison.of frame params body) _ := fresh.guarded
  have enters : (Layer.inside params (some frame)).Enters (Comparison.of frame params body)
      point.machine.arena point.machine.current (some frame) params :=
    ⟨rfl, fun _ member => member, .inl ⟨rfl, rfl⟩⟩
  have after := Comparison.Holds.step (.create point name params (some frame) (.expr body)) sound
    (guarded.create sound enters suitable.allows name)
  obtain ⟨rest, positions⟩ := point.positions_eq_cons
  rw [positions, List.map_cons] at after
  exact ⟨_, after⟩

/-- A function and the definition of the same name, parameters and body make a pair, wherever a run
stands, if the frame of the function is new there and the definition has the same body without it. -/
theorem Suitable.pairs_assignFunction (suitable : Suitable frame params body) (sound : point.Sound)
    (fresh : point.machine.Fresh frame) {f : Variable} (other : f.frame ≠ some frame) (name : String) :
    (Comparison.of frame params body).Pairs
      (point.machine.assignFunction f name params (some frame) (.expr body))
      (point.machine.assignFunction f name params none (.expr (body.retag (forget frame)))) := by
  obtain ⟨layers, held⟩ := suitable.holds_create sound fresh name
  have allows : Layer.outside.Allows (Comparison.of frame params body) (.expr (.var f)) := by
    have avoids : (Node.expr (.var f)).Avoids frame :=
      ⟨List.forall_mem_singleton.mpr other, nofun⟩
    exact ⟨avoids, nofun, nofun⟩
  have kept : (Comparison.of frame params body).regime.Keeps (.outside, layers, point.pending) _ _ :=
    keeps_assignVariable allows (.function (.stored point.machine.store.functions.size))
  obtain ⟨same, ends⟩ := kept _ held
  have forgotten : (point.machine.create name params (some frame) (.expr body)).retag (forget frame) =
      point.machine.create name params none (.expr (body.retag (forget frame))) := by
    rw [Machine.create_retag, fresh.retag_eq_self, Option.bind_some, forget, if_pos rfl, Body.retag]
  have unchanged : f.retag (forget frame) = f := Variable.retag_forget_of_ne other
  change (assignVariable (f.retag (forget frame)) _).run
    ((point.machine.create name params (some frame) (.expr body)).retag (forget frame)) = _ at same
  rw [forgotten, unchanged, run_assignVariable, run_assignVariable] at same
  refine ⟨⟨layers, point.pending, ?_⟩, ?_⟩
  · rw [run_assignVariable] at ends
    exact ends
  · exact congrArg machineOf same

/-- A new session knows no frame. -/
theorem Machine.fresh_initial (maxDepth : Int) (output : Output) (frame : FrameId) :
    (Configuration.initial maxDepth output).machine.Fresh frame where
  running activation member := by
    obtain ⟨index, inRange, rfl⟩ := Array.mem_iff_getElem.mp member
    have only : index = 0 := Nat.lt_one_iff.mp inRange
    subst only
    intro same
    cases same
  parked realm member activation inRealm := by
    rw [Array.mem_singleton.mp member] at inRealm
    rw [Array.mem_singleton.mp inRealm]
    intro same
    cases same
  functions function member _ _ _ _ _ code := by
    rw [Configuration.code_of_mem_initial member] at code
    cases code

/-- `f(x) = x` and `f = (x) => x` in a new session. -/
theorem pairs_identity :
    (Comparison.of ⟨0, 0⟩ ["x"] (.var ⟨{}, "x", some ⟨0, 0⟩⟩)).Pairs
      ((Configuration.initial 100 (.text "")).machine.assignFunction ⟨{}, "f", none⟩ "f" ["x"]
        (some ⟨0, 0⟩) (.expr (.var ⟨{}, "x", some ⟨0, 0⟩⟩)))
      ((Configuration.initial 100 (.text "")).machine.assignFunction ⟨{}, "f", none⟩ "f" ["x"] none
        (.expr (.var ⟨{}, "x", none⟩))) := by
  have plain : Suitable ⟨0, 0⟩ ["x"] (.var ⟨{}, "x", some ⟨0, 0⟩⟩) :=
    suitable_of_plain (List.forall_mem_singleton.mpr ⟨rfl, rfl⟩)
      (List.forall_mem_singleton.mpr (.head _))
  exact plain.pairs_assignFunction (Configuration.sound_initial ..) (Machine.fresh_initial ..)
    (by decide) "f"

end Definition

/-! ## Parameters of an enclosing function -/

/-- What a source prints in a new session. -/
def printedBy (source : String) : String :=
  match (Session.run "" source.toUTF8.toList).run (Session.new 100 (.text "") {}) with
  | .ok _ session => session.printed
  | .error _ session => session.printed

/-- In a definition, a parameter that is also one of an enclosing function keeps the tag of that
function, and reads its argument; in a function it does not. -/
theorem definition_reads_enclosing_parameter :
    printedBy "g = (x) => \x7b f(x) = x; return f(\"inner\") \x7d\nprint(g(\"outer\"))" = "outer\n" ∧
      printedBy "g = (x) => \x7b f = (x) => x; return f(\"inner\") \x7d\nprint(g(\"outer\"))" =
        "inner\n" := by
  decide +kernel

end Reckon
