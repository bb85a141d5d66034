import Reckon.Proofs.Definition.Guarded

/-!
# Forgetting a frame

At a guarded point it makes no difference if the compared frame is forgotten everywhere: every variable
has the same value and is set in the same activation.  So guarded points and the change of tags that
forgets the frame make a regime, and whatever runs does the same with and without the frame.
-/

namespace Reckon

/-- Forget one frame. -/
def forget (frame : FrameId) : Retagging :=
  fun other => if other = frame then none else some other

theorem bind_forget_of_ne {frame : FrameId} {static : Option FrameId} (other : static ≠ some frame) :
    static.bind (forget frame) = static := by
  cases static with
  | none =>
      rfl
  | some inner =>
      have different : inner ≠ frame := fun same => other (congrArg some same)
      simp [forget, different]

theorem Variable.retag_forget_of_ne {frame : FrameId} {name : Variable}
    (other : name.frame ≠ some frame) : name.retag (forget frame) = name := by
  rw [retag, bind_forget_of_ne other]

theorem Variable.frame_retag_forget {frame : FrameId} {name : Variable}
    (own : name.frame = some frame) : (name.retag (forget frame)).frame = none := by
  simp [retag, own, forget]

namespace Arena

variable {frame : FrameId} {arena : Arena}

theorem owner?_retag_forget {static : Option FrameId} (other : static ≠ some frame) (index : Nat) :
    (arena.retag (forget frame)).owner? index static = arena.owner? index static := by
  cases static with
  | none =>
      rfl
  | some inner =>
      have blind (activation : Activation) :
          ((activation.retag (forget frame)).static == some inner) =
            (activation.static == some inner) := by
        by_cases own : activation.static = some frame
        · have different : ¬ frame = inner := fun same => other (congrArg some same.symm)
          simp [Activation.retag, own, forget, different]
        · rw [Activation.retag, bind_forget_of_ne own]
      simp only [owner?, find?, size_retag]
      rw [arena.findFrom_retag (forget frame) blind, Option.map_map]
      rfl

end Arena

namespace Machine

variable {comparison : Comparison} {machine : Machine} {name : Variable}

theorem tagged?_forget {frame : FrameId} (other : name.frame ≠ some frame) :
    (machine.retag (forget frame)).tagged? name = machine.tagged? name := by
  unfold tagged?
  cases tagged : name.frame with
  | none =>
      rfl
  | some inner =>
      rw [tagged] at other
      exact Arena.owner?_retag_forget other machine.current

theorem binder_retag (tags : Retagging) (text : String) :
    (machine.retag tags).binder text = machine.binder text := by
  have same : (machine.retag tags).current = machine.current := rfl
  rw [binder, arena_retag, Arena.find?_contains_retag, same, binder]
  cases machine.arena.find? machine.current fun activation =>
    activation.bindings.contains text <;> rfl

/-- A variable with another tag. -/
theorem read?_forget_of_ne (other : name.frame ≠ some comparison.frame) :
    (machine.retag (forget comparison.frame)).read? (name.retag (forget comparison.frame)) =
      machine.read? name := by
  rw [Variable.retag_forget_of_ne other, read?, tagged?_forget other, arena_retag, read?]
  simp only [Arena.bindings_retag, Arena.lookup?_retag]
  rfl

theorem assignee_forget_of_ne (other : name.frame ≠ some comparison.frame) :
    (machine.retag (forget comparison.frame)).assignee (name.retag (forget comparison.frame)) =
      machine.assignee name := by
  rw [Variable.retag_forget_of_ne other, assignee, tagged?_forget other, binder_retag, assignee]

section Own

variable (own : name.frame = some comparison.frame)
  (clear : machine.arena.Clear comparison name.name machine.current)
  (supplied : machine.arena.Supplied comparison) (isParam : name.name ∈ comparison.params)

include own clear supplied isParam

theorem tagged?_of_clear :
    machine.tagged? name = (machine.arena.find? machine.current fun activation =>
      activation.bindings.contains name.name).map Prod.fst := by
  rw [Arena.find?, ← clear.findFrom_eq supplied isParam, tagged?, own]
  rfl

/-- A parameter: the activation of the frame is the innermost one that binds its name. -/
theorem read?_forget_own :
    (machine.retag (forget comparison.frame)).read? (name.retag (forget comparison.frame)) =
      machine.read? name := by
  have untagged : (machine.retag (forget comparison.frame)).tagged?
      (name.retag (forget comparison.frame)) = none := by
    rw [tagged?, Variable.frame_retag_forget own]
  have inside : ((machine.tagged? name).bind fun owner =>
      (machine.arena.bindings owner).get? name.name) =
        machine.arena.lookup? machine.current name.name := by
    rw [tagged?_of_clear own clear supplied isParam, Arena.lookup?]
    cases found : machine.arena.find? machine.current fun activation =>
      activation.bindings.contains name.name with
    | none =>
        rfl
    | some entry =>
        have isEntry := (Arena.getElem?_of_findFrom found).1
        simp [Arena.bindings, isEntry]
  have sameName : (name.retag (forget comparison.frame)).name = name.name := rfl
  have sameCurrent : (machine.retag (forget comparison.frame)).current = machine.current := rfl
  rw [read?, read?, untagged, inside, arena_retag, Arena.lookup?_retag, sameName, sameCurrent]
  cases machine.arena.lookup? machine.current name.name with
  | none =>
      rfl
  | some value =>
      rfl

theorem assignee_forget_own :
    (machine.retag (forget comparison.frame)).assignee (name.retag (forget comparison.frame)) =
      machine.assignee name := by
  have untagged : (machine.retag (forget comparison.frame)).tagged?
      (name.retag (forget comparison.frame)) = none := by
    rw [tagged?, Variable.frame_retag_forget own]
  have sameName : (name.retag (forget comparison.frame)).name = name.name := rfl
  rw [assignee, untagged, binder_retag, sameName, assignee,
    tagged?_of_clear own clear supplied isParam]
  unfold binder
  cases machine.arena.find? machine.current fun activation =>
    activation.bindings.contains name.name <;> rfl

end Own

theorem declaree_forget (other : name.frame ≠ some comparison.frame) :
    (machine.retag (forget comparison.frame)).declaree (name.retag (forget comparison.frame)) =
      machine.declaree name := by
  rw [Variable.retag_forget_of_ne other, declaree, arena_retag, Arena.owner?_retag_forget other,
    declaree]
  rfl

end Machine

/-! ## Where names may be bound -/

namespace Arena

variable {comparison : Comparison} {arena : Arena} {index : Nat} {name : String}

theorem Sound.admits_global (sound : arena.Sound) : arena.Admits comparison 0 name := by
  intro activation found under other
  obtain ⟨first, firstFound, outermost⟩ := sound.global
  rw [found] at firstFound
  cases firstFound
  obtain ⟨parent, isParent, _⟩ := under.parent found other
  rw [outermost] at isParent
  cases isParent

/-- The activation of a frame, if the name is not kept free there. -/
theorem Sound.admits_owner (sound : arena.Sound) {static : Option FrameId} {owner : Nat}
    (found : arena.owner? index static = some owner)
    (free : arena.Under comparison index → ∀ frame, static = some frame →
      frame ≠ comparison.frame → name ∉ comparison.guarded frame) :
    arena.Admits comparison owner name := by
  cases static with
  | none =>
      cases found
      exact sound.admits_global
  | some frame =>
      obtain ⟨entry, isEntry, rfl⟩ := Option.map_eq_some_iff.mp found
      obtain ⟨entryFound, isFrame⟩ := getElem?_of_findFrom isEntry
      rw [beq_iff_eq] at isFrame
      have member : entry ∈ arena.chainFrom arena.size index := by
        rw [find?, findFrom_eq_find?] at isEntry
        exact List.mem_of_find?_eq_some isEntry
      intro activation activationFound under other
      rw [entryFound] at activationFound
      cases activationFound
      refine .inr ⟨frame, isFrame, free (under.of_mem_chainFrom member) frame rfl ?_⟩
      rintro rfl
      exact other isFrame

end Arena

namespace Machine

variable {comparison : Comparison} {machine : Machine} {name : Variable}

theorem admits_binder (sound : machine.arena.Sound) (text : String) :
    machine.arena.Admits comparison (machine.binder text) text := by
  unfold binder
  split
  · next entry found =>
    obtain ⟨entryFound, bound⟩ := Arena.getElem?_of_findFrom found
    intro activation activationFound _ _
    rw [entryFound] at activationFound
    cases activationFound
    exact .inl bound
  · exact sound.admits_global

theorem admits_assignee (sound : machine.arena.Sound)
    (free : machine.arena.Under comparison machine.current → ∀ frame, name.frame = some frame →
      frame ≠ comparison.frame → name.name ∉ comparison.guarded frame) :
    machine.arena.Admits comparison (machine.assignee name) name.name := by
  unfold assignee
  cases tagged : machine.tagged? name with
  | none =>
      exact admits_binder sound name.name
  | some owner =>
      unfold tagged? at tagged
      split at tagged
      · cases tagged
      · exact sound.admits_owner tagged free

theorem admits_declaree (sound : machine.arena.Sound)
    (free : machine.arena.Under comparison machine.current → ∀ frame, name.frame = some frame →
      frame ≠ comparison.frame → name.name ∉ comparison.guarded frame)
    (here : machine.arena.Under comparison machine.current → name.frame = none ∨
      ∃ activation, machine.arena.activations[machine.current]? = some activation ∧
        activation.static = name.frame) :
    machine.arena.Admits comparison (machine.declaree name) name.name := by
  unfold declaree
  cases owned : machine.arena.owner? machine.current name.frame with
  | some owner =>
      exact sound.admits_owner owned free
  | none =>
      intro activation found under other
      rcases here under with untagged | ⟨_, currentFound, isFrame⟩
      · rw [untagged] at owned
        cases owned
      · rw [Option.getD_none] at found
        rw [found] at currentFound
        cases currentFound
        cases tagged : name.frame with
        | none =>
            rw [tagged] at owned
            cases owned
        | some frame =>
            rw [tagged] at isFrame
            refine .inr ⟨frame, isFrame, free under frame tagged ?_⟩
            rintro rfl
            exact other isFrame

end Machine

/-! ## The regime -/

theorem Node.mem_occurrences_of_declared {node : Node} {name : Variable}
    (declared : name ∈ node.declared) : name ∈ node.occurrences := by
  unfold occurrences
  split
  · cases declared
  · exact declared

namespace Layer

variable {comparison : Comparison} {layer : Layer} {machine : Machine} {node : Node}
  {name : Variable}

/-- A variable of a tree that runs under the frame has no name that is kept free. -/
theorem Suits.free (suits : layer.Suits comparison node)
    (here : layer.At comparison machine.arena machine.current) (occurs : name ∈ node.occurrences)
    (under : machine.arena.Under comparison machine.current) (frame : FrameId)
    (tagged : name.frame = some frame) (other : frame ≠ comparison.frame) :
    name.name ∉ comparison.guarded frame := by
  cases layer with
  | idle =>
      exact suits.elim
  | outside =>
      exact absurd under here
  | inside live static =>
      exact suits.1.occurrences name occurs frame tagged other

/-- A variable of the frame is a parameter that no activation shadows. -/
theorem Suits.clear (suits : layer.Suits comparison node)
    (here : layer.At comparison machine.arena machine.current) (occurs : name ∈ node.occurrences)
    (own : name.frame = some comparison.frame) :
    name.name ∈ comparison.params ∧ machine.arena.Clear comparison name.name machine.current := by
  cases layer with
  | idle =>
      exact suits.elim
  | outside =>
      exact absurd own (suits.occurrences name occurs)
  | inside live static =>
      exact here.2.2 name.name (suits.2 name occurs own)

theorem Suits.declared (suits : layer.Suits comparison node) (declared : name ∈ node.declared) :
    name.frame ≠ some comparison.frame := by
  cases layer with
  | idle =>
      exact suits.elim
  | outside =>
      exact suits.occurrences name (Node.mem_occurrences_of_declared declared)
  | inside live static =>
      exact suits.1.declared name declared

/-- A declaration is for the function that runs. -/
theorem Allows.current (allows : layer.Allows comparison node)
    (here : layer.At comparison machine.arena machine.current) (declared : name ∈ node.declared)
    (under : machine.arena.Under comparison machine.current) :
    name.frame = none ∨ ∃ activation,
      machine.arena.activations[machine.current]? = some activation ∧
        activation.static = name.frame := by
  cases layer with
  | idle =>
      exact allows.here.elim
  | outside =>
      exact absurd under here
  | inside live static =>
      obtain ⟨_, ⟨activation, found, isStatic⟩, _⟩ := here
      rcases allows.declared rfl name declared with untagged | tagged
      · exact .inl untagged
      · exact .inr ⟨activation, found, isStatic.trans tagged.symm⟩

/-- A function that is created is at a layer. -/
theorem Allows.enters (allows : layer.Allows comparison node)
    (here : layer.At comparison machine.arena machine.current) {params : List String}
    {static : Option FrameId} {body : Body} (created : node.created? = some (params, static, body)) :
    static ≠ some comparison.frame ∧ ∃ inner : Layer,
      inner.Enters comparison machine.arena machine.current static params ∧
        ∀ other ∈ body.visit Node.stays, inner.Allows comparison other := by
  cases layer with
  | idle =>
      exact allows.here.elim
  | outside =>
      have other := allows.here.created created
      refine ⟨other, outside, ⟨other, here⟩, allows_of_body (allows.created created) ?_⟩
      intro live static same
      cases same
  | inside live outer =>
      have fits := allows.here.1.created created
      obtain ⟨under, _, clear⟩ := here
      refine ⟨fits.other, inside (namesOf comparison.frame body.nodes) static,
        ⟨rfl, fun name member => ?_, .inr ⟨fits.other, under, fun name member => ?_⟩⟩,
        allows_of_body (fun other member => ⟨?_, fun name occurs own => ?_⟩) ?_⟩
      · exact (clear name (allows.live created member)).1
      · exact ⟨(clear name (allows.live created member)).2, fits.params name member,
          fits.guarded name member⟩
      · exact (allows.created created other member).1
      · exact mem_namesOf.mpr ⟨other, member, name, occurs, own, rfl⟩
      · intro live static same
        cases same
        exact fits.declares

end Layer

namespace Comparison

variable (comparison : Comparison)

/-- The machine of a guarded point, with the layers and the calls in progress. -/
def Holds (layers : List Layer) (pending : List Pending) (machine : Machine) : Prop :=
  ∃ point : Configuration, point.machine = machine ∧ point.pending = pending ∧ point.Sound ∧
    point.Guarded comparison layers

variable {comparison} {layers : List Layer} {pending : List Pending} {machine : Machine}

theorem Holds.sound (held : comparison.Holds layers pending machine) : machine.arena.Sound := by
  obtain ⟨point, rfl, _, sound, _⟩ := held
  exact sound.arena

theorem Holds.supplied (held : comparison.Holds layers pending machine) :
    machine.arena.Supplied comparison := by
  obtain ⟨point, rfl, _, _, guarded⟩ := held
  exact guarded.supplied_running

theorem Holds.here {layer : Layer} (held : comparison.Holds (layer :: layers) pending machine) :
    layer.At comparison machine.arena machine.current := by
  obtain ⟨point, rfl, _, _, guarded⟩ := held
  have layered := guarded.layers
  obtain ⟨rest, positions⟩ := point.positions_eq_cons
  rw [positions] at layered
  cases layered with
  | cons first _ =>
      rw [Machine.realmAt_running] at first
      exact first

theorem Holds.step {point after : Configuration} {kept : List Layer} (step : point.Step after)
    (sound : point.Sound) (guarded : after.Guarded comparison kept) :
    comparison.Holds kept after.pending after.machine :=
  ⟨after, rfl, rfl, (step.sound sound).1, guarded⟩

variable (comparison)

/-- What runs does the same when the frame is forgotten. -/
def regime : Regime (forget comparison.frame) where
  World := Layer × List Layer × List Pending
  holds world machine := comparison.Holds (world.1 :: world.2.1) world.2.2 machine
  node world node := world.1.Allows comparison node
  fails world _ machine := comparison.Holds (world.1 :: world.2.1) world.2.2 machine
  ordinary held _ := held
  malformed held _ _ := held
  resume held _ := held
  pass := by
    rintro ⟨_, _, _⟩ _ ⟨point, rfl, rfl, sound, guarded⟩
    exact .step (.report point point.machine.output point.machine.pass.context) sound
      (guarded.report sound _ _)
  stop := by
    rintro ⟨_, _, _⟩ _ ⟨point, rfl, rfl, sound, guarded⟩ _
    exact .step (.report point point.machine.output point.machine.stop.context) sound
      (guarded.report sound _ _)
  extend := by
    rintro ⟨_, _, _⟩ _ store ⟨point, rfl, rfl, sound, guarded⟩ extended
    exact .step (.extend extended) sound (guarded.extend sound extended)
  print := by
    rintro ⟨_, _, _⟩ _ output ⟨point, rfl, rfl, sound, guarded⟩
    exact .step (.report point output point.machine.context) sound (guarded.report sound _ _)
  cancel := by
    rintro ⟨_, _, _⟩ _ ⟨point, rfl, rfl, sound, guarded⟩
    exact .step (.report point point.machine.output point.machine.cancel.context) sound
      (guarded.report sound _ _)
  read := by
    intro world machine name held allows
    have occurs : name ∈ (Node.expr (.var name)).occurrences := List.mem_singleton_self name
    by_cases own : name.frame = some comparison.frame
    · obtain ⟨isParam, clear⟩ := allows.here.clear held.here occurs own
      exact Machine.read?_forget_own own clear held.supplied isParam
    · exact Machine.read?_forget_of_ne own
  assignee := by
    intro world machine name held allows
    have occurs : name ∈ (Node.expr (.var name)).occurrences := List.mem_singleton_self name
    by_cases own : name.frame = some comparison.frame
    · obtain ⟨isParam, clear⟩ := allows.here.clear held.here occurs own
      exact Machine.assignee_forget_own own clear held.supplied isParam
    · exact Machine.assignee_forget_of_ne own
  assign := by
    intro world machine name value held allows
    have occurs : name ∈ (Node.expr (.var name)).occurrences := List.mem_singleton_self name
    have admits := Machine.admits_assignee held.sound (allows.here.free held.here occurs)
    obtain ⟨point, rfl, samePending, sound, guarded⟩ := held
    have after := Holds.step (.bind point _ name.name value) sound (guarded.bind sound admits value)
    rwa [samePending] at after
  declaree := by
    intro world machine node name _ allows declared
    exact Machine.declaree_forget (allows.here.declared declared)
  declare := by
    intro world machine node name value held allows declared
    have occurs := Node.mem_occurrences_of_declared declared
    have admits := Machine.admits_declaree held.sound (allows.here.free held.here occurs)
      (allows.current held.here declared)
    obtain ⟨point, rfl, samePending, sound, guarded⟩ := held
    have after := Holds.step (.bind point _ name.name value) sound (guarded.bind sound admits value)
    rwa [samePending] at after
  create := by
    intro world machine node params static body name held allows created
    obtain ⟨other, inner, enters, inside⟩ := allows.enters held.here created
    obtain ⟨point, rfl, samePending, sound, guarded⟩ := held
    have after := Holds.step (.create point name params static body) sound
      (guarded.create sound enters inside name)
    rw [samePending] at after
    exact ⟨bind_forget_of_ne other, after⟩
  enter := by
    rintro ⟨layer, layers, _⟩ _ parent static params body ⟨point, rfl, rfl, sound, guarded⟩ allowed
      known
    obtain ⟨function, member, code⟩ := known
    obtain ⟨inner, enters, inside⟩ := guarded.closures function member _ _ _ _ _ code
    rw [Machine.realmAt_running] at enters
    have leaving after (held : comparison.Holds (inner :: layer :: layers)
        (.call point.machine.arena.size point.machine.current point.machine.depth :: point.pending)
        after) :
        comparison.Holds (layer :: layers) point.pending
          (after.leave point.machine.arena.size point.machine.current point.machine.depth) := by
      obtain ⟨last, rfl, innermost, lastSound, lastGuarded⟩ := held
      exact .step (.leave innermost) lastSound (lastGuarded.leave lastSound innermost)
    refine ⟨(inner, layer :: layers, .call point.machine.arena.size point.machine.current
      point.machine.depth :: point.pending), inside, fun args => ?_, leaving, fun _ => leaving⟩
    exact .step (.enter (Eval.parameterRecord params args) allowed ⟨function, member, code⟩) sound
      (guarded.enter sound ⟨function, member, code⟩ enters args)
  visit := by
    rintro ⟨layer, layers, _⟩ _ realm ⟨point, rfl, rfl, sound, guarded⟩ known
    have returning after (held : comparison.Holds (.idle :: layer :: layers)
        (.visit point.machine.realm :: point.pending) after) :
        comparison.Holds (layer :: layers) point.pending (after.switchTo point.machine.realm) := by
      obtain ⟨last, rfl, innermost, lastSound, lastGuarded⟩ := held
      have layered := lastGuarded.layers
      rw [Configuration.positions, innermost, Configuration.positionsFrom] at layered
      cases layered with
      | cons _ outer =>
          exact .step (.back innermost) lastSound (lastGuarded.switch lastSound _ _ outer)
    refine ⟨(.idle, layer :: layers, .visit point.machine.realm :: point.pending), ?_, returning,
      fun _ => returning⟩
    exact .step (.visit known) sound (guarded.switch sound realm _ (.cons trivial guarded.layers))

end Comparison

end Reckon
