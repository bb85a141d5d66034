import Reckon.Proofs.Scene.Steps

/-!
# Where code stands

Code stands in a program, within functions.  Each of these functions that has a frame has an activation
around the current one, in the same order: the frames of the activations from the current one outwards
are the frames of the functions around the code.  This is so for what runs, for what waits, and for the
body of every function at the place where it was created.
-/

namespace Reckon

/-! ## Frames of activations -/

namespace Arena

/-- The frames of the activations from `index` outwards.  The global activation has none, and neither
has that of a definition. -/
def statics (arena : Arena) (index : Nat) : List FrameId :=
  (arena.chain index).filterMap fun entry => entry.2.static

/-- Activations that are in both arenas have the same place and frame. -/
def Outlines (before after : Arena) : Prop :=
  ∀ (index : Nat) (earlier later : Activation), before.activations[index]? = some earlier →
    after.activations[index]? = some later →
    later.parent = earlier.parent ∧ later.static = earlier.static

variable {arena before after : Arena} {index : Nat}

theorem Sound.statics_eq (sound : arena.Sound) {activation : Activation}
    (found : arena.activations[index]? = some activation) :
    arena.statics index = activation.static.toList ++
      match activation.parent with
      | none => []
      | some parent => arena.statics parent := by
  have inRange : index < arena.size := (Array.getElem?_eq_some_iff.mp found).1
  obtain ⟨bound, size⟩ := Nat.exists_eq_succ_of_ne_zero (Nat.ne_zero_of_lt inRange)
  have chain : arena.chain index = (index, activation) ::
      match activation.parent with
      | none => []
      | some parent => arena.chain parent := by
    rw [Arena.chain, size, chainFrom, found]
    dsimp only
    cases outer : activation.parent with
    | none =>
        rfl
    | some parent =>
        obtain ⟨before, _⟩ := sound.parent found outer
        have enough : parent < bound := Nat.lt_of_lt_of_le before (Nat.le_of_lt_succ (size ▸ inRange))
        dsimp only
        rw [sound.chainFrom_eq enough (Nat.lt_trans before inRange)]
        rfl
  unfold statics
  rw [chain, List.filterMap_cons]
  dsimp only
  cases activation.static <;> cases activation.parent <;> rfl

theorem Outlines.statics (outlines : before.Outlines after) (sound : before.Sound)
    (laterSound : after.Sound) (inBefore : index < before.size) (inAfter : index < after.size) :
    after.statics index = before.statics index := by
  induction index using Nat.strongRecOn with
  | ind index inductionHypothesis =>
      have found := Array.getElem?_eq_getElem inBefore
      have laterFound := Array.getElem?_eq_getElem inAfter
      obtain ⟨sameParent, sameStatic⟩ := outlines index _ _ found laterFound
      rw [sound.statics_eq found, laterSound.statics_eq laterFound, sameStatic, sameParent]
      cases outer : before.activations[index].parent with
      | none =>
          rfl
      | some parent =>
          obtain ⟨less, _⟩ := sound.parent found outer
          dsimp only
          rw [inductionHypothesis parent less (Nat.lt_trans less inBefore)
            (Nat.lt_trans less inAfter)]

theorem outlines_refl (arena : Arena) : arena.Outlines arena := by
  intro index earlier later found laterFound
  rw [found] at laterFound
  cases laterFound
  exact ⟨rfl, rfl⟩

theorem IsGentle.outlines {change : Activation → Activation} (gentle : IsGentle change)
    (arena : Arena) (index : Nat) : arena.Outlines (arena.modify index change) := by
  intro place earlier later found laterFound
  rw [getElem?_modify, found] at laterFound
  split at laterFound
  · cases laterFound
    exact ⟨(gentle earlier).parent, (gentle earlier).static⟩
  · cases laterFound
    exact ⟨rfl, rfl⟩

/-- A new arena has no activation but the global one. -/
theorem statics_set_new (name : String) (value : Value) : (set {} 0 name value).statics 0 = [] := by
  have gentle := isGentle_set name value
  exact (gentle.outlines {} 0).statics sound_new (gentle.sound sound_new 0) Nat.zero_lt_one
    Nat.zero_lt_one

theorem outlines_enter (arena : Arena) (parent : Nat) (static : Option FrameId)
    (bindings : Record) : arena.Outlines (arena.enter parent static bindings) := by
  intro place earlier later found laterFound
  cases eq_of_getElem?_enter found laterFound
  exact ⟨rfl, rfl⟩

theorem outlines_release (arena : Arena) (index : Nat) : arena.Outlines (arena.release index) := by
  intro place earlier later found laterFound
  cases eq_of_getElem?_release found laterFound
  exact ⟨rfl, rfl⟩

theorem statics_enter (sound : arena.Sound) {parent : Nat} (captured : arena.Captured parent)
    (static : Option FrameId) (bindings : Record) :
    (arena.enter parent static bindings).statics arena.size =
      static.toList ++ arena.statics parent := by
  have entered := sound.enter captured static bindings
  have found : (arena.enter parent static bindings).activations[arena.size]? =
      some { parent := some parent, static, bindings } := by
    rw [getElem?_enter, if_pos rfl]
  have inAfter : parent < (arena.enter parent static bindings).size :=
    ((arena.preserves_enter parent static bindings).captured captured).lt_size
  rw [entered.statics_eq found]
  dsimp only
  rw [(arena.outlines_enter parent static bindings).statics sound entered captured.lt_size inAfter]

/-- A frame of an activation around the current one is found, at an activation of that frame. -/
theorem owner?_of_mem_statics {frame : FrameId} (member : frame ∈ arena.statics index) :
    ∃ owner activation, arena.owner? index (some frame) = some owner ∧
      (owner, activation) ∈ arena.chain index ∧ activation.static = some frame := by
  obtain ⟨entry, onChain, isStatic⟩ := List.mem_filterMap.mp member
  let test (entry : Nat × Activation) : Bool := entry.2.static == some frame
  have exists_ : ((arena.chain index).find? test).isSome := by
    rw [List.find?_isSome]
    exact ⟨entry, onChain, by simp [test, isStatic]⟩
  obtain ⟨found, isFound⟩ := Option.isSome_iff_exists.mp exists_
  refine ⟨found.1, found.2, ?_, List.mem_of_find?_eq_some isFound, ?_⟩
  · rw [owner?, find?, findFrom_eq_find?]
    exact congrArg (Option.map Prod.fst) isFound
  · simpa [test] using List.find?_some isFound

end Arena

/-! ## Standing -/

/-- Code stands within functions of a program, whose frames are given from the inside out.  A definition
has no frame.  No code at all stands anywhere. -/
inductive Stands (programs : List Node → Prop) : List FrameId → List Node → Prop
  | idle (frames : List FrameId) : Stands programs frames []
  | program {code : List Node} : programs code → Stands programs [] code
  | inside {frames : List FrameId} {code : List Node} {node : Node} {params : List String}
      {static : Option FrameId} {body : Body} : Stands programs frames code → node ∈ code →
      node.created? = some (params, static, body) →
      Stands programs (static.toList ++ frames) (body.visit Node.stays)

namespace Scene

variable {programs : List Node → Prop} {scene after : Scene}

variable (programs) in
/-- What runs at some places stands within the functions of the activations there. -/
abbrev StandsAt (machine : Machine) : List (Nat × Nat) → List (List Node) → Prop :=
  List.Forall₂ fun position code =>
    Stands programs ((machine.realmAt position.1).arena.statics position.2) code

variable (programs) in
/-- All code stands within the functions of its activations. -/
structure Placed (scene : Scene) : Prop where
  globals : ∀ realm, (scene.point.machine.realmAt realm).arena.statics 0 = []
  closures : ∀ function ∈ scene.point.machine.store.functions, ∀ realm parent static params body,
    function.code = .closure realm parent static params body →
      Stands programs
        (static.toList ++ (scene.point.machine.realmAt realm).arena.statics parent)
        (body.visit Node.stays)
  places : StandsAt programs scene.point.machine scene.point.positions
    (scene.code :: scene.suspended)

theorem standsAt_of_statics {machine later : Machine} {positions : List (Nat × Nat)}
    {codes : List (List Node)} (stands : StandsAt programs machine positions codes)
    (same : ∀ position ∈ positions, (later.realmAt position.1).arena.statics position.2 =
      (machine.realmAt position.1).arena.statics position.2) :
    StandsAt programs later positions codes := by
  induction stands with
  | nil =>
      exact .nil
  | cons head _ inductionHypothesis =>
      obtain ⟨first, rest⟩ := List.forall_mem_cons.mp same
      refine .cons ?_ (inductionHypothesis rest)
      rw [first]
      exact head

theorem Placed.here (placed : scene.Placed programs) :
    Stands programs (scene.point.machine.arena.statics scene.point.machine.current) scene.code := by
  have places := placed.places
  obtain ⟨rest, positions⟩ := scene.point.positions_eq_cons
  rw [positions] at places
  cases places with
  | cons head _ =>
      rw [Machine.realmAt_running] at head
      exact head

section Advances

variable (placed : scene.Placed programs) (sound : scene.point.Sound)
  (advances : scene.point.Advances after.point)
  (outlines : scene.point.machine.arena.Outlines after.point.machine.arena)

include sound advances outlines

/-- The frames around an activation stay the same. -/
theorem statics_of_advances {realm index : Nat}
    (inBefore : index < (scene.point.machine.realmAt realm).arena.size)
    (inAfter : index < (after.point.machine.realmAt realm).arena.size) :
    (after.point.machine.realmAt realm).arena.statics index =
      (scene.point.machine.realmAt realm).arena.statics index := by
  have laterSound := advances.sound sound
  by_cases same : realm = scene.point.machine.realm
  · have later := laterSound.arenas realm
    rw [same, Machine.realmAt_running] at inBefore
    rw [same, advances.realmAt_running] at inAfter later
    rw [same, advances.realmAt_running, Machine.realmAt_running]
    exact outlines.statics sound.arena later inBefore inAfter
  · rw [advances.realmAt_of_ne same]

theorem standsAt_of_advances {positions : List (Nat × Nat)} {codes : List (List Node)}
    (stands : StandsAt programs scene.point.machine positions codes)
    (inBefore : positions ⊆ scene.point.positions) (inAfter : positions ⊆ after.point.positions) :
    StandsAt programs after.point.machine positions codes := by
  have laterSound := advances.sound sound
  refine standsAt_of_statics stands fun position member => ?_
  exact statics_of_advances sound advances outlines (sound.lt_of_mem_positions (inBefore member))
    (laterSound.lt_of_mem_positions (inAfter member))

include placed

/-- What a move of the running realm keeps.  A new function of the program stands where it was
created. -/
theorem Placed.advance
    (added : ∀ function ∈ after.point.machine.store.functions,
      (∃ earlier ∈ scene.point.machine.store.functions, earlier.code = function.code) ∨
      ∀ realm parent static params body, function.code = .closure realm parent static params body →
        Stands programs
          (static.toList ++ (after.point.machine.realmAt realm).arena.statics parent)
          (body.visit Node.stays))
    (places : StandsAt programs after.point.machine after.point.positions
      (after.code :: after.suspended)) :
    after.Placed programs := by
  have laterSound := advances.sound sound
  constructor
  case globals =>
    intro realm
    rw [statics_of_advances sound advances outlines (sound.arenas realm).size_pos
      (laterSound.arenas realm).size_pos]
    exact placed.globals realm
  case closures =>
    intro function member realm parent static params body isClosure
    rcases added function member with ⟨earlier, isEarlier, same⟩ | new
    · have earlierClosure := same.trans isClosure
      have before := sound.closures earlier isEarlier realm parent static params body earlierClosure
      have later := laterSound.closures function member realm parent static params body isClosure
      rw [statics_of_advances sound advances outlines before.lt_size later.lt_size]
      exact placed.closures earlier isEarlier realm parent static params body earlierClosure
    · exact new realm parent static params body isClosure
  case places => exact places

/-- A move that starts and ends no call. -/
theorem Placed.advance_within (pending : after.point.pending = scene.point.pending)
    (current : after.point.machine.current = scene.point.machine.current)
    (code : after.code = scene.code) (suspended : after.suspended = scene.suspended)
    (added : ∀ function ∈ after.point.machine.store.functions,
      (∃ earlier ∈ scene.point.machine.store.functions, earlier.code = function.code) ∨
      ∀ realm parent static params body, function.code = .closure realm parent static params body →
        Stands programs
          (static.toList ++ (after.point.machine.realmAt realm).arena.statics parent)
          (body.visit Node.stays)) :
    after.Placed programs := by
  have positions := advances.positions_eq pending current
  refine placed.advance sound advances outlines added ?_
  rw [positions, code, suspended]
  exact standsAt_of_advances sound advances outlines placed.places (List.Subset.refl _)
    (by rw [positions]; exact List.Subset.refl _)

end Advances

/-- Which realm runs does not matter. -/
theorem Placed.switch (placed : scene.Placed programs) (sound : scene.point.Sound) {target : Nat}
    {pending : List Pending} {code : List Node} {suspended : List (List Node)}
    (places : StandsAt programs scene.point.machine
      (Configuration.positionsFrom (fun realm => (scene.point.machine.realmAt realm).current) target
        pending) (code :: suspended)) :
    Placed programs
      { point := { scene.point with machine := scene.point.machine.switchTo target, pending }
        code, suspended } := by
  have same := scene.point.machine.realmAt_switchTo sound.running target
  constructor
  case globals =>
    intro realm
    rw [same]
    exact placed.globals realm
  case closures =>
    intro function member realm parent static params body isClosure
    rw [same]
    exact placed.closures function member realm parent static params body isClosure
  case places =>
    simp only [Configuration.positions, StandsAt, same]
    exact places

/-! ## Steps and runs -/

/-- The functions are the same as before. -/
theorem added_of_eq {before later : Store} {stands : Function → Prop}
    (same : later.functions = before.functions) :
    ∀ function ∈ later.functions,
      (∃ earlier ∈ before.functions, earlier.code = function.code) ∨ stands function := by
  intro function member
  rw [same] at member
  exact .inl ⟨function, member, rfl⟩

theorem Placed.start (placed : scene.Placed programs) {code : List Node} (admitted : programs code)
    (global : scene.point.machine.current = 0) : Placed programs { scene with code } := by
  refine ⟨placed.globals, placed.closures, ?_⟩
  have places := placed.places
  obtain ⟨rest, positions⟩ := scene.point.positions_eq_cons
  rw [positions] at places
  rw [positions]
  cases places with
  | cons _ waiting =>
      refine .cons ?_ waiting
      rw [global, placed.globals]
      exact .program admitted

section Moves

variable (placed : scene.Placed programs) (sound : scene.point.Sound)

include placed sound

theorem Placed.extend {store : Store} (extended : scene.point.machine.store.Extends store) :
    (scene.withMachine { scene.point.machine with store }).Placed programs := by
  refine placed.advance_within sound (sound.advances_extend extended) (Arena.outlines_refl _) rfl rfl
    rfl rfl fun function member => ?_
  rcases extended.added function member with homeless | earlier
  · refine .inr fun _ _ _ _ _ isClosure => ?_
    rw [isClosure] at homeless
    cases homeless
  · exact .inl earlier

theorem Placed.bind (index : Nat) (name : String) (value : Value) :
    (scene.withMachine (scene.point.machine.bindAt index name value)).Placed programs :=
  placed.advance_within sound (sound.advances_bind index name value)
    ((Arena.isGentle_set name value).outlines _ index) rfl rfl rfl rfl (added_of_eq rfl)

theorem Placed.create {node : Node} {params : List String} {static : Option FrameId} {body : Body}
    (member : node ∈ scene.code) (created : node.created? = some (params, static, body))
    (name : String) :
    (scene.withMachine (scene.point.machine.create name params static body)).Placed programs := by
  have advances := sound.advances_create name params static body
  have outlines : scene.point.machine.arena.Outlines
      (scene.point.machine.arena.capture scene.point.machine.current) :=
    Arena.isGentle_capture.outlines _ _
  refine placed.advance_within sound advances outlines rfl rfl rfl rfl fun function isFunction => ?_
  rcases Array.mem_push.mp isFunction with earlier | rfl
  · exact .inl ⟨function, earlier, rfl⟩
  · refine .inr fun realm parent static params body isClosure => ?_
    cases isClosure
    have frames : ((scene.point.machine.create name params static body).realmAt
        scene.point.machine.realm).arena.statics scene.point.machine.current =
          scene.point.machine.arena.statics scene.point.machine.current :=
      (congrArg (fun realm : Realm => realm.arena.statics _) advances.realmAt_running).trans <|
        outlines.statics sound.arena advances.arena sound.current_lt
          (Nat.lt_of_lt_of_eq sound.current_lt (Arena.size_modify ..).symm)
    change Stands programs (static.toList ++ ((scene.point.machine.create ..).realmAt _).arena.statics _) _
    rw [frames]
    exact .inside placed.here member created

theorem Placed.enter {parent : Nat} {static : Option FrameId} {params : List String} {body : Body}
    (known : ∃ function ∈ scene.point.machine.store.functions,
      function.code = .closure scene.point.machine.realm parent static params body)
    (bindings : Record) :
    Placed programs
      { point := scene.point.enter parent static bindings
        code := body.visit Node.stays
        suspended := scene.code :: scene.suspended } := by
  have advances := sound.advances_enter bindings known
  obtain ⟨function, member, isClosure⟩ := known
  have stands := placed.closures function member _ _ _ _ _ isClosure
  have captured := sound.closures function member _ _ _ _ _ isClosure
  rw [Machine.realmAt_running] at stands captured
  have outlines := scene.point.machine.arena.outlines_enter parent static bindings
  have positions := scene.point.positions_enter parent static bindings
    (scene.point.enter parent static bindings).serial (scene.point.next + 1)
  refine placed.advance sound advances outlines (added_of_eq rfl) ?_
  refine (congrArg (StandsAt programs _ · _) positions).mpr (.cons ?_ ?_)
  · have frames : ((scene.point.machine.enter parent static bindings).realmAt
        scene.point.machine.realm).arena.statics scene.point.machine.arena.size =
          static.toList ++ scene.point.machine.arena.statics parent :=
      (congrArg (fun realm : Realm => realm.arena.statics _) advances.realmAt_running).trans <|
        Arena.statics_enter sound.arena captured static bindings
    change Stands programs (((scene.point.machine.enter ..).realmAt _).arena.statics _) _
    rw [frames]
    exact stands
  · refine standsAt_of_advances sound advances outlines placed.places (List.Subset.refl _) ?_
    exact positions ▸ List.subset_cons_self ..

end Moves

theorem Placed.leave (placed : scene.Placed programs) (sound : scene.point.Sound)
    {index caller depth : Nat} {rest : List Pending} {code : List Node} {others : List (List Node)}
    (innermost : scene.point.pending = .call index caller depth :: rest)
    (suspended : scene.suspended = code :: others) :
    Placed programs
      { point :=
          { scene.point with
            machine := scene.point.machine.leave index caller depth
            pending := rest }
        code
        suspended := others } := by
  have advances := sound.advances_leave innermost
  have outlines := scene.point.machine.arena.outlines_release index
  have places := placed.places
  rw [Configuration.positions_of_call innermost, suspended] at places
  refine placed.advance sound advances outlines (added_of_eq rfl) ?_
  cases places with
  | cons _ waiting =>
      refine standsAt_of_advances sound advances outlines waiting ?_ (List.Subset.refl _)
      rw [Configuration.positions_of_call innermost]
      exact List.subset_cons_self ..

/-- In a realm that is added, everything is global. -/
theorem Placed.found (placed : scene.Placed programs) (sound : scene.point.Sound) :
    Placed programs { scene with point := scene.point.found } := by
  obtain ⟨print, newest⟩ := Configuration.realmAt_found_newest scene.point.machine sound.running
  have old {realm : Nat} (notNew : realm ≠ scene.point.machine.parked.size) :
      scene.point.machine.found.realmAt realm = scene.point.machine.realmAt realm :=
    Configuration.realmAt_found_of_ne _ notNew
  constructor
  case globals =>
    intro realm
    by_cases new : realm = scene.point.machine.parked.size
    · change (scene.point.machine.found.realmAt realm).arena.statics 0 = []
      rw [new, newest]
      exact Arena.statics_set_new _ _
    · change (scene.point.machine.found.realmAt realm).arena.statics 0 = []
      rw [old new]
      exact placed.globals realm
  case closures =>
    intro function member realm parent static params body isClosure
    rcases Array.mem_push.mp member with earlier | rfl
    · have inRange := sound.homes function earlier realm (by rw [isClosure]; rfl)
      change Stands programs (_ ++ (scene.point.machine.found.realmAt realm).arena.statics _) _
      rw [old (Nat.ne_of_lt inRange)]
      exact placed.closures function earlier realm parent static params body isClosure
    · cases isClosure
  case places =>
    have positions := sound.positions_found scene.point.found.serial (scene.point.next + 1)
    refine (congrArg (StandsAt programs _ · _) positions).mpr ?_
    refine standsAt_of_statics placed.places fun position member => ?_
    change (scene.point.machine.found.realmAt _).arena.statics _ = _
    rw [old (Nat.ne_of_lt (sound.realm_lt_of_mem_positions member))]

/-- A step from a scene where all code is placed leads to one where it is. -/
theorem Step.placed (step : Step programs scene after) (sound : scene.point.Sound)
    (placed : scene.Placed programs) : after.Placed programs := by
  cases step with
  | start admitted global => exact placed.start admitted global
  | extend extended => exact placed.extend sound extended
  | report output context =>
      exact placed.advance_within sound (sound.advances_report output context)
        (Arena.outlines_refl _) rfl rfl rfl rfl (added_of_eq rfl)
  | define name value _ => exact placed.bind sound 0 name value
  | assign value _ => exact placed.bind sound _ _ value
  | declare value _ _ => exact placed.bind sound _ _ value
  | create name member created => exact placed.create sound member created name
  | enter bindings _ known => exact placed.enter sound known bindings
  | leave innermost suspended => exact placed.leave sound innermost suspended
  | visit known => exact placed.switch sound (.cons (.idle _) placed.places)
  | back innermost suspended =>
      have places := placed.places
      rw [Configuration.positions, innermost, Configuration.positionsFrom, suspended] at places
      cases places with
      | cons _ waiting => exact placed.switch sound waiting
  | found => exact placed.found sound

theorem Run.placed (run : Run programs scene after) (sound : scene.point.Sound)
    (placed : scene.Placed programs) : after.Placed programs := by
  induction run with
  | refl => exact placed
  | tail before step inductionHypothesis =>
      exact step.placed (Configuration.Run.sound (Run.point before) sound).1 inductionHypothesis

/-- At first everything is global, and nothing runs. -/
theorem placed_initial (maxDepth : Int) (output : Output) :
    (initial maxDepth output).Placed programs := by
  constructor
  case globals =>
    intro realm
    by_cases first : realm = 0
    · subst first
      exact Arena.statics_set_new _ _
    · change ((Configuration.initial maxDepth output).machine.realmAt realm).arena.statics 0 = []
      rw [Configuration.realmAt_initial_of_ne maxDepth output first]
      rfl
  case closures =>
    intro function member realm parent static params body isClosure
    rw [Configuration.code_of_mem_initial member] at isClosure
    cases isClosure
  case places => exact .cons (.idle _) .nil

end Scene

end Reckon
