import Reckon.Proofs.Arena.Configuration

/-!
# Where realms stand

When a call ends, its realm gets back the current activation and the depth that it had before, and when
a visit ends, the realm before it runs again.  So at every point of a run it is known where the realms
will stand after each of the things in progress has ended.  A step changes nothing of that: it starts
something, or it ends what was started last, or the realms stand where they stood.

So after a run that has ended all that it has started, the realms stand where they stood before, and
during the run no depth gets past its bound, unless it was greater from the start.
-/

namespace Reckon

/-- The realm that runs, and of every realm the current activation, the depth of calls and its bound. -/
@[ext]
structure Standing where
  realm : Nat
  current : Nat → Nat
  depth : Nat → Nat
  maxDepth : Nat → Int

namespace Standing

/-- The standing with another current activation and another depth in the running realm. -/
def move (standing : Standing) (current depth : Nat) : Standing :=
  { standing with
    current := fun realm => if realm = standing.realm then current else standing.current realm
    depth := fun realm => if realm = standing.realm then depth else standing.depth realm }

/-- Where the realms stand after something has ended. -/
def ended (standing : Standing) : Pending → Standing
  | .call _ caller depth => standing.move caller depth
  | .visit realm => { standing with realm }

/-- Where the realms stand now, and after each of the things in progress has ended. -/
def unwinding (standing : Standing) : List Pending → List Standing
  | [] => [standing]
  | innermost :: rest => standing :: (standing.ended innermost).unwinding rest

/-- The depths of the second standing are within the bounds, or not greater than in the first. -/
structure Bounds (first second : Standing) : Prop where
  maxDepth : second.maxDepth = first.maxDepth
  depth : ∀ realm, (second.depth realm : Int) ≤ max (first.maxDepth realm) (first.depth realm)

variable {standing first second third : Standing}

theorem move_move (standing : Standing) (current depth nextCurrent nextDepth : Nat) :
    (standing.move current depth).move nextCurrent nextDepth =
      standing.move nextCurrent nextDepth := by
  refine Standing.ext rfl (funext fun place => ?_) (funext fun place => ?_) rfl
  all_goals by_cases running : place = standing.realm
  all_goals simp [move, running]

theorem move_self (standing : Standing) :
    standing.move (standing.current standing.realm) (standing.depth standing.realm) = standing := by
  refine Standing.ext rfl (funext fun place => ?_) (funext fun place => ?_) rfl
  all_goals by_cases running : place = standing.realm
  all_goals simp [move, running]

theorem bounds_of_depth_eq (maxDepth : second.maxDepth = first.maxDepth)
    (depth : second.depth = first.depth) : first.Bounds second := by
  refine ⟨maxDepth, fun realm => ?_⟩
  rw [depth]
  exact Int.le_max_right _ _

theorem Bounds.trans (before : first.Bounds second) (after : second.Bounds third) :
    first.Bounds third := by
  refine ⟨after.maxDepth.trans before.maxDepth, fun realm => ?_⟩
  have later := after.depth realm
  have earlier := before.depth realm
  rw [before.maxDepth] at later
  omega

theorem exists_unwinding_eq (standing : Standing) (pending : List Pending) :
    ∃ rest, standing.unwinding pending = standing :: rest := by
  cases pending with
  | nil => exact ⟨[], rfl⟩
  | cons innermost rest => exact ⟨_, rfl⟩

theorem mem_unwinding_self (standing : Standing) (pending : List Pending) :
    standing ∈ standing.unwinding pending := by
  obtain ⟨rest, unwinding⟩ := standing.exists_unwinding_eq pending
  rw [unwinding]
  exact List.mem_cons_self ..

/-- What is in front does not change where the realms stand at last. -/
theorem getLast?_cons_unwinding (first standing : Standing) (pending : List Pending) :
    (first :: standing.unwinding pending).getLast? = (standing.unwinding pending).getLast? := by
  obtain ⟨rest, unwinding⟩ := standing.exists_unwinding_eq pending
  rw [unwinding, List.getLast?_cons_cons]

end Standing

namespace Machine

/-- Where the realms of a machine stand. -/
def standing (machine : Machine) : Standing where
  realm := machine.realm
  current realm := (machine.realmAt realm).current
  depth realm := (machine.realmAt realm).depth
  maxDepth realm := (machine.realmAt realm).maxDepth

variable {machine after : Machine}

/-- A change of the running realm moves only the current activation and the depth of this one. -/
theorem standing_of_running (realm : after.realm = machine.realm)
    (parked : after.parked = machine.parked) (maxDepth : after.maxDepth = machine.maxDepth) :
    after.standing = machine.standing.move after.current after.depth := by
  have here : after.realmAt machine.realm = after.toRealm := by
    rw [← realm]
    exact realmAt_running _
  have others (place : Nat) (other : place ≠ machine.realm) :
      after.realmAt place = machine.realmAt place := by
    rw [realmAt_of_ne _ other, ← parked]
    rw [← realm] at other
    exact realmAt_of_ne _ other
  have bound : machine.standing.maxDepth machine.realm = machine.maxDepth :=
    congrArg Realm.maxDepth machine.realmAt_running
  ext place
  case realm => exact realm
  all_goals by_cases running : place = machine.realm
  · rw [running]
    exact (congrArg Realm.current here).trans (if_pos rfl).symm
  · exact (congrArg Realm.current (others place running)).trans (if_neg running).symm
  · rw [running]
    exact (congrArg Realm.depth here).trans (if_pos rfl).symm
  · exact (congrArg Realm.depth (others place running)).trans (if_neg running).symm
  · rw [running]
    exact (congrArg Realm.maxDepth here).trans (maxDepth.trans bound.symm)
  · exact congrArg Realm.maxDepth (others place running)

theorem move_standing (machine : Machine) :
    machine.standing.move machine.current machine.depth = machine.standing := by
  have current : machine.standing.current machine.realm = machine.current :=
    congrArg Realm.current machine.realmAt_running
  have depth : machine.standing.depth machine.realm = machine.depth :=
    congrArg Realm.depth machine.realmAt_running
  rw [← current, ← depth]
  exact machine.standing.move_self

/-- A change of the running realm that enters and leaves no activation. -/
theorem standing_eq_of_running (realm : after.realm = machine.realm)
    (parked : after.parked = machine.parked) (maxDepth : after.maxDepth = machine.maxDepth)
    (current : after.current = machine.current) (depth : after.depth = machine.depth) :
    after.standing = machine.standing := by
  rw [standing_of_running realm parked maxDepth, current, depth, move_standing]

theorem standing_leave (machine : Machine) (index caller depth : Nat) :
    (machine.leave index caller depth).standing =
      machine.standing.ended (.call index caller depth) :=
  standing_of_running rfl rfl rfl

theorem standing_enter (machine : Machine) (parent : Nat) (static : Option FrameId)
    (bindings : Record) :
    (machine.enter parent static bindings).standing =
      machine.standing.move machine.arena.size (machine.depth + 1) :=
  standing_of_running rfl rfl rfl

/-- The call that is started will end where the machine stands. -/
theorem ended_standing_enter (machine : Machine) (parent : Nat) (static : Option FrameId)
    (bindings : Record) :
    (machine.enter parent static bindings).standing.ended
      (.call machine.arena.size machine.current machine.depth) = machine.standing := by
  rw [standing_enter, Standing.ended, Standing.move_move, move_standing]

/-- A call is started only within the bound. -/
theorem bounds_standing_enter (machine : Machine) (allowed : ¬ machine.maxDepth ≤ machine.depth)
    (parent : Nat) (static : Option FrameId) (bindings : Record) :
    machine.standing.Bounds (machine.enter parent static bindings).standing := by
  have bound : machine.standing.maxDepth machine.realm = machine.maxDepth :=
    congrArg Realm.maxDepth machine.realmAt_running
  rw [standing_enter]
  refine ⟨rfl, fun place => ?_⟩
  by_cases running : place = machine.realm
  · have deeper : (machine.standing.move machine.arena.size (machine.depth + 1)).depth place =
        machine.depth + 1 := if_pos running
    rw [deeper, running, bound]
    omega
  · have same : (machine.standing.move machine.arena.size (machine.depth + 1)).depth place =
        machine.standing.depth place := if_neg running
    rw [same]
    exact Int.le_max_right _ _

theorem standing_switchTo (inRange : machine.realm < machine.parked.size) (target : Nat) :
    (machine.switchTo target).standing = machine.standing.ended (.visit target) := by
  have same := machine.realmAt_switchTo inRange target
  ext place
  case realm => rfl
  case current => exact congrArg Realm.current (same place)
  case depth => exact congrArg Realm.depth (same place)
  case maxDepth => exact congrArg Realm.maxDepth (same place)

/-- A realm that is added stands where one that is not there stands. -/
theorem standing_found (inRange : machine.realm < machine.parked.size) :
    machine.found.standing = machine.standing := by
  have same (place : Nat) :
      (machine.found.realmAt place).current = (machine.realmAt place).current ∧
        (machine.found.realmAt place).depth = (machine.realmAt place).depth ∧
          (machine.found.realmAt place).maxDepth = (machine.realmAt place).maxDepth := by
    by_cases new : place = machine.parked.size
    · obtain ⟨print, newest⟩ := Configuration.realmAt_found_newest machine inRange
      rw [new, newest, Configuration.realmAt_absent machine inRange]
      exact ⟨rfl, rfl, rfl⟩
    · rw [Configuration.realmAt_found_of_ne _ new]
      exact ⟨rfl, rfl, rfl⟩
  exact Standing.ext rfl (funext fun place => (same place).1)
    (funext fun place => (same place).2.1) (funext fun place => (same place).2.2)

end Machine

namespace Configuration

variable {point after : Configuration}

/-- Where the realms stand at a point, and after each of the things in progress has ended. -/
def standings (point : Configuration) : List Standing :=
  point.machine.standing.unwinding point.pending

/-! ## Steps -/

/-- What a step does to the realms: nothing, or it starts or ends something. -/
inductive Turn (point after : Configuration) : Prop
  | stays : after.standings = point.standings → Turn point after
  | starts : after.standings = after.machine.standing :: point.standings →
      point.machine.standing.Bounds after.machine.standing → Turn point after
  | ends : point.standings = point.machine.standing :: after.standings → Turn point after

/-- The machine after the end of what was started last stands where it was known to. -/
theorem turn_of_ending (ending : Ending point after) (sound : point.Sound) : Turn point after := by
  cases ending with
  | leave innermost =>
      refine .ends ?_
      rw [standings, innermost, standings, Machine.standing_leave]
      rfl
  | back innermost =>
      refine .ends ?_
      rw [standings, innermost, standings, Machine.standing_switchTo sound.running]
      rfl

theorem Step.turn (step : Step point after) (sound : point.Sound) : Turn point after := by
  have staying (machine : Machine) (same : machine.standing = point.machine.standing) :
      Turn point { point with machine } := by
    refine .stays ?_
    rw [standings, same]
    rfl
  cases step with
  | extend _ => exact staying _ (Machine.standing_eq_of_running rfl rfl rfl rfl rfl)
  | report output context => exact staying _ (Machine.standing_eq_of_running rfl rfl rfl rfl rfl)
  | bind index name value => exact staying _ (Machine.standing_eq_of_running rfl rfl rfl rfl rfl)
  | create name params static body =>
      exact staying _ (Machine.standing_eq_of_running rfl rfl rfl rfl rfl)
  | enter bindings allowed known =>
      refine .starts ?_ (point.machine.bounds_standing_enter allowed _ _ bindings)
      rw [standings, Standing.unwinding, Machine.ended_standing_enter]
      rfl
  | leave innermost => exact turn_of_ending (.leave innermost) sound
  | @visit realm known =>
      have arrives := Machine.standing_switchTo sound.running realm
      have returns : (point.machine.switchTo realm).standing.ended (.visit point.machine.realm) =
          point.machine.standing := by
        rw [arrives]
        rfl
      refine .starts ?_ ?_
      · rw [standings, Standing.unwinding, returns]
        rfl
      · rw [arrives]
        exact Standing.bounds_of_depth_eq rfl rfl
  | back innermost => exact turn_of_ending (.back innermost) sound
  | found =>
      refine .stays ?_
      rw [standings, Machine.standing_found sound.running]
      rfl

/-- Where the realms will stand when everything has ended does not change. -/
theorem Turn.getLast? (turn : Turn point after) :
    after.standings.getLast? = point.standings.getLast? := by
  cases turn with
  | stays same => rw [same]
  | starts started _ => rw [started, standings, Standing.getLast?_cons_unwinding]
  | ends ended => rw [ended, standings, Standing.getLast?_cons_unwinding]

theorem Turn.bounds (turn : Turn point after) {start : Standing}
    (bounded : ∀ standing ∈ point.standings, start.Bounds standing) :
    ∀ standing ∈ after.standings, start.Bounds standing := by
  cases turn with
  | stays same =>
      rw [same]
      exact bounded
  | starts started bounds =>
      have here := bounded point.machine.standing (Standing.mem_unwinding_self ..)
      rw [started]
      exact List.forall_mem_cons.mpr ⟨here.trans bounds, bounded⟩
  | ends ended =>
      rw [ended] at bounded
      exact (List.forall_mem_cons.mp bounded).2

/-! ## Runs -/

theorem Run.getLast?_standings (run : Run point after) (sound : point.Sound) :
    after.standings.getLast? = point.standings.getLast? := by
  induction run with
  | refl => rfl
  | tail before step inductionHypothesis =>
      have turn := step.turn (Run.sound before sound).1
      exact turn.getLast?.trans inductionHypothesis

/-- After a run that has ended all that it has started, the realms stand where they stood. -/
theorem Run.standing_eq (run : Run point after) (sound : point.Sound) (alone : point.pending = [])
    (ended : after.pending = []) : after.machine.standing = point.machine.standing := by
  have same := run.getLast?_standings sound
  rw [standings, standings, alone, ended] at same
  exact Option.some.inj same

/-- During a run, no depth gets past its bound, unless it was greater from the start. -/
theorem Run.bounds (run : Run point after) (sound : point.Sound) (alone : point.pending = []) :
    point.machine.standing.Bounds after.machine.standing := by
  -- The end of a call returns to a depth from before it, so the bounds carry over only together with
  -- those at all the standings that are still to be returned to.
  have bounded : ∀ standing ∈ after.standings, point.machine.standing.Bounds standing := by
    induction run with
    | refl =>
        intro standing member
        rw [standings, alone] at member
        cases List.mem_singleton.mp member
        exact Standing.bounds_of_depth_eq rfl rfl
    | tail before step inductionHypothesis =>
        exact (step.turn (Run.sound before sound).1).bounds inductionHypothesis
  exact bounded _ (Standing.mem_unwinding_self ..)

end Configuration

end Reckon
