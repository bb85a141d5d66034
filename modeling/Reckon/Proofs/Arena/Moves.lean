import Reckon.Proofs.Arena.Configuration

/-!
# Moves of one realm

What a step of a run does to the activations of one realm and to the calls in progress there: nothing,
or it sets a variable, creates a function, or starts or ends a call.  What a move keeps is said here once
for all steps.

A call that ends gives its activation back if that is the newest one and no function was created in it.
So as long as no function is created in a new activation, calls give back all that they have taken.
-/

namespace Reckon

/-- A function of the program that was created in an activation of a realm. -/
def Store.HasClosure (store : Store) (realm index : Nat) : Prop :=
  ∃ function ∈ store.functions, ∃ static params body,
    function.code = .closure realm index static params body

namespace Arena

/-- What a step does to the activations of a realm and to the calls in progress there, if it leads to a
store. -/
inductive Moves (realm : Nat) (store : Store) :
    Arena → List (Nat × Nat) → Arena → List (Nat × Nat) → Prop
  | stay (arena : Arena) (calls : List (Nat × Nat)) : Moves realm store arena calls arena calls
  | bind (arena : Arena) (calls : List (Nat × Nat)) (index : Nat) (name : String) (value : Value) :
      Moves realm store arena calls (arena.set index name value) calls
  | create (arena : Arena) (calls : List (Nat × Nat)) {index : Nat} :
      store.HasClosure realm index → Moves realm store arena calls (arena.capture index) calls
  | enter (arena : Arena) (calls : List (Nat × Nat)) (parent : Nat) (static : Option FrameId)
      (bindings : Record) (caller : Nat) :
      Moves realm store arena calls (arena.enter parent static bindings)
        ((arena.size, caller) :: calls)
  | leave (arena : Arena) (calls : List (Nat × Nat)) (index caller : Nat) :
      Moves realm store arena ((index, caller) :: calls) (arena.release index) calls

variable {realm : Nat} {store : Store} {before arena after : Arena} {calls others : List (Nat × Nat)}

/-! ## Activations that stay -/

/-- All activations of an arena are still there in a later one, and the calls in progress have taken
later ones. -/
structure Rests (before arena : Arena) (calls : List (Nat × Nat)) : Prop where
  kept : ∀ {index : Nat} {activation : Activation}, before.activations[index]? = some activation →
    ∃ later, arena.activations[index]? = some later ∧ activation.Continues later
  size : before.size ≤ arena.size
  above : ∀ call ∈ calls, before.size ≤ call.1

theorem rests_self (arena : Arena) : arena.Rests arena [] :=
  ⟨fun found => ⟨_, found, .refl _⟩, Nat.le_refl _, nofun⟩

theorem Rests.modify (rests : before.Rests arena calls) {change : Activation → Activation}
    (gentle : IsGentle change) (index : Nat) : before.Rests (arena.modify index change) calls := by
  refine ⟨fun found => ?_, ?_, rests.above⟩
  · obtain ⟨middle, middleFound, continues⟩ := rests.kept found
    obtain ⟨later, laterFound, laterContinues⟩ := gentle.exists_after middleFound
    exact ⟨later, laterFound, continues.trans laterContinues⟩
  · rw [size_modify]
    exact rests.size

theorem Rests.enter (rests : before.Rests arena calls) (parent : Nat) (static : Option FrameId)
    (bindings : Record) (caller : Nat) :
    before.Rests (arena.enter parent static bindings) ((arena.size, caller) :: calls) := by
  refine ⟨fun {place activation} found => ?_, ?_, List.forall_mem_cons.mpr ⟨rests.size, rests.above⟩⟩
  · obtain ⟨later, laterFound, continues⟩ := rests.kept found
    have inRange : place < arena.size := (Array.getElem?_eq_some_iff.mp laterFound).1
    refine ⟨later, ?_, continues⟩
    rw [getElem?_enter, if_neg (Nat.ne_of_lt inRange)]
    exact laterFound
  · have size : (arena.enter parent static bindings).size = arena.size + 1 := Array.size_push _
    rw [size]
    exact Nat.le_succ_of_le rests.size

/-- The activation that is given back is not one of the earlier ones. -/
theorem Rests.leave {index caller : Nat} (rests : before.Rests arena ((index, caller) :: calls)) :
    before.Rests (arena.release index) calls := by
  obtain ⟨above, others⟩ := List.forall_mem_cons.mp rests.above
  rcases arena.release_cases index with same | ⟨_, newest, _, popped⟩
  · rw [same]
    exact ⟨rests.kept, rests.size, others⟩
  · have size : (arena.release index).size = index := by
      rw [popped, size_pop_of_newest newest]
    refine ⟨fun {place activation} found => ?_, ?_, others⟩
    · obtain ⟨later, laterFound, continues⟩ := rests.kept found
      have inRange : place < before.size := (Array.getElem?_eq_some_iff.mp found).1
      have inPopped : place < arena.activations.size - 1 := by
        unfold Arena.size at newest
        omega
      refine ⟨later, ?_, continues⟩
      rw [popped, Array.getElem?_pop, if_pos inPopped]
      exact laterFound
    · rw [size]
      exact above

theorem Moves.rests (moves : Moves realm store arena calls after others)
    (rests : before.Rests arena calls) : before.Rests after others := by
  cases moves with
  | stay => exact rests
  | bind _ index name value => exact rests.modify (isGentle_set name value) index
  | create => exact rests.modify isGentle_capture _
  | enter _ parent static bindings caller => exact rests.enter parent static bindings caller
  | leave _ index caller => exact rests.leave

/-! ## Captured activations -/

/-- What is captured was captured before, or a function was created in it. -/
theorem Moves.captured_cases (moves : Moves realm store arena calls after others) {index : Nat}
    (captured : after.Captured index) : arena.Captured index ∨ store.HasClosure realm index := by
  obtain ⟨activation, found, isCaptured⟩ := captured
  cases moves with
  | stay => exact .inl ⟨activation, found, isCaptured⟩
  | bind _ place name value =>
      rw [set, getElem?_modify] at found
      split at found
      · obtain ⟨earlier, earlierFound, rfl⟩ := Option.map_eq_some_iff.mp found
        exact .inl ⟨earlier, earlierFound, isCaptured⟩
      · exact .inl ⟨activation, found, isCaptured⟩
  | @create _ place created =>
      by_cases same : place = index
      · subst same
        exact .inr created
      · rw [capture, getElem?_modify, if_neg same] at found
        exact .inl ⟨activation, found, isCaptured⟩
  | enter _ parent static bindings caller =>
      rw [getElem?_enter] at found
      split at found
      · cases found
        cases isCaptured
      · exact .inl ⟨activation, found, isCaptured⟩
  | leave _ place caller =>
      rcases arena.release_cases place with same | ⟨_, _, _, popped⟩
      · rw [same] at found
        exact .inl ⟨activation, found, isCaptured⟩
      · rw [popped, Array.getElem?_pop] at found
        split at found
        · exact .inl ⟨activation, found, isCaptured⟩
        · cases found

/-! ## Activations that are given back -/

/-- From the first place on up to a bound, there are the activations of the calls in progress. -/
def Packed (first bound : Nat) : List (Nat × Nat) → Prop
  | [] => bound = first
  | (index, _) :: rest => bound = index + 1 ∧ Packed first index rest

theorem Packed.le {first bound : Nat} (packed : Packed first bound calls) : first ≤ bound := by
  induction calls generalizing bound with
  | nil => exact Nat.le_of_eq packed.symm
  | cons call rest inductionHypothesis =>
      obtain ⟨rfl, deeper⟩ := packed
      exact Nat.le_succ_of_le (inductionHypothesis deeper)

/-- The newest activation is given back if no function was created in it. -/
theorem size_release_of_not_captured {index : Nat} (notFirst : index ≠ 0)
    (newest : index + 1 = arena.size) (free : ¬ arena.Captured index) :
    (arena.release index).size = index := by
  have inRange : index < arena.activations.size := Nat.lt_of_lt_of_eq (Nat.lt_succ_self _) newest
  have uncaptured : (arena.activations[index]).captured ≠ true := by
    intro captured
    exact free ⟨_, Array.getElem?_eq_getElem inRange, captured⟩
  have isNewest : ¬ (index = 0 ∨ index + 1 ≠ arena.size) :=
    not_or.mpr ⟨notFirst, not_not_intro newest⟩
  rw [release, if_neg isNewest, Array.getElem?_eq_getElem inRange]
  dsimp only
  rw [if_neg uncaptured, size_pop_of_newest newest]

/-- The calls in progress fill the arena, unless a new activation is captured. -/
theorem Moves.packed {first : Nat} (moves : Moves realm store arena calls after others)
    (positive : 0 < first) (packed : Packed first arena.size calls) :
    Packed first after.size others ∨ ∃ index, first ≤ index ∧ after.Captured index := by
  cases moves with
  | stay => exact .inl packed
  | bind _ index name value =>
      rw [set, size_modify]
      exact .inl packed
  | create =>
      rw [capture, size_modify]
      exact .inl packed
  | enter _ parent static bindings caller => exact .inl ⟨Array.size_push _, packed⟩
  | leave _ index caller =>
      -- The call that ends has the newest activation, so only a captured one is left over.
      obtain ⟨newest, deeper⟩ := packed
      by_cases captured : arena.Captured index
      · exact .inr ⟨index, deeper.le, (arena.preserves_release index).captured captured⟩
      · have notFirst : index ≠ 0 := Nat.ne_of_gt (Nat.lt_of_lt_of_le positive deeper.le)
        rw [size_release_of_not_captured notFirst newest.symm captured]
        exact .inl deeper

end Arena

namespace Configuration

variable {point after : Configuration}

/-! ## Steps -/

/-- The realms that do not run stay as they are. -/
theorem Advances.moves (advances : point.Advances after)
    (running : Arena.Moves point.machine.realm after.machine.store point.machine.arena
      (callsIn point.machine.realm point.machine.realm point.pending) after.machine.arena
      (callsIn point.machine.realm point.machine.realm after.pending)) (realm : Nat) :
    Arena.Moves realm after.machine.store (point.machine.realmAt realm).arena
      (callsIn realm point.machine.realm point.pending) (after.machine.realmAt realm).arena
      (callsIn realm after.machine.realm after.pending) := by
  rw [advances.realm]
  by_cases same : realm = point.machine.realm
  · rw [same, advances.realmAt_running, Machine.realmAt_running]
    exact running
  · rw [advances.realmAt_of_ne same, advances.others realm same]
    exact .stay ..

theorem Step.moves (step : Step point after) (sound : point.Sound) (realm : Nat) :
    Arena.Moves realm after.machine.store (point.machine.realmAt realm).arena
      (callsIn realm point.machine.realm point.pending) (after.machine.realmAt realm).arena
      (callsIn realm after.machine.realm after.pending) := by
  cases step with
  | extend extended => exact (sound.advances_extend extended).moves (.stay ..) realm
  | report output context => exact (sound.advances_report output context).moves (.stay ..) realm
  | bind index name value => exact (sound.advances_bind index name value).moves (.bind ..) realm
  | create name params static body =>
      refine (sound.advances_create name params static body).moves (.create _ _ ?_) realm
      exact ⟨_, Array.mem_push_self, static, params, body, rfl⟩
  | enter bindings allowed known =>
      refine (sound.advances_enter bindings known).moves ?_ realm
      rw [callsIn_call_running]
      exact .enter ..
  | leave innermost =>
      refine (sound.advances_leave innermost).moves ?_ realm
      rw [innermost, callsIn_call_running]
      exact .leave ..
  | visit known =>
      rw [point.machine.realmAt_switchTo sound.running]
      exact .stay ..
  | back innermost =>
      rw [point.machine.realmAt_switchTo sound.running, innermost]
      exact .stay ..
  | found =>
      by_cases new : realm = point.machine.parked.size
      · obtain ⟨print, newest⟩ := realmAt_found_newest point.machine sound.running
        rw [new, newest, realmAt_absent point.machine sound.running]
        exact .bind ..
      · rw [realmAt_found_of_ne _ new]
        exact .stay ..

theorem Persists.hasClosure (persists : point.Persists after) {realm index : Nat}
    (created : point.machine.store.HasClosure realm index) :
    after.machine.store.HasClosure realm index := by
  obtain ⟨function, member, static, params, body, code⟩ := created
  obtain ⟨place, inRange, rfl⟩ := Array.mem_iff_getElem.mp member
  obtain ⟨later, found, sameCode⟩ := persists.functions (Array.getElem?_eq_getElem inRange)
  exact ⟨later, Array.mem_of_getElem? found, static, params, body, sameCode.trans code⟩

/-- Every captured activation is that of a function. -/
def Witnessed (point : Configuration) : Prop :=
  ∀ realm index, (point.machine.realmAt realm).arena.Captured index →
    point.machine.store.HasClosure realm index

theorem Step.witnessed (step : Step point after) (sound : point.Sound)
    (witnessed : point.Witnessed) : after.Witnessed := by
  intro realm index captured
  rcases (step.moves sound realm).captured_cases captured with earlier | created
  · exact (step.sound sound).2.hasClosure (witnessed realm index earlier)
  · exact created

theorem Run.witnessed (run : Run point after) (sound : point.Sound)
    (witnessed : point.Witnessed) : after.Witnessed := by
  induction run with
  | refl => exact witnessed
  | tail before step inductionHypothesis =>
      exact step.witnessed (Run.sound before sound).1 inductionHypothesis

end Configuration

end Reckon
