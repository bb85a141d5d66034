import Mathlib.Logic.Function.Basic
import Reckon.Proofs.Arena.Configuration

/-!
# Where calls in progress run

Each call in progress, each visit to another realm and the program itself run in an activation of their
own.  The outermost one of each realm is the global one.
-/

namespace Reckon

namespace Configuration

variable {point after : Configuration}

/-! ## The activations of calls in progress -/

/-- Where the calls in progress run, innermost first, given the current activations of all realms and
the realm that runs. -/
def positionsFrom (current : Nat → Nat) (running : Nat) : List Pending → List (Nat × Nat)
  | [] => [(running, current running)]
  | .call _ caller _ :: rest =>
      (running, current running) :: positionsFrom (Function.update current running caller) running rest
  | .visit realm :: rest => (running, current running) :: positionsFrom current realm rest

/-- Where the calls in progress run, innermost first. -/
def positions (point : Configuration) : List (Nat × Nat) :=
  positionsFrom (fun realm => (point.machine.realmAt realm).current) point.machine.realm point.pending

/-- What runs now runs in the current activation. -/
theorem positions_eq_cons (point : Configuration) :
    ∃ rest, point.positions = (point.machine.realm, point.machine.current) :: rest := by
  have current : (point.machine.realmAt point.machine.realm).current = point.machine.current := by
    rw [Machine.realmAt_running]
  unfold positions
  cases point.pending with
  | nil =>
      exact ⟨[], by rw [positionsFrom, current]⟩
  | cons innermost rest =>
      cases innermost with
      | call index caller depth =>
          exact ⟨_, by rw [positionsFrom, current]⟩
      | visit realm =>
          exact ⟨_, by rw [positionsFrom, current]⟩

theorem lt_of_mem_positionsFrom {current bound : Nat → Nat} {running : Nat} {pending : List Pending}
    (stacked : ∀ realm, Stacked (bound realm) (current realm) (callsIn realm running pending))
    {position : Nat × Nat} (member : position ∈ positionsFrom current running pending) :
    position.2 < bound position.1 := by
  induction pending generalizing current bound running with
  | nil =>
      rw [positionsFrom, List.mem_singleton] at member
      subst member
      exact (stacked running).current_lt
  | cons innermost rest inductionHypothesis =>
      cases innermost with
      | visit realm =>
          rw [positionsFrom, List.mem_cons] at member
          rcases member with rfl | deeper
          · exact (stacked running).current_lt
          · exact inductionHypothesis stacked deeper
      | call index caller depth =>
          rw [positionsFrom, List.mem_cons] at member
          rcases member with rfl | deeper
          · exact (stacked running).current_lt
          · have here := stacked running
            rw [callsIn_call_running] at here
            obtain ⟨_, below, callers⟩ := here
            have deeperStacked (realm : Nat) : Stacked (Function.update bound running index realm)
                (Function.update current running caller realm) (callsIn realm running rest) := by
              by_cases same : realm = running
              · subst same
                rw [Function.update_self, Function.update_self]
                exact callers
              · have other := stacked realm
                rw [callsIn_call_of_ne same] at other
                rwa [Function.update_of_ne same, Function.update_of_ne same]
            have inCaller := inductionHypothesis deeperStacked deeper
            by_cases same : position.1 = running
            · rw [same, Function.update_self] at inCaller
              rw [same]
              exact Nat.lt_trans inCaller below
            · rwa [Function.update_of_ne same] at inCaller

theorem Sound.lt_of_mem_positions {point : Configuration} (sound : point.Sound)
    {position : Nat × Nat} (member : position ∈ point.positions) :
    position.2 < (point.machine.realmAt position.1).arena.size := by
  let bound (realm : Nat) := (point.machine.realmAt realm).arena.size
  have stacked (realm : Nat) : Stacked (bound realm) (point.machine.realmAt realm).current
      (callsIn realm point.machine.realm point.pending) := sound.stacked realm
  exact lt_of_mem_positionsFrom stacked member

theorem positions_enter (point : Configuration) (parent : Nat) (static : Option FrameId)
    (bindings : Record) (serial : Nat → Nat → Nat) (next : Nat) :
    positions
      { machine := point.machine.enter parent static bindings
        pending :=
          .call point.machine.arena.size point.machine.current point.machine.depth :: point.pending
        serial, next } = (point.machine.realm, point.machine.arena.size) :: point.positions := by
  have currents : Function.update
      (fun realm => ((point.machine.enter parent static bindings).realmAt realm).current)
      point.machine.realm point.machine.current =
        fun realm => (point.machine.realmAt realm).current := by
    funext realm
    by_cases same : realm = point.machine.realm
    · subst same
      rw [Function.update_self, Machine.realmAt_running]
    · have parked := (point.machine.enter parent static bindings).realmAt_of_ne same
      rw [Function.update_of_ne same, parked, Machine.realmAt_of_ne _ same]
      rfl
  have entered : ((point.machine.enter parent static bindings).realmAt point.machine.realm).current =
      point.machine.arena.size := congrArg Realm.current (Machine.realmAt_running _)
  rw [positions, positionsFrom, positions, ← currents, ← entered]
  rfl

theorem positions_of_call {index caller depth : Nat} {rest : List Pending}
    (innermost : point.pending = .call index caller depth :: rest) :
    point.positions = (point.machine.realm, point.machine.current) ::
      positions { point with machine := point.machine.leave index caller depth, pending := rest } := by
  have currents : Function.update (fun realm => (point.machine.realmAt realm).current)
      point.machine.realm caller =
        fun realm => ((point.machine.leave index caller depth).realmAt realm).current := by
    funext realm
    by_cases same : realm = point.machine.realm
    · subst same
      rw [Function.update_self]
      exact congrArg Realm.current (point.machine.leave index caller depth).realmAt_running.symm
    · have parked := (point.machine.leave index caller depth).realmAt_of_ne same
      rw [Function.update_of_ne same, parked, Machine.realmAt_of_ne _ same]
      rfl
  rw [positions, innermost, positionsFrom, Machine.realmAt_running, currents]
  rfl

/-- Calls are made in the realm that runs and in those that are visited. -/
theorem fst_of_mem_positionsFrom {current : Nat → Nat} {running : Nat} {pending : List Pending}
    {position : Nat × Nat} (member : position ∈ positionsFrom current running pending) :
    position.1 = running ∨ Pending.visit position.1 ∈ pending := by
  induction pending generalizing current running with
  | nil =>
      rw [positionsFrom, List.mem_singleton] at member
      exact .inl (congrArg Prod.fst member)
  | cons innermost rest inductionHypothesis =>
      cases innermost with
      | call index caller depth =>
          rw [positionsFrom, List.mem_cons] at member
          rcases member with rfl | deeper
          · exact .inl rfl
          · rcases inductionHypothesis deeper with here | visited
            · exact .inl here
            · exact .inr (List.mem_cons_of_mem _ visited)
      | visit realm =>
          rw [positionsFrom, List.mem_cons] at member
          rcases member with rfl | deeper
          · exact .inl rfl
          · rcases inductionHypothesis deeper with rfl | visited
            · exact .inr (List.mem_cons_self ..)
            · exact .inr (List.mem_cons_of_mem _ visited)

theorem Sound.realm_lt_of_mem_positions (sound : point.Sound) {position : Nat × Nat}
    (member : position ∈ point.positions) : position.1 < point.machine.parked.size := by
  rcases fst_of_mem_positionsFrom member with here | visited
  · rw [here]
    exact sound.running
  · exact sound.visits position.1 visited

/-- A realm that is added has nothing in progress. -/
theorem Sound.positions_found (sound : point.Sound) (serial : Nat → Nat → Nat) (next : Nat) :
    positions { point with machine := point.machine.found, serial, next } = point.positions := by
  have currents : (fun realm => (point.machine.found.realmAt realm).current) =
      fun realm => (point.machine.realmAt realm).current := by
    funext realm
    by_cases new : realm = point.machine.parked.size
    · obtain ⟨print, newest⟩ := realmAt_found_newest point.machine sound.running
      rw [new, newest, realmAt_absent point.machine sound.running]
    · rw [realmAt_found_of_ne _ new]
  rw [positions, positions, ← currents]
  rfl

/-- A move that starts and ends no call. -/
theorem Advances.positions_eq (advances : point.Advances after)
    (pending : after.pending = point.pending)
    (current : after.machine.current = point.machine.current) :
    after.positions = point.positions := by
  have currents : (fun realm => (after.machine.realmAt realm).current) =
      fun realm => (point.machine.realmAt realm).current := by
    funext realm
    by_cases same : realm = point.machine.realm
    · rw [same, advances.realmAt_running, Machine.realmAt_running, current]
    · rw [advances.realmAt_of_ne same]
  rw [positions, positions, currents, advances.realm, pending]

/-! ## The outermost activation -/

/-- The outermost of some calls was made from the global activation. -/
def Based (current : Nat) : List (Nat × Nat) → Prop
  | [] => current = 0
  | (_, caller) :: rest => Based caller rest

/-- In each realm, the outermost call in progress was made from the global activation. -/
def Rooted (point : Configuration) : Prop :=
  ∀ realm, Based (point.machine.realmAt realm).current
    (callsIn realm point.machine.realm point.pending)

theorem Rooted.current_eq_zero (rooted : point.Rooted) (idle : point.pending = []) :
    point.machine.current = 0 := by
  have here := rooted point.machine.realm
  rw [Machine.realmAt_running, idle] at here
  exact here

/-- A move of the running realm that starts and ends no call. -/
theorem Rooted.advance (rooted : point.Rooted) (advances : point.Advances after)
    (running : Based after.machine.current
      (callsIn point.machine.realm point.machine.realm after.pending)) : after.Rooted := by
  intro realm
  rw [advances.realm]
  by_cases same : realm = point.machine.realm
  · rw [same, advances.realmAt_running]
    exact running
  · rw [advances.realmAt_of_ne same, advances.others realm same]
    exact rooted realm

theorem Rooted.running (rooted : point.Rooted) :
    Based point.machine.current (callsIn point.machine.realm point.machine.realm point.pending) := by
  have here := rooted point.machine.realm
  rwa [Machine.realmAt_running] at here

theorem Step.rooted (step : Step point after) (sound : point.Sound) (rooted : point.Rooted) :
    after.Rooted := by
  cases step with
  | extend extended =>
      exact rooted.advance (sound.advances_extend extended) rooted.running
  | report output context =>
      exact rooted.advance (sound.advances_report output context) rooted.running
  | bind index name value =>
      exact rooted.advance (sound.advances_bind index name value) rooted.running
  | create name params static body =>
      exact rooted.advance (sound.advances_create name params static body) rooted.running
  | enter bindings _ known =>
      refine rooted.advance (sound.advances_enter bindings known) ?_
      rw [callsIn_call_running]
      exact rooted.running
  | leave innermost =>
      refine rooted.advance (sound.advances_leave innermost) ?_
      have here := rooted.running
      rw [innermost, callsIn_call_running] at here
      exact here
  | visit known =>
      intro realm
      rw [point.machine.realmAt_switchTo sound.running]
      exact rooted realm
  | back innermost =>
      intro realm
      have before := rooted realm
      rw [innermost] at before
      rw [point.machine.realmAt_switchTo sound.running]
      exact before
  | found =>
      intro realm
      by_cases new : realm = point.machine.parked.size
      · obtain ⟨print, newest⟩ := realmAt_found_newest point.machine sound.running
        have before := rooted realm
        rw [new, realmAt_absent point.machine sound.running] at before
        rw [new, newest]
        exact before
      · rw [realmAt_found_of_ne _ new]
        exact rooted realm

theorem Run.rooted (run : Run point after) (sound : point.Sound) (rooted : point.Rooted) :
    after.Rooted := by
  induction run with
  | refl =>
      exact rooted
  | tail before step inductionHypothesis =>
      exact step.rooted (Run.sound before sound).1 inductionHypothesis

end Configuration

end Reckon
