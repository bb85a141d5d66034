import Mathlib.Logic.Relation
import Reckon.Proofs.Arena.Chain
import Reckon.Proofs.Session.Hosting

/-!
# Configurations

A configuration is a point of a run: the machine, and the calls and visits to other realms that are in
progress, innermost first.  It also numbers activations: each one gets a serial number of its own when
it is entered, so that an activation can be told from another one at the same place.

A step is one move of the machine.  What steps keep, runs keep: every function of the program lies in
a captured activation of its realm, and the calls in progress lie above each other.
-/

namespace Reckon

/-- What is in progress, with what is restored when it ends. -/
inductive Pending where
  | call (index caller depth : Nat)
  | visit (realm : Nat)

/-- A point of a run. -/
structure Configuration where
  machine : Machine
  pending : List Pending := []
  serial : Nat → Nat → Nat := fun _ _ => 0
  next : Nat := 1

namespace Configuration

/-- The point before the first request to a session. -/
def initial (maxDepth : Int) (output : Output) : Configuration where
  machine := (Session.new maxDepth output {}).machine

/-- One move of the machine. -/
inductive Step : Configuration → Configuration → Prop
  | extend {point : Configuration} {store : Store} : point.machine.store.Extends store →
      Step point { point with machine := { point.machine with store } }
  | report (point : Configuration) (output : Output) (context : Context) :
      Step point { point with machine := { point.machine with output, context } }
  | bind (point : Configuration) (index : Nat) (name : String) (value : Value) :
      Step point { point with machine := point.machine.bindAt index name value }
  | create (point : Configuration) (name : String) (params : List String)
      (static : Option FrameId) (body : Body) :
      Step point { point with machine := point.machine.create name params static body }
  | enter {point : Configuration} {parent : Nat} {static : Option FrameId} {params : List String}
      {body : Body} (bindings : Record) : ¬ point.machine.maxDepth ≤ point.machine.depth →
      (∃ function ∈ point.machine.store.functions,
        function.code = .closure point.machine.realm parent static params body) →
      Step point
        { machine := point.machine.enter parent static bindings
          pending :=
            .call point.machine.arena.size point.machine.current point.machine.depth ::
              point.pending
          serial := fun realm index =>
            if realm = point.machine.realm ∧ index = point.machine.arena.size then point.next
            else point.serial realm index
          next := point.next + 1 }
  | leave {point : Configuration} {index caller depth : Nat} {rest : List Pending} :
      point.pending = .call index caller depth :: rest →
      Step point
        { point with machine := point.machine.leave index caller depth, pending := rest }
  | visit {point : Configuration} {realm : Nat} :
      (∃ function ∈ point.machine.store.functions, function.code.home? = some realm) →
      Step point
        { point with
          machine := point.machine.switchTo realm
          pending := .visit point.machine.realm :: point.pending }
  | back {point : Configuration} {realm : Nat} {rest : List Pending} :
      point.pending = .visit realm :: rest →
      Step point { point with machine := point.machine.switchTo realm, pending := rest }
  | found (point : Configuration) :
      Step point
        { point with
          machine := point.machine.found
          serial := fun realm index =>
            if realm = point.machine.parked.size ∧ index = 0 then point.next
            else point.serial realm index
          next := point.next + 1 }

/-- Any number of moves. -/
abbrev Run : Configuration → Configuration → Prop :=
  Relation.ReflTransGen Step

/-- A move that ends what was started last. -/
inductive Ending : Configuration → Configuration → Prop
  | leave {point : Configuration} {index caller depth : Nat} {rest : List Pending} :
      point.pending = .call index caller depth :: rest →
      Ending point
        { point with machine := point.machine.leave index caller depth, pending := rest }
  | back {point : Configuration} {realm : Nat} {rest : List Pending} :
      point.pending = .visit realm :: rest →
      Ending point { point with machine := point.machine.switchTo realm, pending := rest }

theorem Ending.step {point after : Configuration} (ending : Ending point after) :
    Step point after := by
  cases ending with
  | leave innermost => exact .leave innermost
  | back innermost => exact .back innermost

/-! ## Soundness -/

/-- The calls in progress in a realm, given the realm that runs: their activations and their
callers, innermost first. -/
def callsIn (realm : Nat) : Nat → List Pending → List (Nat × Nat)
  | _, [] => []
  | running, .call index caller _ :: rest =>
      if realm = running then (index, caller) :: callsIn realm running rest
      else callsIn realm running rest
  | _, .visit running :: rest => callsIn realm running rest

/-- The activations of calls in progress lie above each other, below a bound, and the innermost one
is current. -/
def Stacked (bound current : Nat) : List (Nat × Nat) → Prop
  | [] => current < bound
  | (index, caller) :: rest => current = index ∧ index < bound ∧ Stacked index caller rest

/-- What holds at every point of a run. -/
structure Sound (point : Configuration) : Prop where
  running : point.machine.realm < point.machine.parked.size
  homes : ∀ function ∈ point.machine.store.functions, ∀ realm,
    function.code.home? = some realm → realm < point.machine.parked.size
  visits : ∀ realm, Pending.visit realm ∈ point.pending → realm < point.machine.parked.size
  arenas : ∀ realm, (point.machine.realmAt realm).arena.Sound
  closures : ∀ function ∈ point.machine.store.functions, ∀ realm parent static params body,
    function.code = .closure realm parent static params body →
      (point.machine.realmAt realm).arena.Captured parent
  stacked : ∀ realm, Stacked (point.machine.realmAt realm).arena.size
    (point.machine.realmAt realm).current (callsIn realm point.machine.realm point.pending)
  numbered : ∀ realm index, index < (point.machine.realmAt realm).arena.size →
    point.serial realm index < point.next

theorem Stacked.mono {bound larger current : Nat} {calls : List (Nat × Nat)}
    (stacked : Stacked bound current calls) (le : bound ≤ larger) :
    Stacked larger current calls := by
  cases calls with
  | nil =>
      exact Nat.lt_of_lt_of_le stacked le
  | cons call rest =>
      obtain ⟨same, below, deeper⟩ := stacked
      exact ⟨same, Nat.lt_of_lt_of_le below le, deeper⟩

theorem Stacked.current_lt {bound current : Nat} {calls : List (Nat × Nat)}
    (stacked : Stacked bound current calls) : current < bound := by
  cases calls with
  | nil =>
      exact stacked
  | cons call rest =>
      obtain ⟨rfl, below, _⟩ := stacked
      exact below

end Configuration

namespace Machine

variable (machine : Machine)

theorem realmAt_running : machine.realmAt machine.realm = machine.toRealm :=
  if_pos rfl

theorem realmAt_of_ne {realm : Nat} (other : realm ≠ machine.realm) :
    machine.realmAt realm = machine.parked.getD realm {} :=
  if_neg other

/-- Which realm runs does not matter for what the realms are. -/
theorem realmAt_switchTo (inRange : machine.realm < machine.parked.size) (target realm : Nat) :
    (machine.switchTo target).realmAt realm = machine.realmAt realm := by
  have stored (place : Nat) :
      (machine.parked.setIfInBounds machine.realm machine.toRealm).getD place {} =
        machine.realmAt place := by
    by_cases same : place = machine.realm
    · subst same
      rw [realmAt_running]
      simp [Array.getD, inRange]
    · rw [machine.realmAt_of_ne same, Array.getD_eq_getD_getElem?,
        Array.getElem?_setIfInBounds_ne (Ne.symm same), ← Array.getD_eq_getD_getElem?]
  by_cases same : realm = target
  · subst same
    exact (realmAt_running _).trans (stored realm)
  · exact (realmAt_of_ne _ same).trans (stored realm)

end Machine

namespace Configuration

variable {point after : Configuration}

/-! ## Moves of the running realm -/

/-- From one point to the next, only the realm that runs moves on. -/
structure Advances (point after : Configuration) : Prop where
  realm : after.machine.realm = point.machine.realm
  parked : after.machine.parked = point.machine.parked
  kept : ∀ {index : Nat} {function : Function},
    point.machine.store.functions[index]? = some function →
      ∃ later, after.machine.store.functions[index]? = some later ∧ later.code = function.code
  added : ∀ function ∈ after.machine.store.functions, function.code.home? = none ∨
    (∃ earlier ∈ point.machine.store.functions, earlier.code = function.code) ∨
    ∃ parent static params body,
      function.code = .closure point.machine.realm parent static params body ∧
        after.machine.arena.Captured parent
  visits : ∀ realm, Pending.visit realm ∈ after.pending → Pending.visit realm ∈ point.pending
  arena : after.machine.arena.Sound
  preserves : point.machine.arena.Preserves after.machine.arena
  stack : Stacked after.machine.arena.size after.machine.current
    (callsIn point.machine.realm point.machine.realm after.pending)
  others : ∀ realm, realm ≠ point.machine.realm →
    callsIn realm point.machine.realm after.pending =
      callsIn realm point.machine.realm point.pending
  serials : ∀ realm index, (realm = point.machine.realm → index < point.machine.arena.size) →
    after.serial realm index = point.serial realm index
  newest : ∀ index, point.machine.arena.size ≤ index → index < after.machine.arena.size →
    after.serial point.machine.realm index < after.next
  next : point.next ≤ after.next

/-- What a later point keeps of an earlier one: captured activations with their serial numbers, and
the code of functions. -/
structure Persists (point after : Configuration) : Prop where
  arenas : ∀ realm,
    (point.machine.realmAt realm).arena.Preserves (after.machine.realmAt realm).arena
  serials : ∀ realm index, (point.machine.realmAt realm).arena.Captured index →
    after.serial realm index = point.serial realm index
  functions : ∀ {index : Nat} {function : Function},
    point.machine.store.functions[index]? = some function →
      ∃ later, after.machine.store.functions[index]? = some later ∧ later.code = function.code

namespace Advances

theorem realmAt_running (advances : point.Advances after) :
    after.machine.realmAt point.machine.realm = after.machine.toRealm := by
  rw [← advances.realm]
  exact Machine.realmAt_running _

theorem realmAt_of_ne (advances : point.Advances after) {realm : Nat}
    (other : realm ≠ point.machine.realm) :
    after.machine.realmAt realm = point.machine.realmAt realm := by
  rw [Machine.realmAt_of_ne _ other, Machine.realmAt_of_ne, advances.parked]
  rw [advances.realm]
  exact other

theorem persists (advances : point.Advances after) : point.Persists after := by
  constructor
  case arenas =>
    intro realm
    by_cases same : realm = point.machine.realm
    · rw [same, advances.realmAt_running, Machine.realmAt_running]
      exact advances.preserves
    · rw [advances.realmAt_of_ne same]
      exact .refl _
  case serials =>
    intro realm index captured
    refine advances.serials realm index ?_
    rintro rfl
    rw [Machine.realmAt_running] at captured
    exact captured.lt_size
  case functions =>
    exact advances.kept

theorem sound (advances : point.Advances after) (sound : point.Sound) : after.Sound := by
  constructor
  case running =>
    rw [advances.realm, advances.parked]
    exact sound.running
  case homes =>
    intro function member realm home
    rw [advances.parked]
    rcases advances.added function member with
      none | ⟨earlier, isEarlier, same⟩ | ⟨_, _, _, _, code, _⟩
    · rw [home] at none
      cases none
    · rw [← same] at home
      exact sound.homes earlier isEarlier realm home
    · rw [code] at home
      cases home
      exact sound.running
  case visits =>
    intro realm member
    rw [advances.parked]
    exact sound.visits realm (advances.visits realm member)
  case arenas =>
    intro realm
    by_cases same : realm = point.machine.realm
    · rw [same, advances.realmAt_running]
      exact advances.arena
    · rw [advances.realmAt_of_ne same]
      exact sound.arenas realm
  case closures =>
    intro function member realm parent static params body code
    rcases advances.added function member with
      none | ⟨earlier, isEarlier, same⟩ | ⟨created, _, _, _, isCreated, captured⟩
    · rw [code] at none
      cases none
    · rw [code] at same
      exact (advances.persists.arenas realm).captured
        (sound.closures earlier isEarlier realm parent static params body same)
    · rw [code] at isCreated
      cases isCreated
      rw [advances.realmAt_running]
      exact captured
  case stacked =>
    intro realm
    rw [advances.realm]
    by_cases same : realm = point.machine.realm
    · rw [same, advances.realmAt_running]
      exact advances.stack
    · rw [advances.realmAt_of_ne same, advances.others realm same]
      exact sound.stacked realm
  case numbered =>
    intro realm index inRange
    by_cases same : realm = point.machine.realm
    · rw [same, advances.realmAt_running] at inRange
      rw [same]
      by_cases old : index < point.machine.arena.size
      · have before := sound.numbered point.machine.realm index
          (by rw [Machine.realmAt_running]; exact old)
        rw [advances.serials _ index fun _ => old]
        exact Nat.lt_of_lt_of_le before advances.next
      · exact advances.newest index (Nat.le_of_not_lt old) inRange
    · rw [advances.realmAt_of_ne same] at inRange
      rw [advances.serials realm index fun isSame => absurd isSame same]
      exact Nat.lt_of_lt_of_le (sound.numbered realm index inRange) advances.next

end Advances

/-- The running realm of a sound point. -/
theorem Sound.arena (sound : point.Sound) : point.machine.arena.Sound := by
  have here := sound.arenas point.machine.realm
  rw [Machine.realmAt_running] at here
  exact here

theorem Sound.stack (sound : point.Sound) :
    Stacked point.machine.arena.size point.machine.current
      (callsIn point.machine.realm point.machine.realm point.pending) := by
  have here := sound.stacked point.machine.realm
  rw [Machine.realmAt_running] at here
  exact here

theorem Sound.current_lt (sound : point.Sound) :
    point.machine.current < point.machine.arena.size :=
  sound.stack.current_lt

/-- A change that enters and leaves no activation. -/
theorem Sound.advances_of_size_eq (sound : point.Sound) {machine : Machine}
    (realm : machine.realm = point.machine.realm) (parked : machine.parked = point.machine.parked)
    (current : machine.current = point.machine.current) (arena : machine.arena.Sound)
    (preserves : point.machine.arena.Preserves machine.arena)
    (size : machine.arena.size = point.machine.arena.size)
    (kept : ∀ {index : Nat} {function : Function},
      point.machine.store.functions[index]? = some function →
        ∃ later, machine.store.functions[index]? = some later ∧ later.code = function.code)
    (added : ∀ function ∈ machine.store.functions, function.code.home? = none ∨
      (∃ earlier ∈ point.machine.store.functions, earlier.code = function.code) ∨
      ∃ parent static params body,
        function.code = .closure point.machine.realm parent static params body ∧
          machine.arena.Captured parent) :
    point.Advances { point with machine } where
  realm := realm
  parked := parked
  kept := kept
  added := added
  visits _ member := member
  arena := arena
  preserves := preserves
  stack := by
    rw [size, current]
    exact sound.stack
  others _ _ := rfl
  serials _ _ _ := rfl
  newest _ old inRange := by
    rw [size] at inRange
    exact absurd inRange (Nat.not_lt_of_le old)
  next := Nat.le_refl _

theorem Sound.advances_extend (sound : point.Sound) {store : Store}
    (extends' : point.machine.store.Extends store) :
    point.Advances { point with machine := { point.machine with store } } := by
  refine sound.advances_of_size_eq rfl rfl rfl sound.arena (.refl _) rfl extends'.kept ?_
  intro function member
  rcases extends'.added function member with none | earlier
  · exact .inl none
  · exact .inr (.inl earlier)

theorem Sound.advances_report (sound : point.Sound) (output : Output) (context : Context) :
    point.Advances { point with machine := { point.machine with output, context } } := by
  refine sound.advances_of_size_eq rfl rfl rfl sound.arena (.refl _) rfl ?_ ?_
  · intro index function found
    exact ⟨function, found, rfl⟩
  · intro function member
    exact .inr (.inl ⟨function, member, rfl⟩)

theorem Sound.advances_bind (sound : point.Sound) (index : Nat) (name : String) (value : Value) :
    point.Advances { point with machine := point.machine.bindAt index name value } := by
  have gentle := Arena.isGentle_set name value
  refine sound.advances_of_size_eq rfl rfl rfl (gentle.sound sound.arena index)
    (gentle.preserves _ index) (Arena.size_modify _ _ _) ?_ ?_
  · intro place function found
    exact ⟨function, found, rfl⟩
  · intro function member
    exact .inr (.inl ⟨function, member, rfl⟩)

theorem Sound.advances_create (sound : point.Sound) (name : String) (params : List String)
    (static : Option FrameId) (body : Body) :
    point.Advances { point with machine := point.machine.create name params static body } := by
  have gentle := Arena.isGentle_capture
  refine sound.advances_of_size_eq rfl rfl rfl (gentle.sound sound.arena _)
    (gentle.preserves _ _) (Arena.size_modify _ _ _) ?_ ?_
  · intro index function found
    have inRange : index < point.machine.store.functions.size :=
      (Array.getElem?_eq_some_iff.mp found).1
    refine ⟨function, ?_, rfl⟩
    simp only [Machine.create, Store.newFunction]
    rw [Array.getElem?_push, if_neg (Nat.ne_of_lt inRange), found]
  · intro function member
    simp only [Machine.create, Store.newFunction, Array.mem_push] at member
    rcases member with earlier | rfl
    · exact .inr (.inl ⟨function, earlier, rfl⟩)
    · exact .inr (.inr ⟨_, _, _, _, rfl, Arena.captured_capture sound.current_lt⟩)

theorem callsIn_call_of_ne {realm running index caller depth : Nat} {rest : List Pending}
    (other : realm ≠ running) :
    callsIn realm running (.call index caller depth :: rest) = callsIn realm running rest :=
  if_neg other

theorem callsIn_call_running {running index caller depth : Nat} {rest : List Pending} :
    callsIn running running (.call index caller depth :: rest) =
      (index, caller) :: callsIn running running rest :=
  if_pos rfl

theorem Sound.advances_enter (sound : point.Sound) {parent : Nat} {static : Option FrameId}
    {params : List String} {body : Body} (bindings : Record)
    (known : ∃ function ∈ point.machine.store.functions,
      function.code = .closure point.machine.realm parent static params body) :
    point.Advances
      { machine := point.machine.enter parent static bindings
        pending :=
          .call point.machine.arena.size point.machine.current point.machine.depth :: point.pending
        serial := fun realm index =>
          if realm = point.machine.realm ∧ index = point.machine.arena.size then point.next
          else point.serial realm index
        next := point.next + 1 } := by
  obtain ⟨function, member, code⟩ := known
  have captured := sound.closures function member _ _ _ _ _ code
  rw [Machine.realmAt_running] at captured
  have size : (point.machine.arena.enter parent static bindings).size =
      point.machine.arena.size + 1 := Array.size_push _
  constructor
  case realm => rfl
  case parked => rfl
  case kept =>
    intro index function found
    exact ⟨function, found, rfl⟩
  case added =>
    intro function member
    exact .inr (.inl ⟨function, member, rfl⟩)
  case visits =>
    intro realm isVisit
    rcases List.mem_cons.mp isVisit with impossible | isPending
    · cases impossible
    · exact isPending
  case arena => exact sound.arena.enter captured static bindings
  case preserves => exact Arena.preserves_enter _ parent static bindings
  case stack =>
    rw [callsIn_call_running]
    refine ⟨rfl, ?_, sound.stack⟩
    exact Nat.lt_of_lt_of_eq (Nat.lt_succ_self _) size.symm
  case others =>
    intro realm other
    exact callsIn_call_of_ne other
  case serials =>
    intro realm index old
    refine if_neg ?_
    rintro ⟨same, newest⟩
    exact absurd (old same) (Nat.not_lt_of_le (Nat.le_of_eq newest.symm))
  case newest =>
    intro index old inRange
    have inEntered : index < point.machine.arena.size + 1 := Nat.lt_of_lt_of_eq inRange size
    have isNewest : index = point.machine.arena.size := Nat.le_antisymm (Nat.le_of_lt_succ inEntered) old
    simp [isNewest]
  case next => exact Nat.le_succ _

theorem Sound.advances_leave (sound : point.Sound) {index caller depth : Nat} {rest : List Pending}
    (innermost : point.pending = .call index caller depth :: rest) :
    point.Advances
      { point with machine := point.machine.leave index caller depth, pending := rest } := by
  have stacked := sound.stack
  rw [innermost, callsIn_call_running] at stacked
  obtain ⟨_, inRange, deeper⟩ := stacked
  constructor
  case realm => rfl
  case parked => rfl
  case kept =>
    intro place function found
    exact ⟨function, found, rfl⟩
  case added =>
    intro function member
    exact .inr (.inl ⟨function, member, rfl⟩)
  case visits =>
    intro realm isVisit
    rw [innermost]
    exact List.mem_cons_of_mem _ isVisit
  case arena => exact sound.arena.release index
  case preserves => exact Arena.preserves_release _ index
  case stack => exact deeper.mono (Arena.le_size_release inRange)
  case others =>
    intro realm other
    rw [innermost, callsIn_call_of_ne other]
  case serials => exact fun _ _ _ => rfl
  case newest =>
    intro place old inReleased
    exact absurd (Nat.lt_of_lt_of_le inReleased (Arena.size_release_le _ index)) (Nat.not_lt_of_le old)
  case next => exact Nat.le_refl _

/-! ## Other realms -/

theorem Sound.switch (sound : point.Sound) {target : Nat} {pending : List Pending}
    (inRange : target < point.machine.parked.size)
    (visits : ∀ realm, Pending.visit realm ∈ pending → realm < point.machine.parked.size)
    (calls : ∀ realm, callsIn realm target pending =
      callsIn realm point.machine.realm point.pending) :
    ({ point with machine := point.machine.switchTo target, pending } : Configuration).Sound ∧
      point.Persists { point with machine := point.machine.switchTo target, pending } := by
  have same := point.machine.realmAt_switchTo sound.running target
  have size : (point.machine.switchTo target).parked.size = point.machine.parked.size :=
    Array.size_setIfInBounds
  refine ⟨?_, ?_⟩
  · constructor
    case running => exact Nat.lt_of_lt_of_eq inRange size.symm
    case homes =>
      intro function member realm home
      exact Nat.lt_of_lt_of_eq (sound.homes function member realm home) size.symm
    case visits =>
      intro realm member
      exact Nat.lt_of_lt_of_eq (visits realm member) size.symm
    case arenas =>
      intro realm
      rw [same]
      exact sound.arenas realm
    case closures =>
      intro function member realm parent static params body code
      rw [same]
      exact sound.closures function member realm parent static params body code
    case stacked =>
      intro realm
      have stacked := sound.stacked realm
      rw [← calls realm] at stacked
      rw [same]
      exact stacked
    case numbered =>
      intro realm index isIndex
      rw [same] at isIndex
      exact sound.numbered realm index isIndex
  · constructor
    case arenas =>
      intro realm
      rw [same]
      exact .refl _
    case serials => exact fun _ _ _ => rfl
    case functions =>
      intro index function found
      exact ⟨function, found, rfl⟩

theorem realmAt_found_of_ne (machine : Machine) {realm : Nat}
    (old : realm ≠ machine.parked.size) : machine.found.realmAt realm = machine.realmAt realm := by
  by_cases same : realm = machine.realm
  · subst same
    exact machine.found.realmAt_running.trans machine.realmAt_running.symm
  · refine (machine.found.realmAt_of_ne same).trans ?_
    rw [machine.realmAt_of_ne same]
    simp only [Machine.found, Array.getD_eq_getD_getElem?, Array.getElem?_push, if_neg old]

/-- The realm that is added has no activation but the global one. -/
theorem realmAt_found_newest (machine : Machine) (inRange : machine.realm < machine.parked.size) :
    ∃ print, machine.found.realmAt machine.parked.size =
      { arena := Arena.set {} 0 "print" print } := by
  have other : machine.parked.size ≠ machine.found.realm := Nat.ne_of_gt inRange
  refine ⟨.function (.stored machine.store.functions.size), ?_⟩
  refine (machine.found.realmAt_of_ne other).trans ?_
  simp only [Machine.found, Array.getD_eq_getD_getElem?, Array.getElem?_push_size]
  rfl

/-- A realm that was not added yet counts as a new one. -/
theorem realmAt_absent (machine : Machine) (inRange : machine.realm < machine.parked.size) :
    machine.realmAt machine.parked.size = {} := by
  rw [Machine.realmAt_of_ne _ (Nat.ne_of_gt inRange)]
  simp [Array.getD]

theorem Sound.found (sound : point.Sound) :
    let after : Configuration :=
      { point with
        machine := point.machine.found
        serial := fun realm index =>
          if realm = point.machine.parked.size ∧ index = 0 then point.next
          else point.serial realm index
        next := point.next + 1 }
    after.Sound ∧ point.Persists after := by
  obtain ⟨print, newest⟩ := realmAt_found_newest point.machine sound.running
  have size : point.machine.found.parked.size = point.machine.parked.size + 1 := Array.size_push _
  have functions : ∀ function ∈ point.machine.found.store.functions,
      function ∈ point.machine.store.functions ∨
        function = Session.printFunction point.machine.parked.size := by
    intro function member
    simpa [Machine.found, Store.newFunction] using member
  have absent := realmAt_absent point.machine sound.running
  refine ⟨?_, ?_⟩
  · constructor
    case running => exact Nat.lt_of_lt_of_eq (Nat.lt_succ_of_lt sound.running) size.symm
    case homes =>
      intro function member realm home
      refine Nat.lt_of_lt_of_eq (Nat.lt_succ_of_le ?_) size.symm
      rcases functions function member with old | rfl
      · exact Nat.le_of_lt (sound.homes function old realm home)
      · cases home
        exact Nat.le_refl _
    case visits =>
      intro realm member
      exact Nat.lt_of_lt_of_eq (Nat.lt_succ_of_lt (sound.visits realm member)) size.symm
    case arenas =>
      intro realm
      by_cases new : realm = point.machine.parked.size
      · rw [new, newest]
        exact (Arena.isGentle_set _ _).sound Arena.sound_new 0
      · rw [realmAt_found_of_ne _ new]
        exact sound.arenas realm
    case closures =>
      intro function member realm parent static params body code
      rcases functions function member with old | rfl
      · have inRange := sound.homes function old realm (by rw [code]; rfl)
        rw [realmAt_found_of_ne _ (Nat.ne_of_lt inRange)]
        exact sound.closures function old realm parent static params body code
      · cases code
    case stacked =>
      intro realm
      have stacked := sound.stacked realm
      by_cases new : realm = point.machine.parked.size
      · rw [new, absent] at stacked
        rw [new, newest]
        exact stacked
      · rw [realmAt_found_of_ne _ new]
        exact stacked
    case numbered =>
      intro realm index inRange
      dsimp only
      by_cases new : realm = point.machine.parked.size
      · rw [new, newest] at inRange
        have first : index = 0 := Nat.lt_one_iff.mp inRange
        rw [if_pos ⟨new, first⟩]
        exact Nat.lt_succ_self _
      · rw [realmAt_found_of_ne _ new] at inRange
        rw [if_neg fun both => new both.1]
        exact Nat.lt_succ_of_lt (sound.numbered realm index inRange)
  · constructor
    case arenas =>
      intro realm
      by_cases new : realm = point.machine.parked.size
      · constructor
        intro index activation found captured
        rw [new, absent] at found
        exact absurd ⟨activation, found, captured⟩ Arena.not_captured_new
      · rw [realmAt_found_of_ne _ new]
        exact .refl _
    case serials =>
      intro realm index captured
      refine if_neg ?_
      rintro ⟨rfl, rfl⟩
      rw [absent] at captured
      exact Arena.not_captured_new captured
    case functions =>
      intro index function found
      have inRange : index < point.machine.store.functions.size :=
        (Array.getElem?_eq_some_iff.mp found).1
      refine ⟨function, ?_, rfl⟩
      simp only [Machine.found, Store.newFunction]
      rw [Array.getElem?_push, if_neg (Nat.ne_of_lt inRange), found]

/-! ## Steps and runs -/

/-- A step from a sound point leads to a sound point, and keeps what was captured. -/
theorem Step.sound (step : Step point after) (sound : point.Sound) :
    after.Sound ∧ point.Persists after := by
  have advancing {next : Configuration} (advances : point.Advances next) :
      next.Sound ∧ point.Persists next := ⟨advances.sound sound, advances.persists⟩
  cases step with
  | extend extended =>
      exact advancing (sound.advances_extend extended)
  | report output context =>
      exact advancing (sound.advances_report output context)
  | bind index name value =>
      exact advancing (sound.advances_bind index name value)
  | create name params static body =>
      exact advancing (sound.advances_create name params static body)
  | enter bindings _ known =>
      exact advancing (sound.advances_enter bindings known)
  | leave innermost =>
      exact advancing (sound.advances_leave innermost)
  | visit known =>
      obtain ⟨function, member, home⟩ := known
      refine sound.switch (sound.homes function member _ home) ?_ fun _ => rfl
      intro realm isVisit
      rcases List.mem_cons.mp isVisit with isHere | isPending
      · cases isHere
        exact sound.running
      · exact sound.visits realm isPending
  | back innermost =>
      have visits := sound.visits
      rw [innermost] at visits
      refine sound.switch (visits _ (List.mem_cons_self ..)) ?_ fun realm => ?_
      · intro realm isVisit
        exact visits realm (List.mem_cons_of_mem _ isVisit)
      · rw [innermost]
        rfl
  | found =>
      exact sound.found

theorem Persists.refl (point : Configuration) : point.Persists point where
  arenas _ := .refl _
  serials _ _ _ := rfl
  functions found := ⟨_, found, rfl⟩

theorem Persists.trans {last : Configuration} (first : point.Persists after)
    (second : after.Persists last) : point.Persists last := by
  constructor
  case arenas =>
    intro realm
    exact (first.arenas realm).trans (second.arenas realm)
  case serials =>
    intro realm index captured
    exact (second.serials realm index ((first.arenas realm).captured captured)).trans
      (first.serials realm index captured)
  case functions =>
    intro index function found
    obtain ⟨middle, middleFound, sameMiddle⟩ := first.functions found
    obtain ⟨later, laterFound, sameLater⟩ := second.functions middleFound
    exact ⟨later, laterFound, sameLater.trans sameMiddle⟩

theorem Run.sound (run : Run point after) (sound : point.Sound) :
    after.Sound ∧ point.Persists after := by
  induction run with
  | refl =>
      exact ⟨sound, .refl point⟩
  | tail _ step inductionHypothesis =>
      obtain ⟨middleSound, persists⟩ := inductionHypothesis
      obtain ⟨lastSound, lastPersists⟩ := step.sound middleSound
      exact ⟨lastSound, persists.trans lastPersists⟩

end Configuration

end Reckon
