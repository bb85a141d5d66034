import Reckon.Proofs.Session.Evaluation
import Reckon.Proofs.Store.Carrying

/-!
# Functions put into a machine

A machine knows functions by their places in its store.  When others are put in before them, everything
in the machine that refers to a function moves past them.  The actions on the machine do the same from
there, and what they give has moved in the same way.
-/

namespace Reckon

open Eval

variable (inserted : Insertion)

/-! ## Activations -/

/-- An activation after functions were put in. -/
def Activation.past (activation : Activation) : Activation :=
  { activation with bindings := activation.bindings.past inserted }

/-- An arena after functions were put in. -/
def Arena.past (arena : Arena) : Arena :=
  arena.map (Activation.past inserted)

namespace Arena

variable {inserted} (arena : Arena)

@[simp]
theorem size_past : (arena.past inserted).size = arena.size :=
  arena.size_map _

theorem bindings_past (index : Nat) :
    (arena.past inserted).bindings index = (arena.bindings index).past inserted := by
  rw [bindings, past, getElem?_map, bindings, Option.map_map]
  cases arena.activations[index]? <;> rfl

theorem set_past (index : Nat) (name : String) (value : Value) :
    (arena.past inserted).set index name (value.past inserted) =
      (arena.set index name value).past inserted := by
  refine arena.modify_map (Activation.past inserted) index fun activation => ?_
  rw [Activation.past, ← Record.set_past]
  rfl

theorem capture_past (index : Nat) :
    (arena.past inserted).capture index = (arena.capture index).past inserted :=
  arena.modify_map _ index fun _ => rfl

theorem enter_past (parent : Nat) (static : Option FrameId) (bindings : Record) :
    (arena.past inserted).enter parent static (bindings.past inserted) =
      (arena.enter parent static bindings).past inserted := by
  simp [enter, past, map, Activation.past]

theorem release_past (index : Nat) :
    (arena.past inserted).release index = (arena.release index).past inserted :=
  arena.release_map (Activation.past inserted) (fun _ => rfl) index

theorem find?_past (index : Nat) {first second : Activation → Bool}
    (blind : ∀ activation, second (activation.past inserted) = first activation) :
    (arena.past inserted).find? index second =
      (arena.find? index first).map (Prod.map id (Activation.past inserted)) := by
  rw [find?, size_past]
  exact arena.findFrom_map (Activation.past inserted) (fun _ => rfl) blind arena.size index

theorem find?_contains_past (index : Nat) (name : String) :
    (arena.past inserted).find? index (fun activation => activation.bindings.contains name) =
      (arena.find? index fun activation => activation.bindings.contains name).map
        (Prod.map id (Activation.past inserted)) :=
  arena.find?_past index fun activation => activation.bindings.contains_past name

theorem lookup?_past (index : Nat) (name : String) :
    (arena.past inserted).lookup? index name =
      (arena.lookup? index name).map (Value.past inserted) := by
  rw [lookup?, find?_contains_past, lookup?]
  cases arena.find? index fun activation => activation.bindings.contains name with
  | none => rfl
  | some found => exact found.2.bindings.get?_past name

theorem owner?_past (index : Nat) (static : Option FrameId) :
    (arena.past inserted).owner? index static = arena.owner? index static := by
  cases static with
  | none => rfl
  | some frame =>
      rw [owner?, owner?, arena.find?_past index fun _ => rfl, Option.map_map]
      rfl

theorem visible_past (index : Nat) :
    (arena.past inserted).visible index = arena.visible index := by
  have chains := arena.chainFrom_map (Activation.past inserted) (fun _ => rfl) arena.size index
  rw [visible, chain, size_past, past, chains, List.flatMap_map]
  rfl

end Arena

/-! ## Machines -/

/-- A realm after functions were put in. -/
def Realm.past (realm : Realm) : Realm :=
  { realm with arena := realm.arena.past inserted }

/-- What a run has written, after functions were put in. -/
def Progress.past (progress : Progress) : Progress where
  output := progress.output
  bindings realm index := (progress.bindings realm index).past inserted
  maps := progress.maps.map (Record.past inserted)

/-- A context after functions were put in. -/
def Context.past (context : Context) : Context :=
  { context with told := context.told.map (Progress.past inserted) }

/-- A machine after functions were put into its store. -/
def Machine.past (machine : Machine) : Machine :=
  { machine with
    toRealm := machine.toRealm.past inserted
    store := machine.store.past inserted
    parked := machine.parked.map (Realm.past inserted)
    context := machine.context.past inserted }

namespace Machine

variable {inserted} (machine : Machine)

theorem getD_past (realms : Array Realm) (realm : Nat) :
    (realms.map (Realm.past inserted)).getD realm {} = (realms.getD realm {}).past inserted := by
  have fresh : Realm.past inserted {} = {} := by
    simp [Realm.past, Arena.past, Arena.map, Activation.past]
  rw [Array.getD_eq_getD_getElem?, Array.getElem?_map, Array.getD_eq_getD_getElem?]
  cases realms[realm]? with
  | none => exact fresh.symm
  | some known => rfl

theorem switchTo_past (realm : Nat) :
    (machine.past inserted).switchTo realm = (machine.switchTo realm).past inserted := by
  have parked : (machine.past inserted).parked.setIfInBounds machine.realm
      (machine.toRealm.past inserted) =
      (machine.parked.setIfInBounds machine.realm machine.toRealm).map (Realm.past inserted) := by
    simp [past]
  have known := congrArg (fun realms => ({ machine.past inserted with
    toRealm := realms.getD realm {}, realm, parked := realms } : Machine)) parked
  refine known.trans ?_
  simp only [getD_past]
  rfl

theorem progress_past : (machine.past inserted).progress = machine.progress.past inserted := by
  have realms (realm : Nat) :
      (machine.past inserted).realmAt realm = (machine.realmAt realm).past inserted := by
    have here : (machine.past inserted).realm = machine.realm := rfl
    unfold realmAt
    rw [here]
    by_cases running : realm = machine.realm
    · rw [if_pos running, if_pos running]
      rfl
    · rw [if_neg running, if_neg running]
      exact getD_past machine.parked realm
  unfold progress
  simp only [realms, Realm.past, Arena.bindings_past]
  rfl

theorem stop_past : (machine.past inserted).stop = machine.stop.past inserted := by
  unfold stop
  rw [progress_past]
  rfl

theorem tagged?_past (name : Variable) :
    (machine.past inserted).tagged? name = machine.tagged? name := by
  unfold tagged?
  cases name.frame with
  | none => rfl
  | some frame => exact machine.arena.owner?_past machine.current (some frame)

theorem lookup?_builtin_past (name : String) :
    (Builtin.lookup? name).map (Value.past inserted) = Builtin.lookup? name := by
  unfold Builtin.lookup?
  cases Builtin.all.find? fun function => function.name == name with
  | some function => rfl
  | none =>
      cases found : Builtin.constants.find? fun constant => constant.1 == name with
      | none => rfl
      | some constant =>
          have listed := List.mem_of_find?_eq_some found
          simp only [Builtin.constants, List.mem_cons, List.not_mem_nil, or_false] at listed
          rcases listed with rfl | rfl | rfl <;> rfl

theorem read?_past (name : Variable) :
    (machine.past inserted).read? name = (machine.read? name).map (Value.past inserted) := by
  have here : (machine.past inserted).arena = machine.arena.past inserted := rfl
  have current : (machine.past inserted).current = machine.current := rfl
  have untagged : ((machine.arena.lookup? machine.current name.name).map (Value.past inserted) <|>
        Builtin.lookup? name.name) =
      (machine.arena.lookup? machine.current name.name <|> Builtin.lookup? name.name).map
        (Value.past inserted) := by
    cases machine.arena.lookup? machine.current name.name with
    | none => exact (lookup?_builtin_past name.name).symm
    | some value => rfl
  rw [read?, tagged?_past, here, current, Arena.lookup?_past, untagged, read?]
  cases machine.tagged? name with
  | none => rfl
  | some owner =>
      dsimp only [Option.bind_some]
      rw [Arena.bindings_past, Record.get?_past]
      cases (machine.arena.bindings owner).get? name.name <;> rfl

theorem bindAt_past (index : Nat) (name : String) (value : Value) :
    (machine.past inserted).bindAt index name (value.past inserted) =
      (machine.bindAt index name value).past inserted := by
  have bound : (machine.past inserted).arena.set index name (value.past inserted) =
      (machine.arena.set index name value).past inserted := machine.arena.set_past index name value
  unfold bindAt
  rw [bound]
  rfl

theorem assignee_past (name : Variable) :
    (machine.past inserted).assignee name = machine.assignee name := by
  have binder : (machine.past inserted).binder name.name = machine.binder name.name := by
    have found : (machine.past inserted).arena.find? machine.current
        (fun activation => activation.bindings.contains name.name) = _ :=
      machine.arena.find?_contains_past machine.current name.name
    have current : (machine.past inserted).current = machine.current := rfl
    rw [Machine.binder, current, found, Machine.binder]
    cases machine.arena.find? machine.current
      fun activation => activation.bindings.contains name.name <;> rfl
  rw [assignee, tagged?_past, binder, assignee]

theorem declaree_past (name : Variable) :
    (machine.past inserted).declaree name = machine.declaree name :=
  congrArg (fun owner : Option Nat => owner.getD machine.current)
    (machine.arena.owner?_past machine.current name.frame)

end Machine

/-! ### Functions that nothing refers to -/

/-- Every value of a variable in an arena has a property. -/
def Arena.Every (property : Value → Prop) (arena : Arena) : Prop :=
  ∀ activation ∈ arena.activations, activation.bindings.Every property

/-- Every value that a run has written has a property. -/
structure Progress.Every (property : Value → Prop) (progress : Progress) : Prop where
  bindings : ∀ realm index, (progress.bindings realm index).Every property
  maps : ∀ record ∈ progress.maps, record.Every property

/-- Every value in a machine has a property. -/
structure Machine.Every (property : Value → Prop) (machine : Machine) : Prop where
  store : machine.store.Every property
  arena : machine.arena.Every property
  parked : ∀ realm ∈ machine.parked, realm.arena.Every property
  told : ∀ progress ∈ machine.context.told, progress.Every property

section Every

variable {inserted} {property : Value → Prop}
  (fixed : ∀ value, property value → value.past inserted = value)

include fixed

theorem Arena.past_of_every {arena : Arena} (every : arena.Every property) :
    arena.past inserted = arena := by
  have same : arena.activations.map (Activation.past inserted) = arena.activations := by
    refine mapArray_eq_self fun activation held => ?_
    rw [Activation.past, Record.past_of_every fixed (every activation held)]
  rw [past, map, same]

theorem Progress.past_of_every {progress : Progress} (every : progress.Every property) :
    progress.past inserted = progress := by
  have maps : progress.maps.map (Record.past inserted) = progress.maps :=
    mapArray_eq_self fun record held => Record.past_of_every fixed (every.maps record held)
  have bindings : (fun realm index => (progress.bindings realm index).past inserted) =
      progress.bindings := by
    funext realm index
    exact Record.past_of_every fixed (every.bindings realm index)
  rw [past, maps, bindings]

/-- Functions that come last move nothing in a machine that does not refer to them. -/
theorem Machine.past_of_every {machine : Machine} (every : machine.Every property)
    (last : inserted.place = machine.store.functions.size) :
    machine.past inserted =
      { machine with store := { machine.store with
          functions := machine.store.functions ++ inserted.functions.toArray } } := by
  have realm : machine.toRealm.past inserted = machine.toRealm := by
    rw [Realm.past, Arena.past_of_every fixed every.arena]
  have parked : machine.parked.map (Realm.past inserted) = machine.parked := by
    refine mapArray_eq_self fun realm held => ?_
    rw [Realm.past, Arena.past_of_every fixed (every.parked realm held)]
  have context : machine.context.past inserted = machine.context := by
    have told : machine.context.told.map (Progress.past inserted) = machine.context.told :=
      mapList_eq_self fun progress held => Progress.past_of_every fixed (every.told progress held)
    rw [Context.past, told]
  rw [past, realm, parked, context, Store.past_of_every fixed every.store last]

end Every

/-! ## Actions -/

theorem Insertion.Fits.newFunction {inserted : Insertion} {store : Store} {function : Function}
    (fits : inserted.Fits store)
    (suits : ∀ reply, function.code = .native (.answer reply) → inserted.Suits reply) :
    inserted.Fits (store.newFunction function).2 := by
  constructor
  · exact Nat.le_trans fits.within (by simp [Store.newFunction])
  · intro known member reply isAnswer
    rcases Array.mem_push.mp member with old | rfl
    · exact fits.suits known old reply isAnswer
    · exact suits reply isAnswer

theorem Insertion.Fits.suits_function {inserted : Insertion} {store : Store}
    (fits : inserted.Fits store) (ref : FunctionRef) (reply : List Value → Outcome)
    (isAnswer : (store.function ref).code = .native (.answer reply)) : inserted.Suits reply := by
  cases ref with
  | builtin function => cases isAnswer
  | stored index =>
      rw [Store.function, Array.getD_eq_getD_getElem?] at isAnswer
      cases found : store.functions[index]? with
      | none =>
          rw [found] at isAnswer
          cases isAnswer
      | some function =>
          rw [found] at isAnswer
          exact fits.suits function (Array.mem_of_getElem? found) reply isAnswer

namespace Eval

variable {α β : Type}

/-- A result after functions were put in. -/
def pastResult (change : α → α) :
    EStateM.Result Failure Machine α → EStateM.Result Failure Machine α
  | .ok result machine => .ok (change result) (machine.past inserted)
  | .error failure machine => .error (failure.past inserted) (machine.past inserted)

/-- From a machine with functions put in, the first action ends as the second one does, after the
functions were put in there. -/
structure CarriesAt (machine : Machine) (change : α → α) (first second : Eval α) : Prop where
  same : first.run (machine.past inserted) = pastResult inserted change (second.run machine)
  fits : inserted.Fits (machineOf (second.run machine)).store

/-- From each machine with functions put in, the first action ends as the second one does. -/
def Carries (change : α → α) (first second : Eval α) : Prop :=
  ∀ machine, inserted.Fits machine.store → CarriesAt inserted machine change first second

variable {inserted} {change : α → α} {changeNext : β → β} {machine : Machine} {first second : Eval α}

theorem CarriesAt.bind {firstNext secondNext : α → Eval β}
    (carried : CarriesAt inserted machine change first second)
    (next : ∀ value after, second.run machine = .ok value after → inserted.Fits after.store →
      CarriesAt inserted after changeNext (firstNext (change value)) (secondNext value)) :
    CarriesAt inserted machine changeNext (first >>= firstNext) (second >>= secondNext) := by
  obtain ⟨same, fits⟩ := carried
  cases ran : second.run machine with
  | ok value after =>
      rw [ran] at same fits
      have goOn := next value after ran fits
      constructor
      · simpa only [EStateM.run_bind, same, ran, pastResult] using goOn.same
      · rw [EStateM.run_bind, ran]
        exact goOn.fits
  | error failure after =>
      rw [ran] at same fits
      constructor
      · simp only [EStateM.run_bind, same, ran, pastResult]
      · rw [EStateM.run_bind, ran]
        exact fits

variable (inserted) in
/-- The correspondence of actions on the machine. -/
def carrying : Correspondence Eval where
  relates := Carries inserted
  pure _ _ := fun _ fits => ⟨rfl, fits⟩
  bind carried next := fun machine fits =>
    (carried machine fits).bind fun value after _ laterFits => next value after laterFits

theorem carries_pure (change : α → α) (value : α) :
    Carries inserted change (pure (change value)) (pure value) :=
  (carrying inserted).pure change value

theorem Carries.bind {firstNext secondNext : α → Eval β}
    (carried : Carries inserted change first second)
    (next : ∀ value, Carries inserted changeNext (firstNext (change value)) (secondNext value)) :
    Carries inserted changeNext (first >>= firstNext) (second >>= secondNext) :=
  (carrying inserted).bind carried next

theorem carries_fixed {value : α} (fixed : change value = value) :
    Carries inserted change (pure value) (pure value) :=
  (carrying inserted).fixed fixed

theorem carries_throw (failure : Failure) :
    Carries inserted change (throw (failure.past inserted)) (throw failure) :=
  fun _ fits => ⟨rfl, fits⟩

theorem carries_orCrash {result : Except Crash α}
    (fixed : ∀ value, result = .ok value → change value = value) :
    Carries inserted change (orCrash result) (orCrash result) := by
  cases result with
  | ok value => exact carries_fixed (fixed value rfl)
  | error crash => exact carries_throw (.crashed crash)

theorem carries_get {firstNext secondNext : Machine → Eval α}
    (next : ∀ machine, inserted.Fits machine.store →
      CarriesAt inserted machine change (firstNext (machine.past inserted)) (secondNext machine)) :
    Carries inserted change (get >>= firstNext) (get >>= secondNext) := by
  intro machine fits
  have goOn := next machine fits
  exact ⟨goOn.same, goOn.fits⟩

theorem carries_store {firstNext secondNext : Store → Eval α}
    (next : ∀ store, inserted.Fits store →
      Carries inserted change (firstNext (store.past inserted)) (secondNext store)) :
    Carries inserted change (Eval.store >>= firstNext) (Eval.store >>= secondNext) := by
  intro machine fits
  have goOn := next machine.store fits machine fits
  exact ⟨goOn.same, goOn.fits⟩

theorem carries_modify {first second : Machine → Machine}
    (changed : ∀ machine, inserted.Fits machine.store →
      first (machine.past inserted) = (second machine).past inserted ∧
        inserted.Fits (second machine).store) :
    Carries inserted id (modify first) (modify second) := by
  intro machine fits
  obtain ⟨same, after⟩ := changed machine fits
  exact ⟨congrArg (EStateM.Result.ok ()) same, after⟩

theorem carries_ite {condition : Prop} [Decidable condition] {firstElse secondElse : Eval α}
    (whenTrue : condition → Carries inserted change first second)
    (whenFalse : ¬condition → Carries inserted change firstElse secondElse) :
    Carries inserted change (if condition then first else firstElse)
      (if condition then second else secondElse) := by
  by_cases decided : condition
  · rw [if_pos decided, if_pos decided]
    exact whenTrue decided
  · rw [if_neg decided, if_neg decided]
    exact whenFalse decided

theorem Carries.mapFailure (carried : Carries inserted change first second)
    {onFailure : Failure → Failure}
    (commutes : ∀ failure, onFailure (failure.past inserted) = (onFailure failure).past inserted) :
    Carries inserted change (mapFailure onFailure first) (mapFailure onFailure second) := by
  intro machine fits
  obtain ⟨same, after⟩ := carried machine fits
  cases ran : second.run machine with
  | ok value later =>
      rw [ran] at same after
      constructor
      · simp only [run_mapFailure, same, ran, pastResult]
      · rw [run_mapFailure, ran]
        exact after
  | error failure later =>
      rw [ran] at same after
      constructor
      · simp only [run_mapFailure, same, ran, pastResult, commutes]
      · rw [run_mapFailure, ran]
        exact after

theorem CarriesAt.cleaningUp (carried : CarriesAt inserted machine change first second)
    (cleanUp : Machine → Machine)
    (commutes : ∀ after, cleanUp (after.past inserted) = (cleanUp after).past inserted)
    (keeps : ∀ after, (cleanUp after).store = after.store) :
    CarriesAt inserted machine change (cleaningUp first cleanUp) (cleaningUp second cleanUp) := by
  obtain ⟨same, fits⟩ := carried
  cases ran : second.run machine with
  | ok value later =>
      rw [ran] at same fits
      constructor
      · simp only [run_cleaningUp, same, ran, pastResult, commutes]
      · rw [run_cleaningUp, ran]
        exact (keeps later).symm ▸ fits
  | error failure later =>
      rw [ran] at same fits
      constructor
      · simp only [run_cleaningUp, same, ran, pastResult, commutes]
      · rw [run_cleaningUp, ran]
        exact (keeps later).symm ▸ fits

/-! ### The store -/

theorem carries_onStore {first second : StoreM α}
    (carried : StoreM.Carries inserted change first second) :
    Carries inserted change (onStore first) (onStore second) := by
  intro machine fits
  constructor
  · have same : first.run (machine.past inserted).store = _ := carried.same machine.store fits
    rw [Regime.run_onStore, Regime.run_onStore, same]
    rfl
  · exact carried.fits machine.store fits

theorem carries_follow {first second : FollowM α}
    (carried : FollowM.Carries inserted change first second) :
    Carries inserted change (follow first) (follow second) := by
  refine (carries_onStore carried).bind fun found => ?_
  cases found with
  | none => exact carries_throw .exhausted
  | some result => exact carries_pure change result

theorem carries_ofEntries (entries : List (String × Value)) :
    Carries inserted (Value.past inserted)
      (newMap (.ofEntries (entries.map (Prod.map id (Value.past inserted)))))
      (newMap (.ofEntries entries)) :=
  carries_onStore (StoreM.carries_ofEntries entries)

theorem carries_newArray (values : List Value) :
    Carries inserted (Value.past inserted) (newArray (values.map (Value.past inserted)))
      (newArray values) :=
  carries_onStore (StoreM.carries_newArray values)

theorem run_newFuture (future : Future) (machine : Machine) :
    (newFuture future).run machine =
      .ok (.future (machine.store.newFuture future).1)
        { machine with store := (machine.store.newFuture future).2 } :=
  rfl

theorem carries_newFuture (future : Future) :
    Carries inserted (Value.past inserted) (newFuture (future.past inserted)) (newFuture future) := by
  intro machine fits
  constructor
  · have made : (machine.past inserted).store.newFuture (future.past inserted) = _ :=
      machine.store.newFuture_past future
    rw [run_newFuture, run_newFuture, made]
    rfl
  · exact ⟨fits.within, fits.suits⟩

/-- A new function of the host must not depend on the places of functions. -/
theorem carriesAt_newFunction (function : Function) (fits : inserted.Fits machine.store)
    (suits : ∀ reply, function.code = .native (.answer reply) → inserted.Suits reply) :
    CarriesAt inserted machine (Value.past inserted) (newFunction (function.past inserted))
      (newFunction function) := by
  constructor
  · have made : (machine.past inserted).store.newFunction (function.past inserted) = _ :=
      machine.store.newFunction_past fits function
    rw [Regime.run_newFunction, Regime.run_newFunction, made]
    rfl
  · exact fits.newFunction suits

theorem carries_isTruthy (value : Value) :
    Carries inserted id (isTruthy (value.past inserted)) (isTruthy value) :=
  carries_store fun store _ => by
    rw [store.isTruthy_past]
    exact carries_pure id _

theorem carries_textOf (value : Value) :
    Carries inserted id (textOf (value.past inserted)) (textOf value) :=
  carries_store fun store fits => by
    rw [store.textOf_past fits]
    exact carries_pure id _

/-! ### The context -/

theorem carriesAt_stop (fits : inserted.Fits machine.store) :
    CarriesAt inserted machine change (Eval.stop : Eval α) Eval.stop := by
  constructor
  · rw [Regime.run_stop, Regime.run_stop, Machine.stop_past]
    rfl
  · exact fits

theorem carries_pass : Carries inserted id (modify Machine.pass) (modify Machine.pass) :=
  carries_modify fun _ fits => ⟨rfl, fits⟩

theorem carries_checkCancelled : Carries inserted id checkCancelled checkCancelled := by
  refine carries_get fun machine fits => ?_
  have same : (machine.past inserted).isCancelled = machine.isCancelled := rfl
  rw [same]
  split
  · exact carriesAt_stop fits
  · exact carries_pass machine fits

theorem carries_waitForever : Carries inserted change (waitForever : Eval α) waitForever := by
  refine carries_get fun machine fits => ?_
  have same : (machine.past inserted).willEnd = machine.willEnd := rfl
  rw [same]
  split
  · exact carriesAt_stop fits
  · exact carries_throw .exhausted machine fits

/-! ### Variables -/

theorem carries_readVariable (name : Variable) :
    Carries inserted (Value.past inserted) (readVariable name) (readVariable name) := by
  intro machine fits
  have visible : (machine.past inserted).arena.visible (machine.past inserted).current =
      machine.arena.visible machine.current := machine.arena.visible_past machine.current
  constructor
  · rw [Regime.run_readVariable, Regime.run_readVariable, machine.read?_past, visible]
    cases machine.read? name <;> rfl
  · rw [Regime.run_readVariable]
    cases machine.read? name <;> exact fits

theorem carries_assignVariable (name : Variable) (value : Value) :
    Carries inserted id (assignVariable name (value.past inserted)) (assignVariable name value) := by
  intro machine fits
  constructor
  · rw [Regime.run_assignVariable, Regime.run_assignVariable, machine.assignee_past,
      machine.bindAt_past]
    rfl
  · rw [Regime.run_assignVariable]
    exact fits

theorem carries_declareVariable (name : Variable) (value : Value) :
    Carries inserted id (declareVariable name (value.past inserted)) (declareVariable name value) := by
  refine carries_modify fun machine fits => ⟨?_, fits⟩
  calc _ = (machine.past inserted).bindAt ((machine.past inserted).declaree name) name.name
            (value.past inserted) := rfl
    _ = (machine.bindAt (machine.declaree name) name.name value).past inserted := by
      rw [machine.declaree_past, machine.bindAt_past]

theorem carries_newClosure (name : String) (params : List String) (static : Option FrameId)
    (body : Body) :
    Carries inserted (Value.past inserted) (newClosure name params static body)
      (newClosure name params static body) := by
  intro machine fits
  -- The closure is stored and its activation is captured: two parts of the machine that do not meet.
  let closure : Function :=
    { name, params, threshold := params.length
      code := .closure machine.realm machine.current static params body }
  have made : (machine.past inserted).store.newFunction (closure.past inserted) = _ :=
    machine.store.newFunction_past fits closure
  have captured : (machine.past inserted).arena.capture machine.current = _ :=
    machine.arena.capture_past machine.current
  have created : (machine.past inserted).create name params static body =
      (machine.create name params static body).past inserted := by
    calc (machine.past inserted).create name params static body
        = { machine.past inserted with
            arena := (machine.past inserted).arena.capture machine.current
            store := ((machine.past inserted).store.newFunction (closure.past inserted)).2 } := rfl
      _ = _ := by
        rw [captured, made]
        rfl
  constructor
  · rw [Regime.run_newClosure, Regime.run_newClosure, created]
    exact congrArg (fun ref => EStateM.Result.ok (Value.function ref) _) (congrArg Prod.fst made)
  · exact fits.newFunction fun reply isAnswer => by cases isAnswer

/-! ### Printing and realms -/

theorem carries_printLine (line : String) : Carries inserted id (printLine line) (printLine line) := by
  refine carries_get fun machine fits => ?_
  have same : (machine.past inserted).output = machine.output := rfl
  rw [same]
  cases machine.output with
  | text printed => exact ⟨rfl, fits⟩
  | broken message =>
      exact carries_throw (Failure.host { contexts := ["print"], root := message }) machine fits

theorem carriesAt_inRealm {realm : Nat}
    (carried : ∀ there, there.store = machine.store → CarriesAt inserted there change first second) :
    CarriesAt inserted machine change (inRealm realm first) (inRealm realm second) := by
  have sameRealm : (machine.past inserted).realm = machine.realm := rfl
  by_cases here : realm = machine.realm
  · have stays := carried machine rfl
    constructor
    · rw [Regime.run_inRealm, Regime.run_inRealm, sameRealm, if_pos here, if_pos here]
      exact stays.same
    · rw [Regime.run_inRealm, if_pos here]
      exact stays.fits
  · have visited := (carried (machine.switchTo realm) rfl).cleaningUp (·.switchTo machine.realm)
      (fun after => after.switchTo_past machine.realm) fun _ => rfl
    constructor
    · rw [Regime.run_inRealm, Regime.run_inRealm, sameRealm, if_neg here, if_neg here,
        Machine.switchTo_past]
      exact visited.same
    · rw [Regime.run_inRealm, if_neg here]
      exact visited.fits

end Eval

end Reckon
