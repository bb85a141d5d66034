import Reckon.Proofs.Session.Regime

/-!
# Actions that keep a regime

How keeping a regime passes from actions to what is built from them, and that the actions on the
machine keep it.
-/

namespace Reckon

open Eval

/-! ## Results -/

namespace Eval

variable {α : Type}

/-- The machine after an action, whether it failed or not. -/
def machineOf : EStateM.Result Failure Machine α → Machine
  | .ok _ machine => machine
  | .error _ machine => machine

/-- A result with all tags changed. -/
def retagResult (tags : Retagging) :
    EStateM.Result Failure Machine α → EStateM.Result Failure Machine α
  | .ok result machine => .ok result (machine.retag tags)
  | .error failure machine => .error failure (machine.retag tags)

/-- A result that is no failure, or one of some failures. -/
def FailsOnly (allowed : Failure → Prop) : EStateM.Result Failure Machine α → Prop
  | .ok _ _ => True
  | .error failure _ => allowed failure

theorem run_mapFailure (change : Failure → Failure) (action : Eval α) (machine : Machine) :
    (mapFailure change action).run machine =
      match action.run machine with
      | .ok result after => .ok result after
      | .error failure after => .error (change failure) after :=
  rfl

theorem run_cleaningUp (action : Eval α) (cleanUp : Machine → Machine) (machine : Machine) :
    (cleaningUp action cleanUp).run machine =
      match action.run machine with
      | .ok result after => .ok result (cleanUp after)
      | .error failure after => .error failure (cleanUp after) :=
  rfl

theorem machineOf_cleaningUp (action : Eval α) (cleanUp : Machine → Machine) (machine : Machine) :
    machineOf ((cleaningUp action cleanUp).run machine) =
      cleanUp (machineOf (action.run machine)) := by
  rw [run_cleaningUp]
  cases action.run machine <;> rfl

theorem FailsOnly.cleaningUp {allowed : Failure → Prop} {action : Eval α} {machine : Machine}
    (fails : FailsOnly allowed (action.run machine)) (cleanUp : Machine → Machine) :
    FailsOnly allowed ((cleaningUp action cleanUp).run machine) := by
  rw [run_cleaningUp]
  revert fails
  cases action.run machine <;> exact fun fails => fails

theorem FailsOnly.mono {allowed larger : Failure → Prop}
    {result : EStateM.Result Failure Machine α} (fails : FailsOnly allowed result)
    (subset : ∀ failure, allowed failure → larger failure) : FailsOnly larger result := by
  cases result with
  | ok _ _ => trivial
  | error failure _ => exact subset failure fails

theorem compute_of_isComputed {op : BinaryOp} (computed : isComputed op = true) (x y : Value) :
    compute op x y = follow (binary op x y) :=
  if_pos computed

end Eval

/-! ## Keeping -/

namespace Regime

variable {tags : Retagging} (regime : Regime tags) {α β : Type}

/-- What a regime says of the machine after an action. -/
def Ends (world : regime.World) : EStateM.Result Failure Machine α → Prop
  | .ok _ machine => regime.holds world machine
  | .error failure machine => regime.fails world failure machine

/-- From a machine, two actions do the same up to tags, and the second keeps a property or fails as the
regime allows. -/
structure KeepsAt (world : regime.World) (machine : Machine) (first second : Eval α) : Prop where
  same : first.run (machine.retag tags) = retagResult tags (second.run machine)
  ends : regime.Ends world (second.run machine)

/-- Two actions do the same up to tags, and the second keeps a property or fails as the regime
allows. -/
def Keeps (world : regime.World) (first second : Eval α) : Prop :=
  ∀ machine, regime.holds world machine → regime.KeepsAt world machine first second

variable {regime} {world : regime.World} {machine : Machine}

/-- The property of the machine after an action, if failures do not touch it. -/
theorem Ends.holds {result : EStateM.Result Failure Machine α} (ends : regime.Ends world result)
    (always : ∀ failure machine, regime.fails world failure machine → regime.holds world machine) :
    regime.holds world (machineOf result) := by
  cases result with
  | ok value after => exact ends
  | error failure after => exact always failure after ends

theorem Ends.failsOnly {result : EStateM.Result Failure Machine α} (ends : regime.Ends world result)
    {allowed : Failure → Prop}
    (known : ∀ failure machine, regime.fails world failure machine → allowed failure) :
    FailsOnly allowed result := by
  cases result with
  | ok value after => trivial
  | error failure after => exact known failure after ends

theorem keeps_pure (value : α) : regime.Keeps world (pure value) (pure value) :=
  fun _ held => ⟨rfl, held⟩

theorem keeps_throw {failure : Failure} (ordinary : failure.isOrdinary = true) :
    regime.Keeps world (throw failure : Eval α) (throw failure) :=
  fun _ held => ⟨rfl, regime.ordinary held ordinary⟩

/-- What may break off is ordinary. -/
theorem keeps_orCrash (result : Except Crash α) :
    regime.Keeps world (orCrash result) (orCrash result) := by
  cases result with
  | ok value => exact keeps_pure value
  | error crash => exact keeps_throw rfl

/-- A tree that may run fails as it says if it is malformed. -/
theorem keeps_malformed {node : Node} {diagnostic : Diagnostic} (allowed : regime.node world node)
    (isInvalid : node.diagnostic? = some diagnostic) :
    regime.Keeps world (throw (.malformed diagnostic) : Eval α) (throw (.malformed diagnostic)) :=
  fun _ held => ⟨rfl, regime.malformed held allowed isInvalid⟩

theorem KeepsAt.bind {first second : Eval α} {firstNext secondNext : α → Eval β}
    (kept : regime.KeepsAt world machine first second)
    (next : ∀ value after, second.run machine = .ok value after → regime.holds world after →
      regime.KeepsAt world after (firstNext value) (secondNext value)) :
    regime.KeepsAt world machine (first >>= firstNext) (second >>= secondNext) := by
  obtain ⟨same, ends⟩ := kept
  cases ran : second.run machine with
  | ok value after =>
      rw [ran] at same ends
      have goOn := next value after ran ends
      constructor
      · simpa only [EStateM.run_bind, same, ran, retagResult] using goOn.same
      · rw [EStateM.run_bind, ran]
        exact goOn.ends
  | error failure after =>
      rw [ran] at same ends
      constructor
      · simp only [EStateM.run_bind, same, ran, retagResult]
      · rw [EStateM.run_bind, ran]
        exact ends

theorem Keeps.bind {first second : Eval α} {firstNext secondNext : α → Eval β}
    (kept : regime.Keeps world first second)
    (next : ∀ value, regime.Keeps world (firstNext value) (secondNext value)) :
    regime.Keeps world (first >>= firstNext) (second >>= secondNext) := by
  intro machine held
  exact (kept machine held).bind fun value after _ heldAfter => next value after heldAfter

/-- What is done may depend on the machine. -/
theorem keeps_get {firstNext secondNext : Machine → Eval α}
    (next : ∀ machine, regime.holds world machine →
      regime.KeepsAt world machine (firstNext (machine.retag tags)) (secondNext machine)) :
    regime.Keeps world (get >>= firstNext) (get >>= secondNext) := by
  intro machine held
  have goOn := next machine held
  exact ⟨goOn.same, goOn.ends⟩

/-- What is done may depend on the store. -/
theorem keeps_store {firstNext secondNext : Store → Eval α}
    (next : ∀ store, regime.Keeps world (firstNext (store.withCode (Code.retag tags)))
      (secondNext store)) :
    regime.Keeps world (Eval.store >>= firstNext) (Eval.store >>= secondNext) := by
  intro machine held
  have goOn := next machine.store machine held
  exact ⟨goOn.same, goOn.ends⟩

theorem keeps_modify {first second : Machine → Machine}
    (changed : ∀ machine, regime.holds world machine →
      first (machine.retag tags) = (second machine).retag tags ∧
        regime.holds world (second machine)) :
    regime.Keeps world (modify first) (modify second) := by
  intro machine held
  obtain ⟨same, after⟩ := changed machine held
  exact ⟨congrArg (EStateM.Result.ok ()) same, after⟩

theorem keeps_ite {condition : Prop} [Decidable condition] {first second : Eval α}
    {firstElse secondElse : Eval α} (whenTrue : condition → regime.Keeps world first second)
    (whenFalse : ¬ condition → regime.Keeps world firstElse secondElse) :
    regime.Keeps world (if condition then first else firstElse)
      (if condition then second else secondElse) := by
  by_cases decided : condition
  · rw [if_pos decided, if_pos decided]
    exact whenTrue decided
  · rw [if_neg decided, if_neg decided]
    exact whenFalse decided

theorem Keeps.mapFailure {first second : Eval α} (kept : regime.Keeps world first second)
    {change : Failure → Failure} (changes : ∀ failure after, regime.fails world failure after →
      regime.fails world (change failure) after) :
    regime.Keeps world (mapFailure change first) (mapFailure change second) := by
  intro machine held
  obtain ⟨same, ends⟩ := kept machine held
  cases ran : second.run machine with
  | ok value later =>
      rw [ran] at same ends
      constructor
      · simp only [run_mapFailure, same, ran, retagResult]
      · rw [run_mapFailure, ran]
        exact ends
  | error failure later =>
      rw [ran] at same ends
      constructor
      · simp only [run_mapFailure, same, ran, retagResult]
      · rw [run_mapFailure, ran]
        exact changes failure later ends

/-- A fault of the host becomes an exception, and any other failure stays what it is. -/
theorem fails_calling (name : String) {failure : Failure} {after : Machine}
    (failed : regime.fails world failure after) :
    regime.fails world (failure.calling name) after := by
  cases failure with
  | host fault => exact regime.ordinary (regime.resume failed rfl) rfl
  | _ => exact failed

/-- An action that another world keeps, between a change of the machine into that world and a change
back. -/
theorem KeepsAt.cleaningUp {inner : regime.World} {first second : Eval α}
    {cleanUp : Machine → Machine} (kept : regime.KeepsAt inner machine first second)
    (commutes : ∀ after, cleanUp (after.retag tags) = (cleanUp after).retag tags)
    (back : ∀ after, regime.holds inner after → regime.holds world (cleanUp after))
    (failing : ∀ failure after, regime.fails inner failure after →
      regime.fails world failure (cleanUp after)) :
    regime.KeepsAt world machine (cleaningUp first cleanUp) (cleaningUp second cleanUp) := by
  obtain ⟨same, ends⟩ := kept
  cases ran : second.run machine with
  | ok value later =>
      rw [ran] at same ends
      constructor
      · simp only [run_cleaningUp, same, ran, retagResult, commutes]
      · rw [run_cleaningUp, ran]
        exact back later ends
  | error failure later =>
      rw [ran] at same ends
      constructor
      · simp only [run_cleaningUp, same, ran, retagResult, commutes]
      · rw [run_cleaningUp, ran]
        exact failing failure later ends

/-! ## Lists -/

theorem keeps_mapM {γ : Type} {first second : γ → Eval α}
    (kept : ∀ item, regime.Keeps world (first item) (second item)) (items : List γ) :
    regime.Keeps world (items.mapM first) (items.mapM second) := by
  induction items with
  | nil =>
      exact keeps_pure []
  | cons item rest inductionHypothesis =>
      rw [List.mapM_cons, List.mapM_cons]
      exact (kept item).bind fun _ => inductionHypothesis.bind fun _ => keeps_pure _

theorem keeps_foldlM {γ : Type} {first second : α → γ → Eval α}
    (kept : ∀ soFar item, regime.Keeps world (first soFar item) (second soFar item))
    (items : List γ) (start : α) :
    regime.Keeps world (items.foldlM first start) (items.foldlM second start) := by
  induction items generalizing start with
  | nil =>
      exact keeps_pure start
  | cons item rest inductionHypothesis =>
      rw [List.foldlM_cons, List.foldlM_cons]
      exact (kept start item).bind fun soFar => inductionHypothesis soFar

theorem keeps_filterM {γ : Type} {first second : γ → Eval Bool}
    (kept : ∀ item, regime.Keeps world (first item) (second item)) (items : List γ) :
    regime.Keeps world (items.filterM first) (items.filterM second) := by
  have auxiliary (soFar : List γ) :
      regime.Keeps world (items.filterAuxM first soFar) (items.filterAuxM second soFar) := by
    induction items generalizing soFar with
    | nil =>
        exact keeps_pure soFar
    | cons item rest inductionHypothesis =>
        exact (kept item).bind fun passed => inductionHypothesis _
  exact (auxiliary []).bind fun found => keeps_pure found.reverse

/-! ## The store -/

theorem run_onStore (action : StoreM α) (machine : Machine) :
    (onStore action).run machine =
      .ok (action.run machine.store).1
        { machine with store := (action.run machine.store).2 } :=
  rfl

theorem run_newFunction (function : Function) (machine : Machine) :
    (newFunction function).run machine =
      .ok (.function (machine.store.newFunction function).1)
        { machine with store := (machine.store.newFunction function).2 } :=
  rfl

theorem keeps_onStore {action : StoreM α} (blind : action.Blind) :
    regime.Keeps world (onStore action) (onStore action) := by
  intro machine held
  constructor
  · rw [run_onStore, run_onStore, Machine.store_retag, blind.withCode]
    rfl
  · exact regime.extend held (Store.extends_of_functions_eq (blind.functions machine.store))

theorem keeps_follow {action : FollowM α} (blind : action.Blind) :
    regime.Keeps world (follow action) (follow action) := by
  refine (keeps_onStore blind).bind fun found => ?_
  cases found with
  | none => exact keeps_throw rfl
  | some result => exact keeps_pure result

/-- A new function is code of no realm, or code of another function. -/
theorem keepsAt_newFunction {first second : Function}
    (changed : first = { second with code := second.code.retag tags })
    (held : regime.holds world machine)
    (known : second.code.home? = none ∨
      ∃ earlier ∈ machine.store.functions, earlier.code = second.code) :
    regime.KeepsAt world machine (newFunction first) (newFunction second) := by
  constructor
  · subst changed
    rw [run_newFunction, run_newFunction, Machine.store_retag, Store.newFunction_withCode]
    rfl
  · exact regime.extend held (Store.extends_newFunction known)

theorem keeps_newFuture (future : Future) :
    regime.Keeps world (newFuture future) (newFuture future) := by
  intro machine held
  exact ⟨rfl, regime.extend held (Store.extends_of_functions_eq rfl)⟩

theorem keeps_newMap (record : Record) : regime.Keeps world (newMap record) (newMap record) :=
  keeps_onStore (StoreM.blind_newMap record)

theorem keeps_newArray (values : List Value) :
    regime.Keeps world (newArray values) (newArray values) :=
  keeps_onStore (StoreM.blind_newArray values)

theorem keeps_isTruthy (value : Value) :
    regime.Keeps world (isTruthy value) (isTruthy value) :=
  keeps_store fun _ => keeps_pure _

theorem keeps_textOf (value : Value) : regime.Keeps world (textOf value) (textOf value) := by
  refine keeps_store fun store => ?_
  rw [store.textOf_withCode]
  exact keeps_pure _

/-! ## The context -/

theorem run_stop (machine : Machine) :
    (Eval.stop : Eval α).run machine = .error .cancelled machine.stop :=
  rfl

theorem keepsAt_stop (held : regime.holds world machine) (ends : machine.willEnd = true) :
    regime.KeepsAt world machine (Eval.stop : Eval α) Eval.stop := by
  constructor
  · rw [run_stop, run_stop, Machine.stop_retag]
    rfl
  · exact regime.stop held ends

theorem run_checkCancelled (machine : Machine) :
    checkCancelled.run machine =
      if machine.isCancelled then .error .cancelled machine.stop else .ok () machine.pass := by
  unfold checkCancelled
  rw [EStateM.run_bind, EStateM.run_get]
  dsimp only
  split <;> rfl

theorem keeps_checkCancelled : regime.Keeps world checkCancelled checkCancelled := by
  refine keeps_get fun machine held => ?_
  rw [machine.isCancelled_retag]
  split
  · next due =>
    exact keepsAt_stop held (Machine.willEnd_of_isCancelled due)
  · exact keeps_modify (fun _ held => ⟨Machine.pass_retag _ _, regime.pass held⟩) machine held

theorem keeps_waitForever : regime.Keeps world (waitForever : Eval α) waitForever := by
  refine keeps_get fun machine held => ?_
  rw [machine.willEnd_retag]
  split
  · next ends =>
    exact keepsAt_stop held ends
  · exact keeps_throw rfl machine held

/-! ## Variables -/

theorem run_readVariable (name : Variable) (machine : Machine) :
    (readVariable name).run machine =
      match machine.read? name with
      | some value => .ok value machine
      | none =>
          .error (.unbound name.span.start name.name
            (Text.suggestion? name.name
              (uniqueSorted (machine.arena.visible machine.current ++ Builtin.names)))) machine := by
  have untagged : (match machine.arena.lookup? machine.current name.name with
      | some value => pure value
      | none =>
          match Builtin.lookup? name.name with
          | some value => pure value
          | none => do
            throw (.unbound name.span.start name.name
              (Text.suggestion? name.name (← visibleNames))) : Eval Value).run machine =
      match machine.arena.lookup? machine.current name.name <|> Builtin.lookup? name.name with
      | some value => .ok value machine
      | none =>
          .error (.unbound name.span.start name.name
            (Text.suggestion? name.name
              (uniqueSorted (machine.arena.visible machine.current ++ Builtin.names)))) machine := by
    cases machine.arena.lookup? machine.current name.name with
    | some value =>
        rfl
    | none =>
        cases Builtin.lookup? name.name <;> rfl
  unfold readVariable Machine.read? Machine.tagged?
  rw [EStateM.run_bind, EStateM.run_get]
  dsimp only
  cases name.frame with
  | none =>
      exact untagged
  | some frame =>
      cases (machine.arena.owner? machine.current (some frame)).bind
          fun owner => (machine.arena.bindings owner).get? name.name with
      | some value =>
          rfl
      | none =>
          exact untagged

theorem keeps_readVariable {name : Variable} (allowed : regime.node world (.expr (.var name))) :
    regime.Keeps world (readVariable (name.retag tags)) (readVariable name) := by
  intro machine held
  have same := regime.read held allowed
  have visible : (machine.retag tags).arena.visible (machine.retag tags).current =
      machine.arena.visible machine.current := machine.arena.visible_retag tags machine.current
  cases found : machine.read? name with
  | some value =>
      rw [found] at same
      constructor
      · simp only [run_readVariable, same, found, retagResult]
      · rw [run_readVariable, found]
        exact held
  | none =>
      rw [found] at same
      constructor
      · simp only [run_readVariable, same, found, retagResult, visible]
        rfl
      · rw [run_readVariable, found]
        exact regime.ordinary held rfl

theorem run_assignVariable (name : Variable) (value : Value) (machine : Machine) :
    (assignVariable name value).run machine =
      .ok () (machine.bindAt (machine.assignee name) name.name value) := by
  have untagged : { machine with arena := machine.arena.assign machine.current name.name value } =
      machine.bindAt (machine.binder name.name) name.name value := by
    unfold Arena.assign Machine.binder
    cases machine.arena.find? machine.current
      fun activation => activation.bindings.contains name.name <;> rfl
  unfold assignVariable Machine.assignee Machine.tagged?
  rw [EStateM.run_modify]
  cases name.frame with
  | none =>
      exact congrArg (EStateM.Result.ok ()) untagged
  | some frame =>
      dsimp only
      cases machine.arena.owner? machine.current (some frame) with
      | some owner =>
          rfl
      | none =>
          exact congrArg (EStateM.Result.ok ()) untagged

theorem keeps_assignVariable {name : Variable} (allowed : regime.node world (.expr (.var name)))
    (value : Value) :
    regime.Keeps world (assignVariable (name.retag tags) value) (assignVariable name value) := by
  intro machine held
  constructor
  · rw [run_assignVariable, run_assignVariable, regime.assignee held allowed]
    simp only [Machine.bindAt, Machine.arena_retag, Arena.set_retag]
    rfl
  · rw [run_assignVariable]
    exact regime.assign value held allowed

theorem keeps_declareVariable {node : Node} {name : Variable} (allowed : regime.node world node)
    (declared : name ∈ node.declared) (value : Value) :
    regime.Keeps world (declareVariable (name.retag tags) value) (declareVariable name value) := by
  refine keeps_modify fun machine held => ⟨?_, regime.declare value held allowed declared⟩
  have same := regime.declaree held allowed declared
  calc _ = (machine.retag tags).bindAt ((machine.retag tags).declaree (name.retag tags)) name.name
            value := rfl
    _ = (machine.retag tags).bindAt (machine.declaree name) name.name value := by rw [same]
    _ = (machine.bindAt (machine.declaree name) name.name value).retag tags := by
      simp only [Machine.bindAt, Machine.arena_retag, Arena.set_retag]
      rfl

theorem run_newClosure (name : String) (params : List String) (static : Option FrameId) (body : Body)
    (machine : Machine) :
    (newClosure name params static body).run machine =
      .ok (.function (.stored machine.store.functions.size))
        (machine.create name params static body) :=
  rfl

/-- A function of the program is created by a tree that may run. -/
theorem keeps_newClosure {node : Node} {params : List String} {static : Option FrameId} {body : Body}
    (allowed : regime.node world node) (created : node.created? = some (params, static, body))
    (name : String) :
    regime.Keeps world (newClosure name params static (body.retag tags))
      (newClosure name params static body) := by
  intro machine held
  obtain ⟨same, after⟩ := regime.create name held allowed created
  refine ⟨?_, after⟩
  have changed : (machine.retag tags).create name params static (body.retag tags) =
      (machine.create name params static body).retag tags := by
    simp [Machine.create, Machine.retag, Realm.retag, Store.newFunction, Store.withCode, Code.retag,
      same]
  rw [run_newClosure, run_newClosure, changed, Machine.store_retag, Store.size_functions_withCode]
  rfl

/-! ## Printing and realms -/

theorem keeps_printLine (line : String) : regime.Keeps world (printLine line) (printLine line) := by
  refine keeps_get fun machine held => ?_
  have same : (machine.retag tags).output = machine.output := rfl
  rw [same]
  cases machine.output with
  | text printed =>
      exact ⟨rfl, regime.print _ held⟩
  | broken message =>
      exact keeps_throw rfl machine held

theorem keeps_print (args : List Value) : regime.Keeps world (Eval.print args) (Eval.print args) :=
  (keeps_mapM keeps_textOf args).bind fun _ => (keeps_printLine _).bind fun _ => keeps_pure _

theorem run_inRealm (realm : Nat) (action : Eval α) (machine : Machine) :
    (inRealm realm action).run machine =
      if realm = machine.realm then action.run machine
      else (cleaningUp action (·.switchTo machine.realm)).run (machine.switchTo realm) := by
  unfold inRealm
  by_cases same : realm = machine.realm
  · rw [if_pos same, EStateM.run_bind, EStateM.run_get]
    simp only [if_pos same]
  · rw [if_neg same, EStateM.run_bind, EStateM.run_get]
    simp only [if_neg same]
    rfl

/-- An action in the realm of some function. -/
theorem keepsAt_inRealm {realm : Nat} {first second : Eval α} (held : regime.holds world machine)
    (known : ∃ function ∈ machine.store.functions, function.code.home? = some realm)
    (kept : ∀ inner there, there.store = machine.store → there.realm = realm →
      regime.holds inner there → regime.KeepsAt inner there first second) :
    regime.KeepsAt world machine (inRealm realm first) (inRealm realm second) := by
  have sameRealm : (machine.retag tags).realm = machine.realm := rfl
  by_cases here : realm = machine.realm
  · have stays := kept world machine rfl here.symm held
    constructor
    · rw [run_inRealm, run_inRealm, sameRealm, if_pos here, if_pos here]
      exact stays.same
    · rw [run_inRealm, if_pos here]
      exact stays.ends
  · obtain ⟨inner, arrived, back, failing⟩ := regime.visit held known
    have visited := (kept inner (machine.switchTo realm) rfl rfl arrived).cleaningUp
      (fun after => after.switchTo_retag tags machine.realm) back failing
    constructor
    · rw [run_inRealm, run_inRealm, sameRealm, if_neg here, if_neg here, Machine.switchTo_retag]
      exact visited.same
    · rw [run_inRealm, if_neg here]
      exact visited.ends

end Regime

end Reckon
