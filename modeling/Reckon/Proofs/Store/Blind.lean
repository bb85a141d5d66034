import Reckon.Session.Apply

/-!
# Store actions that do not see code

What a function does is kept in the store, but no operator and no built-in function on values looks at
it: texts of functions are made of names alone.  Such an action leaves all functions as they are, and
it does the same when the code of the functions is changed.
-/

namespace Reckon

/-- A store with the code of each function changed. -/
def Store.withCode (change : Code → Code) (store : Store) : Store :=
  { store with
    functions := store.functions.map fun function =>
      { function with code := change function.code } }

/-! ## Changes that change nothing -/

theorem mapList_eq_self {α : Type} {items : List α} {change : α → α}
    (same : ∀ item ∈ items, change item = item) : items.map change = items :=
  (List.map_congr_left same).trans (List.map_id' items)

theorem mapArray_eq_self {α : Type} {items : Array α} {change : α → α}
    (same : ∀ item ∈ items, change item = item) : items.map change = items :=
  (Array.map_congr_left same).trans (Array.map_id' items)

/-! ## Reading the store -/

namespace Store

variable (change : Code → Code) (store : Store)

@[simp]
theorem record_withCode (ref : MapRef) : (store.withCode change).record ref = store.record ref :=
  rfl

@[simp]
theorem nesting_withCode : (store.withCode change).nesting = store.nesting :=
  rfl

@[simp]
theorem future_withCode (ref : FutureRef) :
    (store.withCode change).future ref = store.future ref :=
  rfl

@[simp]
theorem elements?_withCode (value : Value) :
    (store.withCode change).elements? value = store.elements? value :=
  rfl

@[simp]
theorem isTruthy_withCode (value : Value) :
    (store.withCode change).isTruthy value = store.isTruthy value :=
  rfl

@[simp]
theorem size_functions_withCode :
    (store.withCode change).functions.size = store.functions.size := by
  simp [withCode]

theorem newFunction_withCode (function : Function) :
    (store.withCode change).newFunction { function with code := change function.code } =
      ((store.newFunction function).1, (store.newFunction function).2.withCode change) := by
  simp [newFunction, withCode]

theorem render_function_withCode (ref : FunctionRef) :
    ((store.withCode change).function ref).render = (store.function ref).render := by
  cases ref with
  | builtin function =>
      rfl
  | stored index =>
      by_cases inRange : index < store.functions.size
      · simp [function, withCode, Array.getD, inRange, Function.render, Function.remaining]
      · simp [function, withCode, Array.getD, inRange]

theorem renderTo_withCode (depth : Nat) (value : Value) :
    (store.withCode change).renderTo depth value = store.renderTo depth value := by
  induction depth generalizing value with
  | zero =>
      cases value with
      | function ref =>
          simpa only [renderTo] using store.render_function_withCode change ref
      | _ =>
          simp only [renderTo]
  | succ depth inductionHypothesis =>
      cases value with
      | function ref =>
          simpa only [renderTo] using store.render_function_withCode change ref
      | map ref =>
          simp only [renderTo, record_withCode, inductionHypothesis]
      | _ =>
          simp only [renderTo]

@[simp]
theorem render_withCode (value : Value) :
    (store.withCode change).render value = store.render value :=
  store.renderTo_withCode change store.nesting value

@[simp]
theorem textOf_withCode (value : Value) :
    (store.withCode change).textOf value = store.textOf value := by
  cases value with
  | string text =>
      rfl
  | _ =>
      exact store.render_withCode change _

end Store

/-! ## Blind actions -/

/-- The action keeps the functions of the store, and does not see their code. -/
structure StoreM.Blind {α : Type} (action : StoreM α) : Prop where
  functions : ∀ store, (action.run store).2.functions = store.functions
  withCode : ∀ change store,
    action.run (store.withCode change) =
      ((action.run store).1, (action.run store).2.withCode change)

namespace StoreM

variable {α β : Type}

theorem blind_pure (value : α) : Blind (pure value) :=
  ⟨fun _ => rfl, fun _ _ => rfl⟩

theorem Blind.bind {action : StoreM α} {next : α → StoreM β} (blind : Blind action)
    (nextBlind : ∀ value, Blind (next value)) : Blind (action >>= next) := by
  constructor
  · intro store
    have kept := (nextBlind (action.run store).1).functions (action.run store).2
    exact kept.trans (blind.functions store)
  · intro change store
    have moved := (nextBlind (action.run store).1).withCode change (action.run store).2
    rw [StateT.run_bind, StateT.run_bind, blind.withCode change store]
    exact moved

/-- What is read from the store may decide how to go on, if code is not read. -/
theorem blind_get {next : Store → StoreM α} (nextBlind : ∀ store, Blind (next store))
    (same : ∀ change store, next (store.withCode change) = next store) :
    Blind (get >>= next) := by
  constructor
  · intro store
    exact (nextBlind store).functions store
  · intro change store
    have moved := (nextBlind store).withCode change store
    rw [← same change store] at moved
    calc (get >>= next).run (store.withCode change)
        = (next (store.withCode change)).run (store.withCode change) := rfl
      _ = _ := moved
      _ = _ := by rw [same change store]; rfl

theorem Blind.map {action : StoreM α} (blind : Blind action) (f : α → β) : Blind (f <$> action) := by
  rw [map_eq_pure_bind]
  exact blind.bind fun value => blind_pure (f value)

theorem blind_newMap (record : Record) : Blind (newMap record) :=
  ⟨fun _ => rfl, fun _ _ => rfl⟩

theorem blind_newArray (values : List Value) : Blind (newArray values) :=
  blind_newMap _

theorem Blind.record {next : Record → StoreM α} (ref : MapRef)
    (nextBlind : ∀ record, Blind (next record)) : Blind (record ref >>= next) :=
  blind_get (fun store => nextBlind (store.record ref)) fun _ _ => rfl

theorem blind_mapM {f : α → StoreM β} (blind : ∀ item, Blind (f item)) (items : List α) :
    Blind (items.mapM f) := by
  induction items with
  | nil =>
      exact blind_pure []
  | cons first rest inductionHypothesis =>
      rw [List.mapM_cons]
      exact (blind first).bind fun _ => inductionHypothesis.bind fun _ => blind_pure _

theorem blind_filterMapM {f : α → StoreM (Option β)} (blind : ∀ item, Blind (f item))
    (items : List α) : Blind (items.filterMapM f) := by
  induction items with
  | nil =>
      exact blind_pure []
  | cons first rest inductionHypothesis =>
      rw [List.filterMapM_cons]
      refine (blind first).bind fun found => ?_
      cases found with
      | none =>
          exact inductionHypothesis
      | some item =>
          exact inductionHypothesis.bind fun _ => blind_pure _

theorem blind_foldlM {f : β → α → StoreM β} (blind : ∀ soFar item, Blind (f soFar item))
    (items : List α) (start : β) : Blind (items.foldlM f start) := by
  induction items generalizing start with
  | nil =>
      exact blind_pure start
  | cons first rest inductionHypothesis =>
      rw [List.foldlM_cons]
      exact (blind start first).bind fun soFar => inductionHypothesis soFar

end StoreM

namespace FollowM

variable {α β : Type}

/-- An action that follows maps keeps the functions of the store, and does not see their code. -/
def Blind (action : FollowM α) : Prop :=
  StoreM.Blind action.run

theorem blind_pure (value : α) : Blind (pure value) :=
  StoreM.blind_pure (some value)

theorem blind_failure : Blind (failure : FollowM α) :=
  StoreM.blind_pure none

theorem blind_liftM {action : StoreM α} (blind : action.Blind) : Blind (liftM action) :=
  blind.bind fun value => StoreM.blind_pure (some value)

theorem Blind.bind {action : FollowM α} {next : α → FollowM β} (blind : Blind action)
    (nextBlind : ∀ value, Blind (next value)) : Blind (action >>= next) := by
  rw [FollowM.Blind, OptionT.run_bind, Option.elimM]
  refine StoreM.Blind.bind blind fun found => ?_
  cases found with
  | none =>
      exact StoreM.blind_pure none
  | some value =>
      exact nextBlind value

theorem blind_get {next : Store → FollowM α} (nextBlind : ∀ store, Blind (next store))
    (same : ∀ change store, next (store.withCode change) = next store) :
    Blind (get >>= next) := by
  have blind : StoreM.Blind (get >>= fun store => (next store).run) :=
    StoreM.blind_get nextBlind fun change store => congrArg OptionT.run (same change store)
  exact blind

theorem Blind.record {next : Record → FollowM α} (ref : MapRef)
    (nextBlind : ∀ record, Blind (next record)) :
    Blind (liftM (StoreM.record ref) >>= next) :=
  blind_get (fun store => nextBlind (store.record ref)) fun _ _ => rfl

theorem blind_newMap (record : Record) : Blind (liftM (StoreM.newMap record)) :=
  blind_liftM (StoreM.blind_newMap record)

theorem blind_newArray (values : List Value) : Blind (liftM (StoreM.newArray values)) :=
  blind_liftM (StoreM.blind_newArray values)

theorem blind_mapM {f : α → FollowM β} (blind : ∀ item, Blind (f item)) (items : List α) :
    Blind (items.mapM f) := by
  induction items with
  | nil =>
      exact blind_pure []
  | cons first rest inductionHypothesis =>
      rw [List.mapM_cons]
      exact (blind first).bind fun _ => inductionHypothesis.bind fun _ => blind_pure _

theorem blind_filterMapM {f : α → FollowM (Option β)} (blind : ∀ item, Blind (f item))
    (items : List α) : Blind (items.filterMapM f) := by
  induction items with
  | nil =>
      exact blind_pure []
  | cons first rest inductionHypothesis =>
      rw [List.filterMapM_cons]
      refine (blind first).bind fun found => ?_
      cases found with
      | none =>
          exact inductionHypothesis
      | some item =>
          exact inductionHypothesis.bind fun _ => blind_pure _

theorem blind_foldlM {f : β → α → FollowM β} (blind : ∀ soFar item, Blind (f soFar item))
    (items : List α) (start : β) : Blind (items.foldlM f start) := by
  induction items generalizing start with
  | nil =>
      exact blind_pure start
  | cons first rest inductionHypothesis =>
      rw [List.foldlM_cons]
      exact (blind start first).bind fun soFar => inductionHypothesis soFar

theorem blind_getM (found : Option α) : Blind (found.getM : FollowM α) := by
  cases found with
  | none =>
      exact blind_failure
  | some value =>
      exact blind_pure value

end FollowM

/-! ## Operators -/

open FollowM

namespace Cascade

variable (op : Cascade)

theorem blind_onMaps {next : Value → Value → FollowM Value} (blind : ∀ x y, Blind (next x y))
    (x y : Value) : Blind (op.onMaps next x y) := by
  unfold onMaps
  split
  · refine Blind.record _ fun right => Blind.record _ fun left => ?_
    refine (blind_filterMapM ?_ _).bind fun entries => blind_newMap _
    rintro ⟨key, value⟩
    dsimp only
    split
    · exact (blind _ _).bind fun _ => blind_pure _
    · exact blind_pure _
  · split
    · refine Blind.record _ fun left => (blind_mapM ?_ _).bind fun entries => blind_newMap _
      rintro ⟨key, value⟩
      exact (blind _ _).bind fun _ => blind_pure _
    · exact blind_pure _
  · split
    · refine Blind.record _ fun right => (blind_mapM ?_ _).bind fun entries => blind_newMap _
      rintro ⟨key, value⟩
      exact (blind _ _).bind fun _ => blind_pure _
    · exact blind_pure _
  · exact blind_pure _

theorem blind_applyTo (depth : Nat) (x y : Value) : Blind (op.applyTo depth x y) := by
  induction depth generalizing x y with
  | zero =>
      exact blind_failure
  | succ depth inductionHypothesis =>
      unfold applyTo
      split
      · exact blind_pure _
      · exact op.blind_onMaps inductionHypothesis x y

theorem blind_apply (x y : Value) : Blind (op.apply x y) :=
  blind_get (fun store => op.blind_applyTo store.pairing x y) fun _ _ => rfl

end Cascade

theorem blind_liftTo (f : Value → Value) (depth : Nat) (value : Value) :
    Blind (liftTo f depth value) := by
  induction depth generalizing value with
  | zero =>
      cases value with
      | map ref => exact blind_failure
      | _ => exact blind_pure _
  | succ depth inductionHypothesis =>
      cases value with
      | map ref =>
          refine Blind.record _ fun record => (blind_mapM ?_ _).bind fun entries => blind_newMap _
          rintro ⟨key, value⟩
          exact (inductionHypothesis value).bind fun _ => blind_pure _
      | _ =>
          exact blind_pure _

theorem blind_lift (f : Value → Value) (value : Value) : Blind (lift f value) :=
  blind_get (fun store => blind_liftTo f store.nesting value) fun _ _ => rfl

namespace Operator

theorem blind_equal (x y : Value) : Blind (equal x y) := by
  refine (equalEach.blind_apply x y).bind fun result => ?_
  split <;> exact blind_pure _

theorem blind_notEqual (x y : Value) : Blind (notEqual x y) :=
  (blind_equal x y).bind fun _ => blind_lift _ _

end Operator

namespace Eval

theorem blind_binary (op : BinaryOp) (x y : Value) : Blind (binary op x y) := by
  cases op with
  | equal => exact Operator.blind_equal x y
  | notEqual => exact Operator.blind_notEqual x y
  | pipe | or | and => exact blind_pure _
  | _ => exact Cascade.blind_apply _ x y

theorem blind_matrixLiteral (rows : List (List Value)) : StoreM.Blind (matrixLiteral rows) := by
  unfold matrixLiteral
  dsimp only
  split
  · exact StoreM.blind_pure _
  · split
    · exact StoreM.blind_pure _
    · exact StoreM.blind_newArray _
    · exact (StoreM.blind_mapM StoreM.blind_newArray _).bind fun _ => StoreM.blind_newArray _

end Eval

/-! ## Built-in functions -/

namespace Library

theorem holds_withCode (change : Code → Code) (store : Store) (op : Cascade) :
    holds (store.withCode change) op = holds store op := by
  funext x y
  simp only [holds, StoreM.Blind.withCode (op.blind_apply x y) change store]
  rcases (op.apply x y).run.run store with ⟨found, after⟩
  rfl

theorem blind_sort (value : Value) : Blind (sort value) := by
  refine blind_get (fun store => ?_) fun change store => ?_
  · split
    · exact blind_pure _
    · refine (blind_getM _).bind fun sorted => ?_
      split
      · exact blind_pure _
      · exact blind_newArray _
  · simp only [Store.elements?_withCode, holds_withCode]

theorem blind_extreme (op : Cascade) (value : Value) : Blind (extreme op value) := by
  refine blind_get (fun store => ?_) fun change store => ?_
  · split
    · exact blind_pure _
    · exact (blind_getM _).bind fun _ => blind_pure _
  · simp only [Store.elements?_withCode, holds_withCode]

theorem blind_joinPair (left right : Value) : StoreM.Blind (joinPair left right) := by
  unfold joinPair
  split
  · split
    · refine StoreM.blind_get (fun store => StoreM.blind_pure _) fun change store => ?_
      simp only [Store.textOf_withCode]
    · exact StoreM.blind_pure _
  · exact StoreM.blind_pure _
  · refine StoreM.Blind.record _ fun x => StoreM.Blind.record _ fun y => ?_
    split
    · exact StoreM.blind_newArray _
    · exact StoreM.blind_newMap _
  · exact StoreM.blind_pure _

theorem blind_join (values : List Value) : StoreM.Blind (join values) := by
  cases values with
  | nil => exact StoreM.blind_pure _
  | cons first rest => exact StoreM.blind_foldlM blind_joinPair rest first

theorem blind_zip (left right : Value) : StoreM.Blind (zip left right) := by
  refine StoreM.blind_get (fun store => ?_) fun change store => ?_
  · split
    · refine (StoreM.blind_filterMapM ?_ _).bind fun entries => StoreM.blind_newMap _
      rintro ⟨key, value⟩
      dsimp only
      split
      · exact (StoreM.blind_newArray _).bind fun _ => StoreM.blind_pure _
      · exact StoreM.blind_pure _
    · split
      · refine (StoreM.blind_mapM ?_ _).bind fun pairs => StoreM.blind_newArray _
        rintro ⟨x, y⟩
        exact StoreM.blind_newArray _
      · exact StoreM.blind_newArray _
  · rfl

theorem blind_collectionOf (values : List Value) : StoreM.Blind (collectionOf values) := by
  unfold collectionOf
  split
  · exact StoreM.blind_pure _
  · exact StoreM.blind_newArray _

theorem blind_sum (value : Value) : Blind (sum value) := by
  refine blind_get (fun store => ?_) fun change store => rfl
  split
  · exact blind_foldlM Operator.add.blind_apply _ _
  · exact Operator.add.blind_apply _ _

theorem blind_values (value : Value) : StoreM.Blind (values value) :=
  StoreM.blind_get (fun _ => StoreM.blind_newArray _) fun _ _ => rfl

theorem blind_foldOperator {op : Value → Value → FollowM Value} (blind : ∀ x y, Blind (op x y))
    (args : List Value) : Blind (foldOperator op args) := by
  cases args with
  | nil => exact blind_pure _
  | cons first rest => exact blind_foldlM blind rest first

/-- The built-in functions that call no function do not see code. -/
theorem blind_pure? {function : Builtin} {args : List Value} {action : FollowM Value}
    (found : pure? function args = some action) : Blind action := by
  cases function with
  | add | subtract | multiply | divide | mod | pow =>
      obtain rfl := Option.some.inj found
      exact blind_foldOperator (Cascade.blind_apply _) args
  | equal =>
      obtain rfl := Option.some.inj found
      exact blind_foldOperator Operator.blind_equal args
  | unequal =>
      obtain rfl := Option.some.inj found
      exact blind_foldOperator Operator.blind_notEqual args
  | less | lessEq | greater | greaterEq =>
      obtain rfl := Option.some.inj found
      exact Cascade.blind_apply _ _ _
  | negate | factorial | not | sqrt | abs | exp | log | sin | cos | tan | floor | ceil | round | re
  | im | conj | arg | upper | lower =>
      obtain rfl := Option.some.inj found
      exact blind_lift _ _
  | and | or | size | length | first | last =>
      obtain rfl := Option.some.inj found
      exact blind_get (fun _ => blind_pure _) fun _ _ => rfl
  | string =>
      obtain rfl := Option.some.inj found
      refine blind_get (fun _ => blind_pure _) fun change store => ?_
      simp only [Store.textOf_withCode]
  | transpose | zeros | ones | eye | number | typeOf =>
      obtain rfl := Option.some.inj found
      exact blind_pure _
  | zip =>
      obtain rfl := Option.some.inj found
      exact blind_liftM (blind_zip _ _)
  | sum =>
      obtain rfl := Option.some.inj found
      exact (blind_liftM (blind_collectionOf args)).bind blind_sum
  | min | max =>
      obtain rfl := Option.some.inj found
      exact (blind_liftM (blind_collectionOf args)).bind (blind_extreme _)
  | sort =>
      obtain rfl := Option.some.inj found
      exact blind_sort _
  | values =>
      obtain rfl := Option.some.inj found
      exact blind_liftM (blind_values _)
  | concat =>
      obtain rfl := Option.some.inj found
      exact blind_liftM (blind_join args)
  | map | reduce | filter | anyOf | allOf | raise | rescue | sleep | resolve | range | keys
  | formatNumber =>
      cases found

end Library

end Reckon
