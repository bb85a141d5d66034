import Mathlib.Data.List.Forall2
import Reckon.Proofs.Library.Numbering

/-!
# Arrays stay arrays

A function that calls another one runs on a machine that the calls may change in any way, even the map
it goes through.  It still gives an array, because it goes by the keys that the map had at the start.

Operators follow maps into their entries, which need not have an end if a map holds itself.  On finite values
it has one.
-/

namespace Reckon

open StoreM

/-! ## Functions that call a function -/

namespace Eval

variable {α β : Type}

/-- An action ends with such a result, or with such a failure. -/
def Ends (action : Eval α) (machine : Machine) (good : α → Machine → Prop)
    (bad : Failure → Machine → Prop) : Prop :=
  match action.run machine with
  | .ok result after => good result after
  | .error failure after => bad failure after

/-- An action gives an array of a length. -/
def GivesArray (action : Eval Value) (machine : Machine) (length : Nat) : Prop :=
  ∃ result after, action.run machine = .ok result after ∧ after.store.HoldsArray result length

theorem givesArray_onStore {action : StoreM Value} {machine : Machine} {length : Nat}
    (array : action.GivesArray machine.store length) : GivesArray (onStore action) machine length :=
  ⟨(action.run machine.store).1, { machine with store := (action.run machine.store).2 }, rfl, array⟩

theorem Ends.bind {action : Eval α} {next : α → Eval β} {machine : Machine}
    {middle : α → Machine → Prop} {good : β → Machine → Prop} {bad : Failure → Machine → Prop}
    (ends : Ends action machine middle bad)
    (goOn : ∀ result after, middle result after → Ends (next result) after good bad) :
    Ends (action >>= next) machine good bad := by
  rw [Ends] at ends ⊢
  rw [EStateM.run_bind]
  rcases ran : action.run machine with ⟨result, after⟩ | ⟨failure, after⟩
  · rw [ran] at ends
    exact goOn result after ends
  · rw [ran] at ends
    exact ends

theorem ends_mapM {action : α → Eval β} {bad : Failure → Machine → Prop} {related : α → β → Prop}
    (each : ∀ item machine, Ends (action item) machine (fun result _ => related item result) bad)
    (items : List α) (machine : Machine) :
    Ends (items.mapM action) machine (fun results _ => List.Forall₂ related items results) bad := by
  induction items generalizing machine with
  | nil => exact .nil
  | cons first rest inductionHypothesis =>
      rw [List.mapM_cons]
      refine (each first machine).bind fun result after here => ?_
      exact (inductionHypothesis after).bind fun results _ later => .cons here later

theorem Ends.imp {action : Eval α} {machine : Machine} {middle good : α → Machine → Prop}
    {bad : Failure → Machine → Prop} (ends : Ends action machine middle bad)
    (implies : ∀ result after, middle result after → good result after) :
    Ends action machine good bad := by
  rw [Ends] at ends ⊢
  split at ends
  · exact implies _ _ ends
  · exact ends

theorem Ends.self {action : Eval α} {machine : Machine} {good : α → Machine → Prop}
    {bad : Failure → Machine → Prop} (ends : Ends action machine good bad) :
    Ends action machine (fun result after => action.run machine = .ok result after ∧ good result after)
      bad := by
  rw [Ends] at ends ⊢
  rcases ran : action.run machine with ⟨result, after⟩ | ⟨failure, after⟩
  · rw [ran] at ends
    exact ⟨rfl, ends⟩
  · rw [ran] at ends
    exact ends

theorem GivesArray.ends {action : Eval Value} {machine : Machine} {length : Nat}
    (array : GivesArray action machine length) (bad : Failure → Machine → Prop) :
    Ends action machine (fun result after => after.store.HoldsArray result length) bad := by
  obtain ⟨result, after, ran, held⟩ := array
  rw [Ends, ran]
  exact held

theorem run_onStore_eq (action : StoreM α) (machine : Machine) :
    (onStore action).run machine =
      .ok (action.run machine.store).1 { machine with store := (action.run machine.store).2 } :=
  rfl

theorem run_follow (action : FollowM α) (machine : Machine) :
    (follow action).run machine =
      match action.run.run machine.store with
      | (some result, after) => .ok result { machine with store := after }
      | (none, after) => .error .exhausted { machine with store := after } := by
  rcases ran : action.run.run machine.store with ⟨found, after⟩
  have stepped : (onStore action.run).run machine = .ok found { machine with store := after } := by
    rw [run_onStore_eq, ran]
  rw [follow, EStateM.run_bind, stepped]
  cases found <;> rfl

/-- Following maps has no end, and then one of the values is not finite. -/
def RunsOut (store : Store) (values : List Value) (failure : Failure) (_ : Machine) : Prop :=
  failure = .exhausted ∧ ∃ value ∈ values, ¬store.IsFinite value

theorem ends_follow {action : FollowM α} {machine : Machine} {values : List Value}
    {good : α → Machine → Prop}
    (gives : ∀ result after, action.run.run machine.store = (some result, after) →
      good result { machine with store := after })
    (ends : (∀ value ∈ values, machine.store.IsFinite value) → action.Ends machine.store) :
    Ends (follow action) machine good (RunsOut machine.store values) := by
  rw [Ends, run_follow]
  rcases ran : action.run.run machine.store with ⟨_ | result, after⟩
  · refine ⟨rfl, ?_⟩
    by_contra! finite
    obtain ⟨result, last, found⟩ := ends finite
    cases ran.symm.trans found
  · exact gives result after ran

end Eval

namespace Library

open Eval

variable {call : Caller} {f : Value} {a : MapRef}

/-- A function failed when it was called with one argument. -/
def Raised (call : Caller) (f : Value) (failure : Failure) (after : Machine) : Prop :=
  ∃ value before, (call f [value]).run before = .error failure after

theorem ends_call (value : Value) (machine : Machine) :
    Ends (call f [value]) machine
      (fun result after => (call f [value]).run machine = .ok result after) (Raised call f) := by
  rw [Ends]
  split
  · next ran => exact ran
  · next ran => exact ⟨value, machine, ran⟩

theorem ends_store {bad : Failure → Machine → Prop} (machine : Machine) :
    Ends Eval.store machine (fun store after => store = machine.store ∧ after = machine) bad :=
  ⟨rfl, rfl⟩

theorem ends_forEntries {α : Type} {action : String → Value → Eval α}
    {bad : Failure → Machine → Prop} {related : String → α → Prop}
    (each : ∀ key value machine, Ends (action key value) machine
      (fun result _ => related key result) bad) (machine : Machine) :
    Ends (forEntries a action) machine
      (fun results _ => List.Forall₂ related (machine.store.record a).keys results) bad := by
  refine (ends_store machine).bind fun store after read => ?_
  obtain ⟨rfl, rfl⟩ := read
  refine ends_mapM (fun key before => ?_) _ after
  exact (ends_store before).bind fun store after _ => each key _ after

theorem ends_mapEach {machine : Machine} (array : (machine.store.record a).isArray = true) :
    Ends (mapEach call f (.map a)) machine
      (fun result after => after.store.HoldsArray result (machine.store.record a).size)
      (Raised call f) := by
  let mapped (key : String) (value : Value) : Eval (String × Value) := do
    return (key, ← call f [value])
  have each (key : String) (value : Value) (before : Machine) :
      Ends (mapped key value) before (fun entry _ => entry.1 = key) (Raised call f) :=
    (ends_call value before).bind fun _ _ _ => rfl
  refine (ends_forEntries each machine).bind fun entries after named => ?_
  have numbered : entries.map Prod.fst =
      (List.range (machine.store.record a).size).map Record.indexKey := by
    rw [← Record.isArray_iff.mp array, eq_comm, ← List.forall₂_eq_eq_eq,
      List.forall₂_map_right_iff]
    exact named.imp fun _ _ same => same.symm
  have made : StoreM.GivesArray (newMap (.ofEntries entries)) after.store _ :=
    givesArray_newMap_ofEntries numbered after.store
  exact (givesArray_onStore made).ends _

/-- What a predicate says of the values of a map, each at its turn. -/
def verdicts (call : Caller) (predicate : Value) (ref : MapRef) : Eval (List Bool) :=
  forEntries ref fun _ value => do isTruthy (← call predicate [value])

theorem mapM_map_results {α β γ : Type} (change : β → γ) (action : α → Eval β) (items : List α) :
    items.mapM (fun item => change <$> action item) = List.map change <$> items.mapM action := by
  induction items with
  | nil => simp
  | cons first rest inductionHypothesis => simp [List.mapM_cons, inductionHypothesis]

/-- The values of a map with what a predicate says of them, each at its turn. -/
def judge (call : Caller) (predicate : Value) (ref : MapRef) :
    Eval (List (String × Value × Bool)) :=
  forEntries ref fun key value => do return (key, value, ← isTruthy (← call predicate [value]))

theorem verdicts_eq_map_judge (call : Caller) (predicate : Value) (ref : MapRef) :
    verdicts call predicate ref = List.map (·.2.2) <$> judge call predicate ref := by
  unfold verdicts judge forEntries
  rw [map_bind]
  congr 1
  funext store
  rw [← mapM_map_results]
  congr 1
  funext key
  simp

theorem ends_judge (machine : Machine) :
    Ends (judge call f a) machine
      (fun judged after => (verdicts call f a).run machine = .ok (judged.map (·.2.2)) after ∧
        judged.length = (machine.store.record a).size)
      (Raised call f) := by
  let judgedBy (key : String) (value : Value) : Eval (String × Value × Bool) := do
    return (key, value, ← isTruthy (← call f [value]))
  have each (key : String) (value : Value) (before : Machine) :
      Ends (judgedBy key value) before (fun _ _ => True) (Raised call f) :=
    (ends_call value before).bind fun _ _ _ => trivial
  refine (ends_forEntries each machine).self.imp fun results after found => ?_
  obtain ⟨ran, each⟩ := found
  constructor
  · have judging : (judge call f a).run machine = .ok results after := ran
    rw [verdicts_eq_map_judge, map_eq_pure_bind, EStateM.run_bind, judging]
    rfl
  · rw [← each.length_eq, Record.length_keys]

theorem length_kept (judged : List (String × Value × Bool)) :
    (judged.filterMap fun entry =>
      if entry.2.2 then some (entry.1, entry.2.1) else none).length =
        (judged.map (·.2.2)).count true := by
  induction judged with
  | nil => rfl
  | cons first rest inductionHypothesis =>
      rcases first with ⟨key, value, keep⟩
      cases keep with
      | false => simpa using inductionHypothesis
      | true => simpa using inductionHypothesis

theorem ends_filter {machine : Machine} (array : (machine.store.record a).isArray = true) :
    Ends (filter call f (.map a)) machine
      (fun result after => ∃ kept middle, (verdicts call f a).run machine = .ok kept middle ∧
        kept.length = (machine.store.record a).size ∧
        after.store.HoldsArray result (kept.count true))
      (Raised call f) := by
  have body : filter call f (.map a) = (do
      let isArray := ((← Eval.store).record a).isArray
      let judged ← judge call f a
      let entries := judged.filterMap fun entry =>
        if entry.2.2 then some (entry.1, entry.2.1) else none
      if isArray then newArray (entries.map Prod.snd) else newMap (.ofEntries entries)) :=
    rfl
  rw [body]
  refine (ends_store machine).bind fun store after read => ?_
  obtain ⟨rfl, rfl⟩ := read
  refine (ends_judge after).bind fun judged later found => ?_
  obtain ⟨same, length⟩ := found
  rw [if_pos array]
  refine (givesArray_onStore (givesArray_newArray _ _)).ends _ |>.imp fun result last held => ?_
  refine ⟨judged.map (·.2.2), later, same, by rw [List.length_map, length], ?_⟩
  rwa [List.length_map, length_kept] at held

/-! ## All functions that give arrays -/

theorem givesArray_keys (machine : Machine) (ref : MapRef) :
    GivesArray (keys (.map ref)) machine (machine.store.record ref).keys.length := by
  let listed := (machine.store.record ref).keys.map Value.string
  have same : (keys (.map ref)).run machine = (Eval.newArray listed).run machine := rfl
  have length : listed.length = (machine.store.record ref).keys.length := List.length_map _
  rw [Eval.GivesArray, same, ← length]
  exact givesArray_onStore (givesArray_newArray listed machine.store)

/-- An operation of two values gives an array for two arrays, as long as the shorter one, and for an
array next to a scalar, unless one of them is not finite. -/
def KeepsArrays (operation : Value → Value → Eval Value) (machine : Machine) (a b : MapRef) : Prop :=
  let gives x y length := Ends (operation x y) machine
    (fun result after => after.store.HoldsArray result length) (RunsOut machine.store [x, y])
  gives (.map a) (.map b) (min (machine.store.record a).size (machine.store.record b).size) ∧
  ∀ y, y.isScalar = true →
    gives (.map a) y (machine.store.record a).size ∧ gives y (.map a) (machine.store.record a).size

theorem keepsArrays_follow {operation : Value → Value → FollowM Value} {machine : Machine} {b : MapRef}
    (arrayA : (machine.store.record a).isArray = true) (arrayB : (machine.store.record b).isArray = true)
    (gives : ∀ {x y length}, (∀ op : Cascade, (op.apply x y).GivesArray machine.store length) →
      (operation x y).GivesArray machine.store length)
    (ends : ∀ {x y}, machine.store.IsFinite x → machine.store.IsFinite y →
      (operation x y).Ends machine.store) :
    KeepsArrays (fun x y => follow (operation x y)) machine a b := by
  have both {x y : Value} {length : Nat}
      (array : ∀ op : Cascade, (op.apply x y).GivesArray machine.store length) :
      Ends (follow (operation x y)) machine (fun result after => after.store.HoldsArray result length)
        (RunsOut machine.store [x, y]) := by
    refine ends_follow (gives array) fun finite => ends (finite x ?_) (finite y ?_)
    · exact List.mem_cons_self
    · exact List.mem_cons_of_mem x List.mem_cons_self
  refine ⟨both fun op => op.givesArray_apply_maps arrayA arrayB, fun y scalar => ⟨?_, ?_⟩⟩
  · exact both fun op => op.givesArray_apply_left scalar arrayA
  · exact both fun op => op.givesArray_apply_right scalar arrayA

theorem ends_lift {machine : Machine} (onScalar : Value → Value)
    (array : (machine.store.record a).isArray = true) :
    Ends (follow (lift onScalar (.map a))) machine
      (fun result after => after.store.HoldsArray result (machine.store.record a).size)
      (RunsOut machine.store [.map a]) := by
  refine ends_follow (givesArray_lift onScalar array) fun finite => ?_
  have aFinite := finite _ List.mem_cons_self
  exact (ends_lift_iff onScalar machine.store.isClosed_isFinite aFinite).mpr aFinite

theorem ends_unary {machine : Machine} (op : UnaryOp)
    (array : (machine.store.record a).isArray = true) :
    Ends (unary op (.map a)) machine
      (fun result after => after.store.HoldsArray result (machine.store.record a).size)
      (RunsOut machine.store [.map a]) := by
  cases op with
  | negate | plus | not => exact ends_lift _ array
  | await => exact ⟨a, rfl, array, rfl⟩

theorem ends_sortArray (machine : Machine) (ref : MapRef) :
    Ends (run call .sort [.map ref]) machine
      (fun result after => after.store.HoldsArray result (machine.store.record ref).size)
      (RunsOut machine.store [.map ref]) := by
  refine ends_follow (givesArray_sort ref) fun finite => ends_sort rfl fun x member => ?_
  exact machine.store.isClosed_isFinite.entries ref (finite _ List.mem_cons_self) x member

/-- Each function that is to give an array gives one, of the length that belongs to it.  A function that
calls another one fails only if that fails.  Sorting and operators follow maps into their entries.  They fail
only by following a map that holds itself, which has no end, and never on finite values. -/
theorem arrays_stay_arrays (call : Caller) (f : Value) (machine : Machine) {a b : MapRef} {c : Value}
    (arrayA : (machine.store.record a).isArray = true)
    (arrayB : (machine.store.record b).isArray = true)
    (collection : (machine.store.elements? c).isSome = true) :
    let lengthA := (machine.store.record a).size
    let lengthB := (machine.store.record b).size
    let lengthC := length machine.store c
    Ends (run call .map [f, .map a]) machine
      (fun result after => after.store.HoldsArray result lengthA) (Raised call f) ∧
    Ends (run call .filter [f, .map a]) machine
      (fun result after => ∃ kept middle, (verdicts call f a).run machine = .ok kept middle ∧
        kept.length = lengthA ∧ after.store.HoldsArray result (kept.count true)) (Raised call f) ∧
    Ends (run call .sort [.map a]) machine
      (fun result after => after.store.HoldsArray result lengthA) (RunsOut machine.store [.map a]) ∧
    GivesArray (run call .values [c]) machine lengthC ∧
    (∀ ref, GivesArray (run call .keys [.map ref]) machine
      (machine.store.record ref).keys.length) ∧
    GivesArray (run call .zip [.map a, c]) machine (min lengthA lengthC) ∧
    GivesArray (run call .concat [.map a, .map b]) machine (lengthA + lengthB) ∧
    (∀ op, Ends (unary op (.map a)) machine
      (fun result after => after.store.HoldsArray result lengthA) (RunsOut machine.store [.map a])) ∧
    (∀ onScalar, Ends (follow (lift onScalar (.map a))) machine
      (fun result after => after.store.HoldsArray result lengthA) (RunsOut machine.store [.map a])) ∧
    (∀ op : Cascade, KeepsArrays (fun x y => follow (op.apply x y)) machine a b) ∧
    (∀ op, isComputed op = true → KeepsArrays (compute op) machine a b) ∧
    (∀ (items : List HostValue) (value : Value) (after : Store),
      (HostValue.convert (.list items)).run machine.store = (.ok value, after) →
      after.HoldsArray value items.length) := by
  intro lengthA lengthB lengthC
  obtain ⟨elements, found⟩ := Option.isSome_iff_exists.mp collection
  refine ⟨ends_mapEach arrayA, ends_filter arrayA, ends_sortArray machine a,
    givesArray_onStore (givesArray_values found),
    fun ref => givesArray_keys machine ref,
    givesArray_onStore (givesArray_zip arrayA found),
    givesArray_onStore (givesArray_concat arrayA arrayB),
    fun op => ends_unary op arrayA, fun onScalar => ends_lift onScalar arrayA,
    fun op => ?cascade, fun op computed => ?binary,
    fun items value after converted => ?converted⟩
  case cascade => exact keepsArrays_follow arrayA arrayB (fun array => array op) op.ends_apply
  case binary =>
    have same : compute op = fun x y => follow (binary op x y) := by
      funext x y
      exact if_pos computed
    rw [same]
    exact keepsArrays_follow arrayA arrayB (givesArray_binary computed) (ends_binary computed)
  case converted =>
    have array := HostValue.givesArray_convert (congrArg Prod.fst converted)
    rwa [converted] at array

/-- A machine with an array of two values and an array of one. -/
def twoArrays : Machine where
  store := { maps := #[.ofList [.boolean true, .boolean false], .ofList [.real 2]] }

theorem arrays_stay_arrays_twoArrays :
    (twoArrays.store.record ⟨0⟩).isArray = true ∧ (twoArrays.store.record ⟨1⟩).isArray = true ∧
    GivesArray (run (fun _ _ => return .null) .concat [.map ⟨0⟩, .map ⟨1⟩]) twoArrays 3 ∧
    GivesArray (run (fun _ _ => return .null) .zip [.map ⟨0⟩, .map ⟨1⟩]) twoArrays 1 := by
  have first : (twoArrays.store.record ⟨0⟩).isArray = true := by decide +kernel
  have second : (twoArrays.store.record ⟨1⟩).isArray = true := by decide +kernel
  obtain ⟨-, -, -, -, -, zipped, joined, -⟩ :=
    arrays_stay_arrays (fun _ _ => return .null) .null twoArrays (c := .map ⟨1⟩) first second rfl
  exact ⟨first, second, joined, zipped⟩

end Library

end Reckon
