import Mathlib.Data.List.Nodup
import Reckon.Library.Run
import Reckon.Proofs.Library.Sorting
import Reckon.Proofs.Operator.Following
import Reckon.Proofs.Value.Record
import Reckon.Session.Eval
import Reckon.Value.Host

/-!
# Numbered keys

That a map is an array is only said by its keys, and each function that makes an array sets them anew:
by pushing values, by taking over the keys of an array, or by keeping the keys that two arrays share.
What these ways have in common is that the keys come as the numbers from zero on.
-/

namespace Reckon

/-! ## Records -/

namespace Record

theorem isArray_ofEntries {entries : List (String × Value)} {length : Nat}
    (numbered : entries.map Prod.fst = (List.range length).map indexKey) :
    (ofEntries entries).isArray = true ∧ (ofEntries entries).size = length := by
  have distinct : (entries.map Prod.fst).Nodup := by
    rw [numbered]
    exact (List.nodup_map_iff fun _ _ => indexKey_inj.mp).mpr List.nodup_range
  have same := entries_ofEntries distinct
  have size : (ofEntries entries).size = length := by
    rw [← length_entries, same, ← List.length_map Prod.fst, numbered, List.length_map,
      List.length_range]
  refine ⟨?_, size⟩
  rw [isArray_iff, size, ← keys_entries, same, numbered]

/-- The keys that one array shares with another are those of the shorter one. -/
theorem filter_contains_keys {left right : Record} (leftArray : left.isArray = true)
    (rightArray : right.isArray = true) :
    left.keys.filter right.contains = (List.range (min left.size right.size)).map indexKey := by
  have shared (index : Nat) : right.contains (indexKey index) = decide (index < right.size) := by
    rw [Bool.eq_iff_iff, contains_iff, isArray_iff.mp rightArray, List.mem_map, decide_eq_true_iff]
    constructor
    · rintro ⟨other, known, same⟩
      rw [← indexKey_inj.mp same]
      exact List.mem_range.mp known
    · exact fun below => ⟨index, List.mem_range.mpr below, rfl⟩
  rw [isArray_iff.mp leftArray, List.filter_map, Function.comp_def]
  simp only [shared]
  congr 1
  induction left.size with
  | zero => simp
  | succ size inductionHypothesis =>
      rw [List.range_succ, List.filter_append, inductionHypothesis]
      by_cases below : size < right.size
      · rw [Nat.min_eq_left (Nat.le_of_lt below), Nat.min_eq_left below, List.range_succ]
        simp [below]
      · rw [Nat.min_eq_right (Nat.le_of_not_lt below), Nat.min_eq_right (by omega)]
        simp [below]

end Record

/-! ## Stores -/

/-- A value is an array of a length. -/
def Store.HoldsArray (store : Store) (value : Value) (length : Nat) : Prop :=
  ∃ ref, value = .map ref ∧ (store.record ref).isArray = true ∧ (store.record ref).size = length

/-- An action on the store gives an array of a length. -/
def StoreM.GivesArray (action : StoreM Value) (store : Store) (length : Nat) : Prop :=
  (action.run store).2.HoldsArray (action.run store).1 length

namespace StoreM

theorem givesArray_newMap {record : Record} (array : record.isArray = true) (store : Store) :
    GivesArray (newMap record) store record.size := by
  have stored : (store.newMap record).2.record (store.newMap record).1 = record := by
    simp [Store.newMap, Store.record, Array.getD]
  refine ⟨(store.newMap record).1, rfl, ?_, ?_⟩
  · exact (congrArg Record.isArray stored).trans array
  · exact congrArg Record.size stored

theorem givesArray_newArray (values : List Value) (store : Store) :
    GivesArray (newArray values) store values.length := by
  rw [← Record.size_ofList values]
  exact givesArray_newMap (Record.isArray_ofList values) store

theorem givesArray_newMap_ofEntries {entries : List (String × Value)} {length : Nat}
    (numbered : entries.map Prod.fst = (List.range length).map Record.indexKey) (store : Store) :
    GivesArray (newMap (.ofEntries entries)) store length := by
  obtain ⟨array, size⟩ := Record.isArray_ofEntries numbered
  rw [← size]
  exact givesArray_newMap array store

variable {α β : Type}

theorem length_mapM (action : α → StoreM β) (items : List α) (store : Store) :
    ((items.mapM action).run store).1.length = items.length := by
  induction items generalizing store with
  | nil => rfl
  | cons first rest inductionHypothesis =>
      rw [List.mapM_cons]
      exact congrArg (· + 1) (inductionHypothesis _)

end StoreM

/-! ## Operators -/

namespace FollowM

/-- An action that follows maps gives an array of a length, if it has an end. -/
def GivesArray (action : FollowM Value) (store : Store) (length : Nat) : Prop :=
  ∀ value after, action.run.run store = (some value, after) → after.HoldsArray value length

variable {store : Store} {f : String → FollowM Value} {keys : List String}

theorem keys_mapM {entries : List (String × Value)} {after : Store}
    (ran : (keys.mapM fun key => do return (key, ← f key) : FollowM _).run.run store =
      (some entries, after)) :
    entries.map Prod.fst = keys := by
  induction keys generalizing store entries after with
  | nil =>
      cases ran
      rfl
  | cons key rest inductionHypothesis =>
      rw [List.mapM_cons, bind_assoc] at ran
      obtain ⟨value, middle, -, ran⟩ := run_bind_eq_some.mp ran
      rw [pure_bind] at ran
      obtain ⟨others, last, ranRest, finished⟩ := run_bind_eq_some.mp ran
      cases finished
      rw [List.map_cons, inductionHypothesis ranRest]

theorem givesArray_tabulate {length : Nat} (f : String → FollowM Value)
    (numbered : keys = (List.range length).map Record.indexKey) :
    GivesArray (tabulate keys f) store length := by
  intro value after ran
  obtain ⟨entries, middle, listed, made⟩ := run_bind_eq_some.mp ran
  cases made
  exact StoreM.givesArray_newMap_ofEntries ((keys_mapM listed).trans numbered) middle

theorem GivesArray.congr {action other : FollowM Value} {length : Nat}
    (array : GivesArray action store length)
    (same : other.run.run store = action.run.run store) : GivesArray other store length :=
  fun value after ran => array value after (same.symm.trans ran)

end FollowM

open FollowM (run_bind_eq_some run_get_bind run_bind)

section Operators

open FollowM

variable {store : Store} {a b : MapRef} {x y : Value} {length : Nat}

theorem givesArray_lift (f : Value → Value) (array : (store.record a).isArray = true) :
    GivesArray (lift f (.map a)) store (store.record a).size := by
  let next (key : String) := liftTo f store.maps.size ((store.record a).valueAt key)
  refine (givesArray_tabulate next (Record.isArray_iff.mp array)).congr ?_
  rw [run_lift]
  exact Cascade.run_liftTo_map f store.maps.size a store

namespace Cascade

variable (op : Cascade)

theorem givesArray_apply {meeting : Meeting} (meets : store.meeting? x y = some meeting)
    (numbered : meeting.keys = (List.range length).map Record.indexKey) :
    GivesArray (op.apply x y) store length := by
  obtain ⟨depth, enough, -⟩ := store.exists_pairing
  let next (key : String) := op.applyTo depth (meeting.left key) (meeting.right key)
  refine (givesArray_tabulate next numbered).congr ?_
  rw [op.run_apply, enough, applyTo, op.onMatrices?_of_meeting meets]
  exact op.run_onMaps (op.applyTo depth) meets

theorem givesArray_apply_left (scalar : y.isScalar = true) (array : (store.record a).isArray = true) :
    GivesArray (op.apply (.map a) y) store (store.record a).size :=
  op.givesArray_apply (store.meeting_map_scalar a scalar) (Record.isArray_iff.mp array)

theorem givesArray_apply_right (scalar : x.isScalar = true) (array : (store.record a).isArray = true) :
    GivesArray (op.apply x (.map a)) store (store.record a).size :=
  op.givesArray_apply (store.meeting_scalar_map a scalar) (Record.isArray_iff.mp array)

theorem givesArray_apply_maps (arrayA : (store.record a).isArray = true)
    (arrayB : (store.record b).isArray = true) :
    GivesArray (op.apply (.map a) (.map b)) store (min (store.record a).size (store.record b).size) :=
  op.givesArray_apply rfl (Record.filter_contains_keys arrayA arrayB)

end Cascade

/-- What is not null stays as it is where null is replaced. -/
theorem givesArray_equal (array : GivesArray (Operator.equalEach.apply x y) store length) :
    GivesArray (Operator.equal x y) store length := by
  intro value after ran
  obtain ⟨found, middle, ran, finished⟩ := run_bind_eq_some.mp ran
  obtain ⟨ref, rfl, isArray, size⟩ := array found middle ran
  cases finished
  exact ⟨ref, rfl, isArray, size⟩

theorem givesArray_notEqual (array : GivesArray (Operator.equalEach.apply x y) store length) :
    GivesArray (Operator.notEqual x y) store length := by
  intro value after ran
  obtain ⟨found, middle, ran, negated⟩ := run_bind_eq_some.mp ran
  obtain ⟨ref, rfl, isArray, size⟩ := givesArray_equal array found middle ran
  rw [← size]
  exact givesArray_lift Operator.notScalar isArray value after negated

/-- A binary operator of the language, on two values for which every cascade gives an array. -/
theorem givesArray_binary {op : BinaryOp} (computed : Eval.isComputed op = true)
    (array : ∀ cascade : Cascade, GivesArray (cascade.apply x y) store length) :
    GivesArray (Eval.binary op x y) store length := by
  cases op with
  | equal => exact givesArray_equal (array _)
  | notEqual => exact givesArray_notEqual (array _)
  | pipe | or | and => cases computed
  | _ => exact array _

theorem ends_binary {op : BinaryOp} (computed : Eval.isComputed op = true) (xFinite : store.IsFinite x)
    (yFinite : store.IsFinite y) : (Eval.binary op x y).Ends store := by
  cases op with
  | equal => exact (Operator.yields_equal_finite xFinite yFinite).ends
  | notEqual => exact Operator.ends_notEqual xFinite yFinite
  | pipe | or | and => cases computed
  | _ => exact Cascade.ends_apply _ xFinite yFinite

end Operators

/-! ## Functions that call no function -/

namespace Library

open StoreM

variable {store : Store} {a b : MapRef}

theorem length_of_elements {value : Value} {elements : List Value}
    (found : store.elements? value = some elements) : elements.length = length store value := by
  cases value with
  | matrix matrix =>
      cases found
      rw [Matrix.values, List.length_map, Array.length_toList]
      rfl
  | map ref =>
      cases found
      exact Record.length_values _
  | _ => cases found

/-- Sorting a collection: its elements sorted, in a row or in a new array. -/
theorem run_sort_eq {value : Value} {elements : List Value} (found : store.elements? value = some elements) :
    (sort value).run.run store =
      match sortStable (holds store Operator.less) elements with
      | none => (none, store)
      | some sorted =>
          match value with
          | .matrix _ => (some (Matrix.orNull (Matrix.rowVector? sorted)), store)
          | _ => (some ((StoreM.newArray sorted).run store).1, ((StoreM.newArray sorted).run store).2) := by
  rw [sort, run_get_bind]
  simp only [found]
  rw [run_bind]
  cases sortStable (holds store Operator.less) elements with
  | none => rfl
  | some sorted => cases value <;> rfl

/-- Only elements that are not finite are compared for ever. -/
theorem exists_infinite_of_endless {op : Cascade} {elements : List Value}
    (endless : Endless (holds store op) elements) : ∃ value ∈ elements, ¬store.IsFinite value := by
  obtain ⟨x, member, y, member', noEnd⟩ := endless
  by_contra! finite
  obtain ⟨result, after, ran⟩ := op.ends_apply (finite x member) (finite y member')
  rw [holds, ran] at noEnd
  cases noEnd

theorem ends_sort {value : Value} {elements : List Value} (found : store.elements? value = some elements)
    (finite : ∀ x ∈ elements, store.IsFinite x) : (sort value).Ends store := by
  have moved : Gives (sortStable (holds store Operator.less) elements) _ _ := gives_sortStable elements
  rw [FollowM.Ends, run_sort_eq found]
  cases sorts : sortStable (holds store Operator.less) elements with
  | none =>
      rw [sorts] at moved
      obtain ⟨x, member, infinite⟩ := exists_infinite_of_endless moved
      exact absurd (finite x member) infinite
  | some sorted => cases value <;> exact ⟨_, _, rfl⟩

theorem givesArray_sort (ref : MapRef) :
    FollowM.GivesArray (sort (.map ref)) store (store.record ref).size := by
  intro value after ran
  rw [run_sort_eq rfl] at ran
  rcases sorts : sortStable (holds store Operator.less) (store.record ref).values with _ | sorted
  · rw [sorts] at ran
    cases ran
  · rw [sorts] at ran
    cases ran
    rw [← Record.length_values, ← (sortStable_perm sorts).length_eq]
    exact givesArray_newArray sorted store

theorem givesArray_values {value : Value} {elements : List Value}
    (found : store.elements? value = some elements) :
    GivesArray (values value) store (length store value) := by
  have same : (values value).run store =
      (newArray ((store.elements? value).getD [value])).run store :=
    rfl
  rw [GivesArray, same, found, Option.getD_some, ← length_of_elements found]
  exact givesArray_newArray elements store

theorem givesArray_zip {value : Value} {elements : List Value}
    (array : (store.record a).isArray = true) (found : store.elements? value = some elements) :
    GivesArray (zip (.map a) value) store
      (min (store.record a).size (length store value)) := by
  let pairs := ((store.record a).values.zip elements).mapM fun pair => newArray [pair.1, pair.2]
  have notKeyed : keyed? store (.map a) = none := if_pos array
  have own : store.elements? (.map a) = some (store.record a).values := rfl
  have same : (zip (.map a) value).run store = (pairs >>= newArray).run store := by
    rw [zip, StateT.run_bind, StateT.run_get, pure_bind]
    simp only [notKeyed, own, found, pairs]
  have paired : (pairs.run store).1.length = min (store.record a).size (length store value) := by
    rw [length_mapM, List.length_zip, Record.length_values, length_of_elements found]
  rw [GivesArray, same, ← paired]
  exact givesArray_newArray (pairs.run store).1 (pairs.run store).2

theorem givesArray_concat (arrayA : (store.record a).isArray = true)
    (arrayB : (store.record b).isArray = true) :
    GivesArray (join [.map a, .map b]) store
      ((store.record a).size + (store.record b).size) := by
  let x := store.record a
  let y := store.record b
  have same : (join [.map a, .map b]).run store =
      (if x.isArray && y.isArray then newArray (x.values ++ y.values)
        else newMap (x.union y)).run store :=
    rfl
  rw [GivesArray, same, if_pos (by rw [arrayA, arrayB, Bool.and_self]), ← Record.length_values,
    ← Record.length_values, ← List.length_append]
  exact givesArray_newArray _ store

end Library

/-! ## Values of the host -/

namespace HostValue

open StoreM

theorem length_convertItems {index : Nat} {items : List HostValue} {store : Store}
    {values : List Value} (converted : ((convertItems index items).run store).1 = .ok values) :
    values.length = items.length := by
  induction items generalizing index store values with
  | nil =>
      cases converted
      rfl
  | cons first rest inductionHypothesis =>
      rw [convertItems, StateT.run_bind] at converted
      rcases ran : (first.convert).run store with ⟨result, after⟩
      rw [ran] at converted
      rcases result with fault | value
      · cases converted
      · change (Except.map (value :: ·) ((convertItems (index + 1) rest).run after).1) = _ at converted
        rcases others : ((convertItems (index + 1) rest).run after).1 with fault | values
        · rw [others] at converted
          cases converted
        · rw [others] at converted
          cases converted
          rw [List.length_cons, inductionHypothesis others, List.length_cons]

theorem givesArray_convert {items : List HostValue} {store : Store} {value : Value}
    (converted : ((convert (.list items)).run store).1 = .ok value) :
    ((convert (.list items)).run store).2.HoldsArray value items.length := by
  rcases ran : (convertItems 0 items).run store with ⟨result, after⟩
  rcases result with fault | values
  · have failed : (convert (.list items)).run store = (.error fault, after) := by
      rw [convert, StateT.run_bind, ran]
      rfl
    rw [failed] at converted
    cases converted
  · have made : (convert (.list items)).run store =
        (.ok ((newArray values).run after).1, ((newArray values).run after).2) := by
      rw [convert, StateT.run_bind, ran]
      rfl
    have same : values.length = items.length := length_convertItems (congrArg Prod.fst ran)
    rw [made] at converted ⊢
    cases converted
    rw [← same]
    exact givesArray_newArray values after

end HostValue

end Reckon
