import Reckon.Proofs.Value.Record
import Reckon.Value.Store

/-!
# Histories of maps

What programs and the host do to maps over time, seen from outside: a map behaves like a list of pairs
in the order in which their keys were first set.  The lists of this module know neither the table of a
record nor the store: each map is a list of its own.
-/

namespace Reckon

/-- The entries of a map as a list of pairs. -/
abbrev Entries := List (String × Value)

namespace Entries

def keys (entries : Entries) : List String :=
  entries.map Prod.fst

/-- A present key gets its new value in its place, and a new key goes to the end. -/
def set (entries : Entries) (key : String) (value : Value) : Entries :=
  if key ∈ entries.keys then
    entries.map fun entry => if entry.1 = key then (key, value) else entry
  else entries ++ [(key, value)]

def push (entries : Entries) (value : Value) : Entries :=
  entries.set (toString entries.length) value

def erase (entries : Entries) (key : String) : Entries :=
  entries.filter fun entry => entry.1 != key

def ofValues (values : List Value) : Entries :=
  values.zipIdx.map fun pair => (toString pair.2, pair.1)

/-- Visit the entries in order until a visit says to stop. -/
def range {m : Type → Type} [Monad m] (visit : String → Value → m Bool) : Entries → m Unit
  | [] => pure ()
  | (key, value) :: rest => do if ← visit key value then range visit rest

end Entries

/-- Every reader of a record sees the same entries, in their order. -/
structure Record.Reads (record : Record) (entries : Entries) : Prop where
  distinct : record.keys.Nodup
  inStep : ∀ key, key ∈ record.keys ↔ (record.table.find? key).isSome = true
  size : record.size = entries.length
  get? : ∀ key, record.get? key = entries.lookup key
  contains : ∀ key, record.contains key = true ↔ key ∈ entries.keys
  keys : record.keys = entries.keys
  values : record.values = entries.map Prod.snd
  range : ∀ {m : Type → Type} [Monad m] (visit : String → Value → m Bool),
    record.range visit = entries.range visit
  isArray : record.isArray = true ↔
    ∀ (index : Nat) (key : String), entries.keys[index]? = some key → key = toString index

namespace Record

variable {record : Record}

theorem range_eq {m : Type → Type} [Monad m] (record : Record) (visit : String → Value → m Bool) :
    record.range visit = Entries.range visit record.entries := by
  have among (keys : List String) : range.go record visit keys =
      Entries.range visit (keys.map fun key => (key, record.valueAt key)) := by
    induction keys with
    | nil => rfl
    | cons key rest inductionHypothesis =>
        rw [range.go, List.map_cons, Entries.range, inductionHypothesis]
  exact among record.keys

theorem isArray_iff_getElem? : record.isArray = true ↔
    ∀ (index : Nat) (key : String), record.keys[index]? = some key → key = toString index := by
  rw [isArray_iff, List.ext_getElem?_iff]
  have numbers (index : Nat) : ((List.range record.size).map indexKey)[index]? =
      record.keys[index]?.map fun _ => toString index := by
    by_cases within : index < record.size
    · have listed : index < record.keys.length := by rwa [length_keys]
      simp [within, listed, indexKey]
    · have beyond : record.keys.length ≤ index := by
        rw [length_keys]
        omega
      simp [within, List.getElem?_eq_none beyond]
  simp only [numbers]
  refine forall_congr' fun index => ?_
  rcases record.keys[index]? with _ | key <;> simp

theorem reads_entries (record : Record) : record.Reads record.entries where
  distinct := record.nodup_keys
  inStep _ := contains_iff.symm
  size := record.length_entries.symm
  get? key := (record.lookup_entries key).symm
  contains _ := by rw [contains_iff, Entries.keys, keys_entries]
  keys := record.keys_entries.symm
  values := record.values_entries.symm
  range := record.range_eq
  isArray := by rw [Entries.keys, keys_entries, isArray_iff_getElem?]

theorem entries_set (record : Record) (key : String) (value : Value) :
    (record.set key value).entries = Entries.set record.entries key value := by
  rw [Entries.set, Entries.keys, keys_entries]
  split
  · next present => exact entries_set_of_mem present
  · next new => exact entries_set_of_not_mem new

/-- A key that was removed and set again comes last. -/
theorem keys_set_erase (record : Record) (key : String) (value : Value) :
    ((record.erase key).set key value).keys = record.keys.erase key ++ [key] := by
  have gone : key ∉ (record.erase key).keys := by
    rw [keys_erase]
    exact record.nodup_keys.not_mem_erase
  rw [keys_set_eq, if_neg (mt contains_iff.mp gone), keys_erase]

end Record

/-! ## Commands -/

/-- What can happen to the maps of a store. -/
inductive MapCommand where
  | newMap
  | newArray (values : List Value)
  | set (ref : MapRef) (key : String) (value : Value)
  | push (ref : MapRef) (value : Value)
  | erase (ref : MapRef) (key : String)
  | clone (ref : MapRef)

namespace MapCommand

def perform (store : Store) : MapCommand → Store
  | newMap => (store.newMap {}).2
  | newArray values => (store.newMap (.ofList values)).2
  | set ref key value => store.modifyMap ref (·.set key value)
  | push ref value => store.modifyMap ref (·.push value)
  | erase ref key => store.modifyMap ref (·.erase key)
  | clone ref => (store.newMap (store.record ref)).2

/-- The same on lists, each of which stands for one map. -/
def list (lists : List Entries) : MapCommand → List Entries
  | newMap => lists ++ [[]]
  | newArray values => lists ++ [Entries.ofValues values]
  | set ref key value => lists.modify ref.index fun entries => Entries.set entries key value
  | push ref value => lists.modify ref.index fun entries => Entries.push entries value
  | erase ref key => lists.modify ref.index fun entries => Entries.erase entries key
  | clone ref => lists ++ [lists.getD ref.index []]

/-- The map a command writes to, if it is not a new one. -/
def target? : MapCommand → Option MapRef
  | set ref _ _ | push ref _ | erase ref _ => some ref
  | newMap | newArray _ | clone _ => none

end MapCommand

namespace Store

/-- The entries of each map. -/
def lists (store : Store) : List Entries :=
  store.maps.toList.map Record.entries

theorem entries_record (store : Store) (ref : MapRef) :
    (store.record ref).entries = store.lists.getD ref.index [] := by
  rw [record, lists, List.getD_eq_getElem?_getD, List.getElem?_map, Array.getElem?_toList,
    Array.getD_eq_getD_getElem?]
  rcases store.maps[ref.index]? with _ | record <;> rfl

theorem lists_newMap (store : Store) (record : Record) :
    (store.newMap record).2.lists = store.lists ++ [record.entries] := by
  simp [newMap, lists]

theorem lists_modifyMap (store : Store) (ref : MapRef) {change : Record → Record}
    {onList : Entries → Entries} (same : ∀ record, (change record).entries = onList record.entries) :
    (store.modifyMap ref change).lists = store.lists.modify ref.index onList := by
  refine List.ext_getElem? fun index => ?_
  rw [modifyMap, lists, lists, List.getElem?_map, List.getElem?_modify, List.getElem?_map,
    Array.getElem?_toList, Array.getElem?_toList, Array.getElem?_modify]
  by_cases here : ref.index = index
  · rcases store.maps[index]? with _ | record <;> simp [here, same]
  · simp [here]

/-- A command does to the maps of a store what it does to their lists. -/
theorem lists_perform (store : Store) (command : MapCommand) :
    (command.perform store).lists = command.list store.lists := by
  cases command with
  | newMap =>
      exact store.lists_newMap {}
  | newArray values =>
      rw [MapCommand.perform, lists_newMap, Record.entries_ofList]
      rfl
  | set ref key value =>
      exact store.lists_modifyMap ref fun record => record.entries_set key value
  | push ref value =>
      refine store.lists_modifyMap ref fun record => ?_
      rw [Record.push, Record.entries_set, Entries.push, Record.length_entries]
      rfl
  | erase ref key =>
      exact store.lists_modifyMap ref fun record => record.entries_erase key
  | clone ref =>
      rw [MapCommand.perform, lists_newMap, entries_record]
      rfl

theorem lists_foldl_perform (commands : List MapCommand) (store : Store) :
    (commands.foldl MapCommand.perform store).lists = commands.foldl MapCommand.list store.lists := by
  induction commands generalizing store with
  | nil => rfl
  | cons command rest inductionHypothesis =>
      rw [List.foldl_cons, inductionHypothesis, lists_perform, List.foldl_cons]

/-! ## Maps that a command does not write to -/

theorem record_newMap_of_lt (store : Store) (record : Record) {ref : MapRef}
    (known : ref.index < store.maps.size) : (store.newMap record).2.record ref = store.record ref := by
  rw [Store.record, Store.record, newMap, Array.getD_eq_getD_getElem?, Array.getElem?_push_lt known,
    Array.getD_eq_getD_getElem?, Array.getElem?_eq_getElem known]

theorem record_modifyMap_of_ne (store : Store) {ref other : MapRef} (change : Record → Record)
    (differs : ref ≠ other) : (store.modifyMap ref change).record other = store.record other := by
  have places : ref.index ≠ other.index := fun same => differs (by cases ref; cases other; congr)
  rw [record, record, modifyMap, Array.getD_eq_getD_getElem?, Array.getElem?_modify, if_neg places,
    Array.getD_eq_getD_getElem?]

theorem record_perform_of_ne (store : Store) {command : MapCommand} {ref : MapRef}
    (known : ref.index < store.maps.size) (elsewhere : command.target? ≠ some ref) :
    (command.perform store).record ref = store.record ref ∧
      ref.index < (command.perform store).maps.size := by
  have apart {target : MapRef} (same : command.target? = some target) : target ≠ ref :=
    fun equal => elsewhere (equal ▸ same)
  cases command with
  | newMap | newArray _ | clone _ =>
      refine ⟨store.record_newMap_of_lt _ known, ?_⟩
      rw [MapCommand.perform, newMap, Array.size_push]
      omega
  | set target _ _ | push target _ | erase target _ =>
      refine ⟨store.record_modifyMap_of_ne _ (apart rfl), ?_⟩
      rwa [MapCommand.perform, modifyMap, Array.size_modify]

theorem record_foldl_perform_of_ne {commands : List MapCommand} {ref : MapRef} (store : Store)
    (known : ref.index < store.maps.size)
    (elsewhere : ∀ command ∈ commands, command.target? ≠ some ref) :
    (commands.foldl MapCommand.perform store).record ref = store.record ref := by
  induction commands generalizing store with
  | nil => rfl
  | cons command rest inductionHypothesis =>
      rw [List.forall_mem_cons] at elsewhere
      obtain ⟨kept, stillKnown⟩ := store.record_perform_of_ne known elsewhere.1
      rw [List.foldl_cons, inductionHypothesis _ stillKnown elsewhere.2, kept]

end Store

/-- After any history every reader of every map sees the entries of the list that stands for it, in
which a key that is removed and set again comes last, and no map has changed that was not written
to. -/
theorem Store.maps_refine_lists (store : Store) (commands : List MapCommand) :
    let after := commands.foldl MapCommand.perform store
    let lists := commands.foldl MapCommand.list store.lists
    after.maps.size = lists.length ∧
    (∀ ref : MapRef, (after.record ref).Reads (lists.getD ref.index [])) ∧
    (∀ (ref : MapRef) (key : String) (value : Value),
      (((after.record ref).erase key).set key value).keys =
        (after.record ref).keys.erase key ++ [key]) ∧
    (∀ ref : MapRef, ref.index < store.maps.size →
      (∀ command ∈ commands, command.target? ≠ some ref) →
      after.record ref = store.record ref) := by
  intro after lists
  have same : after.lists = lists := lists_foldl_perform commands store
  refine ⟨?_, fun ref => ?_, fun ref key value => ?_, fun ref known elsewhere => ?_⟩
  · rw [← same, Store.lists, List.length_map, Array.length_toList]
  · rw [← same, ← after.entries_record ref]
    exact (after.record ref).reads_entries
  · exact (after.record ref).keys_set_erase key value
  · exact store.record_foldl_perform_of_ne known elsewhere

end Reckon
