import Reckon.Proofs.Value.History
import Reckon.Value.Display

/-!
# Pushing values

A push takes the number of entries for its key.  So it appends exactly if this key is free, and writes over
an entry otherwise.  The key is free in every array, and in every map without an index that is not below the
number of entries; such a map stays one as long as no key is removed from it and no index is set by hand.
-/

namespace Reckon

/-! ## One push -/

/-- The entries of a map and one more, at the end, with a value. -/
def Entries.Appends (entries after : Entries) (value : Value) : Prop :=
  ∃ key, after = entries ++ [(key, value)]

namespace Record

variable {record : Record} {key : String}

theorem entries_push_of_not_mem (free : indexKey record.size ∉ record.keys) (value : Value) :
    (record.push value).entries = record.entries ++ [(indexKey record.size, value)] :=
  entries_set_of_not_mem free

theorem entries_push_of_mem (taken : indexKey record.size ∈ record.keys) (value : Value) :
    (record.push value).entries = record.entries.map fun entry =>
      if entry.1 = indexKey record.size then (indexKey record.size, value) else entry :=
  entries_set_of_mem taken

theorem appends_push_iff (record : Record) (value : Value) :
    Entries.Appends record.entries (record.push value).entries value ↔
      indexKey record.size ∉ record.keys := by
  refine ⟨?_, fun free => ⟨_, entries_push_of_not_mem free value⟩⟩
  rintro ⟨key, appended⟩ taken
  have longer := congrArg List.length appended
  rw [entries_push_of_mem taken, List.length_map, List.length_append, List.length_singleton] at longer
  omega

/-! ## Free indices -/

/-- No index from the number of entries on is a key. -/
def IsOpen (record : Record) : Prop :=
  ∀ index, record.size ≤ index → indexKey index ∉ record.keys

theorem isOpen_of_isArray (array : record.isArray = true) : record.IsOpen := by
  intro index beyond known
  rw [isArray_iff.mp array] at known
  obtain ⟨other, below, same⟩ := List.mem_map.mp known
  rw [List.mem_range, indexKey_inj.mp same] at below
  omega

theorem size_le_size_set (record : Record) (key : String) (value : Value) :
    record.size ≤ (record.set key value).size := by
  rw [← length_keys, ← length_keys, keys_set_eq]
  split
  · exact Nat.le_refl _
  · rw [List.length_append]
    exact Nat.le_add_right _ _

/-- A key that is no index leaves the indices free. -/
theorem IsOpen.set (isOpen : record.IsOpen) (named : ∀ index, key ≠ indexKey index) (value : Value) :
    (record.set key value).IsOpen := by
  intro index beyond known
  rw [← contains_iff, contains_set, contains_iff] at known
  rcases known with same | known
  · exact named index same.symm
  · exact isOpen index (Nat.le_trans (record.size_le_size_set key value) beyond) known

theorem IsOpen.push (isOpen : record.IsOpen) (value : Value) : (record.push value).IsOpen := by
  have free := isOpen record.size (Nat.le_refl _)
  have size : (record.push value).size = record.size + 1 := by
    rw [← length_entries, entries_push_of_not_mem free, List.length_append, length_entries,
      List.length_singleton]
  intro index beyond known
  rw [size] at beyond
  rw [Record.push, ← contains_iff, contains_set, contains_iff] at known
  rcases known with same | known
  · have equal := indexKey_inj.mp same
    omega
  · exact isOpen index (by omega) known

end Record

/-! ## Histories -/

/-- A command removes no key from a map and sets no index in it. -/
def MapCommand.KeepsOpen (ref : MapRef) : MapCommand → Prop
  | set target key _ => target = ref → ∀ index, key ≠ Record.indexKey index
  | erase target _ => target ≠ ref
  | newMap | newArray _ | push _ _ | clone _ => True

namespace Store

variable {store : Store} {ref : MapRef} {command : MapCommand} {commands : List MapCommand}

theorem record_modifyMap (stored : ref.index < store.maps.size) (change : Record → Record) :
    (store.modifyMap ref change).record ref = change (store.record ref) := by
  rw [record, record, modifyMap, Array.getD_eq_getD_getElem?, Array.getElem?_modify, if_pos rfl,
    Array.getD_eq_getD_getElem?, Array.getElem?_eq_getElem stored]
  rfl

theorem size_maps_perform_le (store : Store) (command : MapCommand) :
    store.maps.size ≤ (command.perform store).maps.size := by
  cases command <;> simp [MapCommand.perform, Store.newMap, modifyMap]

/-- What one command leaves of a map with free indices. -/
theorem isOpen_perform (stored : ref.index < store.maps.size) (isOpen : (store.record ref).IsOpen)
    (keeps : command.KeepsOpen ref) : ((command.perform store).record ref).IsOpen := by
  by_cases here : command.target? = some ref
  · cases command with
    | newMap | newArray _ | clone _ => cases here
    | set target key value =>
        cases here
        rw [MapCommand.perform, record_modifyMap stored]
        exact isOpen.set (keeps rfl) value
    | push target value =>
        cases here
        rw [MapCommand.perform, record_modifyMap stored]
        exact isOpen.push value
    | erase target key =>
        cases here
        exact absurd rfl keeps
  · rwa [(store.record_perform_of_ne stored here).1]

/-- What a history leaves of a map with free indices. -/
theorem isOpen_foldl_perform (stored : ref.index < store.maps.size) (isOpen : (store.record ref).IsOpen)
    (keeps : ∀ command ∈ commands, command.KeepsOpen ref) :
    ((commands.foldl MapCommand.perform store).record ref).IsOpen := by
  induction commands generalizing store with
  | nil => exact isOpen
  | cons command rest inductionHypothesis =>
      obtain ⟨first, others⟩ := List.forall_mem_cons.mp keeps
      rw [List.foldl_cons]
      exact inductionHypothesis (Nat.lt_of_lt_of_le stored (store.size_maps_perform_le command))
        (isOpen_perform stored isOpen first) others

/-- After any history a push on a map appends its value exactly if the number of entries is no key, and
writes over the entry under this key otherwise, which stays in its place.  The number of entries is no key
of an array, nor of a map that had no index from its number of entries on and has since lost no key and got
no index but by pushes. -/
theorem push_appends_where_free (store : Store) (commands : List MapCommand) (ref : MapRef)
    (value : Value) :
    let after := commands.foldl MapCommand.perform store
    let entries := (after.record ref).entries
    let pushed := (((MapCommand.push ref value).perform after).record ref).entries
    let next := Record.indexKey entries.length
    ref.index < after.maps.size →
      (Entries.Appends entries pushed value ↔ next ∉ Entries.keys entries) ∧
      (next ∈ Entries.keys entries →
        pushed = entries.map fun entry => if entry.1 = next then (next, value) else entry) ∧
      ((after.record ref).isArray = true → Entries.Appends entries pushed value) ∧
      (ref.index < store.maps.size → (store.record ref).IsOpen →
        (∀ command ∈ commands, command.KeepsOpen ref) → Entries.Appends entries pushed value) := by
  intro after entries pushed next stored
  have sameNext : next = Record.indexKey (after.record ref).size := by
    rw [← Record.length_entries]
  have samePushed : pushed = ((after.record ref).push value).entries :=
    congrArg Record.entries (record_modifyMap stored _)
  have sameKeys : Entries.keys entries = (after.record ref).keys := (after.record ref).keys_entries
  have appends := (after.record ref).appends_push_iff value
  rw [sameNext, samePushed, sameKeys]
  refine ⟨appends, fun taken => Record.entries_push_of_mem taken value, fun array => ?_,
    fun known isOpen keeps => ?_⟩
  · exact appends.mpr (Record.isOpen_of_isArray array _ (Nat.le_refl _))
  · exact appends.mpr (isOpen_foldl_perform known isOpen keeps _ (Nat.le_refl _))

/-- An array that has lost its first entry loses its last one to a push. -/
theorem push_overwrites_after_erase :
    let shown (history : List MapCommand) := (history.foldl MapCommand.perform {}).render (.map ⟨0⟩)
    let shortened : List MapCommand :=
      [.newArray [.string "a", .string "b", .string "c"], .erase ⟨0⟩ "0"]
    shown shortened = "\x7b1: \"b\", 2: \"c\"\x7d" ∧
      shown (shortened ++ [.push ⟨0⟩ (.string "d")]) = "\x7b1: \"b\", 2: \"d\"\x7d" := by
  decide +kernel

end Store

end Reckon
