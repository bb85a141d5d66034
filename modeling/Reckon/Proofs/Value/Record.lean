import Reckon.Value.Record

/-!
# What the readers of a record see

The keys and the table of a record stay in step, so every reader is determined by the list of its
entries.  Setting and removing a key change that list as they would change a list of pairs.
-/

namespace Reckon

namespace Record

variable {record : Record} {key other : String} {value : Value}

/-! ## Keys -/

theorem contains_iff : record.contains key = true ↔ key ∈ record.keys := by
  rw [contains, ← record.inStep, keys, Array.mem_toList_iff]

theorem contains_eq_isSome (record : Record) (key : String) :
    record.contains key = (record.get? key).isSome :=
  rfl

theorem nodup_keys (record : Record) : record.keys.Nodup :=
  record.distinct

theorem length_keys (record : Record) : record.keys.length = record.size := by
  simp [keys, size]

theorem length_values (record : Record) : record.values.length = record.size := by
  rw [values, List.length_map, length_keys]

theorem keys_set_eq (record : Record) (key : String) (value : Value) :
    (record.set key value).keys =
      if record.contains key then record.keys else record.keys ++ [key] := by
  unfold set
  split
  · rfl
  · rw [keys, Array.toList_push, keys]

theorem keys_erase (record : Record) (key : String) :
    (record.erase key).keys = record.keys.erase key := by
  by_cases present : record.contains key = true
  · rw [erase, if_pos present]
    exact toList_erase _ _
  · rw [erase, if_neg present, List.erase_of_not_mem]
    rwa [← contains_iff]

/-! ## Values -/

theorem get?_eq_none (absent : key ∉ record.keys) : record.get? key = none := by
  rw [← contains_iff, contains_eq_isSome] at absent
  simpa using absent

theorem get?_eq_some (present : key ∈ record.keys) :
    record.get? key = some (record.valueAt key) := by
  rw [← contains_iff, contains_eq_isSome, Option.isSome_iff_exists] at present
  obtain ⟨value, found⟩ := present
  rw [valueAt, found, Option.getD_some]

theorem get?_set (record : Record) (key other : String) (value : Value) :
    (record.set key value).get? other = if other = key then some value else record.get? other := by
  unfold set
  split <;> exact Table.find?_put _ _ _ _

theorem contains_set :
    (record.set key value).contains other = true ↔ other = key ∨ record.contains other = true := by
  rw [contains_eq_isSome, get?_set]
  split
  · next same => simp [same]
  · next differs => simp [differs, contains_eq_isSome]

theorem get?_erase (record : Record) (key other : String) :
    (record.erase key).get? other = if other = key then none else record.get? other := by
  by_cases present : record.contains key = true
  · rw [erase, if_pos present]
    exact Table.find?_put _ _ _ _
  · rw [erase, if_neg present]
    split
    · next same =>
      rw [contains_iff] at present
      rw [same, get?_eq_none present]
    · rfl

theorem valueAt_set (record : Record) (key other : String) (value : Value) :
    (record.set key value).valueAt other = if other = key then value else record.valueAt other := by
  rw [valueAt, get?_set]
  split
  · rfl
  · rfl

/-! ## Entries -/

theorem keys_entries (record : Record) : record.entries.map Prod.fst = record.keys := by
  simp [entries, Function.comp_def]

theorem values_entries (record : Record) : record.entries.map Prod.snd = record.values := by
  simp [entries, values]

theorem length_entries (record : Record) : record.entries.length = record.size := by
  rw [← List.length_map Prod.fst, keys_entries, length_keys]

theorem lookup_entries (record : Record) (key : String) :
    record.entries.lookup key = record.get? key := by
  have among (keys : List String) :
      (keys.map fun other => (other, record.valueAt other)).lookup key =
        if key ∈ keys then some (record.valueAt key) else none := by
    induction keys with
    | nil => rfl
    | cons first rest inductionHypothesis =>
        rw [List.map_cons, List.lookup_cons, inductionHypothesis]
        by_cases same : key = first
        · simp [same]
        · simp [same, beq_false_of_ne same]
  rw [entries, among]
  split
  · next present => rw [get?_eq_some present]
  · next absent => rw [get?_eq_none absent]

theorem entries_set_of_mem (present : key ∈ record.keys) :
    (record.set key value).entries =
      record.entries.map fun entry => if entry.1 = key then (key, value) else entry := by
  rw [entries, keys_set_eq, if_pos (contains_iff.mpr present), entries, List.map_map]
  refine List.map_congr_left fun other _ => ?_
  rw [valueAt_set, Function.comp_apply]
  split
  · next same => rw [same]
  · rfl

theorem entries_set_of_not_mem (new : key ∉ record.keys) :
    (record.set key value).entries = record.entries ++ [(key, value)] := by
  rw [entries, keys_set_eq, if_neg (mt contains_iff.mp new), List.map_append, entries]
  congr 1
  · refine List.map_congr_left fun other known => ?_
    have differs : other ≠ key := fun same => new (same ▸ known)
    rw [valueAt_set, if_neg differs]
  · rw [List.map_singleton, valueAt_set, if_pos rfl]

theorem entries_erase (record : Record) (key : String) :
    (record.erase key).entries = record.entries.filter fun entry => entry.1 != key := by
  rw [entries, keys_erase, record.nodup_keys.erase_eq_filter, entries, List.filter_map]
  refine List.map_congr_left fun other kept => ?_
  have differs : other ≠ key := bne_iff_ne.mp (List.mem_filter.mp kept).2
  rw [valueAt, get?_erase, if_neg differs, valueAt]

/-! ## Records of given entries -/

theorem entries_foldl_set {entries : List (String × Value)} :
    ∀ {record : Record}, (entries.map Prod.fst).Nodup →
      (∀ entry ∈ entries, entry.1 ∉ record.keys) →
      (entries.foldl (fun record entry => record.set entry.1 entry.2) record).entries =
        record.entries ++ entries := by
  induction entries with
  | nil => simp
  | cons first rest inductionHypothesis =>
      intro record distinct new
      rw [List.map_cons, List.nodup_cons] at distinct
      have firstNew : first.1 ∉ record.keys := new first (List.mem_cons_self ..)
      rw [List.foldl_cons, inductionHypothesis distinct.2, entries_set_of_not_mem firstNew,
        List.append_assoc, List.singleton_append]
      intro entry later
      rw [keys_set_eq, if_neg (mt contains_iff.mp firstNew), List.mem_append, List.mem_singleton]
      rintro (old | same)
      · exact new entry (List.mem_cons_of_mem _ later) old
      · exact distinct.1 (same ▸ List.mem_map_of_mem later)

theorem entries_ofEntries {entries : List (String × Value)}
    (distinct : (entries.map Prod.fst).Nodup) : (ofEntries entries).entries = entries :=
  (entries_foldl_set distinct fun _ _ => List.not_mem_nil).trans (List.nil_append _)

/-! ## Arrays -/

theorem indexKey_inj {left right : Nat} : indexKey left = indexKey right ↔ left = right := by
  refine ⟨fun same => ?_, fun same => by rw [same]⟩
  have digits : Nat.toDigits 10 left = Nat.toDigits 10 right := by
    simpa [indexKey, toString] using congrArg String.toList same
  rw [← Nat.ofDigitChars_toDigits (b := 10) (n := left) (by decide) (by decide), digits,
    Nat.ofDigitChars_toDigits (by decide) (by decide)]

theorem isArray_iff :
    record.isArray = true ↔ record.keys = (List.range record.size).map indexKey := by
  rw [isArray, beq_iff_eq]

/-- In an array the next index is no key, so that a push does not meet an old entry. -/
theorem indexKey_size_not_mem (array : record.isArray = true) :
    indexKey record.size ∉ record.keys := by
  rw [isArray_iff.mp array, List.mem_map]
  rintro ⟨index, known, same⟩
  have below := List.mem_range.mp known
  have equal := indexKey_inj.mp same
  omega

theorem entries_push (array : record.isArray = true) (value : Value) :
    (record.push value).entries = record.entries ++ [(indexKey record.size, value)] :=
  entries_set_of_not_mem (indexKey_size_not_mem array)

theorem size_push (array : record.isArray = true) (value : Value) :
    (record.push value).size = record.size + 1 := by
  rw [← length_entries, entries_push array, List.length_append, length_entries, List.length_singleton]

theorem isArray_push (array : record.isArray = true) (value : Value) :
    (record.push value).isArray = true := by
  rw [isArray_iff, size_push array, List.range_succ, List.map_append, ← isArray_iff.mp array,
    ← keys_entries, entries_push array, List.map_append, keys_entries]
  rfl

theorem isArray_foldl_push (values : List Value) :
    ∀ {record : Record}, record.isArray = true →
      (values.foldl push record).isArray = true ∧
        (values.foldl push record).entries =
          record.entries ++ (values.zipIdx record.size).map fun pair => (indexKey pair.2, pair.1) := by
  induction values with
  | nil => exact fun array => ⟨array, (List.append_nil _).symm⟩
  | cons first rest inductionHypothesis =>
      intro record array
      obtain ⟨isArray, entries⟩ := inductionHypothesis (isArray_push array first)
      refine ⟨isArray, ?_⟩
      rw [List.foldl_cons, entries, entries_push array, size_push array, List.zipIdx_cons,
        List.append_assoc]
      rfl

theorem isArray_ofList (values : List Value) : (ofList values).isArray = true :=
  (isArray_foldl_push values rfl).1

theorem entries_ofList (values : List Value) :
    (ofList values).entries = values.zipIdx.map fun pair => (indexKey pair.2, pair.1) :=
  (isArray_foldl_push values rfl).2

theorem size_ofList (values : List Value) : (ofList values).size = values.length := by
  rw [← length_entries, entries_ofList, List.length_map, List.length_zipIdx]

theorem values_ofList (values : List Value) : (ofList values).values = values := by
  rw [← values_entries, entries_ofList, List.map_map]
  exact List.zipIdx_map_fst 0 values

end Record

end Reckon
