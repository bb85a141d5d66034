import Reckon.Value.Basic

/-!
# Records: ordered maps from strings to values

A table is a search tree from strings to values.  A key whose value was taken away stays in the tree
without one, so that the way to a key never changes.

A record holds its content twice: the keys in the order in which they were first set, and a table of
their values.  The two stay in step, which is a part of the record.  An array is a record whose keys
are the decimal numbers from zero on, in order.
-/

namespace Reckon

/-- A table from strings to values. -/
inductive Table where
  | leaf
  | node (key : String) (value : Option Value) (left right : Table)
deriving Inhabited

namespace Table

/-- The value under a key. -/
def find? (key : String) : Table → Option Value
  | leaf => none
  | node here value left right =>
      if key = here then value
      else if key < here then left.find? key
      else right.find? key

/-- Give a key a value, or take away the one it has. -/
def put (key : String) (value : Option Value) : Table → Table
  | leaf => node key value leaf leaf
  | node here old left right =>
      if key = here then node here value left right
      else if key < here then node here old (left.put key value) right
      else node here old left (right.put key value)

@[simp]
theorem find?_leaf (key : String) : leaf.find? key = none :=
  rfl

theorem find?_put (table : Table) (key other : String) (value : Option Value) :
    (table.put key value).find? other = if other = key then value else table.find? other := by
  induction table with
  | leaf =>
      by_cases same : other = key <;> simp [put, find?, same]
  | node here old left right left_ih right_ih =>
      rw [put]
      split
      · next atKey =>
        subst atKey
        by_cases same : other = key <;> simp [find?, same]
      · next elsewhere =>
        -- Searches for the key take the same side as `put` did; any other search ends where it did.
        split
        · next before =>
          rw [find?, left_ih, find?]
          by_cases same : other = key
          · subst same
            rw [if_neg elsewhere, if_pos before, if_pos rfl, if_pos rfl]
          · simp only [if_neg same]
        · next after =>
          rw [find?, right_ih, find?]
          by_cases same : other = key
          · subst same
            rw [if_neg elsewhere, if_neg after, if_pos rfl, if_pos rfl]
          · simp only [if_neg same]

end Table

theorem Table.mem_empty_iff_leaf (key : String) :
    key ∈ (#[] : Array String) ↔ (leaf.find? key).isSome = true := by
  simp

/-- An ordered map. -/
structure Record where
  /-- The keys, in order. -/
  order : Array String := #[]
  /-- The values of the keys. -/
  table : Table := .leaf
  distinct : order.toList.Nodup := by exact List.nodup_nil
  inStep : ∀ key, key ∈ order ↔ (table.find? key).isSome = true := by
    exact Reckon.Table.mem_empty_iff_leaf

namespace Record

instance : Inhabited Record :=
  ⟨{}⟩

/-- The key of the array element at an index. -/
def indexKey (index : Nat) : String :=
  toString index

/-- The number of entries. -/
def size (record : Record) : Nat :=
  record.order.size

/-- The value under a key. -/
def get? (record : Record) (key : String) : Option Value :=
  record.table.find? key

/-- Whether a key is present. -/
def contains (record : Record) (key : String) : Bool :=
  (record.table.find? key).isSome

/-- Set a key. A key that is present keeps its place; a new key goes to the end. -/
def set (record : Record) (key : String) (value : Value) : Record :=
  if present : record.contains key then
    { record with
      table := record.table.put key (some value)
      inStep other := by
        rw [record.inStep, Table.find?_put]
        split
        · next same =>
          subst same
          exact iff_of_true present rfl
        · rfl }
  else
    { order := record.order.push key
      table := record.table.put key (some value)
      distinct := by
        have new : key ∉ record.order.toList := by
          rwa [Array.mem_toList_iff, record.inStep]
        rw [Array.toList_push, List.nodup_append]
        refine ⟨record.distinct, by simp, fun other old last only => ?_⟩
        rintro rfl
        rw [List.mem_singleton] at only
        exact new (only ▸ old)
      inStep other := by
        rw [Array.mem_push, record.inStep, Table.find?_put]
        split
        · next same => simp [same]
        · next differs => simp [differs] }

/-- Set the key that is the number of entries. -/
def push (record : Record) (value : Value) : Record :=
  record.set (indexKey record.size) value

theorem toList_erase (keys : Array String) (key : String) :
    (keys.erase key).toList = keys.toList.erase key := by
  rcases keys with ⟨keys⟩
  rw [List.erase_toArray]

/-- Remove a key. The others keep their order. -/
def erase (record : Record) (key : String) : Record :=
  if record.contains key then
    { order := record.order.erase key
      table := record.table.put key none
      distinct := by
        rw [toList_erase]
        exact record.distinct.erase key
      inStep other := by
        rw [← Array.mem_toList_iff, toList_erase, record.distinct.mem_erase_iff, Array.mem_toList_iff,
          record.inStep, Table.find?_put]
        split
        · next same => simp [same]
        · next differs => simp [differs] }
  else record

/-- The array of a list of values. -/
def ofList (values : List Value) : Record :=
  values.foldl push {}

/-- The map in which entries are set one after the other. -/
def ofEntries (entries : List (String × Value)) : Record :=
  entries.foldl (fun record entry => record.set entry.1 entry.2) {}

/-- The keys, in order. -/
def keys (record : Record) : List String :=
  record.order.toList

/-- The value of a key that is listed. -/
def valueAt (record : Record) (key : String) : Value :=
  (record.get? key).getD .null

/-- The values, in order. -/
def values (record : Record) : List Value :=
  record.keys.map record.valueAt

/-- The entries, in order. -/
def entries (record : Record) : List (String × Value) :=
  record.keys.map fun key => (key, record.valueAt key)

/-- Whether the keys are the numbers from zero on, in order. -/
def isArray (record : Record) : Bool :=
  record.keys == (List.range record.size).map indexKey

/-- Visit the entries in order until a visit says to stop. -/
def range {m : Type → Type} [Monad m] (record : Record) (visit : String → Value → m Bool) : m Unit :=
  go record.keys
where
  /-- Visit the entries of some keys. -/
  go : List String → m Unit
    | [] => pure ()
    | key :: rest => do if ← visit key (record.valueAt key) then go rest

/-- The entries up to and with the first that satisfies a test. -/
def upTo (record : Record) (last : String → Bool) : List (String × Value) :=
  let visit (key : String) (value : Value) : StateM (Array (String × Value)) Bool := do
    modify (·.push (key, value))
    return !last key
  ((record.range visit).run #[]).2.toList

/-- Set all entries of another record, in order. -/
def union (record other : Record) : Record :=
  other.entries.foldl (fun result entry => result.set entry.1 entry.2) record

end Record

end Reckon
