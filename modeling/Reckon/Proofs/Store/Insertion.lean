import Reckon.Proofs.Store.Blind
import Reckon.Proofs.Value.Record

/-!
# Functions put into a store

A function is known by its place in the store.  When others are put in before it, it moves past them, and
so does everything that refers to it.  Nothing else about a value or a store changes.
-/

namespace Reckon

/-- Functions that are put into a store, and the place where they come. -/
structure Insertion where
  place : Nat
  functions : List Function

variable (inserted : Insertion)

/-! ## Values -/

/-- A function after others were put in. -/
def FunctionRef.past : FunctionRef → FunctionRef
  | .builtin function => .builtin function
  | .stored index =>
      .stored (if index < inserted.place then index else index + inserted.functions.length)

/-- A value after functions were put in. -/
def Value.past : Value → Value
  | .function ref => .function (ref.past inserted)
  | value => value

namespace Value

variable {inserted}

@[simp]
theorem past_null : null.past inserted = null :=
  rfl

@[simp]
theorem past_number (value : Number) : (number value).past inserted = number value :=
  rfl

@[simp]
theorem past_real (value : Float) : (real value).past inserted = real value :=
  rfl

@[simp]
theorem past_boolean (value : Bool) : (boolean value).past inserted = boolean value :=
  rfl

@[simp]
theorem past_string (value : String) : (string value).past inserted = string value :=
  rfl

@[simp]
theorem past_matrix (value : Matrix) : (matrix value).past inserted = matrix value :=
  rfl

@[simp]
theorem past_map (ref : MapRef) : (map ref).past inserted = map ref :=
  rfl

@[simp]
theorem past_future (ref : FutureRef) : (future ref).past inserted = future ref :=
  rfl

@[simp]
theorem past_function (ref : FunctionRef) :
    (function ref).past inserted = function (ref.past inserted) :=
  rfl

@[simp]
theorem kind_past (value : Value) : (value.past inserted).kind = value.kind := by
  cases value <;> rfl

@[simp]
theorem isNumeric_past (value : Value) : (value.past inserted).isNumeric = value.isNumeric := by
  cases value <;> rfl

@[simp]
theorem asReal?_past (value : Value) : (value.past inserted).asReal? = value.asReal? := by
  cases value <;> rfl

@[simp]
theorem asComplex?_past (value : Value) : (value.past inserted).asComplex? = value.asComplex? := by
  cases value <;> rfl

@[simp]
theorem asCell?_past (value : Value) : (value.past inserted).asCell? = value.asCell? := by
  cases value <;> rfl

end Value

/-- The cells of a matrix are numbers, so they stay where they are. -/
theorem Matrix.past_of_mem_values (matrix : Matrix) {value : Value} (isCell : value ∈ matrix.values) :
    value.past inserted = value := by
  obtain ⟨cell, -, rfl⟩ := List.mem_map.mp isCell
  rfl

@[simp]
theorem Matrix.map_past_values (matrix : Matrix) :
    matrix.values.map (Value.past inserted) = matrix.values :=
  mapList_eq_self fun _ isCell => matrix.past_of_mem_values inserted isCell

theorem FunctionRef.past_inj {left right : FunctionRef} :
    left.past inserted = right.past inserted ↔ left = right := by
  constructor
  · intro same
    cases left with
    | builtin left =>
        cases right with
        | builtin right => exact same
        | stored right => cases same
    | stored left =>
        cases right with
        | builtin right => cases same
        | stored right =>
            have numbers := FunctionRef.stored.inj same
            congr 1
            split at numbers <;> split at numbers <;> omega
  · exact congrArg _

/-! ## Records -/

namespace Table

/-- A table after functions were put in. -/
def past : Table → Table
  | leaf => leaf
  | node key value left right =>
      node key (value.map (Value.past inserted)) left.past right.past

variable {inserted}

theorem find?_past (table : Table) (key : String) :
    (table.past inserted).find? key = (table.find? key).map (Value.past inserted) := by
  induction table with
  | leaf => rfl
  | node here value left right left_ih right_ih =>
      rw [past, find?, find?, left_ih, right_ih]
      split
      · rfl
      · split <;> rfl

theorem put_past (table : Table) (key : String) (value : Option Value) :
    (table.past inserted).put key (value.map (Value.past inserted)) =
      (table.put key value).past inserted := by
  induction table with
  | leaf => rfl
  | node here old left right left_ih right_ih =>
      rw [past, put, put, left_ih, right_ih]
      split
      · rfl
      · split <;> rfl

end Table

namespace Record

/-- A record after functions were put in. -/
def past (record : Record) : Record :=
  { record with
    table := record.table.past inserted
    inStep key := by
      rw [record.inStep, Table.find?_past, Option.isSome_map] }

variable {inserted} (record : Record)

@[simp]
theorem past_empty : ({} : Record).past inserted = {} :=
  rfl

@[simp]
theorem keys_past : (record.past inserted).keys = record.keys :=
  rfl

@[simp]
theorem size_past : (record.past inserted).size = record.size :=
  rfl

@[simp]
theorem isArray_past : (record.past inserted).isArray = record.isArray :=
  rfl

@[simp]
theorem get?_past (key : String) :
    (record.past inserted).get? key = (record.get? key).map (Value.past inserted) :=
  record.table.find?_past key

@[simp]
theorem contains_past (key : String) : (record.past inserted).contains key = record.contains key := by
  rw [contains, contains, past, Table.find?_past, Option.isSome_map]

@[simp]
theorem valueAt_past (key : String) :
    (record.past inserted).valueAt key = (record.valueAt key).past inserted := by
  rw [valueAt, valueAt, get?_past, ← Value.past_null, Option.getD_map, Value.past_null]

@[simp]
theorem values_past : (record.past inserted).values = record.values.map (Value.past inserted) := by
  simp [values]

@[simp]
theorem entries_past : (record.past inserted).entries =
    record.entries.map (Prod.map id (Value.past inserted)) := by
  simp [entries]

theorem eq_of_order_table {left right : Record} (order : left.order = right.order)
    (table : left.table = right.table) : left = right := by
  cases left
  cases right
  subst order table
  rfl

theorem order_set (key : String) (value : Value) :
    (record.set key value).order =
      if record.contains key then record.order else record.order.push key := by
  unfold set
  split <;> rfl

theorem table_set (key : String) (value : Value) :
    (record.set key value).table = record.table.put key (some value) := by
  unfold set
  split <;> rfl

theorem set_past (key : String) (value : Value) :
    (record.past inserted).set key (value.past inserted) = (record.set key value).past inserted := by
  -- A record holds proofs, which do not matter: it is given by its keys and its table.
  refine eq_of_order_table ?_ ?_
  · rw [order_set, contains_past]
    exact (record.order_set key value).symm
  · calc ((record.past inserted).set key (value.past inserted)).table
        = (record.table.past inserted).put key ((some value).map (Value.past inserted)) :=
          (record.past inserted).table_set key (value.past inserted)
      _ = (record.table.put key (some value)).past inserted := record.table.put_past key (some value)
      _ = ((record.set key value).past inserted).table := by rw [← table_set]; rfl

theorem push_past (value : Value) :
    (record.past inserted).push (value.past inserted) = (record.push value).past inserted := by
  rw [push, size_past, set_past]
  rfl

theorem foldl_set_past (entries : List (String × Value)) :
    (entries.map (Prod.map id (Value.past inserted))).foldl
        (fun record entry => record.set entry.1 entry.2) (record.past inserted) =
      (entries.foldl (fun record entry => record.set entry.1 entry.2) record).past inserted := by
  induction entries generalizing record with
  | nil => rfl
  | cons first rest inductionHypothesis =>
      rw [List.map_cons, List.foldl_cons, List.foldl_cons, ← inductionHypothesis, ← set_past]
      rfl

@[simp]
theorem ofList_past (values : List Value) :
    ofList (values.map (Value.past inserted)) = (ofList values).past inserted := by
  have pushed (start : Record) : (values.map (Value.past inserted)).foldl push (start.past inserted) =
      (values.foldl push start).past inserted := by
    induction values generalizing start with
    | nil => rfl
    | cons first rest inductionHypothesis =>
        rw [List.map_cons, List.foldl_cons, push_past, inductionHypothesis, List.foldl_cons]
  exact pushed {}

theorem ofEntries_past (entries : List (String × Value)) :
    ofEntries (entries.map (Prod.map id (Value.past inserted))) =
      (ofEntries entries).past inserted :=
  foldl_set_past {} entries

theorem union_past (other : Record) :
    (record.past inserted).union (other.past inserted) = (record.union other).past inserted := by
  rw [union, entries_past, foldl_set_past, union]

end Record

/-! ## Errors, futures and functions -/

/-- An exception after functions were put in. -/
def Exception.past (thrown : Exception) : Exception :=
  { thrown with value := thrown.value.past inserted }

/-- A failure after functions were put in. -/
def Failure.past : Failure → Failure
  | .exception thrown => .exception (thrown.past inserted)
  | failure => failure

/-- An error of the host after functions were put in. -/
def HostError.past : HostError → HostError
  | .thrown exception => .thrown (exception.past inserted)
  | .fault cause => .fault cause

/-- An outcome after functions were put in. -/
def Outcome.past : Outcome → Outcome
  | .ok value => .ok (value.past inserted)
  | .error error => .error (error.past inserted)

/-- A future after functions were put in. -/
def Future.past : Future → Future
  | .pending waiting => .pending waiting
  | .running waiting outcome => .running waiting (Outcome.past inserted outcome)
  | .ending outcome => .ending (Outcome.past inserted outcome)
  | .done outcome => .done (Outcome.past inserted outcome)

/-- A function after others were put in. -/
def Function.past (function : Function) : Function :=
  { function with bound := function.bound.map (Value.past inserted) }

namespace Failure

variable {inserted}

theorem past_calling (failure : Failure) (name : String) :
    (failure.past inserted).calling name = (failure.calling name).past inserted := by
  cases failure <;> rfl

end Failure

theorem HostError.failure_past (error : HostError) :
    (error.past inserted).failure = error.failure.past inserted := by
  cases error <;> rfl

namespace Future

variable {inserted}

theorem isEnding_past (future : Future) : (future.past inserted).isEnding = future.isEnding := by
  cases future <;> rfl

theorem register_past (future : Future) (callback : Callback) :
    (future.past inserted).register callback =
      (future.register callback).map fun next =>
        (next.1.past inserted, next.2.map (Outcome.past inserted)) := by
  cases future with
  | pending waiting => cases waiting <;> rfl
  | running waiting outcome => cases waiting <;> rfl
  | _ => rfl

end Future

theorem Function.bind_past (function : Function) (args : List Value) :
    (function.past inserted).bind (args.map (Value.past inserted)) =
      (function.bind args).past inserted := by
  simp [Function.bind, Function.past]

theorem Function.render_past (function : Function) :
    (function.past inserted).render = function.render := by
  simp [Function.render, Function.remaining, Function.past]

/-! ## Stores -/

/-- The functions of a store with others put in. -/
def Insertion.into (functions : List Function) : List Function :=
  (functions.take inserted.place).map (Function.past inserted) ++
    (inserted.functions ++ (functions.drop inserted.place).map (Function.past inserted))

/-- A store with functions put in. -/
def Store.past (store : Store) : Store where
  maps := store.maps.map (Record.past inserted)
  functions := (inserted.into store.functions.toList).toArray
  futures := store.futures.map (Future.past inserted)

/-- A function of the host does the same after functions were put in. -/
def Insertion.Suits (reply : List Value → Outcome) : Prop :=
  ∀ args, reply (args.map (Value.past inserted)) = Outcome.past inserted (reply args)

/-- The functions can be put into a store: it reaches to the place where they come, and no function of
the host in it depends on the places of functions. -/
structure Insertion.Fits (store : Store) : Prop where
  within : inserted.place ≤ store.functions.size
  suits : ∀ function ∈ store.functions, ∀ reply, function.code = .native (.answer reply) →
    inserted.Suits reply

namespace Store

variable {inserted} (store : Store)

@[simp]
theorem record_past (ref : MapRef) : (store.past inserted).record ref = (store.record ref).past inserted := by
  simp only [record, past, Array.getD_eq_getD_getElem?, Array.getElem?_map]
  cases store.maps[ref.index]? <;> rfl

theorem future_past (ref : FutureRef) :
    (store.past inserted).future ref = (store.future ref).past inserted := by
  simp only [future, past, Array.getD_eq_getD_getElem?, Array.getElem?_map]
  cases store.futures[ref.index]? <;> rfl

@[simp]
theorem nesting_past : (store.past inserted).nesting = store.nesting := by
  simp [nesting, past]

@[simp]
theorem pairing_past : (store.past inserted).pairing = store.pairing := by
  rw [pairing, nesting_past, pairing]

theorem getElem?_into (functions : List Function) (within : inserted.place ≤ functions.length)
    (index : Nat) :
    (inserted.into functions)[if index < inserted.place then index
        else index + inserted.functions.length]? =
      (functions[index]?).map (Function.past inserted) := by
  have long : (functions.take inserted.place).length = inserted.place := by
    rw [List.length_take, Nat.min_eq_left within]
  by_cases before : index < inserted.place
  · rw [if_pos before, Insertion.into, List.getElem?_append_left (by rwa [List.length_map, long]),
      List.getElem?_map, List.getElem?_take_of_lt before]
  · -- The index passes what stands before the place and what was put in.
    have here : inserted.place + (index - inserted.place) = index := by omega
    rw [if_neg before, Insertion.into, List.getElem?_append_right (by rw [List.length_map, long]; omega),
      List.length_map, long, List.getElem?_append_right (by omega), List.getElem?_map, List.getElem?_drop]
    congr 2
    omega

theorem function_past (fits : inserted.Fits store) (ref : FunctionRef) :
    (store.past inserted).function (ref.past inserted) = (store.function ref).past inserted := by
  cases ref with
  | builtin function => rfl
  | stored index =>
      have within : inserted.place ≤ store.functions.toList.length := fits.within
      have found := getElem?_into store.functions.toList within index
      simp only [function, FunctionRef.past, past, Array.getD_eq_getD_getElem?, List.getElem?_toArray,
        found, Array.getElem?_toList]
      cases store.functions[index]? <;> rfl

@[simp]
theorem elements?_past (value : Value) :
    (store.past inserted).elements? (value.past inserted) =
      (store.elements? value).map (List.map (Value.past inserted)) := by
  cases value with
  | matrix matrix => simp [elements?]
  | map ref => simp [elements?]
  | _ => rfl

@[simp]
theorem isTruthy_past (value : Value) :
    (store.past inserted).isTruthy (value.past inserted) = store.isTruthy value := by
  cases value with
  | map ref => simp [isTruthy]
  | _ => rfl

theorem renderTo_past (fits : inserted.Fits store) (depth : Nat) (value : Value) :
    (store.past inserted).renderTo depth (value.past inserted) = store.renderTo depth value := by
  induction depth generalizing value with
  | zero =>
      cases value with
      | function ref =>
          simp only [Value.past_function, renderTo, store.function_past fits, Function.render_past]
      | _ => simp only [Value.past, renderTo]
  | succ depth inductionHypothesis =>
      cases value with
      | function ref =>
          simp only [Value.past_function, renderTo, store.function_past fits, Function.render_past]
      | map ref =>
          simp only [Value.past_map, renderTo, record_past, Record.entries_past, List.map_map,
            Function.comp_def, Prod.map_fst, Prod.map_snd, id_eq, inductionHypothesis]
      | _ => simp only [Value.past, renderTo]

theorem textOf_past (fits : inserted.Fits store) (value : Value) :
    (store.past inserted).textOf (value.past inserted) = store.textOf value := by
  have render : (store.past inserted).render (value.past inserted) = store.render value := by
    rw [Store.render, nesting_past, store.renderTo_past fits, Store.render]
  cases value with
  | string text => rfl
  | _ => exact render

/-! ### Changes of a store -/

theorem newMap_past (record : Record) :
    (store.past inserted).newMap (record.past inserted) =
      ((store.newMap record).1, (store.newMap record).2.past inserted) := by
  simp [newMap, past]

theorem newFuture_past (future : Future) :
    (store.past inserted).newFuture (future.past inserted) =
      ((store.newFuture future).1, (store.newFuture future).2.past inserted) := by
  simp [newFuture, past]

theorem length_into (functions : List Function) (within : inserted.place ≤ functions.length) :
    (inserted.into functions).length = functions.length + inserted.functions.length := by
  simp only [Insertion.into, List.length_append, List.length_map, List.length_take, List.length_drop]
  omega

theorem into_append (functions more : List Function) (within : inserted.place ≤ functions.length) :
    inserted.into (functions ++ more) =
      inserted.into functions ++ more.map (Function.past inserted) := by
  simp only [Insertion.into, List.take_append_of_le_length within, List.drop_append_of_le_length within,
    List.map_append, List.append_assoc]

theorem newFunction_past (fits : inserted.Fits store) (function : Function) :
    (store.past inserted).newFunction (function.past inserted) =
      ((store.newFunction function).1.past inserted, (store.newFunction function).2.past inserted) := by
  have within : inserted.place ≤ store.functions.toList.length := fits.within
  have behind : ¬store.functions.size < inserted.place := Nat.not_lt.mpr fits.within
  simp [newFunction, past, FunctionRef.past, length_into _ within, into_append _ _ within, behind]

theorem modifyMap_past (ref : MapRef) {first second : Record → Record}
    (same : ∀ record, first (record.past inserted) = (second record).past inserted) :
    (store.past inserted).modifyMap ref first = (store.modifyMap ref second).past inserted := by
  have maps : (store.maps.map (Record.past inserted)).modify ref.index first =
      (store.maps.modify ref.index second).map (Record.past inserted) := by
    ext index
    · simp
    · simp only [Array.getElem_modify, Array.getElem_map]
      split
      · exact same _
      · rfl
  simp only [modifyMap, past, maps]

theorem setFuture_past (ref : FutureRef) (future : Future) :
    (store.past inserted).setFuture ref (future.past inserted) =
      (store.setFuture ref future).past inserted := by
  simp [setFuture, past]

end Store

/-! ## Functions that nothing refers to -/

/-- Every value in a table has a property. -/
def Table.Every (property : Value → Prop) : Table → Prop
  | leaf => True
  | node _ value left right =>
      (∀ held, value = some held → property held) ∧ left.Every property ∧ right.Every property

/-- Every value of a record has a property. -/
def Record.Every (property : Value → Prop) (record : Record) : Prop :=
  record.table.Every property

/-- The value or the exception of an outcome has a property. -/
def Outcome.Every (property : Value → Prop) : Outcome → Prop
  | .ok value => property value
  | .error (.thrown exception) => property exception.value
  | .error (.fault _) => True

/-- Every value in a future has a property. -/
def Future.Every (property : Value → Prop) : Future → Prop
  | .pending _ => True
  | .running _ outcome | .ending outcome | .done outcome => Outcome.Every property outcome

/-- Every value in a store has a property. -/
structure Store.Every (property : Value → Prop) (store : Store) : Prop where
  maps : ∀ record ∈ store.maps, record.Every property
  functions : ∀ function ∈ store.functions, ∀ value ∈ function.bound, property value
  futures : ∀ future ∈ store.futures, future.Every property

/-- A value is no function that the store does not have. -/
def Store.Knows (store : Store) : Value → Prop
  | .function (.stored index) => index < store.functions.size
  | _ => True

section Every

variable {inserted} {property : Value → Prop}
  (fixed : ∀ value, property value → value.past inserted = value)

include fixed

theorem Table.past_of_every {table : Table} (every : table.Every property) :
    table.past inserted = table := by
  induction table with
  | leaf => rfl
  | node key value left right left_ih right_ih =>
      obtain ⟨here, before, behind⟩ := every
      rw [past, left_ih before, right_ih behind]
      cases value with
      | none => rfl
      | some held => rw [Option.map_some, fixed held (here held rfl)]

theorem Record.past_of_every {record : Record} (every : record.Every property) :
    record.past inserted = record :=
  eq_of_order_table rfl (Table.past_of_every fixed every)

theorem Outcome.past_of_every {outcome : Outcome} (every : Outcome.Every property outcome) :
    Outcome.past inserted outcome = outcome := by
  cases outcome with
  | ok value => exact congrArg Except.ok (fixed value every)
  | error error =>
      cases error with
      | fault cause => rfl
      | thrown exception =>
          have same : exception.past inserted = exception := by
            rw [Exception.past, fixed exception.value every]
          rw [Outcome.past, HostError.past, same]

theorem Future.past_of_every {future : Future} (every : future.Every property) :
    future.past inserted = future := by
  cases future with
  | pending waiting => rfl
  | running waiting outcome => exact congrArg (Future.running waiting) (Outcome.past_of_every fixed every)
  | ending outcome => exact congrArg Future.ending (Outcome.past_of_every fixed every)
  | done outcome => exact congrArg Future.done (Outcome.past_of_every fixed every)

theorem Function.past_of_every {function : Function}
    (every : ∀ value ∈ function.bound, property value) : function.past inserted = function := by
  have same : function.bound.map (Value.past inserted) = function.bound :=
    mapList_eq_self fun value held => fixed value (every value held)
  rw [Function.past, same]

/-- Functions that come last move nothing. -/
theorem Store.past_of_every {store : Store} (every : store.Every property)
    (last : inserted.place = store.functions.size) :
    store.past inserted =
      { store with functions := store.functions ++ inserted.functions.toArray } := by
  have maps : store.maps.map (Record.past inserted) = store.maps :=
    mapArray_eq_self fun record held => Record.past_of_every fixed (every.maps record held)
  have futures : store.futures.map (Future.past inserted) = store.futures :=
    mapArray_eq_self fun future held => Future.past_of_every fixed (every.futures future held)
  have kept : store.functions.toList.map (Function.past inserted) = store.functions.toList :=
    mapList_eq_self fun function held =>
      Function.past_of_every fixed (every.functions function (Array.mem_toList_iff.mp held))
  have functions : inserted.into store.functions.toList =
      store.functions.toList ++ inserted.functions := by
    have all : inserted.place = store.functions.toList.length := last
    rw [Insertion.into, all, List.take_length, List.drop_length, kept, List.map_nil, List.append_nil]
  rw [past, maps, functions, futures, ← List.append_toArray, Array.toArray_toList]

end Every

/-- Functions that come last move no value that a store knows. -/
theorem Store.past_of_knows {inserted : Insertion} {store : Store}
    (last : inserted.place = store.functions.size) {value : Value} (known : store.Knows value) :
    value.past inserted = value := by
  cases value with
  | function ref =>
      cases ref with
      | builtin function => rfl
      | stored index =>
          have before : index < inserted.place := last ▸ known
          rw [Value.past_function, FunctionRef.past, if_pos before]
  | _ => rfl

end Reckon
