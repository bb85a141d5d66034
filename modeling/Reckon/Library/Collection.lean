import Reckon.Library.Sorting
import Reckon.Session.Machine

/-!
# Collections

Functions on matrices and maps, taken in order. Most of them take any other value as a whole. How
functions are called is a parameter.
-/

namespace Reckon.Library

open Eval

/-- How a value is called with arguments. Calling what is no function gives null. -/
abbrev Caller := Value → List Value → Eval Value

/-! ## Functions that call a function -/

/-- Do something for each entry of a map, by the keys it has at the start; each value is read when
its turn comes. -/
def forEntries {α : Type} (ref : MapRef) (action : String → Value → Eval α) : Eval (List α) := do
  ((← store).record ref).keys.mapM fun key => do
    action key (((← store).record ref).get? key |>.getD .null)

/-- Call a function on each element. A matrix gives a matrix, or an array if a result is not
numeric; a map keeps its keys. -/
def mapEach (call : Caller) (f collection : Value) : Eval Value := do
  match collection with
  | .matrix matrix =>
      let results ← matrix.values.mapM fun cell => call f [cell]
      match Matrix.ofValues? matrix.rows matrix.cols results with
      | some result => return .matrix result
      | none => newArray results
  | .map ref =>
      let entries ← forEntries ref fun key value => do return (key, ← call f [value])
      newMap (.ofEntries entries)
  | value => call f [value]

/-- Combine the elements from the left, starting with a value. -/
def reduce (call : Caller) (f initial collection : Value) : Eval Value := do
  match (← store).elements? collection with
  | some elements => elements.foldlM (fun acc element => call f [acc, element]) initial
  | none => call f [initial, collection]

/-- The elements on which a predicate is true: a row for a matrix, an array for an array, and the
same keys for any other map. Any other value is kept or replaced by null. -/
def filter (call : Caller) (predicate collection : Value) : Eval Value := do
  match collection with
  | .matrix matrix =>
      let kept ← matrix.values.filterM fun cell => do isTruthy (← call predicate [cell])
      return Matrix.orNull (Matrix.rowVector? kept)
  | .map ref =>
      let isArray := ((← store).record ref).isArray
      let judged ← forEntries ref fun key value => do
        return (key, value, ← isTruthy (← call predicate [value]))
      let entries := judged.filterMap fun (key, value, keep) =>
        if keep then some (key, value) else none
      if isArray then newArray (entries.map Prod.snd) else newMap (.ofEntries entries)
  | value => do
    if ← isTruthy (← call predicate [value]) then return value else return .null

/-- The elements of a collection; any other value is its own only element. -/
def elementsOf (value : Value) : Eval (List Value) := do
  return ((← store).elements? value).getD [value]

/-- Whether a predicate has the wanted truth value on some element. The first such element
decides. -/
def decidedBy (call : Caller) (predicate : Value) (wanted : Bool) : List Value → Eval Bool
  | [] => return false
  | element :: rest => do
    if (← isTruthy (← call predicate [element])) == wanted then return true
    else decidedBy call predicate wanted rest

/-- Whether a predicate is true of some element. -/
def anyOf (call : Caller) (predicate collection : Value) : Eval Value := do
  return .boolean (← decidedBy call predicate true (← elementsOf collection))

/-- Whether a predicate is true of every element. -/
def allOf (call : Caller) (predicate collection : Value) : Eval Value := do
  return .boolean (!(← decidedBy call predicate false (← elementsOf collection)))

/-! ## Functions on elements -/

/-- The contents of a map that is no array. -/
def keyed? (store : Store) : Value → Option Record
  | .map ref => if (store.record ref).isArray then none else some (store.record ref)
  | _ => none

/-- Pairs of elements: over the shared keys for two maps that are no arrays, by position for other
collections. If one value is no collection, the two values make the only pair. -/
def zip (left right : Value) : StoreM Value := do
  let store ← get
  match keyed? store left, keyed? store right with
  | some a, some b =>
      let entries ← a.entries.filterMapM fun (key, value) => do
        match b.get? key with
        | some other => return some (key, ← StoreM.newArray [value, other])
        | none => return none
      StoreM.newMap (.ofEntries entries)
  | _, _ =>
      match store.elements? left, store.elements? right with
      | some xs, some ys =>
          StoreM.newArray (← (xs.zip ys).mapM fun (x, y) => StoreM.newArray [x, y])
      | _, _ => StoreM.newArray [left, right]

/-- The argument, or the array of all arguments if there are several. -/
def collectionOf : List Value → StoreM Value
  | [value] => return value
  | values => StoreM.newArray values

/-- The sum of the elements, starting from zero. -/
def sum (value : Value) : FollowM Value := do
  match (← get).elements? value with
  | some elements => elements.foldlM Operator.add.apply (.real 0)
  | none => Operator.add.apply (.real 0) value

/-- The keys of a map, or the indices of a matrix. -/
def keys (value : Value) : Eval Value := do
  match value with
  | .map ref => newArray (((← store).record ref).keys.map .string)
  | .matrix matrix =>
      if matrix.size = 0 then return .matrix (Matrix.realRow #[])
      else orCrash (Operator.range (.real 0) .null (.real (Float.ofNat (matrix.size - 1))))
  | _ => newArray []

/-- The elements as an array; any other value is the only element. -/
def values (value : Value) : StoreM Value := do
  StoreM.newArray (((← get).elements? value).getD [value])

/-- The number of elements of a collection and of characters of a string. Null has none, and any
other value is one. -/
def length (store : Store) : Value → Nat
  | .null => 0
  | .string text => text.length
  | .matrix matrix => matrix.size
  | .map ref => (store.record ref).size
  | _ => 1

/-- The first element, or null if there is none. A value that is no collection is its own. -/
def first (store : Store) (value : Value) : Value :=
  match store.elements? value with
  | some elements => elements.head?.getD .null
  | none => value

/-- The last element, or null if there is none. A value that is no collection is its own. -/
def last (store : Store) (value : Value) : Value :=
  match store.elements? value with
  | some elements => elements.getLast?.getD .null
  | none => value

end Reckon.Library
