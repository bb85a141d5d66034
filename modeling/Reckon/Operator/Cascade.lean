import Reckon.Value.Display

/-!
# Operators

A binary operator is given by what it does to two reals, perhaps to two complex numbers, and to some
other pairs of scalars. From that it extends to truth values, which count as numbers, to matrices,
cell by cell, and to maps, entry by entry. A pair that nothing fits gives null; operators never
fail. But a map can hold itself, and then following its entries may have no end.
-/

namespace Reckon

/-- A computation that may put new maps into the store. -/
abbrev StoreM := StateM Store

namespace StoreM

/-- Put a new map into the store and refer to it. -/
def newMap (record : Record) : StoreM Value :=
  modifyGet fun store =>
    let (ref, store) := store.newMap record
    (.map ref, store)

/-- Put a new array into the store and refer to it. -/
def newArray (values : List Value) : StoreM Value :=
  newMap (.ofList values)

/-- The contents of a map. -/
def record (ref : MapRef) : StoreM Record := do
  return (← get).record ref

end StoreM

/-- A computation that follows maps into their entries. It gives nothing if that has no end. -/
abbrev FollowM := OptionT StoreM

/-- What an operator does to scalars. -/
structure Cascade where
  /-- On two reals. -/
  onReals : Float → Float → Value
  /-- On two complex numbers, if it is defined there. -/
  onComplex : Option (Complex → Complex → Value) := none
  /-- On pairs that are no numbers. -/
  onOthers : Value → Value → Option Value := fun _ _ => none

namespace Cascade

/-- The operator on two values that can be coerced to numbers. -/
def coerced (op : Cascade) (x y : Value) : Value :=
  match x.asReal?, y.asReal? with
  | some a, some b => op.onReals a b
  | _, _ =>
      match op.onComplex, x.asComplex?, y.asComplex? with
      | some f, some a, some b => f a b
      | _, _, _ => .null

/-- The operator on two scalars. -/
def onScalars (op : Cascade) (x y : Value) : Value :=
  match op.onOthers x y with
  | some result => result
  | none => op.coerced x y

/-- The operator on two numbers. -/
def onNumbers (op : Cascade) (x y : Number) : Value :=
  op.onScalars (.number x) (.number y)

/-- The operator where a matrix meets a matrix or a number: cell by cell, and null if the shapes
differ or a result is not numeric. -/
def onMatrices? (op : Cascade) : Value → Value → Option Value
  | .matrix a, .matrix b =>
      some (if a.sameShape b then Matrix.orNull (Matrix.zipCells? op.onNumbers a b) else .null)
  | .matrix a, y =>
      if y.isNumeric then
        some (Matrix.orNull (a.mapCells? fun cell => op.onScalars (.number cell) y))
      else none
  | x, .matrix b =>
      if x.isNumeric then
        some (Matrix.orNull (b.mapCells? fun cell => op.onScalars x (.number cell)))
      else none
  | _, _ => none

/-- The operator where a map meets a map or a scalar, and on two scalars. Two maps combine over the
keys they share, in the order of the left one; `next` is the operator on entries. -/
def onMaps (op : Cascade) (next : Value → Value → FollowM Value) (x y : Value) :
    FollowM Value := do
  match x, y with
  | .map a, .map b =>
      let right ← StoreM.record b
      let entries ← (← StoreM.record a).entries.filterMapM fun (key, value) => do
        match right.get? key with
        | some other => return some (key, ← next value other)
        | none => return none
      StoreM.newMap (.ofEntries entries)
  | .map a, y =>
      if y.isScalar then
        let entries ← (← StoreM.record a).entries.mapM fun (key, value) => do
          return (key, ← next value y)
        StoreM.newMap (.ofEntries entries)
      else return op.onScalars x y
  | x, .map b =>
      if x.isScalar then
        let entries ← (← StoreM.record b).entries.mapM fun (key, value) => do
          return (key, ← next x value)
        StoreM.newMap (.ofEntries entries)
      else return op.onScalars x y
  | x, y => return op.onScalars x y

/-- The operator, with maps followed to a depth. -/
def applyTo (op : Cascade) : Nat → Value → Value → FollowM Value
  | 0, _, _ => failure
  | depth + 1, x, y =>
      match op.onMatrices? x y with
      | some result => return result
      | none => op.onMaps (op.applyTo depth) x y

/-- The operator on any two values. -/
def apply (op : Cascade) (x y : Value) : FollowM Value := do
  op.applyTo (← get).pairing x y

end Cascade

/-- A function on scalars extended to matrices, cell by cell, and to maps, entry by entry. -/
def liftTo (f : Value → Value) : Nat → Value → FollowM Value
  | 0, .map _ => failure
  | depth + 1, .map ref => do
    let entries ← (← StoreM.record ref).entries.mapM fun (key, value) => do
      return (key, ← liftTo f depth value)
    StoreM.newMap (.ofEntries entries)
  | _, .matrix matrix => return Matrix.orNull (matrix.mapCells? fun cell => f (.number cell))
  | _, value => return f value

/-- A function on scalars extended to matrices and maps. -/
def lift (f : Value → Value) (value : Value) : FollowM Value := do
  liftTo f (← get).nesting value

end Reckon
