import Reckon.Operator.Arithmetic

/-!
# Shapes

The shape of a value, and matrices made from a shape.
-/

namespace Reckon.Library

/-- The rows and columns of a value: a map is a row, and null has none. -/
def size (store : Store) (value : Value) : Value :=
  let (rows, cols) : Nat × Nat :=
    match value with
    | .null => (0, 0)
    | .matrix matrix => (matrix.rows, matrix.cols)
    | .map ref => (1, (store.record ref).size)
    | _ => (1, 1)
  .matrix (Matrix.realRow #[Float.ofNat rows, Float.ofNat cols])

/-- A matrix with rows and columns exchanged. A number is its own transpose. -/
def transpose : Value → Value
  | .matrix matrix => .matrix matrix.transpose
  | .number n => .number n
  | _ => .null

/-- A value as a number of rows or columns. -/
def dimension? (value : Value) : Option Nat :=
  match value.asReal?.bind Decimal.toInt? with
  | some n => if 0 ≤ n ∧ n ≤ Operator.cellLimit then some n.toNat else none
  | none => none

/-- The rows and columns that arguments ask for. One number asks for a square. -/
def dimensions? : List Value → Option (Nat × Nat)
  | [] => none
  | [side] => (dimension? side).map fun n => (n, n)
  | rows :: cols :: _ => do
    let m ← dimension? rows
    let n ← dimension? cols
    return (m, n)

/-- The matrix whose cells are given by their row and column, or null if the arguments ask for none
or it is too large. -/
def filled (cell : Nat → Nat → Float) (args : List Value) : Value :=
  match dimensions? args with
  | none => .null
  | some (rows, cols) =>
      if Operator.cellLimit < rows * cols then .null
      else
        .matrix (Matrix.ofReals rows cols (Array.ofFn (n := rows * cols) fun i =>
          cell (i / cols) (i % cols)))

/-- A matrix of zeros. -/
def zeros : List Value → Value := filled fun _ _ => 0

/-- A matrix of ones. -/
def ones : List Value → Value := filled fun _ _ => 1

/-- A matrix with ones on the diagonal and zeros elsewhere. -/
def eye : List Value → Value := filled fun row col => if row = col then 1 else 0

/-- The row from the first argument to the second, by steps of the third if there is one. -/
def range (args : List Value) : Except Crash Value :=
  Operator.range (args.getD 0 .null) (args.getD 2 .null) (args.getD 1 .null)

end Reckon.Library
