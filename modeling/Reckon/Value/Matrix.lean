import Reckon.Value.Fault

/-!
# Matrices

Building matrices from cells, reading cells, and rearranging them. Numbers of rows, columns and cells are
64-bit integers with a sign, and so are the sums and products of them.
-/

namespace Reckon.Matrix

/-- A whole number in the arithmetic of 64-bit integers with a sign. -/
def word (n : Int) : Int :=
  Int.bmod n (Nat.pow 2 64)

/-- The number of rows times the number of columns. -/
def cellCount (rows cols : Int) : Int :=
  word (rows * cols)

/-- A matrix of the given shape, if the shape fits the number of cells and every cell is numeric. -/
def ofValues? (rows cols : Int) (cells : List Value) : Option Matrix :=
  if rows < 0 ∨ cols < 0 ∨ (cells.length : Int) ≠ cellCount rows cols then none
  else (cells.mapM Value.asCell?).map fun numbers => ⟨rows.toNat, cols.toNat, numbers.toArray⟩

/-- A matrix with one row. -/
def rowVector? (cells : List Value) : Option Matrix :=
  ofValues? 1 cells.length cells

/-- A matrix of real cells. -/
def ofReals (rows cols : Nat) (cells : Array Float) : Matrix :=
  ⟨rows, cols, cells.map .real⟩

/-- A matrix with one row of real cells. -/
def realRow (cells : Array Float) : Matrix :=
  ofReals 1 cells.size cells

/-- The number of cells. -/
def size (matrix : Matrix) : Nat :=
  matrix.cells.size

/-- The cells as values. -/
def values (matrix : Matrix) : List Value :=
  matrix.cells.toList.map .number

/-- The cell at an index, counted row by row from zero. -/
def index? (matrix : Matrix) (index : Int) : Option Number :=
  if 0 ≤ index then matrix.cells[index.toNat]? else none

/-- The index of the cell in a row and a column, both counted from zero. -/
def indexOf (matrix : Matrix) (row col : Int) : Int :=
  word (row * matrix.cols + col)

/-- The cell in a row and a column, or none outside of the shape. Inside of the shape the cell is read
whether it exists or not. -/
def at? (matrix : Matrix) (row col : Int) : Except Crash (Option Number) :=
  if 0 ≤ row ∧ 0 ≤ col ∧ row < matrix.rows ∧ col < matrix.cols then
    match matrix.index? (matrix.indexOf row col) with
    | some cell => .ok (some cell)
    | none => .error (.badIndex (matrix.indexOf row col) matrix.size)
  else .ok none

/-- Whether two matrices have the same shape. -/
def sameShape (left right : Matrix) : Bool :=
  left.rows == right.rows && left.cols == right.cols

/-- Whether some cell is complex. -/
def isComplex (matrix : Matrix) : Bool :=
  matrix.cells.any fun
    | .complex _ => true
    | .real _ => false

/-- Rows and columns exchanged. -/
def transpose (matrix : Matrix) : Matrix where
  rows := matrix.cols
  cols := matrix.rows
  cells := Array.ofFn (n := matrix.cells.size) fun i =>
    matrix.cells.getD ((i % matrix.rows) * matrix.cols + i / matrix.rows) default

/-- A function applied to every cell, if all results are numeric. -/
def mapCells? (f : Number → Value) (matrix : Matrix) : Option Matrix :=
  ofValues? matrix.rows matrix.cols (matrix.cells.toList.map f)

/-- A function applied to the cells of two matrices of the same shape, if all results are
numeric. -/
def zipCells? (f : Number → Number → Value) (left right : Matrix) : Option Matrix :=
  ofValues? left.rows left.cols (List.zipWith f left.cells.toList right.cells.toList)

/-- The cells of one row. -/
def row (matrix : Matrix) (index : Nat) : List Number :=
  (matrix.cells.extract (index * matrix.cols) ((index + 1) * matrix.cols)).toList

/-- Two matrices side by side, if they have the same number of rows and there can be as many columns. -/
def beside? (left right : Matrix) : Option Matrix :=
  if left.rows = right.rows then
    let cells := (List.range left.rows).flatMap fun index => left.row index ++ right.row index
    ofValues? left.rows (word (left.cols + right.cols)) (cells.map .number)
  else none

/-- A matrix as a value, or null. -/
def orNull (matrix : Option Matrix) : Value :=
  match matrix with
  | some matrix => .matrix matrix
  | none => .null

end Reckon.Matrix
