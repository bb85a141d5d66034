import Reckon.Decimal.Notation
import Reckon.Text.Quoted
import Reckon.Value.Matrix
import Reckon.Value.Store

/-!
# Values as text, truth and sameness

How a value is shown, whether it counts as true, and when two values are the same. Maps are followed
through the store. A map that holds itself has no finite text; the depth bound keeps everything here
total, and is never reached for other values.
-/

namespace Reckon

/-- The text of a number. -/
def Number.render : Number → String
  | .real x => Decimal.render x
  | .complex z => Decimal.renderComplex z.re z.im

/-- Whether a number counts as true. -/
def Number.isTruthy : Number → Bool
  | .real x => x != 0 && !x.isNaN
  | .complex z => !z.isZero

/-- Whether two numbers are the same. Undefined reals are the same as each other. -/
def Number.identical : Number → Number → Bool
  | .real x, .real y => x == y || (x.isNaN && y.isNaN)
  | .complex x, .complex y => x.isEqual y
  | _, _ => false

namespace Matrix

/-- The text of a matrix: cells separated by commas, rows by semicolons. -/
def render (matrix : Matrix) : String :=
  let rows := (List.range matrix.rows).map fun index =>
    ", ".intercalate ((matrix.row index).map Number.render)
  "[" ++ "; ".intercalate rows ++ "]"

/-- The text of a matrix that may lack cells. Every place of the shape is read in its turn, up to the
first without a cell. -/
def renderChecked (matrix : Matrix) : Except Crash String :=
  if matrix.size < matrix.rows * matrix.cols then .error (.badIndex matrix.size matrix.size)
  else .ok matrix.render

/-- Whether a matrix counts as true: it has cells, and all of them do. -/
def isTruthy (matrix : Matrix) : Bool :=
  matrix.size != 0 && matrix.cells.all Number.isTruthy

/-- Whether two matrices are the same. -/
def identical (left right : Matrix) : Bool :=
  left.sameShape right &&
    (List.zipWith Number.identical left.cells.toList right.cells.toList).all id

end Matrix

namespace Store

/-- The text of a value, with maps followed to a depth. -/
def renderTo (store : Store) : Nat → Value → String
  | _, .null => "null"
  | _, .number n => n.render
  | _, .boolean truth => if truth then "true" else "false"
  | _, .string text => Text.quote text
  | _, .matrix matrix => matrix.render
  | _, .function ref => (store.function ref).render
  | _, .future _ => "future"
  | 0, .map _ => ""
  | depth + 1, .map ref =>
      let entries := (store.record ref).entries.map fun entry =>
        entry.1 ++ ": " ++ store.renderTo depth entry.2
      "\x7b" ++ ", ".intercalate entries ++ "\x7d"

/-- The text of a value. -/
def render (store : Store) (value : Value) : String :=
  store.renderTo store.nesting value

/-- A value as text: a string as it is, anything else as it is shown. -/
def textOf (store : Store) : Value → String
  | .string text => text
  | value => store.render value

/-- Whether a value counts as true. -/
def isTruthy (store : Store) : Value → Bool
  | .null => false
  | .boolean truth => truth
  | .number n => n.isTruthy
  | .string text => text != ""
  | .matrix matrix => matrix.isTruthy
  | .map ref => (store.record ref).size != 0
  | .function _ | .future _ => true

/-- Whether two values are the same, with maps followed to a depth. -/
def identicalTo (store : Store) : Nat → Value → Value → Bool
  | _, .null, .null => true
  | _, .number x, .number y => x.identical y
  | _, .boolean x, .boolean y => x == y
  | _, .string x, .string y => x == y
  | _, .matrix x, .matrix y => x.identical y
  | _, .function x, .function y => x == y
  | _, .future x, .future y => x == y
  | depth + 1, .map x, .map y =>
      let left := store.record x
      let right := store.record y
      left.size == right.size && left.entries.all fun entry =>
        match right.get? entry.1 with
        | some value => store.identicalTo depth entry.2 value
        | none => false
  | _, _, _ => false

/-- Whether two values are the same: scalars by value, matrices and maps by their contents,
functions and futures by identity. -/
def identical (store : Store) (x y : Value) : Bool :=
  store.identicalTo store.nesting x y

/-- The elements of a matrix or a map, in order. -/
def elements? (store : Store) : Value → Option (List Value)
  | .matrix matrix => some matrix.values
  | .map ref => some (store.record ref).values
  | _ => none

end Store

namespace Failure

/-- The text of a failure. -/
def message (store : Store) : Failure → String
  | .malformed diagnostic => "syntax error: " ++ diagnostic.message
  | .unbound position name suggestion =>
      position.render ++ ": undefined: " ++ name ++
        match suggestion with
        | some other => " (did you mean " ++ other ++ "?)"
        | none => ""
  | .depthExceeded => "maximum call depth exceeded"
  | .cancelled => "context canceled"
  | .exception thrown =>
      match thrown.cause with
      | some fault => fault.message
      | none => "uncaught exception: " ++ store.render thrown.value
  | .host fault => fault.message
  | .crashed crash => crash.message
  | .exhausted => "run did not end"

end Failure

/-- The text of a report. -/
def Report.message (store : Store) (report : Report) : String :=
  ": ".intercalate (report.contexts ++ [report.failure.message store])

end Reckon
