import Reckon.Operator.Cascade

/-!
# Arithmetic and comparison

The operators of the language. A string can be added to any scalar. Equality is defined on all
pairs, and the order on numbers and on strings.
-/

namespace Reckon.Operator

open Numeric (isWhole)

/-! ## Arithmetic -/

/-- A string next to a scalar is joined to its text. -/
def joinTexts (x y : Value) : Option Value :=
  match x, y with
  | .string a, y => if y.isScalar then some (.string (a ++ scalarText y)) else none
  | x, .string b => if x.isScalar then some (.string (scalarText x ++ b)) else none
  | _, _ => none
where
  /-- The text of a scalar. -/
  scalarText (value : Value) : String :=
    ({} : Store).textOf value

/-- Sum. -/
def add : Cascade where
  onReals a b := .real (a + b)
  onComplex := some fun a b => .complex (a.add b)
  onOthers := joinTexts

/-- Difference. -/
def subtract : Cascade where
  onReals a b := .real (a - b)
  onComplex := some fun a b => .complex (a.sub b)

/-- Product. -/
def multiply : Cascade where
  onReals a b := .real (a * b)
  onComplex := some fun a b => .complex (a.mul b)

/-- Quotient. -/
def divide : Cascade where
  onReals a b := .real (a / b)
  onComplex := some fun a b => .complex (a.div b)

/-- Remainder, on reals only. -/
def remainder : Cascade where
  onReals a b := .real (Numeric.remainder a b)

/-- The power of two reals. A negative base with a fractional exponent has a complex power. -/
def realPower (a b : Float) : Value :=
  if a < 0 && !isWhole b then .complex (Complex.pow (.ofReal a) (.ofReal b))
  else .real (Numeric.power a b)

/-- Power. -/
def power : Cascade where
  onReals := realPower
  onComplex := some fun a b => .complex (a.pow b)

/-! ## Comparison -/

/-- Equality of a string and another value, or of a value without contents and another value. -/
def equalOthers (x y : Value) : Option Value :=
  match x, y with
  | .string a, .string b => some (.boolean (a == b))
  | .string _, _ => some (.boolean false)
  | .null, _ | .function _, _ | .future _, _ | _, .null | _, .function _ | _, .future _ =>
      some (.boolean (({} : Store).identical x y))
  | _, _ => none

/-- Equality, where it is defined cell by cell and entry by entry. -/
def equalEach : Cascade where
  onReals a b := .boolean (a == b)
  onComplex := some fun a b => .boolean (a.isEqual b)
  onOthers := equalOthers

/-- An order on numbers and strings. -/
def comparison (onReals : Float → Float → Bool) (onStrings : String → String → Bool) : Cascade where
  onReals a b := .boolean (onReals a b)
  onOthers x y :=
    match x, y with
    | .string a, .string b => some (.boolean (onStrings a b))
    | _, _ => none

/-- Less than. -/
def less : Cascade := comparison (· < ·) (· < ·)

/-- Less than or equal. -/
def lessEqual : Cascade := comparison (· ≤ ·) (· ≤ ·)

/-- Greater than. -/
def greater : Cascade := comparison (· > ·) (· > ·)

/-- Greater than or equal. -/
def greaterEqual : Cascade := comparison (· ≥ ·) (· ≥ ·)

/-- Equality. Values that have nothing in common are not equal. -/
def equal (x y : Value) : FollowM Value := do
  match ← equalEach.apply x y with
  | .null => return .boolean false
  | result => return result

/-! ## Operators on one value -/

/-- The opposite of a scalar. -/
def negateScalar : Value → Value
  | .number (.real x) => .real (-x)
  | .number (.complex z) => .complex z.neg
  | .boolean truth => .real (-Value.ofTruth truth)
  | _ => .null

/-- A scalar as a number. -/
def plusScalar : Value → Value
  | .number n => .number n
  | .boolean truth => .real (Value.ofTruth truth)
  | _ => .null

/-- Whether a scalar counts as false. -/
def notScalar (value : Value) : Value :=
  .boolean (!({} : Store).isTruthy value)

/-- The factorial of a scalar. -/
def factorialScalar (value : Value) : Value :=
  match value.asReal? with
  | some x => .real (Numeric.factorial x)
  | none => .null

/-- The opposite. -/
def negate : Value → FollowM Value := lift negateScalar

/-- A value as a number. -/
def plus : Value → FollowM Value := lift plusScalar

/-- Whether a value counts as false, cell by cell and entry by entry. -/
def not : Value → FollowM Value := lift notScalar

/-- The factorial. -/
def factorial : Value → FollowM Value := lift factorialScalar

/-- Inequality. -/
def notEqual (x y : Value) : FollowM Value := do
  not (← equal x y)

/-! ## Ranges -/

/-- The greatest number of cells of a range or a filled matrix. -/
def cellLimit : Nat := Nat.pow 2 24

/-- Two to the power 63, above which no 64-bit integer with a sign lies. -/
def wordBound : Int := 9223372036854775808

/-- A number of cells as a 64-bit integer with a sign. Infinite and undefined numbers become the
least such integer. -/
def wholeCount (x : Float) : Int :=
  match Decimal.toInt? x with
  | some n => if -wordBound ≤ n ∧ n < wordBound then n else -wordBound
  | none => -wordBound

/-- The bounds and the step of a range. -/
structure Progression where
  /-- The first cell. -/
  first : Float
  /-- The distance between cells. -/
  step : Float
  /-- The bound of the last cell. -/
  bound : Float

/-- The progression for values, if there is one. Without a step it goes up or down by one. -/
def Progression.ofValues? (first : Value) (step : Value) (bound : Value) : Option Progression := do
  let a ← first.asReal?
  let b ← bound.asReal?
  let s ←
    match step with
    | .null => some (if b < a then -1 else 1)
    | step => step.asReal?
  if s == 0 || a.isNaN || b.isNaN || s.isNaN then none else some ⟨a, s, b⟩

/-- The number of steps to the bound, which need not be whole. -/
def Progression.span (progression : Progression) : Float :=
  (progression.bound - progression.first) / progression.step

/-- The number of cells, as it is computed before it is checked. A little is added so that a bound
that is missed only by rounding is reached. -/
def Progression.count (progression : Progression) : Float :=
  Numeric.floor (progression.span + 1e-10) + 1

/-- The cells. -/
def Progression.cells (progression : Progression) (count : Nat) : Array Float :=
  Array.ofFn (n := count) fun i =>
    progression.first + Float.ofNat i * progression.step

/-- The row vector of the cells, or null if there are too many. Room is made for as many cells as the
count says. -/
def Progression.row (progression : Progression) : Except Crash Value :=
  if progression.span < 0 then .ok (.matrix (Matrix.realRow #[]))
  else if Float.ofNat cellLimit < progression.count then .ok .null
  else
    let count := wholeCount progression.count
    if count < 0 then .error .badLength
    else .ok (.matrix (Matrix.realRow (progression.cells count.toNat)))

/-- The row vector from `first` to `bound`, or null if there is none. -/
def range (first step bound : Value) : Except Crash Value :=
  match Progression.ofValues? first step bound with
  | none => .ok .null
  | some progression => progression.row

end Reckon.Operator
