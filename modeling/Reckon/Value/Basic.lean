import Reckon.Numeric.Complex

/-!
# Values

The values of the language. Numbers, strings, booleans and matrices are what they say; maps,
functions and futures are references into a store, because they have an identity and can change.
-/

namespace Reckon

/-- A number, real or complex. -/
inductive Number where
  | real (value : Float)
  | complex (value : Complex)
deriving Inhabited

/-- A matrix of numbers, row by row. -/
structure Matrix where
  /-- The number of rows. -/
  rows : Nat
  /-- The number of columns. -/
  cols : Nat
  /-- The cells, row by row. -/
  cells : Array Number
deriving Inhabited

/-- A map in the store. -/
structure MapRef where
  /-- The place in the store. -/
  index : Nat
deriving DecidableEq, Repr, Inhabited

/-- A future in the store. -/
structure FutureRef where
  /-- The place in the store. -/
  index : Nat
deriving DecidableEq, Repr, Inhabited

/-- The functions that are always there. -/
inductive Builtin where
  | add
  | subtract
  | multiply
  | divide
  | mod
  | pow
  | negate
  | factorial
  | equal
  | unequal
  | less
  | lessEq
  | greater
  | greaterEq
  | not
  | and
  | or
  | sqrt
  | abs
  | exp
  | log
  | sin
  | cos
  | tan
  | floor
  | ceil
  | round
  | re
  | im
  | conj
  | arg
  | size
  | transpose
  | zeros
  | ones
  | eye
  | range
  | map
  | reduce
  | filter
  | anyOf
  | allOf
  | zip
  | sum
  | min
  | max
  | sort
  | keys
  | values
  | length
  | first
  | last
  | string
  | number
  | upper
  | lower
  | concat
  | formatNumber
  | raise
  | rescue
  | typeOf
  | sleep
  | resolve
deriving DecidableEq, Repr, Inhabited

/-- A function: one that is always there, or one in the store. -/
inductive FunctionRef where
  | builtin (function : Builtin)
  | stored (index : Nat)
deriving DecidableEq, Repr, Inhabited

/-- A value of the language. -/
inductive Value where
  | null
  | number (value : Number)
  | boolean (value : Bool)
  | string (value : String)
  | matrix (value : Matrix)
  | map (ref : MapRef)
  | function (ref : FunctionRef)
  | future (ref : FutureRef)
deriving Inhabited

/-- The kinds of values, in the order of their numbers. -/
inductive Kind where
  | null
  | number
  | complex
  | boolean
  | string
  | matrix
  | map
  | function
  | future
deriving DecidableEq, Repr, Inhabited

namespace Kind

/-- Every kind, in the order of the numbers. -/
def all : List Kind :=
  [null, number, complex, boolean, string, matrix, map, function, future]

/-- The name of a kind. -/
def name : Kind → String
  | null => "null"
  | number => "number"
  | complex => "complex"
  | boolean => "boolean"
  | string => "string"
  | matrix => "matrix"
  | map => "map"
  | function => "function"
  | future => "future"

/-- The name shown for a kind number; a number without a kind shows itself. -/
def nameOfNumber (n : Int) : String :=
  match if 0 ≤ n then all[n.toNat]? else none with
  | some kind => kind.name
  | none => "kind(" ++ toString n ++ ")"

end Kind

namespace Value

/-- A real number. -/
def real (x : Float) : Value := .number (.real x)

/-- A complex number. -/
def complex (z : Complex) : Value := .number (.complex z)

/-- The kind of a value. -/
def kind : Value → Kind
  | null => .null
  | number (.real _) => .number
  | number (.complex _) => .complex
  | boolean _ => .boolean
  | string _ => .string
  | matrix _ => .matrix
  | map _ => .map
  | function _ => .function
  | future _ => .future

/-- A truth value as a number. -/
def ofTruth (truth : Bool) : Float :=
  if truth then 1 else 0

/-- Whether a value can be coerced to a number. -/
def isNumeric : Value → Bool
  | number _ | boolean _ => true
  | _ => false

/-- Whether a value is a number, a truth value or a string. -/
def isScalar : Value → Bool
  | number _ | boolean _ | string _ => true
  | _ => false

/-- A value as a real number. Truth values are one and zero. -/
def asReal? : Value → Option Float
  | number (.real x) => some x
  | boolean truth => some (ofTruth truth)
  | _ => none

/-- A value as a complex number. -/
def asComplex? : Value → Option Complex
  | number (.complex z) => some z
  | value => value.asReal?.map Complex.ofReal

/-- A value as a cell of a matrix. -/
def asCell? : Value → Option Number
  | number n => some n
  | boolean truth => some (.real (ofTruth truth))
  | _ => none

end Value

end Reckon
