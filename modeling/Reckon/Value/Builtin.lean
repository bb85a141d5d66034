import Reckon.Value.Basic

/-!
# The table of built-in functions

The name, the parameters and the least number of arguments of each built-in function, and the
constants that are always there.
-/

namespace Reckon.Builtin

/-- Every built-in function. -/
def all : List Builtin :=
  [add, subtract, multiply, divide, mod, pow, negate, factorial, equal, unequal, less, lessEq,
    greater, greaterEq, not, and, or, sqrt, abs, exp, log, sin, cos, tan, floor, ceil, round, re,
    im, conj, arg, size, transpose, zeros, ones, eye, range, map, reduce, filter, anyOf, allOf, zip,
    sum, min, max, sort, keys, values, length, first, last, string, number, upper, lower, concat,
    formatNumber, raise, rescue, typeOf, sleep, resolve]

/-- The name a function is bound to. -/
def name : Builtin → String
  | add => "add"
  | subtract => "subtract"
  | multiply => "multiply"
  | divide => "divide"
  | mod => "mod"
  | pow => "pow"
  | negate => "negate"
  | factorial => "factorial"
  | equal => "equal"
  | unequal => "unequal"
  | less => "less"
  | lessEq => "lessEq"
  | greater => "greater"
  | greaterEq => "greaterEq"
  | not => "not"
  | and => "and"
  | or => "or"
  | sqrt => "sqrt"
  | abs => "abs"
  | exp => "exp"
  | log => "log"
  | sin => "sin"
  | cos => "cos"
  | tan => "tan"
  | floor => "floor"
  | ceil => "ceil"
  | round => "round"
  | re => "re"
  | im => "im"
  | conj => "conj"
  | arg => "arg"
  | size => "size"
  | transpose => "transpose"
  | zeros => "zeros"
  | ones => "ones"
  | eye => "eye"
  | range => "range"
  | map => "map"
  | reduce => "reduce"
  | filter => "where"
  | anyOf => "any"
  | allOf => "all"
  | zip => "zip"
  | sum => "sum"
  | min => "min"
  | max => "max"
  | sort => "sort"
  | keys => "keys"
  | values => "values"
  | length => "length"
  | first => "first"
  | last => "last"
  | string => "string"
  | number => "number"
  | upper => "upper"
  | lower => "lower"
  | concat => "concat"
  | formatNumber => "formatNumber"
  | raise => "throw"
  | rescue => "catch"
  | typeOf => "typeof"
  | sleep => "sleep"
  | resolve => "resolve"

/-- The names of the parameters. -/
def params : Builtin → List String
  | add | subtract | multiply | divide | mod | pow | equal | unequal | and | or => ["x", "y"]
  | less | lessEq | greater | greaterEq => ["threshold", "x"]
  | transpose => ["m"]
  | zeros | ones | eye => ["rows", "cols"]
  | range => ["from", "to", "step"]
  | map => ["f", "xs"]
  | reduce => ["f", "init", "xs"]
  | filter | anyOf | allOf => ["pred", "xs"]
  | zip | concat => ["a", "b"]
  | sum | min | max | sort | keys | values | length | first | last => ["xs"]
  | formatNumber => ["locale", "x"]
  | raise | resolve => ["value"]
  | rescue => ["f"]
  | sleep => ["ms"]
  | _ => ["x"]

/-- The number of arguments a function needs before it runs. -/
def threshold : Builtin → Nat
  | add | subtract | multiply | divide | mod | pow | equal | unequal | and | or | less | lessEq
  | greater | greaterEq | range | map | filter | anyOf | allOf | zip | concat | formatNumber => 2
  | reduce => 3
  | _ => 1

/-- The constants that are always there. -/
def constants : List (String × Value) :=
  [("pi", .real Numeric.pi), ("e", .real Numeric.euler), ("i", .complex Complex.unit)]

/-- The value that is always bound to a name, if there is one. -/
def lookup? (name : String) : Option Value :=
  match all.find? fun function => function.name == name with
  | some function => some (.function (.builtin function))
  | none => (constants.find? fun constant => constant.1 == name).map Prod.snd

/-- The names that are always bound. -/
def names : List String :=
  all.map Builtin.name ++ constants.map Prod.fst

theorem mem_all (function : Builtin) : function ∈ all := by
  cases function <;> decide

end Reckon.Builtin
