import Reckon.Library.Collection
import Reckon.Library.Elementary
import Reckon.Library.Shape
import Reckon.Library.Text

/-!
# Running built-in functions

What each built-in function does to its arguments. A function runs only when it has at least as many
arguments as its threshold asks for.
-/

namespace Reckon.Library

open Eval

/-! ## Exceptions and futures -/

/-- The value that is caught from a failure: the value of an exception, and the text of any other
failure. -/
def caught (store : Store) : Failure → Value
  | .exception thrown => thrown.value
  | failure => .string ("catch: " ++ failure.message store)

/-- Whether a failure can be caught. -/
def isCatchable : Failure → Bool
  | .cancelled | .crashed _ | .exhausted => false
  | _ => true

/-- Call a function without arguments, and report its value or what it failed with as a map. -/
def rescue (call : Caller) (f : Value) : Eval Value := fun machine =>
  match call f [] machine with
  | .ok value machine => newMap (.ofEntries [("value", value), ("error", .null)]) machine
  | .error failure machine =>
      if isCatchable failure then
        newMap (.ofEntries [("value", .null), ("error", caught machine.store failure)]) machine
      else .error failure machine

/-- A future that is completed with its argument after that many milliseconds, or null if the
argument is no time to wait. -/
def sleep (value : Value) : Eval Value := do
  match value.asReal? with
  | some time => if time < 0 then return .null else newFuture (.running none (.ok value))
  | none => return .null

/-- A future that is completed with a value. A future is returned as it is. -/
def resolve (value : Value) : Eval Value := do
  match value with
  | .future ref => return .future ref
  | value => newFuture (.done (.ok value))

/-! ## All functions -/

/-- An operator on two or more arguments, from the left. -/
def foldOperator (op : Value → Value → FollowM Value) : List Value → FollowM Value
  | [] => return .null
  | first :: rest => rest.foldlM op first

/-- A comparison with the bound as first argument and the compared value as second. -/
def compareWith (op : Cascade) (args : List Value) : FollowM Value :=
  op.apply (args.getD 1 .null) (args.getD 0 .null)

/-- The built-in functions that neither call functions, nor fail, nor make ranges. -/
def pure? (function : Builtin) (args : List Value) : Option (FollowM Value) :=
  let x := args.getD 0 .null
  match function with
  | .add => some (foldOperator Operator.add.apply args)
  | .subtract => some (foldOperator Operator.subtract.apply args)
  | .multiply => some (foldOperator Operator.multiply.apply args)
  | .divide => some (foldOperator Operator.divide.apply args)
  | .mod => some (foldOperator Operator.remainder.apply args)
  | .pow => some (foldOperator Operator.power.apply args)
  | .equal => some (foldOperator Operator.equal args)
  | .unequal => some (foldOperator Operator.notEqual args)
  | .less => some (compareWith Operator.less args)
  | .lessEq => some (compareWith Operator.lessEqual args)
  | .greater => some (compareWith Operator.greater args)
  | .greaterEq => some (compareWith Operator.greaterEqual args)
  | .negate => some (Operator.negate x)
  | .factorial => some (Operator.factorial x)
  | .not => some (Operator.not x)
  | .and => some do return .boolean (args.all (← get).isTruthy)
  | .or => some do return .boolean (args.any (← get).isTruthy)
  | .sqrt => some (Elementary.sqrt.apply x)
  | .abs => some (Elementary.abs.apply x)
  | .exp => some (Elementary.exp.apply x)
  | .log => some (Elementary.log.apply x)
  | .sin => some (Elementary.sin.apply x)
  | .cos => some (Elementary.cos.apply x)
  | .tan => some (Elementary.tan.apply x)
  | .floor => some (Elementary.floor.apply x)
  | .ceil => some (Elementary.ceil.apply x)
  | .round => some (Elementary.round.apply x)
  | .re => some (Elementary.re.apply x)
  | .im => some (Elementary.im.apply x)
  | .conj => some (Elementary.conj.apply x)
  | .arg => some (Elementary.arg.apply x)
  | .size => some do return size (← get) x
  | .transpose => some (return transpose x)
  | .zeros => some (return zeros args)
  | .ones => some (return ones args)
  | .eye => some (return eye args)
  | .zip => some (zip x (args.getD 1 .null))
  | .sum => some do sum (← collectionOf args)
  | .min => some do extreme Operator.less (← collectionOf args)
  | .max => some do extreme Operator.greater (← collectionOf args)
  | .sort => some (sort x)
  | .values => some (values x)
  | .length => some do return .real (Float.ofNat (length (← get) x))
  | .first => some do return first (← get) x
  | .last => some do return last (← get) x
  | .string => some do return .string ((← get).textOf x)
  | .number => some (return toNumber x)
  | .upper => some (onTexts Text.toUpper x)
  | .lower => some (onTexts Text.toLower x)
  | .concat => some (join args)
  | .typeOf => some (return .string x.kind.name)
  | _ => none

/-- Run a built-in function. -/
def run (call : Caller) (function : Builtin) (args : List Value) : Eval Value := do
  let x := args.getD 0 .null
  let y := args.getD 1 .null
  match function with
  | .map => mapEach call x y
  | .reduce => reduce call x y (args.getD 2 .null)
  | .filter => filter call x y
  | .anyOf => anyOf call x y
  | .allOf => allOf call x y
  | .raise => throw (.exception { value := x })
  | .rescue => rescue call x
  | .sleep => sleep x
  | .resolve => resolve x
  | .range => orCrash (range args)
  | .keys => keys x
  | .formatNumber =>
      match formatNumber x y with
      | .ok value => return value
      | .error fault => throw (.host fault)
  | function =>
      match pure? function args with
      | some action => follow action
      | none => return .null

end Reckon.Library
