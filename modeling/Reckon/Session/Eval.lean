import Reckon.Session.Machine
import Reckon.Tree.Node

/-!
# Evaluating trees

Expressions are evaluated and statements are executed by recursion on the tree. How functions are
applied is a parameter, so that everything here ends because trees are finite; loops are bounded by
a number of rounds that no run can reach.
-/

namespace Reckon

/-- How a statement ended. -/
inductive Completion where
  /-- By itself; the value is that of an expression statement. -/
  | normal (value : Value)
  /-- With `break`. -/
  | exitLoop
  /-- With `continue`. -/
  | nextRound
  /-- With `return`. -/
  | returned (value : Value)
deriving Inhabited

/-- How functions are applied to arguments. -/
abbrev Applier := FunctionRef → List Value → Eval Value

namespace Eval

/-! ## Calls and indexing -/

/-- The greatest index. -/
def indexLimit : Nat := Nat.pow 2 31 - 1

/-- A value as an index: a whole number that is not negative and not too large. -/
def index? (value : Value) : Option Nat :=
  match value.asReal? with
  | none => none
  | some x =>
      match Decimal.toInt? x with
      | some n => if 0 ≤ n ∧ n ≤ indexLimit then some n.toNat else none
      | none => none

/-- A cell or null. -/
def cellOrNull : Option Number → Value
  | some cell => .number cell
  | none => .null

/-- Read a cell of a matrix by one index, row by row, or by row and column. -/
def indexMatrix (matrix : Matrix) (args : List Value) : Except Crash Value :=
  match args.map index? with
  | [some index] => .ok (cellOrNull (matrix.index? index))
  | [some row, some col] => (matrix.at? row col).map cellOrNull
  | _ => .ok .null

/-- Read a character of a string. -/
def indexString (text : String) (args : List Value) : Value :=
  match args.map index? with
  | [some index] =>
      match text.toList[index]? with
      | some c => .string (String.singleton c)
      | none => .null
  | _ => .null

/-- Call a value. Functions are applied; matrices, maps and strings are indexed; calling anything
else gives null. A fault of the host becomes an exception that names the function. -/
def call (apply : Applier) (callee : Value) (args : List Value) : Eval Value := do
  checkCancelled
  match callee with
  | .function ref => mapFailure (.calling ((← store).function ref).name) (apply ref args)
  | .matrix matrix => orCrash (indexMatrix matrix args)
  | .map ref =>
      match args with
      | [key] => return ((← store).record ref |>.get? (← textOf key)).getD .null
      | _ => return .null
  | .string text => return indexString text args
  | _ => return .null

/-- What waiting for a future gives when it is completed. -/
def delivered : Outcome → Eval Value
  | .ok result => return result
  | .error error => throw (error.failure.calling "await")

/-- Replace a future. -/
def setFuture (ref : FutureRef) (future : Future) : Eval Unit :=
  modify fun machine => { machine with store := machine.store.setFuture ref future }

/-- The outcome of a future, for which nothing else may wait. An operation in progress takes a while,
in which the context may be cancelled. -/
def outcomeOf (ref : FutureRef) (future : Future) : Eval Value :=
  match future.register 0 with
  | .error refusal => throw (Failure.host { root := refusal.message } |>.calling "await")
  | .ok (next, due) => do
    setFuture ref next
    match due, next with
    | some outcome, _ => delivered outcome
    | none, .running _ outcome =>
        checkCancelled
        setFuture ref (.done outcome)
        delivered outcome
    | none, _ => waitForever

/-- Wait for a future; any other value is there already. -/
def await (value : Value) : Eval Value := do
  match value with
  | .future ref =>
      let future := (← store).future ref
      if future.isEnding then checkCancelled
      outcomeOf ref future
  | value => return value

/-! ## Parts of expressions -/

/-- The value of a literal. -/
def literal : Literal → Value
  | .null => .null
  | .number x => .real x
  | .string text => .string text
  | .boolean truth => .boolean truth

/-- An operator on two values. -/
def binary (op : BinaryOp) (x y : Value) : FollowM Value :=
  match op with
  | .equal => Operator.equal x y
  | .notEqual => Operator.notEqual x y
  | .less => Operator.less.apply x y
  | .lessEqual => Operator.lessEqual.apply x y
  | .greater => Operator.greater.apply x y
  | .greaterEqual => Operator.greaterEqual.apply x y
  | .add => Operator.add.apply x y
  | .subtract => Operator.subtract.apply x y
  | .multiply => Operator.multiply.apply x y
  | .divide => Operator.divide.apply x y
  | .remainder => Operator.remainder.apply x y
  | .power => Operator.power.apply x y
  | .pipe | .or | .and => return .null

/-- Whether the result of an operator is computed from the values of its operands. The other operators
choose what they evaluate, or call a function. -/
def isComputed : BinaryOp → Bool
  | .pipe | .or | .and => false
  | _ => true

/-- The result of an operator that is computed from two values. -/
def compute (op : BinaryOp) (x y : Value) : Eval Value :=
  if isComputed op then follow (binary op x y)
  else throw (.unsupported ("unsupported operator " ++ op.symbol))

/-- The operators that are computed from one value. -/
def prefixOperation? : UnaryOp → Option (Value → FollowM Value)
  | .negate => some Operator.negate
  | .plus => some Operator.plus
  | .not => some Operator.not
  | .await => none

/-- An operator on one value. -/
def unary (op : UnaryOp) (x : Value) : Eval Value :=
  match op, prefixOperation? op with
  | .await, _ => await x
  | _, some operation => follow (operation x)
  | _, none => throw (.unsupported ("unsupported prefix operator " ++ op.symbol))

/-- The cells that a value contributes to a row of a matrix literal: a row vector contributes its
cells, anything else itself. -/
def spliced (value : Value) : List Value :=
  match value with
  | .matrix matrix => if matrix.rows = 1 then matrix.values else [value]
  | value => [value]

/-- The value of a matrix literal: a matrix if all cells are numeric and all rows have the same
length, otherwise an array, of arrays if there are several rows. -/
def matrixLiteral (rows : List (List Value)) : StoreM Value := do
  let rows := rows.map fun row => row.flatMap spliced
  match rows with
  | [] => return .matrix ⟨0, 0, #[]⟩
  | first :: rest =>
      let numeric := rows.all (·.all Value.isNumeric) && rest.all (·.length == first.length)
      let whole := if numeric then Matrix.ofValues? rows.length first.length rows.flatten else none
      match whole, rest with
      | some matrix, _ => return .matrix matrix
      | none, [] => StoreM.newArray first
      | none, _ => StoreM.newArray (← rows.mapM StoreM.newArray)

/-- Fixed parts with texts between them. -/
def interleave : List String → List String → String
  | part :: parts, text :: texts => part ++ text ++ interleave parts texts
  | parts, _ => String.join parts

/-- The element with a tag, attributes and children. A component that is a function is called with
the attributes and the children. -/
def element (apply : Applier) (isComponent : Bool) (tag attributes children : Value) :
    Eval Value := do
  match isComponent, tag with
  | true, .function _ => call apply tag [attributes, children]
  | _, _ =>
      newMap (.ofEntries [("tag", tag), ("props", attributes), ("children", children)])

/-- Set an entry of a map. -/
def setMember (owner : Value) (key : String) (value : Value) : Eval Unit := do
  match owner with
  | .map ref =>
      modify fun machine =>
        { machine with store := machine.store.modifyMap ref fun record => record.set key value }
  | owner => throw (.raise ("cannot set property " ++ key ++ " of " ++ owner.kind.name))

/-- The failure of assigning to something that cannot be assigned to. -/
def notAssignable (target : Expr) : Failure :=
  .raise ("cannot assign to *syntax." ++ (Node.expr target).kind)

/-- The parameters of a definition `f(x, y) = body`. Every one must be a name. -/
def definitionParams (args : List Expr) : Except Failure (List String) :=
  args.zipIdx.mapM fun
    | (.var name, _) => .ok name.name
    | (_, index) =>
        .error (.raise
          ("parameter " ++ toString (index + 1) ++ " of function definition is not a name"))

/-- The name a definition gives to its function. -/
def definitionName : Expr → String
  | .var name => name.name
  | .member _ _ selector => selector.name
  | _ => ""

/-- The function that a definition `callee(args) = body` makes. -/
def definition (callee : Expr) (args : List Expr) (body : Expr) : Eval Value := do
  match definitionParams args with
  | .error failure => throw failure
  | .ok params => newClosure (definitionName callee) params none (.expr body)

/-! ## Loops -/

/-- More rounds than any run can make. -/
def roundLimit : Nat := Nat.pow 2 62

/-- Repeat a body while a test is true, at most a number of times. -/
def repeatWhile (test : Eval Value) (body : Eval Completion) : Nat → Eval Completion
  | 0 => throw .exhausted
  | rounds + 1 => do
    checkCancelled
    if ← isTruthy (← test) then
      match ← body with
      | .returned value => return .returned value
      | .exitLoop => return .normal .null
      | .normal _ | .nextRound => repeatWhile test body rounds
    else
      return .normal .null

/-- The keys and values a `for` loop goes through. A plain value is visited once, null never. -/
def loopItems (store : Store) : Value → List (Value × Value)
  | .null => []
  | .matrix matrix =>
      matrix.values.zipIdx.map fun (value, index) => (.real (Float.ofNat index), value)
  | .map ref => (store.record ref).entries.map fun (key, value) => (.string key, value)
  | .string text =>
      text.toList.zipIdx.map fun (c, index) =>
        (.real (Float.ofNat index), .string (String.singleton c))
  | value => [(.real 0, value)]

/-- Run the body of a `for` loop for each item. -/
def forEach (key : Option Variable) (value : Variable) (body : Eval Completion) :
    List (Value × Value) → Eval Completion
  | [] => return .normal .null
  | (itemKey, item) :: rest => do
    checkCancelled
    if let some key := key then declareVariable key itemKey
    declareVariable value item
    match ← body with
    | .returned result => return .returned result
    | .exitLoop => return .normal .null
    | .normal _ | .nextRound => forEach key value body rest

end Eval

/-! ## Trees -/

open Eval

mutual

/-- Evaluate an expression. -/
def Expr.eval (apply : Applier) : Expr → Eval Value
  | .empty _ => return .null
  | .invalid span defect => throw (.malformed ⟨defect, span⟩)
  | .constant _ value => return literal value
  | .var name => readVariable name
  | .identifier _ => return .null
  | .binary _ .and left right _ => do
    if ← isTruthy (← left.eval apply) then
      return .boolean (← isTruthy (← right.eval apply))
    else
      return .boolean false
  | .binary _ .or left right _ => do
    if ← isTruthy (← left.eval apply) then
      return .boolean true
    else
      return .boolean (← isTruthy (← right.eval apply))
  | .binary _ .pipe left right _ => do
    let x ← left.eval apply
    let f ← right.eval apply
    call apply f [x]
  | .binary _ op left right _ => do
    let x ← left.eval apply
    let y ← right.eval apply
    compute op x y
  | .unary _ op operand => do unary op (← operand.eval apply)
  | .factorial _ operand => do follow (Operator.factorial (← operand.eval apply))
  | .range _ first none last => do
    let a ← first.eval apply
    let b ← last.eval apply
    orCrash (Operator.range a .null b)
  | .range _ first (some step) last => do
    let a ← first.eval apply
    let s ← step.eval apply
    let b ← last.eval apply
    orCrash (Operator.range a s b)
  | .conditional _ test whenTrue whenFalse => do
    if ← isTruthy (← test.eval apply) then whenTrue.eval apply else whenFalse.eval apply
  | .call _ callee args => do
    let f ← callee.eval apply
    let values ← Expr.evalAll apply args
    call apply f values
  | .arguments _ items => do
    match ← Expr.evalAll apply items with
    | [] => return .null
    | [value] => return value
    | values => newArray values
  | .matrix _ rows => do onStore (matrixLiteral (← Expr.evalRows apply rows))
  | .object _ entries => do newMap (.ofEntries (← Entry.evalAll apply entries))
  | .function _ frame params body => newClosure "" (params.map Variable.name) (some frame) body
  | .member _ owner selector => do
    match ← owner.eval apply with
    | .map ref => return ((← store).record ref |>.get? selector.name).getD .null
    | _ => return .null
  | .assignment _ (.var name) value => do
    let result ← value.eval apply
    assignVariable name result
    return result
  | .assignment _ (.member _ owner selector) value => do
    let result ← value.eval apply
    setMember (← owner.eval apply) selector.name result
    return result
  | .assignment _ (.call _ (.var name) args) body => do
    let f ← definition (.var name) args body
    assignVariable name f
    return f
  | .assignment _ (.call _ (.member span owner selector) args) body => do
    let f ← definition (.member span owner selector) args body
    setMember (← owner.eval apply) selector.name f
    return f
  | .assignment _ (.call _ (.invalid span defect) args) body => do
    let _ ← definition (.invalid span defect) args body
    throw (.malformed ⟨defect, span⟩)
  | .assignment _ (.call _ callee args) body => do
    let _ ← definition callee args body
    throw (notAssignable callee)
  | .assignment _ (.invalid span defect) value => do
    let _ ← value.eval apply
    throw (.malformed ⟨defect, span⟩)
  | .assignment _ target value => do
    let _ ← value.eval apply
    throw (notAssignable target)
  | .interpolated _ parts replacements => do
    return .string (interleave parts (← Expr.evalTexts apply replacements))
  | .markup _ tag attributes children => do
    let props ← newMap (.ofEntries (← Entry.evalAll apply attributes))
    let list ← newArray (← Expr.evalAll apply children)
    match tag with
    | .identifier name => element apply false (.string name.name) props list
    | component => element apply true (← component.eval apply) props list

/-- Evaluate expressions in order. -/
def Expr.evalAll (apply : Applier) : List Expr → Eval (List Value)
  | [] => return []
  | first :: rest => do
    let value ← first.eval apply
    return value :: (← Expr.evalAll apply rest)

/-- Evaluate the rows of a matrix literal. -/
def Expr.evalRows (apply : Applier) : List (List Expr) → Eval (List (List Value))
  | [] => return []
  | row :: rest => do
    let values ← Expr.evalAll apply row
    return values :: (← Expr.evalRows apply rest)

/-- Evaluate expressions in order, and turn each value into text at once. -/
def Expr.evalTexts (apply : Applier) : List Expr → Eval (List String)
  | [] => return []
  | first :: rest => do
    let text ← textOf (← first.eval apply)
    return text :: (← Expr.evalTexts apply rest)

/-- Evaluate the entries of an object or the attributes of an element. -/
def Entry.evalAll (apply : Applier) : List Entry → Eval (List (String × Value))
  | [] => return []
  | .property _ key value :: rest => do
    let value ← value.eval apply
    return (key, value) :: (← Entry.evalAll apply rest)
  | .invalid span defect :: _ => throw (.malformed ⟨defect, span⟩)

end

mutual

/-- Execute a statement. -/
def Stmt.exec (apply : Applier) : Stmt → Eval Completion
  | .expr value => return .normal (← value.eval apply)
  | .block (.mk _ statements) => Stmt.execAll apply statements
  | .ifThen _ test (.mk _ statements) none => do
    if ← isTruthy (← test.eval apply) then Stmt.execAll apply statements
    else return .normal .null
  | .ifThen _ test (.mk _ statements) (some whenFalse) => do
    if ← isTruthy (← test.eval apply) then Stmt.execAll apply statements
    else whenFalse.exec apply
  | .whileDo _ test (.mk _ statements) =>
      repeatWhile (test.eval apply) (Stmt.execAll apply statements) roundLimit
  | .forIn _ key value source (.mk _ statements) => do
    let collection ← source.eval apply
    match value with
    | none => return .normal .null
    | some value =>
        forEach key value (Stmt.execAll apply statements) (loopItems (← store) collection)
  | .returnValue _ none => return .returned .null
  | .returnValue _ (some result) => return .returned (← result.eval apply)
  | .jump _ .exitLoop => return .exitLoop
  | .jump _ .nextRound => return .nextRound
  | .letIn _ name none => do
    declareVariable name .null
    return .normal .null
  | .letIn _ name (some value) => do
    declareVariable name (← value.eval apply)
    return .normal .null

/-- Execute the statements of a block until one does not end by itself. -/
def Stmt.execAll (apply : Applier) : List Stmt → Eval Completion
  | [] => return .normal .null
  | first :: rest => do
    checkCancelled
    match ← first.exec apply with
    | .normal _ => Stmt.execAll apply rest
    | ended => return ended

end

/-- Run the body of a function. The value of a block is what it returns. -/
def Body.run (apply : Applier) : Body → Eval Value
  | .expr value => value.eval apply
  | .block (.mk _ statements) => do
    match ← Stmt.execAll apply statements with
    | .returned value => return value
    | _ => return .null

end Reckon
