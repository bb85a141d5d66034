import Reckon.Library.Run
import Reckon.Session.Eval

/-!
# Applying functions

A function that has too few arguments is returned with those it has; otherwise its code runs. Code
of the program runs in a new activation, which is given back when it ends, whether it failed or
not.
-/

namespace Reckon

namespace Eval

/-- The variables of a call: each parameter with its argument, or null if there is none. -/
def parameterRecord (params : List String) (args : List Value) : Record :=
  params.zipIdx.foldl (fun record (name, index) => record.set name (args.getD index .null)) {}

/-- Run the body of a function of the program in a new activation. -/
def invoke (apply : Applier) (parent : Nat) (static : Option FrameId) (params : List String)
    (body : Body) (args : List Value) : Eval Value := do
  checkCancelled
  let caller := (← get).current
  let depth := (← get).depth
  if (← get).maxDepth ≤ depth then throw .depthExceeded
  let index := (← get).arena.size
  modify fun machine =>
    { machine with
      arena := machine.arena.enter parent static (parameterRecord params args)
      current := index
      depth := depth + 1 }
  cleaningUp (body.run apply) fun machine =>
    { machine with arena := machine.arena.release index, current := caller, depth }

/-- Print values on a line, separated by spaces. The last one is the result. -/
def print (args : List Value) : Eval Value := do
  let texts ← args.mapM textOf
  printLine (" ".intercalate texts)
  return args.getLast?.getD .null

/-- Run a function of the host. -/
def runNative (function : Native) (args : List Value) : Eval Value := do
  match function with
  | .collect => newArray args
  | .fail message => throw (.host { root := message })
  | .throwMessage message => throw (.raise message)
  | .cancel => do
    modify Machine.cancel
    return .real 0
  | .start => newFuture (.ending (.ok (args.head?.getD .null)))
  | .startFailing message => newFuture (.ending (.error (.fault { root := message })))
  | .answer reply =>
      match reply args with
      | .ok value => return value
      | .error error => throw error.failure

/-- Call a value from a built-in function. Calling what is no function gives null. -/
def callFunction (apply : Applier) : Library.Caller
  | .function ref, args => apply ref args
  | _, _ => return .null

/-- Run the code of a function on all its arguments. -/
def runCode (apply : Applier) (code : Code) (args : List Value) : Eval Value :=
  match code with
  | .builtin function => Library.run (callFunction apply) function args
  | .print realm => inRealm realm (print args)
  | .native function => runNative function args
  | .closure realm parent static params body =>
      inRealm realm (invoke apply parent static params body args)

/-- Apply a function to arguments, given how it applies functions itself. -/
def applyWith (apply : Applier) : Applier := fun ref args => do
  let function := (← store).function ref
  let all := function.bound ++ args
  if (all.length : Int) < function.threshold then
    if args.isEmpty then return .function ref else newFunction (function.bind args)
  else runCode apply function.code all

/-- Apply a function to arguments, with calls nested to a depth. -/
def applyTo : Nat → FunctionRef → List Value → Eval Value
  | 0, _, _ => throw .exhausted
  | depth + 1, ref, args => applyWith (applyTo depth) ref args

/-- More nested calls than any run can make. -/
def nestingLimit : Nat := Nat.pow 2 62

/-- Apply a function to arguments. -/
def apply (ref : FunctionRef) (args : List Value) : Eval Value :=
  applyTo nestingLimit ref args

end Eval

end Reckon
