import Reckon.Session.Apply
import Reckon.Tree.Parser
import Reckon.Value.Host

/-!
# Sessions

A session runs programs against one set of global variables. What fails is reported with the place
or the request it belongs to; the changes that were made until then stay.
-/

namespace Reckon

/-- A session. -/
structure Session where
  /-- The state of the running program. -/
  machine : Machine
  /-- The number of sources that were parsed. -/
  sources : Nat := 0
deriving Inhabited

/-- The session under another context. -/
def Session.withContext (session : Session) (context : Context) : Session :=
  { session with machine := { session.machine with context } }

/-- A request to a session. -/
abbrev SessionM := EStateM Report Session

namespace SessionM

/-- Do something with the machine, and turn a failure into a report. -/
def reporting {α : Type} (report : Failure → Report) (action : Eval α) : SessionM α :=
  fun session =>
  match action session.machine with
  | .ok result machine => .ok result { session with machine }
  | .error failure machine => .error (report failure) { session with machine }

/-- Do something with the store. -/
def onStore {α : Type} (action : StoreM α) : SessionM α :=
  modifyGet fun session =>
    let (result, store) := action.run session.machine.store
    (result, { session with machine := { session.machine with store } })

/-- Fail with a fault of the host. -/
def refuse {α : Type} (fault : HostFault) : SessionM α :=
  throw (.ofHost fault)

/-- The number of the next source. -/
def newSource : SessionM Nat :=
  modifyGet fun session => (session.sources, { session with sources := session.sources + 1 })

/-- Do something under a context, and return to the context before, whether it failed or not. -/
def under {α : Type} (context : Context) (action : SessionM α) : SessionM α := fun session =>
  match action (session.withContext context) with
  | .ok result after => .ok result (after.withContext session.machine.context)
  | .error report after => .error report (after.withContext session.machine.context)

end SessionM

namespace Session

open SessionM

/-- The function that prints where a realm prints. -/
def printFunction (realm : Nat) : Function where
  name := "print"
  params := ["values"]
  threshold := 0
  code := .print realm

/-- Bind a global variable. -/
def bind (session : Session) (name : String) (value : Value) : Session :=
  let machine := session.machine
  { session with machine := { machine with arena := machine.arena.set 0 name value } }

/-- A session in which nothing but the built-in functions and `print` is bound. -/
def new (maxDepth : Int) (output : Output) (store : Store) : Session :=
  let (print, store) := store.newFunction (printFunction 0)
  bind { machine := { store, maxDepth, output } } "print" (.function print)

/-- The usual bound on the depth of calls. -/
def usualDepth : Int := 2048

/-- Start a request: whether it is cancelled from the start, with nothing printed yet. -/
def start (session : Session) (cancelled : Bool) : Session :=
  let machine := session.machine
  let output :=
    match machine.output with
    | .text _ => Output.text ""
    | broken => broken
  { session with machine := { machine with context := { cancelled }, output } }

/-- What was printed since the request started. -/
def printed (session : Session) : String :=
  match session.machine.output with
  | .text printed => printed
  | .broken _ => ""

/-- The value bound to a global name, built-in ones included. -/
def lookup? (session : Session) (name : String) : Option Value :=
  match (session.machine.arena.bindings 0).get? name with
  | some value => some value
  | none => Builtin.lookup? name

/-- Every global name, in order. -/
def names (session : Session) : List String :=
  Eval.uniqueSorted (session.machine.arena.visible 0 ++ Builtin.names)

/-- The global names that match a text, best first. -/
def complete (session : Session) (text : String) : List String :=
  Text.completions text session.names

/-- Whether the value of a statement is a result of the program. -/
def isResult : Stmt → Bool
  | .expr _ => true
  | _ => false

/-- Execute statements. The result is the value of the last expression statement, or what the
program returned. -/
def execFrom (last : Value) : List Stmt → SessionM Value
  | [] => return last
  | statement :: rest => do
    reporting (fun failure => { failure }) Eval.checkCancelled
    let completion ← reporting (.atPosition statement.span.start) (statement.exec Eval.apply)
    match completion with
    | .returned value => return value
    | .exitLoop | .nextRound => execFrom last rest
    | .normal value => execFrom (if isResult statement then value else last) rest

/-- Execute a program. -/
def exec (statements : List Stmt) : SessionM Value :=
  execFrom .null statements

/-- Parse and execute a source. -/
def run (file : String) (source : List UInt8) : SessionM Value := do
  exec (parseProgram (← newSource) file source)

/-- Evaluate an expression. -/
def evalTree (tree : Expr) : SessionM Value := do
  reporting (fun failure => { failure }) Eval.checkCancelled
  reporting (.atPosition tree.span.start) (tree.eval Eval.apply)

/-- Parse and evaluate an expression. -/
def eval (text : String) : SessionM Value := do
  evalTree (parseExpression (← newSource) text)

/-- Call a value with values. -/
def callValue (callee : Value) (args : List Value) : SessionM Value :=
  reporting (fun failure => { failure }) (Eval.call Eval.apply callee args)

/-- A new realm in which nothing but the built-in functions and `print` is bound. -/
def newRealm : SessionM Nat :=
  modifyGet fun session =>
    let machine := session.machine
    let realm := machine.parked.size
    let (print, store) := machine.store.newFunction (printFunction realm)
    let fresh : Realm := { arena := Arena.set {} 0 "print" (.function print) }
    (realm, { session with machine := { machine with store, parked := machine.parked.push fresh } })

/-- Evaluate an expression in a realm of its own, in which the functions it creates go on to run. -/
def evalApart (text : String) : SessionM Value := do
  let realm ← newRealm
  let tree := parseExpression (← newSource) text
  reporting (.atPosition tree.span.start) (Eval.inRealm realm (tree.eval Eval.apply))

/-- Convert a value of the host, saying what it is for if that fails. -/
def convertFor (context : String) (value : HostValue) : SessionM Value := do
  match ← onStore value.convert with
  | .ok value => return value
  | .error fault => refuse (fault.during context)

/-- Call a global function with values of the host. -/
def call (name : String) (args : List HostValue) : SessionM Value := do
  match (← get).lookup? name with
  | none => refuse { root := "calx: " ++ name ++ " is not defined" }
  | some function =>
      let values ← args.zipIdx.mapM fun (arg, index) =>
        convertFor ("calx: argument " ++ toString (index + 1) ++ " of " ++ name) arg
      callValue function values

/-- Bind a global variable to a value of the host. A function without a name gets this one. -/
def define (name : String) (value : HostValue) : SessionM Value := do
  let value ← convertFor ("calx: define " ++ name) value
  onStore (modify fun store => store.nameFunction value name)
  modify fun session => session.bind name value
  return value

/-- Complete the future that is bound to a name. -/
def settle (name : String) (outcome : Outcome) : SessionM Unit := do
  match (← get).lookup? name with
  | some (.future ref) =>
      match ((← get).machine.store.future ref).complete outcome with
      | .ok (next, _) => onStore (modify fun store => store.setFuture ref next)
      | .error refusal => refuse { root := refusal.message }
  | _ => refuse { root := name ++ " is not a future" }

end Session

end Reckon
