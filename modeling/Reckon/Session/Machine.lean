import Reckon.Operator.Arithmetic
import Reckon.Session.Arena
import Reckon.Text.Distance

/-!
# The machine

What a running program can change: the store, its realm (the activations, the current activation, the
depth of calls and what was printed), and the context it runs under. A step of a run either gives a
result or fails, and the changes it made so far stay.

A function keeps the realm it was created in. While a function of another realm runs, that realm
takes the place of the one that called it.

A host runs a program under a context, and may cancel the context at any moment. The program notices
when it looks: before a statement, a round of a loop or a call, and while it waits. So all that counts
about the moment is how many looks pass before it. A context that has to tell a run to stop remembers
what the run had written by then.
-/

namespace Reckon

/-- Where printed text goes. -/
inductive Output where
  /-- To a text that grows. -/
  | text (printed : String)
  /-- Nowhere: every attempt fails with a message. -/
  | broken (message : String)
deriving DecidableEq, Repr, Inhabited

/-- What a run has written. -/
structure Progress where
  /-- What was printed, by realm. -/
  output : Nat → Output
  /-- The variables, by realm and activation. -/
  bindings : Nat → Nat → Record
  /-- The contents of the maps. -/
  maps : Array Record

/-- The context of a run. -/
structure Context where
  /-- Whether it is cancelled. -/
  cancelled : Bool := false
  /-- The number of looks that pass before it is cancelled, if it will be. -/
  patience : Option Nat := none
  /-- What had been written whenever it told the run to stop, the last time first. -/
  told : List Progress := []
deriving Inhabited

namespace Context

/-- Whether the run has to stop now. -/
def isDue (context : Context) : Bool :=
  context.cancelled || context.patience == some 0

/-- Whether the run has to stop some time. -/
def willEnd (context : Context) : Bool :=
  context.cancelled || context.patience.isSome

/-- The context after a look that did not find it cancelled. -/
def pass (context : Context) : Context :=
  { context with patience := context.patience.map (· - 1) }

/-- The context after it told a run to stop that has written something. -/
def tell (context : Context) (progress : Progress) : Context :=
  { context with told := progress :: context.told }

end Context

/-- Global variables and what runs against them. -/
structure Realm where
  /-- The activations. -/
  arena : Arena := {}
  /-- The current activation. -/
  current : Nat := 0
  /-- The number of calls of program functions in progress. -/
  depth : Nat := 0
  /-- The greatest number of calls of program functions in progress. -/
  maxDepth : Int := 2048
  /-- What was printed. -/
  output : Output := .text ""
deriving Inhabited

/-- The state of a running program. Its own fields are those of the realm that runs. -/
structure Machine extends Realm where
  /-- Maps, functions and futures. -/
  store : Store := {}
  /-- The number of the realm that runs. The realm of the session is the first. -/
  realm : Nat := 0
  /-- Every realm as it was when it last stopped running. -/
  parked : Array Realm := #[{}]
  /-- The context that the run is under. -/
  context : Context := {}
deriving Inhabited

namespace Machine

/-- The realm with a number, which runs or is parked. -/
def realmAt (machine : Machine) (realm : Nat) : Realm :=
  if realm = machine.realm then machine.toRealm else machine.parked.getD realm {}

/-- What the run has written. -/
def progress (machine : Machine) : Progress where
  output realm := (machine.realmAt realm).output
  bindings realm index := (machine.realmAt realm).arena.bindings index
  maps := machine.store.maps

/-- Whether what runs has to stop now. Only the realm of the session is under the context. -/
def isCancelled (machine : Machine) : Bool :=
  machine.context.isDue && machine.realm == 0

/-- Whether what runs has to stop some time. -/
def willEnd (machine : Machine) : Bool :=
  machine.context.willEnd && machine.realm == 0

/-- Go on after a look at the context. -/
def pass (machine : Machine) : Machine :=
  { machine with context := machine.context.pass }

/-- Be told to stop. -/
def stop (machine : Machine) : Machine :=
  { machine with context := machine.context.tell machine.progress }

/-- Cancel the context. -/
def cancel (machine : Machine) : Machine :=
  { machine with context := { machine.context with cancelled := true } }

/-- Let another realm run. -/
def switchTo (machine : Machine) (realm : Nat) : Machine :=
  let parked := machine.parked.setIfInBounds machine.realm machine.toRealm
  { machine with toRealm := parked.getD realm {}, realm, parked }

end Machine

/-- A computation on the machine that may fail. -/
abbrev Eval := EStateM Failure Machine

namespace Eval

/-- The result of something that may break off. -/
def orCrash {α : Type} : Except Crash α → Eval α
  | .ok result => return result
  | .error crash => throw (.crashed crash)

/-- Do something with the store. -/
def onStore {α : Type} (action : StoreM α) : Eval α :=
  modifyGet fun machine =>
    let (result, store) := action.run machine.store
    (result, { machine with store })

/-- Do something that follows maps. Without an end, it takes longer than any run can. -/
def follow {α : Type} (action : FollowM α) : Eval α := do
  match ← onStore action.run with
  | some result => return result
  | none => throw .exhausted

/-- The store. -/
def store : Eval Store := do
  return (← get).store

/-- Stop because the context is cancelled. -/
def stop {α : Type} : Eval α := do
  modify Machine.stop
  throw .cancelled

/-- Look at the context, and stop if it is cancelled. -/
def checkCancelled : Eval Unit := do
  if (← get).isCancelled then stop else modify Machine.pass

/-- Wait for what never happens, until the context is cancelled. -/
def waitForever {α : Type} : Eval α := do
  if (← get).willEnd then stop else throw .exhausted

/-- Whether a value counts as true. -/
def isTruthy (value : Value) : Eval Bool := do
  return (← store).isTruthy value

/-- A value as text. -/
def textOf (value : Value) : Eval String := do
  return (← store).textOf value

/-- Put a new map into the store. -/
def newMap (record : Record) : Eval Value :=
  onStore (StoreM.newMap record)

/-- Put a new array into the store. -/
def newArray (values : List Value) : Eval Value :=
  onStore (StoreM.newArray values)

/-- Put a new function into the store. -/
def newFunction (function : Function) : Eval Value :=
  onStore (modifyGet fun store =>
    let (ref, store) := store.newFunction function
    (Value.function ref, store))

/-- Put a new future into the store. -/
def newFuture (future : Future) : Eval Value :=
  onStore (modifyGet fun store =>
    let (ref, store) := store.newFuture future
    (Value.future ref, store))

/-- Do something, and then clean up whether it failed or not. -/
def cleaningUp {α : Type} (action : Eval α) (cleanUp : Machine → Machine) : Eval α := fun machine =>
  match action machine with
  | .ok result machine => .ok result (cleanUp machine)
  | .error failure machine => .error failure (cleanUp machine)

/-- Do something in a realm, and return to the one that runs. -/
def inRealm {α : Type} (realm : Nat) (action : Eval α) : Eval α := do
  let caller := (← get).realm
  if realm = caller then action
  else
    modify (·.switchTo realm)
    cleaningUp action (·.switchTo caller)

/-- Do something, and change the failure if it fails. -/
def mapFailure {α : Type} (change : Failure → Failure) (action : Eval α) : Eval α := fun machine =>
  match action machine with
  | .ok result machine => .ok result machine
  | .error failure machine => .error (change failure) machine

/-! ## Variables -/

/-- Names in order, each once. -/
def uniqueSorted (names : List String) : List String :=
  names.mergeSort.eraseReps

/-- Every name that can be read in the current activation. -/
def visibleNames : Eval (List String) := do
  let machine ← get
  return uniqueSorted (machine.arena.visible machine.current ++ Builtin.names)

/-- Read a variable. A tagged variable is read from the activation of its frame. Otherwise, and if
it is not set there, the innermost binding counts, and then the built-in one. -/
def readVariable (name : Variable) : Eval Value := do
  let machine ← get
  let tagged : Option Value :=
    match name.frame with
    | none => none
    | some _ =>
        (machine.arena.owner? machine.current name.frame).bind fun owner =>
          (machine.arena.bindings owner).get? name.name
  match tagged with
  | some value => return value
  | none =>
      match machine.arena.lookup? machine.current name.name with
      | some value => return value
      | none =>
          match Builtin.lookup? name.name with
          | some value => return value
          | none =>
              throw (.unbound name.span.start name.name
                (Text.suggestion? name.name (← visibleNames)))

/-- Assign to a variable: to the activation of its frame if it is tagged, otherwise to the innermost
binding, or else globally. -/
def assignVariable (name : Variable) (value : Value) : Eval Unit :=
  modify fun machine =>
    let owner :=
      match name.frame with
      | none => none
      | some _ => machine.arena.owner? machine.current name.frame
    match owner with
    | some owner => { machine with arena := machine.arena.set owner name.name value }
    | none => { machine with arena := machine.arena.assign machine.current name.name value }

/-- Declare a variable in the activation of its frame. -/
def declareVariable (name : Variable) (value : Value) : Eval Unit :=
  modify fun machine =>
    let owner := (machine.arena.owner? machine.current name.frame).getD machine.current
    { machine with arena := machine.arena.set owner name.name value }

/-- A function of the program, created in the current activation. -/
def newClosure (name : String) (params : List String) (static : Option FrameId) (body : Body) :
    Eval Value := do
  let parent := (← get).current
  let realm := (← get).realm
  modify fun machine => { machine with arena := machine.arena.capture parent }
  newFunction
    { name, params, threshold := params.length, code := .closure realm parent static params body }

/-! ## Printing -/

/-- Print a line. -/
def printLine (line : String) : Eval Unit := do
  let machine ← get
  match machine.output with
  | .text printed => set { machine with output := .text (printed ++ line ++ "\n") }
  | .broken message => throw (.host { contexts := ["print"], root := message })

end Eval

end Reckon
