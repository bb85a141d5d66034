import Reckon.Tree.Basic
import Reckon.Value.Builtin
import Reckon.Value.Future
import Reckon.Value.Record

/-!
# The store

Maps, functions and futures live in a store, where programs and the host can change them. A function
is some code together with the arguments that are bound already; it runs once it has as many
arguments as its threshold asks for.
-/

namespace Reckon

/-- The functions a host can provide. -/
inductive Native where
  /-- Returns its arguments as an array. -/
  | collect
  /-- Fails with a message. -/
  | fail (message : String)
  /-- Throws a message. -/
  | throwMessage (message : String)
  /-- Cancels the run. -/
  | cancel
  /-- Starts an operation that ends with the first argument. -/
  | start
  /-- Starts an operation that fails with a message. -/
  | startFailing (message : String)
  /-- Returns a value or an error that depends on its arguments. -/
  | answer (reply : List Value → Outcome)
deriving Inhabited

/-- What a function does. -/
inductive Code where
  /-- A built-in function. -/
  | builtin (function : Builtin)
  /-- Prints its arguments where a realm prints. -/
  | print (realm : Nat)
  /-- A function of the host. -/
  | native (function : Native)
  /-- A function of the program, with the realm and the activation it was created in. -/
  | closure (realm parent : Nat) (static : Option FrameId) (params : List String) (body : Body)
deriving Inhabited

/-- A function with its bound arguments. -/
structure Function where
  /-- The name, empty if it has none. -/
  name : String
  /-- The names of the parameters. -/
  params : List String
  /-- The number of arguments it needs. -/
  threshold : Int
  /-- What it does. -/
  code : Code
  /-- The arguments that are bound. -/
  bound : List Value := []
deriving Inhabited

namespace Function

/-- A built-in function without bound arguments. -/
def ofBuiltin (function : Builtin) : Function where
  name := function.name
  params := function.params
  threshold := function.threshold
  code := .builtin function

/-- A function of the host. -/
def ofNative (function : Native) : Function where
  name := ""
  params := []
  threshold := 0
  code := .native function

/-- The function with more bound arguments. -/
def bind (function : Function) (args : List Value) : Function :=
  { function with bound := function.bound ++ args }

/-- The names of the parameters that are not bound. -/
def remaining (function : Function) : List String :=
  function.params.drop function.bound.length

/-- The head of a function as it is shown. -/
def render (function : Function) : String :=
  "function" ++ (if function.name == "" then "" else " " ++ function.name) ++ "(" ++
    ", ".intercalate function.remaining ++ ")"

end Function

/-- The store. -/
structure Store where
  /-- The maps. -/
  maps : Array Record := #[]
  /-- The functions that are not built in. -/
  functions : Array Function := #[]
  /-- The futures. -/
  futures : Array Future := #[]
deriving Inhabited

namespace Store

/-- The contents of a map. -/
def record (store : Store) (ref : MapRef) : Record :=
  store.maps.getD ref.index {}

/-- A function. -/
def function (store : Store) (ref : FunctionRef) : Function :=
  match ref with
  | .builtin function => .ofBuiltin function
  | .stored index => store.functions.getD index default

/-- A future. -/
def future (store : Store) (ref : FutureRef) : Future :=
  store.futures.getD ref.index default

/-- Put a new map into the store. -/
def newMap (store : Store) (record : Record) : MapRef × Store :=
  (⟨store.maps.size⟩, { store with maps := store.maps.push record })

/-- Put a new function into the store. -/
def newFunction (store : Store) (function : Function) : FunctionRef × Store :=
  (.stored store.functions.size, { store with functions := store.functions.push function })

/-- Put a new future into the store. -/
def newFuture (store : Store) (future : Future) : FutureRef × Store :=
  (⟨store.futures.size⟩, { store with futures := store.futures.push future })

/-- Change a map. -/
def modifyMap (store : Store) (ref : MapRef) (change : Record → Record) : Store :=
  { store with maps := store.maps.modify ref.index change }

/-- Replace a future. -/
def setFuture (store : Store) (ref : FutureRef) (future : Future) : Store :=
  { store with futures := store.futures.setIfInBounds ref.index future }

/-- Give a function a name, if it has none. -/
def nameFunction (store : Store) (value : Value) (name : String) : Store :=
  match value with
  | .function (.stored index) =>
      { store with
        functions := store.functions.modify index fun function =>
          if function.name == "" then { function with name } else function }
  | _ => store

/-- A bound on how deep maps can be nested in maps, unless one holds itself. -/
def nesting (store : Store) : Nat :=
  store.maps.size + 1

/-- A bound on how deep two values can be followed into their maps side by side, unless that has no
end. -/
def pairing (store : Store) : Nat :=
  store.nesting * store.nesting

end Store

end Reckon
