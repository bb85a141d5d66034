import Reckon.Scope
import Reckon.Value.Record

/-!
# Activations

The variables of one call of a function make an activation. Activations live in an arena, where each
refers to the activation its function was created in; the first one holds the global variables. An
activation is given back when its call ends, unless a function was created in it.
-/

namespace Reckon

/-- The variables of one call. -/
structure Activation where
  /-- The activation the function was created in; the global one has none. -/
  parent : Option Nat
  /-- The frame of the function in its source; a function defined by an assignment has none. -/
  static : Option FrameId := none
  /-- The variables. -/
  bindings : Record := {}
  /-- Whether a function was created in this activation. -/
  captured : Bool := false
deriving Inhabited

/-- All activations that are in use. -/
structure Arena where
  /-- The activations; the first one is global. -/
  activations : Array Activation := #[{ parent := none }]
deriving Inhabited

namespace Arena

/-- The number of activations. -/
def size (arena : Arena) : Nat :=
  arena.activations.size

/-- The variables of an activation. -/
def bindings (arena : Arena) (index : Nat) : Record :=
  ((arena.activations[index]?).map Activation.bindings).getD {}

/-- Change an activation. -/
def modify (arena : Arena) (index : Nat) (change : Activation → Activation) : Arena :=
  ⟨arena.activations.modify index change⟩

/-- Set a variable of an activation. -/
def set (arena : Arena) (index : Nat) (name : String) (value : Value) : Arena :=
  arena.modify index fun activation =>
    { activation with bindings := activation.bindings.set name value }

/-- Note that a function was created in an activation. -/
def capture (arena : Arena) (index : Nat) : Arena :=
  arena.modify index fun activation => { activation with captured := true }

/-- A new activation, whose index is the number of activations before it. -/
def enter (arena : Arena) (parent : Nat) (static : Option FrameId) (bindings : Record) : Arena :=
  ⟨arena.activations.push { parent := some parent, static, bindings }⟩

/-- Give an activation back, if it is the newest one and nothing refers to it. -/
def release (arena : Arena) (index : Nat) : Arena :=
  if index = 0 ∨ index + 1 ≠ arena.size then arena
  else
    match arena.activations[index]? with
    | some activation => if activation.captured then arena else ⟨arena.activations.pop⟩
    | none => arena

/-- The activations from `index` outwards. The first argument bounds their number. -/
def chainFrom (arena : Arena) : Nat → Nat → List (Nat × Activation)
  | 0, _ => []
  | bound + 1, index =>
      match arena.activations[index]? with
      | none => []
      | some activation =>
          (index, activation) ::
            match activation.parent with
            | none => []
            | some parent => arena.chainFrom bound parent

/-- The activations from `index` outwards. Each was created after the one around it, so there are no
more of them than there are activations. -/
def chain (arena : Arena) (index : Nat) : List (Nat × Activation) :=
  arena.chainFrom arena.size index

/-- The innermost activation that satisfies a test. The first argument bounds the search. -/
def findFrom (arena : Arena) (test : Activation → Bool) : Nat → Nat → Option (Nat × Activation)
  | 0, _ => none
  | bound + 1, index =>
      match arena.activations[index]? with
      | none => none
      | some activation =>
          if test activation then some (index, activation)
          else
            match activation.parent with
            | none => none
            | some parent => arena.findFrom test bound parent

/-- The innermost activation from `index` outwards that satisfies a test. -/
def find? (arena : Arena) (index : Nat) (test : Activation → Bool) : Option (Nat × Activation) :=
  arena.findFrom test arena.size index

/-- The value of a name that no frame declares: the innermost binding from `index` outwards. -/
def lookup? (arena : Arena) (index : Nat) (name : String) : Option Value :=
  (arena.find? index fun activation => activation.bindings.contains name).bind fun found =>
    found.2.bindings.get? name

/-- The activation of a frame that is visible from `index`. Without a frame it is the global one. -/
def owner? (arena : Arena) (index : Nat) (static : Option FrameId) : Option Nat :=
  match static with
  | none => some 0
  | some _ => (arena.find? index fun activation => activation.static == static).map Prod.fst

/-- Set a name that no frame declares: where it is bound from `index` outwards, or globally. -/
def assign (arena : Arena) (index : Nat) (name : String) (value : Value) : Arena :=
  match arena.find? index fun activation => activation.bindings.contains name with
  | some (owner, _) => arena.set owner name value
  | none => arena.set 0 name value

/-- The names that are bound from `index` outwards. -/
def visible (arena : Arena) (index : Nat) : List String :=
  (arena.chain index).flatMap fun entry => entry.2.bindings.keys

end Arena

end Reckon
