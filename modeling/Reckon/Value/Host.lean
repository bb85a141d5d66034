import Reckon.Operator.Cascade

/-!
# Values of the host

What a host can hand to a program, and its conversion to values of the language. Lists become
arrays, dictionaries become maps with their keys in order, and what cannot be converted is a fault
that says where it stands.
-/

namespace Reckon

/-- A value of the host. -/
inductive HostValue where
  /-- Nothing. -/
  | null
  /-- A truth value. -/
  | boolean (value : Bool)
  /-- A text. -/
  | string (value : String)
  /-- A number of any type, as the double nearest to it. -/
  | real (value : Float)
  /-- A complex number. -/
  | complex (value : Complex)
  /-- A list. -/
  | list (items : List HostValue)
  /-- A dictionary from texts. -/
  | dictionary (entries : List (String × HostValue))
  /-- A function. -/
  | native (function : Native)
  /-- A future that is not completed. -/
  | future
  /-- A value of the language. -/
  | language (value : Value)
  /-- Something of a type that cannot be converted. -/
  | unsupported (type : String)
  /-- A dictionary whose keys are no texts. -/
  | unsupportedKeys (type : String)
deriving Inhabited

namespace HostValue

/-- The context of a fault in a list. -/
def atIndex (index : Nat) : Except HostFault Value → Except HostFault Value :=
  Except.mapError (·.during ("index " ++ toString index))

/-- The context of a fault in a dictionary. -/
def atKey (entry : String × Except HostFault Value) : Except HostFault (String × Value) :=
  match entry.2 with
  | .ok value => .ok (entry.1, value)
  | .error fault => .error (fault.during ("key " ++ Text.quote entry.1))

/-- Entries in the order of their keys. -/
def sortByKey {α : Type} (entries : List (String × α)) : List (String × α) :=
  entries.mergeSort fun left right => left.1 ≤ right.1

/-- The map of converted entries, or the first fault by the order of keys. -/
def dictionaryOf (entries : List (String × Except HostFault Value)) :
    StoreM (Except HostFault Value) :=
  match (sortByKey entries).mapM atKey with
  | .ok entries => .ok <$> StoreM.newMap (.ofEntries entries)
  | .error fault => return .error fault

mutual

/-- Convert a value of the host. -/
def convert : HostValue → StoreM (Except HostFault Value)
  | null => return .ok .null
  | boolean truth => return .ok (.boolean truth)
  | string text => return .ok (.string text)
  | real x => return .ok (.real x)
  | complex z => return .ok (.complex z)
  | list items => do
    match ← convertItems 0 items with
    | .ok values => .ok <$> StoreM.newArray values
    | .error fault => return .error fault
  | dictionary entries => do dictionaryOf (← convertEntries entries)
  | native function =>
      modifyGet fun store =>
        let (ref, store) := store.newFunction (.ofNative function)
        (.ok (.function ref), store)
  | future =>
      modifyGet fun store =>
        let (ref, store) := store.newFuture (.pending none)
        (.ok (.future ref), store)
  | language converted => return .ok converted
  | unsupported type => return .error { root := "unsupported host value of type " ++ type }
  | unsupportedKeys type => return .error { root := "unsupported map key type " ++ type }

/-- Convert the items of a list from an index on. The first fault ends the conversion. -/
def convertItems (index : Nat) : List HostValue → StoreM (Except HostFault (List Value))
  | [] => return .ok []
  | first :: rest => do
    match atIndex index (← first.convert) with
    | .error fault => return .error fault
    | .ok value => return (value :: ·) <$> (← convertItems (index + 1) rest)

/-- Convert the values of a dictionary. -/
def convertEntries : List (String × HostValue) → StoreM (List (String × Except HostFault Value))
  | [] => return []
  | (key, first) :: rest => do
    let value ← first.convert
    return (key, value) :: (← convertEntries rest)

end

end HostValue

end Reckon
