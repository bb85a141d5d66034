import Reckon.Source.Position

/-!
# Scopes during parsing

While a source is parsed, the functions around the current place form a chain of frames. Each frame
knows the frame around it and the names its function declares: parameters, `let` names and loop
variables. Outside every function there is no frame, and names are global.
-/

namespace Reckon

/-- The frame of one function of one source. Sources of a session are numbered, and so are the
functions of a source, in the order in which their bodies are entered. -/
structure FrameId where
  /-- The number of the source. -/
  source : Nat
  /-- The number of the function in the source. -/
  index : Nat
deriving DecidableEq, Repr, Inhabited

/-!
## Names in a syntax tree

A variable is a name that is looked up when the program runs. If a function around it declares the
name, the variable is tagged with the frame of that function.
-/

/-- A name that is looked up. -/
structure Variable where
  /-- Where it stands. -/
  span : Span
  /-- The name. -/
  name : String
  /-- The frame of the function that declares the name, if one does. -/
  frame : Option FrameId
deriving DecidableEq, Repr, Inhabited

/-- A name that stands for itself: a member selector or a markup tag. -/
structure Identifier where
  /-- Where it stands. -/
  span : Span
  /-- The name. -/
  name : String
deriving DecidableEq, Repr, Inhabited

/-! ## Frames -/

/-- The names one function declares. -/
structure Frame where
  /-- The frame of the function around it. -/
  parent : Option FrameId
  /-- The declared names, each with the variable that declares it. -/
  declarations : List (String × Variable) := []
deriving Repr, Inhabited

namespace Frame

/-- Declare a name. A name declared before gets a new declaration. -/
def declare (frame : Frame) (name : String) (declaration : Variable) : Frame :=
  { frame with
    declarations := (name, declaration) :: frame.declarations.filter fun entry => entry.1 != name }

/-- The declaration of a name in this frame. -/
def find? (frame : Frame) (name : String) : Option Variable :=
  (frame.declarations.find? fun entry => entry.1 == name).map Prod.snd

/-- The declared names in order. -/
def names (frame : Frame) : List String :=
  (frame.declarations.map Prod.fst).mergeSort

theorem find?_declare_self (frame : Frame) (name : String) (declaration : Variable) :
    (frame.declare name declaration).find? name = some declaration := by
  simp [declare, find?]

theorem find?_declare_of_ne (frame : Frame) {name other : String} (declaration : Variable)
    (different : other ≠ name) :
    (frame.declare name declaration).find? other = frame.find? other := by
  have head : (name == other) = false := by simp [different.symm]
  have rest (entries : List (String × Variable)) :
      (entries.filter fun entry => entry.1 != name).find? (fun entry => entry.1 == other) =
        entries.find? fun entry => entry.1 == other := by
    induction entries with
    | nil => rfl
    | cons entry entries ih =>
        by_cases same : entry.1 = name
        · simp [same, different.symm, ih]
        · simp [same, List.find?_cons, ih]
  simp [declare, find?, head, rest]

end Frame

/-- The frames of a source as far as it has been parsed, and the current one. -/
structure Scope where
  /-- The number of the source. -/
  source : Nat := 0
  /-- Every frame so far, in the order in which they were entered. -/
  frames : Array Frame := #[]
  /-- The frame of the innermost function around the current place. -/
  current : Option FrameId := none
deriving Repr, Inhabited

namespace Scope

/-- The frame with an identifier, if it belongs to this source. -/
def frame? (scope : Scope) (id : FrameId) : Option Frame :=
  if id.source = scope.source then scope.frames[id.index]? else none

/-- Enter a new function. -/
def push (scope : Scope) : FrameId × Scope :=
  let id : FrameId := ⟨scope.source, scope.frames.size⟩
  (id, { scope with frames := scope.frames.push { parent := scope.current }, current := some id })

/-- Leave the current function; outside every function nothing happens. -/
def pop (scope : Scope) : Option FrameId × Scope :=
  match scope.current with
  | none => (none, scope)
  | some id => (some id, { scope with current := (scope.frame? id).bind Frame.parent })

/-- Declare a name in the current frame; outside every function nothing happens. -/
def declare (scope : Scope) (name : String) (declaration : Variable) : Scope :=
  match scope.current with
  | none => scope
  | some id =>
      { scope with
        frames := scope.frames.modify id.index fun frame => frame.declare name declaration }

/-- The current place stays in its function. -/
theorem current_declare (scope : Scope) (name : String) (declaration : Variable) :
    (scope.declare name declaration).current = scope.current := by
  unfold declare
  split <;> rfl

/-- The frames from `start` outwards. The first argument bounds their number. -/
def chainFrom (scope : Scope) : Nat → Option FrameId → List (FrameId × Frame)
  | 0, _ => []
  | _ + 1, none => []
  | bound + 1, some id =>
      match scope.frame? id with
      | none => []
      | some frame => (id, frame) :: scope.chainFrom bound frame.parent

/-- The frames around the current place, innermost first. -/
def chain (scope : Scope) : List (FrameId × Frame) :=
  scope.chainFrom scope.frames.size scope.current

/-- The innermost frame around the current place that declares a name. -/
def find? (scope : Scope) (name : String) : Option FrameId :=
  (scope.chain.find? fun entry => (entry.2.find? name).isSome).map Prod.fst

/-- The number of frames around a frame. -/
def depth (scope : Scope) (id : FrameId) : Nat :=
  (scope.chainFrom scope.frames.size (some id)).length - 1

/-- The names a frame declares, in order. -/
def names (scope : Scope) (id : FrameId) : List String :=
  ((scope.frame? id).map Frame.names).getD []

end Scope

end Reckon
