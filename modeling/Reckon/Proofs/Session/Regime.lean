import Reckon.Proofs.Session.Retag
import Reckon.Proofs.Tree.Children

/-!
# Regimes

A run of a program changes its machine by a few kinds of moves: it extends the store, prints, sets a
variable, creates a function, starts and ends calls, and lets other realms run.  A regime is a family
of properties of machines that all these moves keep, together with a condition on the trees that may
run, and a change of tags that the moves do not notice.  A property of the family is picked by a
world, which knows the calls in progress.

An action keeps a regime if it leads from a machine with a property to one with the same property, and
does the same to machines with changed tags.  If it fails, it fails as the regime allows, which may
depend on the machine that it leaves: a run reports a malformed construct only if it has reached one, and
stops as cancelled only if its context has told it to.  That evaluation keeps every regime is proved
once, by recursion on trees; what runs preserve is then a matter of single moves.
-/

namespace Reckon

/-! ## Moves -/

/-- The realm that code belongs to, if it belongs to one. -/
def Code.home? : Code → Option Nat
  | .print realm => some realm
  | .closure realm .. => some realm
  | _ => none

/-- A later store.  All functions keep their code, and no new code belongs to a realm. -/
structure Store.Extends (before after : Store) : Prop where
  kept : ∀ {index : Nat} {function : Function}, before.functions[index]? = some function →
    ∃ later, after.functions[index]? = some later ∧ later.code = function.code
  added : ∀ function ∈ after.functions, function.code.home? = none ∨
    ∃ earlier ∈ before.functions, earlier.code = function.code

namespace Store

theorem extends_of_functions_eq {before after : Store} (same : after.functions = before.functions) :
    before.Extends after := by
  constructor
  · intro index function found
    exact ⟨function, by rw [same]; exact found, rfl⟩
  · intro function member
    rw [same] at member
    exact .inr ⟨function, member, rfl⟩

theorem Extends.trans {first second third : Store} (before : first.Extends second)
    (after : second.Extends third) : first.Extends third := by
  constructor
  · intro index function found
    obtain ⟨middle, middleFound, sameMiddle⟩ := before.kept found
    obtain ⟨later, laterFound, sameLater⟩ := after.kept middleFound
    exact ⟨later, laterFound, sameLater.trans sameMiddle⟩
  · intro function member
    rcases after.added function member with none | ⟨middle, isMiddle, same⟩
    · exact .inl none
    · rw [← same]
      exact before.added middle isMiddle

theorem extends_newFunction {before : Store} {function : Function}
    (known : function.code.home? = none ∨
      ∃ earlier ∈ before.functions, earlier.code = function.code) :
    before.Extends (before.newFunction function).2 := by
  constructor
  · intro index earlier found
    have inRange : index < before.functions.size := (Array.getElem?_eq_some_iff.mp found).1
    refine ⟨earlier, ?_, rfl⟩
    rw [newFunction, Array.getElem?_push_lt inRange, ← found, Array.getElem?_eq_getElem inRange]
  · intro member isMember
    rw [newFunction, Array.mem_push] at isMember
    rcases isMember with old | rfl
    · exact .inr ⟨member, old, rfl⟩
    · exact known

theorem extends_nameFunction (store : Store) (value : Value) (name : String) :
    store.Extends (store.nameFunction value name) := by
  unfold nameFunction
  split
  · next index =>
    have renamed (function : Function) :
        (if function.name == "" then { function with name } else function).code =
          function.code := by
      split <;> rfl
    constructor
    · intro place function found
      by_cases same : index = place
      · refine ⟨_, ?_, renamed function⟩
        rw [Array.getElem?_modify, if_pos same, found]
        rfl
      · refine ⟨function, ?_, rfl⟩
        rw [Array.getElem?_modify, if_neg same, found]
    · intro function member
      obtain ⟨place, inRange, isFunction⟩ := Array.mem_iff_getElem.mp member
      rw [Array.getElem_modify] at isFunction
      rw [Array.size_modify] at inRange
      refine .inr ⟨store.functions[place], Array.getElem_mem inRange, ?_⟩
      rw [← isFunction]
      split
      · exact (renamed _).symm
      · rfl
  · exact extends_of_functions_eq rfl

end Store

namespace Machine

/-- The innermost activation that binds a name, or else the global one. -/
def binder (machine : Machine) (name : String) : Nat :=
  match machine.arena.find? machine.current fun activation => activation.bindings.contains name with
  | some found => found.1
  | none => 0

/-- The activation of the frame that a variable is tagged with. -/
def tagged? (machine : Machine) (name : Variable) : Option Nat :=
  match name.frame with
  | none => none
  | some _ => machine.arena.owner? machine.current name.frame

/-- The value of a variable. -/
def read? (machine : Machine) (name : Variable) : Option Value :=
  ((machine.tagged? name).bind fun owner => (machine.arena.bindings owner).get? name.name) <|>
    machine.arena.lookup? machine.current name.name <|> Builtin.lookup? name.name

/-- The activation in which an assignment sets a variable. -/
def assignee (machine : Machine) (name : Variable) : Nat :=
  (machine.tagged? name).getD (machine.binder name.name)

/-- The activation in which a declaration sets a variable. -/
def declaree (machine : Machine) (name : Variable) : Nat :=
  (machine.arena.owner? machine.current name.frame).getD machine.current

/-- Set a variable of an activation. -/
def bindAt (machine : Machine) (index : Nat) (name : String) (value : Value) : Machine :=
  { machine with arena := machine.arena.set index name value }

/-- Create a function of the program in the current activation. -/
def create (machine : Machine) (name : String) (params : List String) (static : Option FrameId)
    (body : Body) : Machine :=
  { machine with
    arena := machine.arena.capture machine.current
    store := (machine.store.newFunction
      { name, params, threshold := params.length
        code := .closure machine.realm machine.current static params body }).2 }

/-- Start a call. -/
def enter (machine : Machine) (parent : Nat) (static : Option FrameId) (bindings : Record) :
    Machine :=
  { machine with
    arena := machine.arena.enter parent static bindings
    current := machine.arena.size
    depth := machine.depth + 1 }

/-- End a call. -/
def leave (machine : Machine) (index caller depth : Nat) : Machine :=
  { machine with arena := machine.arena.release index, current := caller, depth }

end Machine

/-- A context that is cancelled now does not have to be waited for. -/
theorem Machine.willEnd_of_isCancelled {machine : Machine} (due : machine.isCancelled = true) :
    machine.willEnd = true := by
  unfold isCancelled Context.isDue at due
  unfold willEnd Context.willEnd
  rw [Bool.and_eq_true, Bool.or_eq_true] at due ⊢
  obtain ⟨cancelled | looks, running⟩ := due
  · exact ⟨.inl cancelled, running⟩
  · refine ⟨.inr ?_, running⟩
    rw [beq_iff_eq.mp looks]
    rfl

/-- The parameters, the frame and the body of the function that an expression creates. -/
def Node.created? : Node → Option (List String × Option FrameId × Body)
  | .expr (.function _ frame params body) => some (params.map Variable.name, some frame, body)
  | .expr (.assignment _ (.call _ _ args) body) =>
      match Eval.definitionParams args with
      | .ok params => some (params, none, .expr body)
      | .error _ => none
  | _ => none

/-- Whether a run failed because it reached a malformed construct. -/
def Failure.isMalformed : Failure → Bool
  | .malformed _ => true
  | _ => false

/-- Whether a run failed because the evaluator does not know a construct. -/
def Failure.isUnsupported : Failure → Bool
  | .exception thrown => thrown.unsupported
  | _ => false

/-- Whether a run failed neither because of a construct that is malformed or that the evaluator does not
know, nor because it was cancelled. -/
def Failure.isOrdinary : Failure → Bool
  | .malformed _ | .cancelled => false
  | failure => !failure.isUnsupported

theorem Failure.isMalformed_of_isOrdinary {failure : Failure} (ordinary : failure.isOrdinary = true) :
    failure.isMalformed = false := by
  cases failure <;> first | rfl | cases ordinary

/-! ## Regimes -/

/-- A family of properties that the moves of a run keep, and of properties that hold when the run
fails. -/
structure Regime (tags : Retagging) where
  World : Type
  holds : World → Machine → Prop
  node : World → Node → Prop
  fails : World → Failure → Machine → Prop
  ordinary : ∀ {world failure machine}, holds world machine → failure.isOrdinary = true →
    fails world failure machine
  malformed : ∀ {world machine node' diagnostic}, holds world machine → node world node' →
    node'.diagnostic? = some diagnostic → fails world (.malformed diagnostic) machine
  resume : ∀ {world failure machine}, fails world failure machine →
    Library.isCatchable failure = true → holds world machine
  pass : ∀ {world machine}, holds world machine → holds world machine.pass
  stop : ∀ {world machine}, holds world machine → machine.willEnd = true →
    fails world .cancelled machine.stop
  cancel : ∀ {world machine}, holds world machine → holds world machine.cancel
  extend : ∀ {world machine store}, holds world machine → machine.store.Extends store →
    holds world { machine with store }
  print : ∀ {world machine} output, holds world machine → holds world { machine with output }
  read : ∀ {world machine name}, holds world machine → node world (.expr (.var name)) →
    (machine.retag tags).read? (name.retag tags) = machine.read? name
  assignee : ∀ {world machine name}, holds world machine → node world (.expr (.var name)) →
    (machine.retag tags).assignee (name.retag tags) = machine.assignee name
  assign : ∀ {world machine name} value, holds world machine → node world (.expr (.var name)) →
    holds world (machine.bindAt (machine.assignee name) name.name value)
  declaree : ∀ {world machine node' name}, holds world machine → node world node' →
    name ∈ node'.declared →
    (machine.retag tags).declaree (name.retag tags) = machine.declaree name
  declare : ∀ {world machine node' name} value, holds world machine → node world node' →
    name ∈ node'.declared →
    holds world (machine.bindAt (machine.declaree name) name.name value)
  create : ∀ {world machine node' params static body} name, holds world machine →
    node world node' → node'.created? = some (params, static, body) →
    static.bind tags = static ∧ holds world (machine.create name params static body)
  enter : ∀ {world machine parent static params body}, holds world machine →
    ¬ machine.maxDepth ≤ machine.depth →
    (∃ function ∈ machine.store.functions,
      function.code = .closure machine.realm parent static params body) →
    ∃ inner, (∀ node' ∈ body.visit Node.stays, node inner node') ∧
      (∀ args, holds inner (machine.enter parent static (Eval.parameterRecord params args))) ∧
        (∀ after, holds inner after →
          holds world (after.leave machine.arena.size machine.current machine.depth)) ∧
        ∀ failure after, fails inner failure after →
          fails world failure (after.leave machine.arena.size machine.current machine.depth)
  visit : ∀ {world machine realm}, holds world machine →
    (∃ function ∈ machine.store.functions, function.code.home? = some realm) →
    ∃ inner, holds inner (machine.switchTo realm) ∧
      (∀ after, holds inner after → holds world (after.switchTo machine.realm)) ∧
      ∀ failure after, fails inner failure after →
        fails world failure (after.switchTo machine.realm)

end Reckon
