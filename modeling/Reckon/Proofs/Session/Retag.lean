import Reckon.Proofs.Store.Blind

/-!
# Changing tags

A change of tags maps the frame of each tagged variable to another one, or forgets it.  It is extended
here from variables to trees, to functions, to activations and to machines.  Everything that a run
does without looking at a tag does the same before and after the change.
-/

namespace Reckon

/-- A change of tags. -/
abbrev Retagging := FrameId → Option FrameId

/-! ## Trees -/

/-- A variable with its tag changed. -/
def Variable.retag (tags : Retagging) (name : Variable) : Variable :=
  { name with frame := name.frame.bind tags }

mutual

/-- An expression with the tags of its variables changed. -/
def Expr.retag (tags : Retagging) : Expr → Expr
  | .empty span => .empty span
  | .invalid span defect => .invalid span defect
  | .constant span value => .constant span value
  | .var name => .var (name.retag tags)
  | .identifier name => .identifier name
  | .binary span op left right implicit =>
      .binary span op (left.retag tags) (right.retag tags) implicit
  | .unary span op operand => .unary span op (operand.retag tags)
  | .factorial span operand => .factorial span (operand.retag tags)
  | .range span first none last => .range span (first.retag tags) none (last.retag tags)
  | .range span first (some step) last =>
      .range span (first.retag tags) (some (step.retag tags)) (last.retag tags)
  | .conditional span test whenTrue whenFalse =>
      .conditional span (test.retag tags) (whenTrue.retag tags) (whenFalse.retag tags)
  | .call span callee args => .call span (callee.retag tags) (Expr.retagAll tags args)
  | .arguments span items => .arguments span (Expr.retagAll tags items)
  | .matrix span rows => .matrix span (Expr.retagRows tags rows)
  | .object span entries => .object span (Entry.retagAll tags entries)
  | .function span frame params body => .function span frame params (body.retag tags)
  | .member span owner selector => .member span (owner.retag tags) selector
  | .assignment span target value => .assignment span (target.retag tags) (value.retag tags)
  | .interpolated span parts replacements =>
      .interpolated span parts (Expr.retagAll tags replacements)
  | .markup span tag attributes children =>
      .markup span (tag.retag tags) (Entry.retagAll tags attributes) (Expr.retagAll tags children)

/-- Expressions with the tags of their variables changed. -/
def Expr.retagAll (tags : Retagging) : List Expr → List Expr
  | [] => []
  | first :: rest => first.retag tags :: Expr.retagAll tags rest

/-- Rows of expressions with the tags of their variables changed. -/
def Expr.retagRows (tags : Retagging) : List (List Expr) → List (List Expr)
  | [] => []
  | row :: rest => Expr.retagAll tags row :: Expr.retagRows tags rest

/-- Entries with the tags of their variables changed. -/
def Entry.retagAll (tags : Retagging) : List Entry → List Entry
  | [] => []
  | .property span key value :: rest =>
      .property span key (value.retag tags) :: Entry.retagAll tags rest
  | .invalid span defect :: rest => .invalid span defect :: Entry.retagAll tags rest

/-- A body with the tags of its variables changed. -/
def Body.retag (tags : Retagging) : Body → Body
  | .expr value => .expr (value.retag tags)
  | .block (.mk span statements) => .block (.mk span (Stmt.retagAll tags statements))

/-- A statement with the tags of its variables changed. -/
def Stmt.retag (tags : Retagging) : Stmt → Stmt
  | .expr value => .expr (value.retag tags)
  | .block (.mk span statements) => .block (.mk span (Stmt.retagAll tags statements))
  | .ifThen span test (.mk inner statements) none =>
      .ifThen span (test.retag tags) (.mk inner (Stmt.retagAll tags statements)) none
  | .ifThen span test (.mk inner statements) (some whenFalse) =>
      .ifThen span (test.retag tags) (.mk inner (Stmt.retagAll tags statements))
        (some (whenFalse.retag tags))
  | .whileDo span test (.mk inner statements) =>
      .whileDo span (test.retag tags) (.mk inner (Stmt.retagAll tags statements))
  | .forIn span key value source (.mk inner statements) =>
      .forIn span (key.map (Variable.retag tags)) (value.map (Variable.retag tags))
        (source.retag tags) (.mk inner (Stmt.retagAll tags statements))
  | .returnValue span none => .returnValue span none
  | .returnValue span (some result) => .returnValue span (some (result.retag tags))
  | .jump span kind => .jump span kind
  | .letIn span name none => .letIn span (name.retag tags) none
  | .letIn span name (some value) => .letIn span (name.retag tags) (some (value.retag tags))

/-- Statements with the tags of their variables changed. -/
def Stmt.retagAll (tags : Retagging) : List Stmt → List Stmt
  | [] => []
  | first :: rest => first.retag tags :: Stmt.retagAll tags rest

end

/-- Code with its tags changed. -/
def Code.retag (tags : Retagging) : Code → Code
  | .closure realm parent static params body =>
      .closure realm parent (static.bind tags) params (body.retag tags)
  | code => code

/-! ## Activations -/

/-- An activation with the frame of its function changed. -/
def Activation.retag (tags : Retagging) (activation : Activation) : Activation :=
  { activation with static := activation.static.bind tags }

/-- An arena with the frames of its activations changed. -/
def Arena.retag (tags : Retagging) (arena : Arena) : Arena :=
  ⟨arena.activations.map (Activation.retag tags)⟩

namespace Arena

/-! ### Changes of every activation -/

section Map

variable (change : Activation → Activation) (arena : Arena)

/-- An arena with every activation changed. -/
def map : Arena :=
  ⟨arena.activations.map change⟩

@[simp]
theorem size_map : (arena.map change).size = arena.size := by
  simp [map, size]

theorem getElem?_map (index : Nat) :
    (arena.map change).activations[index]? = (arena.activations[index]?).map change := by
  simp [map]

theorem modify_map (index : Nat) {first second : Activation → Activation}
    (commutes : ∀ activation, change (first activation) = second (change activation)) :
    (arena.map change).modify index second = (arena.modify index first).map change := by
  rw [modify, map, modify, map, mk.injEq]
  apply Array.ext
  · simp
  · intro place _ _
    simp only [Array.getElem_modify, Array.getElem_map]
    split
    · exact (commutes _).symm
    · rfl

theorem release_map (captured : ∀ activation, (change activation).captured = activation.captured)
    (index : Nat) : (arena.map change).release index = (arena.release index).map change := by
  unfold release
  rw [size_map, getElem?_map]
  by_cases kept : index = 0 ∨ index + 1 ≠ arena.size
  · simp [kept]
  · rw [if_neg kept, if_neg kept]
    cases arena.activations[index]? with
    | none =>
        rfl
    | some activation =>
        by_cases isCaptured : activation.captured = true
        · simp [captured, isCaptured]
        · simp [captured, isCaptured, map]

variable (parents : ∀ activation, (change activation).parent = activation.parent)

include parents

theorem findFrom_map {first second : Activation → Bool}
    (blind : ∀ activation, second (change activation) = first activation) (bound index : Nat) :
    (arena.map change).findFrom second bound index =
      (arena.findFrom first bound index).map (Prod.map id change) := by
  induction bound generalizing index with
  | zero =>
      rfl
  | succ bound inductionHypothesis =>
      unfold findFrom
      rw [getElem?_map]
      cases arena.activations[index]? with
      | none =>
          rfl
      | some activation =>
          simp only [Option.map_some, blind, parents]
          by_cases passed : first activation = true
          · simp [passed]
          · simp only [passed]
            cases activation.parent with
            | none =>
                simp
            | some parent =>
                simpa using inductionHypothesis parent

theorem chainFrom_map (bound index : Nat) :
    (arena.map change).chainFrom bound index =
      (arena.chainFrom bound index).map (Prod.map id change) := by
  induction bound generalizing index with
  | zero =>
      rfl
  | succ bound inductionHypothesis =>
      unfold chainFrom
      rw [getElem?_map]
      cases arena.activations[index]? with
      | none =>
          rfl
      | some activation =>
          simp only [Option.map_some, parents]
          cases activation.parent with
          | none =>
              simp
          | some parent =>
              simpa using inductionHypothesis parent

end Map

/-! ### Changes of tags -/

variable (tags : Retagging) (arena : Arena)

@[simp]
theorem size_retag : (arena.retag tags).size = arena.size :=
  arena.size_map _

theorem getElem?_retag (index : Nat) :
    (arena.retag tags).activations[index]? =
      (arena.activations[index]?).map (Activation.retag tags) :=
  arena.getElem?_map _ index

@[simp]
theorem bindings_retag (index : Nat) : (arena.retag tags).bindings index = arena.bindings index := by
  rw [bindings, getElem?_retag, bindings, Option.map_map]
  rfl

@[simp]
theorem set_retag (index : Nat) (name : String) (value : Value) :
    (arena.retag tags).set index name value = (arena.set index name value).retag tags :=
  arena.modify_map _ index fun _ => rfl

@[simp]
theorem capture_retag (index : Nat) :
    (arena.retag tags).capture index = (arena.capture index).retag tags :=
  arena.modify_map _ index fun _ => rfl

@[simp]
theorem enter_retag (parent : Nat) (static : Option FrameId) (bindings : Record) :
    (arena.retag tags).enter parent (static.bind tags) bindings =
      (arena.enter parent static bindings).retag tags := by
  simp [enter, retag, Activation.retag]

@[simp]
theorem release_retag (index : Nat) :
    (arena.retag tags).release index = (arena.release index).retag tags :=
  arena.release_map (Activation.retag tags) (fun _ => rfl) index

theorem findFrom_retag {test : Activation → Bool}
    (blind : ∀ activation, test (activation.retag tags) = test activation) (bound index : Nat) :
    (arena.retag tags).findFrom test bound index =
      (arena.findFrom test bound index).map fun found => (found.1, found.2.retag tags) :=
  arena.findFrom_map (Activation.retag tags) (fun _ => rfl) blind bound index

theorem chainFrom_retag (bound index : Nat) :
    (arena.retag tags).chainFrom bound index =
      (arena.chainFrom bound index).map fun entry => (entry.1, entry.2.retag tags) :=
  arena.chainFrom_map (Activation.retag tags) (fun _ => rfl) bound index

theorem find?_contains_retag (index : Nat) (name : String) :
    (arena.retag tags).find? index (fun activation => activation.bindings.contains name) =
      (arena.find? index fun activation => activation.bindings.contains name).map
        fun found => (found.1, found.2.retag tags) := by
  rw [find?, size_retag, arena.findFrom_retag tags (fun _ => rfl)]
  rfl

@[simp]
theorem lookup?_retag (index : Nat) (name : String) :
    (arena.retag tags).lookup? index name = arena.lookup? index name := by
  rw [lookup?, find?_contains_retag, Option.bind_map]
  rfl

@[simp]
theorem visible_retag (index : Nat) : (arena.retag tags).visible index = arena.visible index := by
  simp only [visible, chain, size_retag, chainFrom_retag, List.flatMap_map]
  rfl

@[simp]
theorem assign_retag (index : Nat) (name : String) (value : Value) :
    (arena.retag tags).assign index name value = (arena.assign index name value).retag tags := by
  unfold assign
  rw [find?_contains_retag]
  cases arena.find? index fun activation => activation.bindings.contains name with
  | none =>
      exact arena.set_retag tags 0 name value
  | some found =>
      exact arena.set_retag tags found.1 name value

end Arena

/-! ## Machines -/

/-- A realm with all its tags changed. -/
def Realm.retag (tags : Retagging) (realm : Realm) : Realm :=
  { realm with arena := realm.arena.retag tags }

/-- A machine with all its tags changed. -/
def Machine.retag (tags : Retagging) (machine : Machine) : Machine :=
  { machine with
    toRealm := machine.toRealm.retag tags
    store := machine.store.withCode (Code.retag tags)
    parked := machine.parked.map (Realm.retag tags) }

namespace Machine

variable (tags : Retagging) (machine : Machine)

@[simp]
theorem arena_retag : (machine.retag tags).arena = machine.arena.retag tags :=
  rfl

@[simp]
theorem store_retag :
    (machine.retag tags).store = machine.store.withCode (Code.retag tags) :=
  rfl

@[simp]
theorem isCancelled_retag : (machine.retag tags).isCancelled = machine.isCancelled :=
  rfl

@[simp]
theorem willEnd_retag : (machine.retag tags).willEnd = machine.willEnd :=
  rfl

theorem getD_retag (realms : Array Realm) (realm : Nat) :
    (realms.map (Realm.retag tags)).getD realm {} = (realms.getD realm {}).retag tags := by
  by_cases inRange : realm < realms.size
  · simp [Array.getD, inRange]
  · simp [Array.getD, inRange, Realm.retag, Arena.retag, Activation.retag]

theorem switchTo_retag (realm : Nat) :
    (machine.retag tags).switchTo realm = (machine.switchTo realm).retag tags := by
  have parked : (machine.retag tags).parked.setIfInBounds machine.realm (machine.toRealm.retag tags) =
      (machine.parked.setIfInBounds machine.realm machine.toRealm).map (Realm.retag tags) := by
    simp [retag]
  have known := congrArg (fun realms => ({ machine.retag tags with
    toRealm := realms.getD realm {}, realm, parked := realms } : Machine)) parked
  refine known.trans ?_
  simp only [getD_retag]
  rfl

theorem realmAt_retag (realm : Nat) :
    (machine.retag tags).realmAt realm = (machine.realmAt realm).retag tags := by
  have here : (machine.retag tags).realm = machine.realm := rfl
  unfold realmAt
  rw [here]
  by_cases running : realm = machine.realm
  · rw [if_pos running, if_pos running]
    rfl
  · rw [if_neg running, if_neg running]
    exact getD_retag tags machine.parked realm

/-- Tags are nothing that a run writes. -/
theorem progress_retag : (machine.retag tags).progress = machine.progress := by
  unfold progress
  simp only [realmAt_retag, Realm.retag, Arena.bindings_retag]
  rfl

theorem pass_retag : (machine.retag tags).pass = machine.pass.retag tags :=
  rfl

theorem cancel_retag : (machine.retag tags).cancel = machine.cancel.retag tags :=
  rfl

theorem stop_retag : (machine.retag tags).stop = machine.stop.retag tags := by
  unfold stop
  rw [progress_retag]
  rfl

end Machine

end Reckon
