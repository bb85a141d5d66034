import Reckon.Proofs.Arena.Chain
import Reckon.Proofs.Session.Retag
import Reckon.Session.Apply
import Reckon.Proofs.Tree.Walk

/-!
# Names that no activation shadows

The function `(x, y) => body` has a frame, and its parameters are read from the activation of that
frame.  The function that `f(x, y) = body` defines has none, so there the innermost binding of a name
counts.  The two agree on a name as long as no activation between the one that reads it and that of
the function binds it.  This is kept if in all functions in between no variable gets that name.
-/

namespace Reckon

/-- A definition is compared with the function that has a certain frame and the same parameters.
Inside of functions with other frames, some names stand for these parameters and are not to be bound
there. -/
structure Comparison where
  frame : FrameId
  params : List String
  guarded : FrameId → List String

theorem Eval.contains_parameterRecord {params : List String} {args : List Value} {name : String} :
    (parameterRecord params args).contains name = true ↔ name ∈ params := by
  have fold (places : List (String × Nat)) (record : Record) :
      ((places.foldl (fun record place => record.set place.1 (args.getD place.2 .null)) record).contains
        name = true) ↔ name ∈ places.map Prod.fst ∨ record.contains name = true := by
    induction places generalizing record with
    | nil =>
        simp
    | cons place rest inductionHypothesis =>
        rw [List.foldl_cons, inductionHypothesis, Record.contains_set, List.map_cons, List.mem_cons]
        constructor
        · rintro (later | rfl | earlier)
          · exact .inl (.inr later)
          · exact .inl (.inl rfl)
          · exact .inr earlier
        · rintro ((rfl | later) | earlier)
          · exact .inr (.inl rfl)
          · exact .inl later
          · exact .inr (.inr earlier)
  have folded := fold params.zipIdx {}
  rw [List.zipIdx_map_fst] at folded
  exact folded.trans (or_iff_left (by simp [Record.contains_iff, Record.keys]))

namespace Arena

variable (comparison : Comparison)

/-- An activation of the frame, or one inside of such an activation. -/
inductive Under (arena : Arena) : Nat → Prop
  | own {index : Nat} {activation : Activation} : arena.activations[index]? = some activation →
      activation.static = some comparison.frame → Under arena index
  | inside {index parent : Nat} {activation : Activation} :
      arena.activations[index]? = some activation → activation.parent = some parent →
      Under arena parent → Under arena index

/-- The innermost activation of the frame can be seen, and none before it binds a name. -/
inductive Clear (arena : Arena) (name : String) : Nat → Prop
  | own {index : Nat} {activation : Activation} : arena.activations[index]? = some activation →
      activation.static = some comparison.frame → Clear arena name index
  | inside {index parent : Nat} {activation : Activation} :
      arena.activations[index]? = some activation → activation.parent = some parent →
      activation.static ≠ some comparison.frame →
      (∀ frame, activation.static = some frame → name ∈ comparison.guarded frame) →
      ¬ activation.bindings.contains name = true → Clear arena name parent →
      Clear arena name index

/-- A name may be bound in an activation. -/
def Admits (arena : Arena) (index : Nat) (name : String) : Prop :=
  ∀ activation, arena.activations[index]? = some activation → arena.Under comparison index →
    activation.static ≠ some comparison.frame → activation.bindings.contains name = true ∨
      ∃ frame, activation.static = some frame ∧ name ∉ comparison.guarded frame

/-- Activations of the frame bind the parameters. -/
def Supplied (arena : Arena) : Prop :=
  ∀ (index : Nat) (activation : Activation), arena.activations[index]? = some activation →
    activation.static = some comparison.frame → ∀ name ∈ comparison.params,
      activation.bindings.contains name = true

/-- An activation after one move: it stays what it is, and binds more only where it may. -/
structure Moved (arena : Arena) (index : Nat) (earlier later : Activation) : Prop where
  parent : later.parent = earlier.parent
  static : later.static = earlier.static
  bound : ∀ name, earlier.bindings.contains name = true → later.bindings.contains name = true
  admitted : ∀ name, later.bindings.contains name = true →
    earlier.bindings.contains name = true ∨ arena.Admits comparison index name

/-- The arena after one move. -/
structure Follows (before after : Arena) : Prop where
  moved : ∀ {index : Nat} {earlier later : Activation}, before.activations[index]? = some earlier →
    after.activations[index]? = some later → before.Moved comparison index earlier later

variable {comparison} {arena before after : Arena} {index : Nat} {name : String}

theorem Clear.under (clear : arena.Clear comparison name index) : arena.Under comparison index := by
  induction clear with
  | own found static =>
      exact .own found static
  | inside found outer _ _ _ _ inductionHypothesis =>
      exact .inside found outer inductionHypothesis

theorem Under.parent (under : arena.Under comparison index) {activation : Activation}
    (found : arena.activations[index]? = some activation)
    (other : activation.static ≠ some comparison.frame) :
    ∃ parent, activation.parent = some parent ∧ arena.Under comparison parent := by
  cases under with
  | own ownFound static =>
      rw [found] at ownFound
      cases ownFound
      exact absurd static other
  | inside insideFound outer deeper =>
      rw [found] at insideFound
      cases insideFound
      exact ⟨_, outer, deeper⟩

/-! ## Moves -/

theorem Follows.exists_later (follows : Follows comparison before after) {earlier : Activation}
    (found : before.activations[index]? = some earlier) (inRange : index < after.size) :
    ∃ later, after.activations[index]? = some later ∧
      before.Moved comparison index earlier later := by
  have laterFound := Array.getElem?_eq_getElem inRange
  exact ⟨_, laterFound, follows.moved found laterFound⟩

theorem Follows.under (follows : Follows comparison before after) (sound : before.Sound)
    (under : before.Under comparison index) (inRange : index < after.size) :
    after.Under comparison index := by
  induction under with
  | own found static =>
      obtain ⟨later, laterFound, moved⟩ := follows.exists_later found inRange
      exact .own laterFound (moved.static.trans static)
  | inside found outer _ inductionHypothesis =>
      obtain ⟨later, laterFound, moved⟩ := follows.exists_later found inRange
      have deeper := (sound.parent found outer).1
      exact .inside laterFound (moved.parent.trans outer)
        (inductionHypothesis (Nat.lt_trans deeper inRange))

theorem Follows.under_of_after (follows : Follows comparison before after) (sound : after.Sound)
    (under : after.Under comparison index) (inRange : index < before.size) :
    before.Under comparison index := by
  induction under with
  | own laterFound static =>
      have found := Array.getElem?_eq_getElem inRange
      exact .own found ((follows.moved found laterFound).static.symm.trans static)
  | inside laterFound outer _ inductionHypothesis =>
      have found := Array.getElem?_eq_getElem inRange
      have deeper := (sound.parent laterFound outer).1
      exact .inside found ((follows.moved found laterFound).parent.symm.trans outer)
        (inductionHypothesis (Nat.lt_trans deeper inRange))

theorem Follows.clear (follows : Follows comparison before after) (sound : before.Sound)
    (clear : before.Clear comparison name index) (inRange : index < after.size) :
    after.Clear comparison name index := by
  induction clear with
  | own found static =>
      obtain ⟨later, laterFound, moved⟩ := follows.exists_later found inRange
      exact .own laterFound (moved.static.trans static)
  | inside found outer other guarded free deeper inductionHypothesis =>
      obtain ⟨later, laterFound, moved⟩ := follows.exists_later found inRange
      have below := (sound.parent found outer).1
      refine .inside laterFound (moved.parent.trans outer) (by rwa [moved.static])
        (by rwa [moved.static]) ?_ (inductionHypothesis (Nat.lt_trans below inRange))
      intro bound
      -- The name is guarded here, so a move that binds it is not admitted.
      rcases moved.admitted _ bound with already | admits
      · exact free already
      · rcases admits _ found (.inside found outer deeper.under) other with already | admitted
        · exact free already
        · obtain ⟨frame, isFrame, notGuarded⟩ := admitted
          exact notGuarded (guarded frame isFrame)

theorem Moved.refl (activation : Activation) :
    arena.Moved comparison index activation activation :=
  ⟨rfl, rfl, fun _ bound => bound, fun _ bound => .inl bound⟩

theorem follows_refl (arena : Arena) : Follows comparison arena arena := by
  constructor
  intro index earlier later found laterFound
  rw [found] at laterFound
  cases laterFound
  exact .refl earlier

theorem follows_modify {change : Activation → Activation}
    (moved : ∀ activation, arena.activations[index]? = some activation →
      arena.Moved comparison index activation (change activation)) :
    Follows comparison arena (arena.modify index change) := by
  constructor
  intro place earlier later found laterFound
  rw [getElem?_modify, found] at laterFound
  by_cases same : index = place
  · subst same
    rw [if_pos rfl] at laterFound
    cases laterFound
    exact moved earlier found
  · rw [if_neg same] at laterFound
    cases laterFound
    exact .refl earlier

theorem follows_set (admits : arena.Admits comparison index name) (value : Value) :
    Follows comparison arena (arena.set index name value) := by
  refine follows_modify fun activation _ => ?_
  constructor
  · rfl
  · rfl
  · intro other bound
    exact Record.contains_set.mpr (.inr bound)
  · intro other bound
    rcases Record.contains_set.mp bound with rfl | already
    · exact .inr admits
    · exact .inl already

theorem follows_capture (arena : Arena) (index : Nat) :
    Follows comparison arena (arena.capture index) :=
  follows_modify fun _ _ => ⟨rfl, rfl, fun _ bound => bound, fun _ bound => .inl bound⟩

theorem follows_enter (arena : Arena) (parent : Nat) (static : Option FrameId) (bindings : Record) :
    Follows comparison arena (arena.enter parent static bindings) := by
  constructor
  intro place earlier later found laterFound
  cases eq_of_getElem?_enter found laterFound
  exact .refl earlier

theorem follows_release (arena : Arena) (index : Nat) :
    Follows comparison arena (arena.release index) := by
  constructor
  intro place earlier later found laterFound
  cases eq_of_getElem?_release found laterFound
  exact .refl earlier

/-! ## Activations that bind the parameters -/

theorem Supplied.follows (supplied : before.Supplied comparison)
    (follows : Follows comparison before after)
    (new : ∀ index activation, before.size ≤ index → after.activations[index]? = some activation →
      activation.static = some comparison.frame → ∀ name ∈ comparison.params,
        activation.bindings.contains name = true) :
    after.Supplied comparison := by
  intro index later laterFound static name isParam
  by_cases inRange : index < before.size
  · have found := Array.getElem?_eq_getElem inRange
    have moved := follows.moved found laterFound
    exact moved.bound name (supplied index _ found (moved.static.symm.trans static) name isParam)
  · exact new index later (Nat.le_of_not_lt inRange) laterFound static name isParam

theorem Supplied.follows_of_size_le (supplied : before.Supplied comparison)
    (follows : Follows comparison before after) (smaller : after.size ≤ before.size) :
    after.Supplied comparison := by
  refine supplied.follows follows fun index activation new found => ?_
  have inRange : index < after.size := (Array.getElem?_eq_some_iff.mp found).1
  omega

/-! ## Reading -/

/-- The innermost activation of the frame is the innermost one that binds a parameter. -/
theorem Clear.findFrom_eq (clear : arena.Clear comparison name index)
    (supplied : arena.Supplied comparison) (isParam : name ∈ comparison.params) (bound : Nat) :
    arena.findFrom (fun activation => activation.static == some comparison.frame) bound index =
      arena.findFrom (fun activation => activation.bindings.contains name) bound index := by
  induction clear generalizing bound with
  | own found static =>
      cases bound with
      | zero =>
          rfl
      | succ bound =>
          have binds := supplied _ _ found static name isParam
          simp [findFrom, found, static, binds]
  | inside found outer other _ free _ inductionHypothesis =>
      cases bound with
      | zero =>
          rfl
      | succ bound =>
          simp [findFrom, found, outer, other, free, inductionHypothesis bound]

theorem getElem?_of_findFrom {test : Activation → Bool} {bound : Nat} {entry : Nat × Activation}
    (found : arena.findFrom test bound index = some entry) :
    arena.activations[entry.1]? = some entry.2 ∧ test entry.2 = true := by
  rw [findFrom_eq_find?] at found
  have passed : test entry.2 = true := by simpa using List.find?_some found
  exact ⟨getElem?_of_mem_chainFrom (List.mem_of_find?_eq_some found), passed⟩

/-- A walk outwards from an activation that is not under the frame meets none that is. -/
theorem Under.of_mem_chainFrom {bound : Nat} {entry : Nat × Activation}
    (under : arena.Under comparison entry.1) (member : entry ∈ arena.chainFrom bound index) :
    arena.Under comparison index := by
  induction bound generalizing index with
  | zero =>
      cases member
  | succ bound inductionHypothesis =>
      obtain ⟨activation, found, rfl | ⟨parent, outer, inner⟩⟩ := mem_chainFrom_succ.mp member
      · exact under
      · exact .inside found outer (inductionHypothesis inner)

end Arena

/-! ## Suitable bodies

Which bodies do the same in a definition as in a function with a frame: no function inside has a
variable of its own with a name that it also uses for a parameter of the outer one, and neither has a
definition inside.  A function inside may well have a parameter of that name; then the name stands for
it everywhere in there. -/

/-! ## Names and frames -/

/-- The names that are tagged with a frame. -/
def namesOf (frame : FrameId) (nodes : List Node) : List String :=
  (nodes.flatMap Node.occurrences).filterMap fun name =>
    if name.frame = some frame then some name.name else none

theorem mem_namesOf {frame : FrameId} {nodes : List Node} {name : String} :
    name ∈ namesOf frame nodes ↔
      ∃ node ∈ nodes, ∃ occurrence ∈ node.occurrences,
        occurrence.frame = some frame ∧ occurrence.name = name := by
  simp only [namesOf, List.mem_filterMap, List.mem_flatMap]
  constructor
  · rintro ⟨occurrence, ⟨node, member, isVariable⟩, found⟩
    split at found
    · next tagged =>
      exact ⟨node, member, occurrence, isVariable, tagged, Option.some.inj found⟩
    · cases found
  · rintro ⟨node, member, occurrence, isVariable, tagged, rfl⟩
    exact ⟨occurrence, ⟨node, member, isVariable⟩, if_pos tagged⟩

/-- Declarations in a body are for the function of the body, or global. -/
def Body.DeclaresOwn (static : Option FrameId) (body : Body) : Prop :=
  ∀ node ∈ body.visit Node.stays, ∀ name ∈ node.declared, name.frame = none ∨ name.frame = static

/-- A node that has nothing to do with a frame. -/
structure Node.Avoids (frame : FrameId) (node : Node) : Prop where
  occurrences : ∀ name ∈ node.occurrences, name.frame ≠ some frame
  created : ∀ {params static body}, node.created? = some (params, static, body) →
    static ≠ some frame

namespace Comparison

variable (comparison : Comparison)

/-- A function inside the compared one has no variable that is named like a parameter it uses. -/
structure FitsFunction (params : List String) (static : Option FrameId) (body : Body) : Prop where
  other : static ≠ some comparison.frame
  params : ∀ name ∈ namesOf comparison.frame body.nodes, name ∉ params
  guarded : ∀ name ∈ namesOf comparison.frame body.nodes, ∀ frame, static = some frame →
    name ∈ comparison.guarded frame
  declares : body.DeclaresOwn static

/-- A node inside the compared function. -/
structure Fits (node : Node) : Prop where
  occurrences : ∀ name ∈ node.occurrences, ∀ frame, name.frame = some frame →
    frame ≠ comparison.frame → name.name ∉ comparison.guarded frame
  declared : ∀ name ∈ node.declared, name.frame ≠ some comparison.frame
  created : ∀ {params static body}, node.created? = some (params, static, body) →
    comparison.FitsFunction params static body

end Comparison

/-- The names that stand for parameters in the functions with a frame. -/
def guardedBy (frame : FrameId) (body : Body) (inner : FrameId) : List String :=
  body.nodes.flatMap fun node =>
    match node.created? with
    | some (_, static, inside) => if static = some inner then namesOf frame inside.nodes else []
    | none => []

/-- The comparison of a definition with the function of a frame. -/
def Comparison.of (frame : FrameId) (params : List String) (body : Expr) : Comparison :=
  ⟨frame, params, guardedBy frame (.expr body)⟩

/-- A body that does the same in a definition as in the function of a frame. -/
structure Suitable (frame : FrameId) (params : List String) (body : Expr) : Prop where
  names : ∀ name ∈ namesOf frame (Body.expr body).nodes, name ∈ params
  fits : ∀ node ∈ (Body.expr body).nodes, (Comparison.of frame params body).Fits node

/-! ## Layers -/

/-- What runs: nothing that is compared, a function inside of the compared one with the names that
stand for parameters there, or no tree. -/
inductive Layer where
  | idle
  | outside
  | inside (live : List String) (static : Option FrameId)

namespace Layer

variable (comparison : Comparison)

/-- A node may stand in a tree that runs. -/
def Suits : Layer → Node → Prop
  | idle, _ => False
  | outside, node => node.Avoids comparison.frame
  | inside live _, node => comparison.Fits node ∧
    ∀ name ∈ node.occurrences, name.frame = some comparison.frame → name.name ∈ live

/-- A node may stand in a tree that runs, outside of the functions there. -/
structure Allows (layer : Layer) (node : Node) : Prop where
  here : layer.Suits comparison node
  created : ∀ {params static body}, node.created? = some (params, static, body) →
    ∀ inner ∈ body.nodes, layer.Suits comparison inner
  declared : ∀ {live static}, layer = inside live static →
    ∀ name ∈ node.declared, name.frame = none ∨ name.frame = static

variable {comparison} {layer : Layer}

theorem allows_of_walks {visited all : List Node} (walks : Walks visited all)
    (suits : ∀ node ∈ all, layer.Suits comparison node)
    (declares : ∀ {live static}, layer = inside live static →
      ∀ node ∈ visited, ∀ name ∈ node.declared, name.frame = none ∨ name.frame = static) :
    ∀ node ∈ visited, layer.Allows comparison node := by
  intro node member
  have inAll := walks.closed node (walks.subset member)
  constructor
  · exact suits node (walks.subset member)
  · intro params static inner created other isInner
    exact suits other (inAll (Node.nodes_of_created created isInner))
  · intro live static same
    exact declares same node member

theorem allows_of_body {body : Body} (suits : ∀ node ∈ body.nodes, layer.Suits comparison node)
    (declares : ∀ {live static}, layer = inside live static → body.DeclaresOwn static) :
    ∀ node ∈ body.visit Node.stays, layer.Allows comparison node :=
  allows_of_walks (body.walks_visit Node.stays) suits declares

/-- The names inside of a function that is created stand for parameters. -/
theorem Allows.live {live : List String} {static : Option FrameId} {node : Node}
    (allows : (inside live static).Allows comparison node) {params : List String}
    {inner : Option FrameId} {body : Body} (created : node.created? = some (params, inner, body))
    {name : String} (member : name ∈ namesOf comparison.frame body.nodes) : name ∈ live := by
  obtain ⟨other, isOther, occurrence, isOccurrence, tagged, rfl⟩ := mem_namesOf.mp member
  exact (allows.created created other isOther).2 occurrence isOccurrence tagged

end Layer

end Reckon
