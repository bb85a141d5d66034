import Reckon.Proofs.Parsing.BuildsStatement

/-!
# Scoping

While functions are read, their frames form a chain.  Reading what is between two places of one
function leads back to the same chain.  So the frame of a variable is that of a function around it, and
functions within each other have different frames.
-/

namespace Reckon

/-! ## Chains of frames -/

namespace Scope

/-- The frames around the current place, innermost first. -/
def around (scope : Scope) : List FrameId :=
  scope.chain.map Prod.fst

/-- Every frame comes after the frame around it. -/
structure Sound (scope : Scope) : Prop where
  current : ∀ id, scope.current = some id →
    id.source = scope.source ∧ id.index < scope.frames.size
  parent : ∀ (index : Nat) (frame : Frame), scope.frames[index]? = some frame →
    ∀ id, frame.parent = some id → id.source = scope.source ∧ id.index < index

/-- The functions from before are where they were. -/
structure Grows (before after : Scope) : Prop where
  source : after.source = before.source
  parent : ∀ (index : Nat) (frame : Frame), before.frames[index]? = some frame →
    ∃ later : Frame, after.frames[index]? = some later ∧ later.parent = frame.parent

/-- The current place is in the same function as before. -/
structure Settles (before after : Scope) : Prop extends Grows before after where
  current : after.current = before.current

variable {scope before middle after : Scope}

theorem Grows.trans (left : before.Grows middle) (right : middle.Grows after) :
    before.Grows after where
  source := right.source.trans left.source
  parent index frame found := by
    obtain ⟨between, foundBetween, sameLeft⟩ := left.parent index frame found
    obtain ⟨later, foundLater, sameRight⟩ := right.parent index between foundBetween
    exact ⟨later, foundLater, sameRight.trans sameLeft⟩

theorem Settles.refl (scope : Scope) : scope.Settles scope :=
  ⟨⟨rfl, fun _ frame found => ⟨frame, found, rfl⟩⟩, rfl⟩

theorem Settles.trans (left : before.Settles middle) (right : middle.Settles after) :
    before.Settles after :=
  ⟨left.toGrows.trans right.toGrows, right.current.trans left.current⟩

theorem Grows.size_le (grows : before.Grows after) : before.frames.size ≤ after.frames.size := by
  by_contra shorter
  obtain ⟨later, found, _⟩ := grows.parent _ _ (Array.getElem?_eq_getElem (Nat.not_le.mp shorter))
  rw [Array.getElem?_eq_none (Nat.le_refl _)] at found
  cases found

/-- The chain from a frame depends only on the frames in it. -/
theorem Grows.chainFrom_eq (grows : before.Grows after) (sound : before.Sound)
    {id : FrameId} {bound laterBound : Nat} (sameSource : id.source = before.source)
    (inRange : id.index < before.frames.size) (enough : id.index < bound)
    (laterEnough : id.index < laterBound) :
    (after.chainFrom laterBound (some id)).map Prod.fst =
      (before.chainFrom bound (some id)).map Prod.fst := by
  obtain ⟨source, index⟩ := id
  cases sameSource
  dsimp only at inRange enough laterEnough
  induction index using Nat.strongRecOn generalizing bound laterBound with
  | ind index inductionHypothesis =>
      obtain ⟨bound, rfl⟩ := Nat.exists_eq_succ_of_ne_zero (Nat.ne_zero_of_lt enough)
      obtain ⟨laterBound, rfl⟩ := Nat.exists_eq_succ_of_ne_zero (Nat.ne_zero_of_lt laterEnough)
      have found := Array.getElem?_eq_getElem inRange
      obtain ⟨later, foundLater, same⟩ := grows.parent index _ found
      have here : before.frame? ⟨before.source, index⟩ = some before.frames[index] := by
        rw [frame?, if_pos rfl, found]
      have hereLater : after.frame? ⟨before.source, index⟩ = some later := by
        rw [frame?, if_pos grows.source.symm, foundLater]
      simp only [chainFrom, here, hereLater, List.map_cons, same]
      cases outer : before.frames[index].parent with
      | none => cases bound <;> cases laterBound <;> rfl
      | some id =>
          obtain ⟨sameSource, less⟩ := sound.parent index _ found id outer
          obtain ⟨source, outerIndex⟩ := id
          cases sameSource
          have rest := inductionHypothesis outerIndex less (Nat.lt_trans less inRange)
            (Nat.lt_of_lt_of_le less (Nat.le_of_lt_succ enough))
            (Nat.lt_of_lt_of_le less (Nat.le_of_lt_succ laterEnough))
          rw [rest]

theorem around_of_none (global : scope.current = none) : scope.around = [] := by
  rw [around, chain, global]
  cases scope.frames.size <;> rfl

theorem Settles.around_eq (settles : before.Settles after) (sound : before.Sound) :
    after.around = before.around := by
  cases current : before.current with
  | none => rw [around_of_none current, around_of_none (settles.current.trans current)]
  | some id =>
      obtain ⟨sameSource, inRange⟩ := sound.current id current
      have later := Nat.lt_of_lt_of_le inRange settles.size_le
      unfold around chain
      rw [settles.current, current]
      exact settles.chainFrom_eq sound sameSource inRange inRange later

theorem find?_mem_around {name : String} {frame : FrameId} (found : scope.find? name = some frame) :
    frame ∈ scope.around := by
  obtain ⟨entry, isFound, rfl⟩ := Option.map_eq_some_iff.mp found
  exact List.mem_map_of_mem (List.mem_of_find?_eq_some isFound)

theorem frame?_of_mem_chainFrom {bound : Nat} {start : Option FrameId} {entry : FrameId × Frame}
    (member : entry ∈ scope.chainFrom bound start) : scope.frame? entry.1 = some entry.2 := by
  induction bound generalizing start with
  | zero => cases member
  | succ bound inductionHypothesis =>
      cases start with
      | none => cases member
      | some id =>
          rw [chainFrom] at member
          split at member
          · cases member
          · next frame found =>
            rcases List.mem_cons.mp member with rfl | outer
            · exact found
            · exact inductionHypothesis outer

/-- A new frame is none of those around the current place. -/
theorem push_not_mem_around (scope : Scope) : scope.push.1 ∉ scope.around := by
  intro member
  obtain ⟨⟨id, frame⟩, onChain, same⟩ := List.mem_map.mp member
  have found := frame?_of_mem_chainFrom onChain
  dsimp only at same found
  rw [same, push, frame?, if_pos rfl, Array.getElem?_eq_none (Nat.le_refl _)] at found
  cases found

/-! ## Entering and leaving -/

theorem grows_push (scope : Scope) : scope.Grows scope.push.2 := by
  refine ⟨rfl, fun index frame found => ⟨frame, ?_, rfl⟩⟩
  have inRange := (Array.getElem?_eq_some_iff.mp found).1
  change (scope.frames.push _)[index]? = some frame
  rw [Array.getElem?_push, if_neg (Nat.ne_of_lt inRange), found]

theorem frame?_push (scope : Scope) :
    scope.push.2.frame? scope.push.1 = some { parent := scope.current } := by
  change (if scope.source = scope.source then
    (scope.frames.push { parent := scope.current })[scope.frames.size]? else none) = _
  rw [if_pos rfl, Array.getElem?_push_size]

theorem Sound.push (sound : scope.Sound) : scope.push.2.Sound where
  current id isCurrent := by
    cases isCurrent
    exact ⟨rfl, Nat.lt_of_lt_of_eq (Nat.lt_succ_self _) (Array.size_push _).symm⟩
  parent index frame found id outer := by
    change (scope.frames.push _)[index]? = some frame at found
    rw [Array.getElem?_push] at found
    split at found
    · next last =>
      cases found
      rw [last]
      exact sound.current id outer
    · exact sound.parent index frame found id outer

theorem around_push (sound : scope.Sound) : scope.push.2.around = scope.push.1 :: scope.around := by
  have size : scope.push.2.frames.size = scope.frames.size + 1 := Array.size_push _
  have isCurrent : scope.push.2.current = some scope.push.1 := rfl
  rw [around, chain, size, isCurrent, chainFrom, frame?_push]
  cases current : scope.current with
  | none =>
      rw [around_of_none current]
      cases scope.frames.size <;> rfl
  | some id =>
      obtain ⟨sameSource, inRange⟩ := sound.current id current
      have same := scope.grows_push.chainFrom_eq sound sameSource inRange inRange inRange
      simp only [List.map_cons, same, around, chain, current]

/-- The current function is the innermost one around the current place. -/
theorem around_eq_cons (sound : scope.Sound) {id : FrameId} (isCurrent : scope.current = some id) :
    ∃ outer, scope.around = id :: outer := by
  obtain ⟨sameSource, inRange⟩ := sound.current id isCurrent
  have size := Nat.succ_pred_eq_of_pos (Nat.zero_lt_of_lt inRange)
  rw [around, chain, isCurrent, ← size, chainFrom, frame?, if_pos sameSource,
    Array.getElem?_eq_getElem inRange]
  exact ⟨_, rfl⟩

theorem current_mem_around (sound : scope.Sound) {id : FrameId} (isCurrent : scope.current = some id) :
    id ∈ scope.around := by
  obtain ⟨outer, innermost⟩ := around_eq_cons sound isCurrent
  rw [innermost]
  exact .head _

theorem settles_declare (scope : Scope) (name : String) (declaration : Variable) :
    scope.Settles (scope.declare name declaration) := by
  unfold declare
  split
  · exact .refl scope
  · next id isCurrent =>
    refine ⟨⟨rfl, fun index frame found => ?_⟩, rfl⟩
    by_cases same : id.index = index
    · exact ⟨frame.declare name declaration, by simp [Array.getElem?_modify, same, found], rfl⟩
    · exact ⟨frame, by simp [Array.getElem?_modify, same, found], rfl⟩

theorem Sound.declare (sound : scope.Sound) (name : String) (declaration : Variable) :
    (scope.declare name declaration).Sound := by
  unfold Scope.declare
  split
  · exact sound
  · next id isCurrent =>
    refine ⟨fun id isCurrent => ?_, fun index frame found => ?_⟩
    · obtain ⟨sameSource, inRange⟩ := sound.current id isCurrent
      exact ⟨sameSource, Nat.lt_of_lt_of_eq inRange (Array.size_modify ..).symm⟩
    · rw [Array.getElem?_modify] at found
      split at found
      · obtain ⟨earlier, isEarlier, rfl⟩ := Option.map_eq_some_iff.mp found
        exact sound.parent index earlier isEarlier
      · exact sound.parent index frame found

/-- What one declaration keeps, many keep. -/
theorem declareAll_keeps {motive : Scope → Prop} (holds : motive scope)
    (keeps : ∀ (scope : Scope) (param : Variable),
      motive scope → motive (scope.declare param.name param))
    (params : List Variable) : motive (scope.declareAll params) := by
  induction params generalizing scope with
  | nil => exact holds
  | cons param rest inductionHypothesis => exact inductionHypothesis (keeps scope param holds)

theorem settles_declareAll (scope : Scope) (params : List Variable) :
    scope.Settles (scope.declareAll params) :=
  declareAll_keeps (motive := scope.Settles) (.refl scope)
    (fun middle param settles => settles.trans (middle.settles_declare param.name param)) params

theorem Sound.declareAll (sound : scope.Sound) (params : List Variable) :
    (scope.declareAll params).Sound :=
  declareAll_keeps sound (fun _ param sound => sound.declare param.name param) params

theorem pop_eq (settles : scope.push.2.Settles after) :
    after.pop.2 = { after with current := scope.current } := by
  obtain ⟨later, found, same⟩ := settles.parent _ _ Array.getElem?_push_size
  have sameSource : scope.push.1.source = after.source := settles.source.symm
  have newest : after.frame? scope.push.1 = some later := by
    rw [frame?, if_pos sameSource]
    exact found
  rw [pop, settles.current]
  change { after with current := (after.frame? scope.push.1).bind Frame.parent } = _
  rw [newest]
  exact congrArg (fun current => { after with current }) same

/-- After a function, the current place is in the function around it. -/
theorem settles_pop (settles : scope.push.2.Settles after) : scope.Settles after.pop.2 := by
  rw [pop_eq settles]
  exact ⟨scope.grows_push.trans ⟨settles.source, settles.parent⟩, rfl⟩

theorem Sound.pop (sound : scope.Sound) (afterSound : after.Sound)
    (settles : scope.push.2.Settles after) : after.pop.2.Sound := by
  have grows := (settles_pop settles).toGrows
  rw [pop_eq settles] at grows ⊢
  refine ⟨fun id isCurrent => ?_, afterSound.parent⟩
  obtain ⟨sameSource, inRange⟩ := sound.current id isCurrent
  exact ⟨sameSource.trans grows.source.symm, Nat.lt_of_lt_of_le inRange grows.size_le⟩

theorem sound_new (source : Nat) : Sound { source } :=
  ⟨nofun, nofun⟩

end Scope

/-! ## Scoped trees -/

/-- Within functions with the given frames, innermost first, every variable of a tree belongs to one of
them or to a function of the tree around it, and a function has a frame of its own. -/
inductive Scoped : List FrameId → Node → Prop
  | var {frames : List FrameId} {name : Variable} :
      (∀ frame, name.frame = some frame → frame ∈ frames) → Scoped frames (.expr (.var name))
  | function {frames : List FrameId} {span : Span} {frame : FrameId} {params : List Variable}
      {body : Body} : frame ∉ frames → Scoped (frame :: frames) body.root →
      Scoped frames (.expr (.function span frame params body))
  | node {frames : List FrameId} {node : Node} : (∀ name, node ≠ .expr (.var name)) →
      node.stays = true → (∀ child ∈ node.children, Scoped frames child) → Scoped frames node

theorem Node.ne_var_of_isComposite {node : Node} (composite : node.isComposite = true)
    (name : Variable) : node ≠ .expr (.var name) := by
  rintro rfl
  cases composite

theorem Node.stays_of_isComposite {node : Node} (composite : node.isComposite = true) :
    node.stays = true := by
  cases node with
  | expr value => cases value <;> first | rfl | cases composite
  | entry value => rfl
  | stmt value => rfl

namespace Scoped

variable {frames : List FrameId} {node : Node}

/-- A node without children is scoped, unless it is a variable. -/
theorem leaf (other : ∀ name, node ≠ .expr (.var name)) (stays : node.stays = true)
    (noChildren : node.children = []) : Scoped frames node := by
  refine .node other stays fun child member => ?_
  rw [noChildren] at member
  cases member

theorem of_isComposite (composite : node.isComposite = true)
    (children : ∀ child ∈ node.children, Scoped frames child) : Scoped frames node :=
  .node (Node.ne_var_of_isComposite composite) (Node.stays_of_isComposite composite) children

end Scoped

/-! ## Reading -/

namespace Reading

/-- The scopes before what is read. -/
def before : Reading → Scope
  | lexemes first _ => first.scope
  | streams scope _ _ => scope

/-- The scopes after what is read. -/
def after : Reading → Scope
  | lexemes _ second => second.scope
  | streams _ _ scope => scope

end Reading

open ParseState

namespace ParseState

variable {first second : ParseState}

theorem Skips.scope_eq (skips : Skips first second) : second.scope = first.scope := by
  induction skips with
  | refl => rfl
  | more _ inductionHypothesis => exact inductionHypothesis

end ParseState

/-- The body of a function is read in its frame and those around it. -/
theorem Scope.around_enter {state : ParseState} (sound : state.scope.Sound) (params : List Variable) :
    (state.enter params).scope.around = state.scope.push.1 :: state.scope.around := by
  have declared := state.scope.push.2.settles_declareAll params
  exact (declared.around_eq sound.push).trans (around_push sound)

/-- What is read within a function leads back to it, and builds scoped trees. -/
structure Reading.IsScoped (reading : Reading) (trees : List Node) : Prop where
  sound : reading.after.Sound
  settles : reading.before.Settles reading.after
  trees : ∀ tree ∈ trees, Scoped reading.before.around tree

namespace Reading.IsScoped

variable {first second third : ParseState} {trees more : List Node}

/-- Some lexemes are read without a change of scopes. -/
theorem of_scope_eq (sound : first.scope.Sound) (same : second.scope = first.scope)
    (areScoped : ∀ tree ∈ trees, Scoped first.scope.around tree) :
    (lexemes first second).IsScoped trees := by
  constructor
  · exact (same ▸ sound : second.scope.Sound)
  · change first.scope.Settles second.scope
    rw [same]
    exact .refl _
  · exact areScoped

/-- A lexeme becomes a leaf. -/
theorem of_leaf {node : Node} (sound : first.scope.Sound) (same : second.scope = first.scope)
    (other : ∀ name, node ≠ .expr (.var name)) (stays : node.stays = true)
    (noChildren : node.children = []) : (lexemes first second).IsScoped [node] :=
  of_scope_eq sound same (List.forall_mem_singleton.mpr (.leaf other stays noChildren))

/-- Other trees are built from the same lexemes. -/
theorem rebuild (read : (lexemes first second).IsScoped trees)
    (areScoped : ∀ tree ∈ more, Scoped first.scope.around tree) :
    (lexemes first second).IsScoped more :=
  ⟨read.sound, read.settles, areScoped⟩

theorem and (left : (lexemes first second).IsScoped trees)
    (right : (lexemes second third).IsScoped more) (sound : first.scope.Sound) :
    (lexemes first third).IsScoped (trees ++ more) := by
  have same : second.scope.around = first.scope.around := left.settles.around_eq sound
  constructor
  · exact right.sound
  · exact left.settles.trans right.settles
  · refine List.forall_mem_append.mpr ⟨left.trees, fun tree member => ?_⟩
    exact same ▸ right.trees tree member

/-- What is passed over changes nothing. -/
theorem skip (read : (lexemes first second).IsScoped trees) (skips : Skips second third) :
    (lexemes first third).IsScoped trees := by
  have same : (lexemes first third).after = (lexemes first second).after := skips.scope_eq
  constructor
  · rw [same]
    exact read.sound
  · rw [same]
    exact read.settles
  · exact read.trees

/-- A sign before what is read changes nothing. -/
theorem of_advance (read : (lexemes first.advance second).IsScoped trees) :
    (lexemes first second).IsScoped trees :=
  ⟨read.sound, read.settles, read.trees⟩

/-- The body of a function is read within the function, and then the place is the one before it. -/
theorem function {params : List Variable} (head : (lexemes first second).IsScoped trees)
    (body : (second.enter params).scope.Sound → (lexemes (second.enter params) third).IsScoped more)
    (sound : first.scope.Sound) :
    (lexemes first third.leave).IsScoped [] ∧ second.scope.push.1 ∉ first.scope.around ∧
      ∀ tree ∈ more, Scoped (second.scope.push.1 :: first.scope.around) tree := by
  have headSound : second.scope.Sound := head.sound
  have same : second.scope.around = first.scope.around := head.settles.around_eq sound
  have declared : second.scope.push.2.Settles (second.enter params).scope :=
    second.scope.push.2.settles_declareAll params
  have read := body (headSound.push.declareAll params)
  have settles : second.scope.push.2.Settles third.scope := declared.trans read.settles
  refine ⟨⟨headSound.pop read.sound settles, ?_, by simp⟩, ?_, fun tree member => ?_⟩
  · exact head.settles.trans (Scope.settles_pop settles)
  · rw [← same]
    exact second.scope.push_not_mem_around
  · have around : (second.enter params).scope.around =
        second.scope.push.1 :: first.scope.around := by
      rw [Scope.around_enter headSound, same]
    exact around ▸ read.trees tree member

end Reading.IsScoped

/-- Trees are scoped in the functions where they are read. -/
theorem Derives.isScoped {reading : Reading} {trees : List Node} (derived : Derives reading trees)
    (sound : reading.before.Sound) : reading.IsScoped trees := by
  induction derived with
  | nothing _ => exact .of_scope_eq sound rfl nofun
  | sequence _ _ leftHypothesis rightHypothesis =>
      have left := leftHypothesis sound
      exact left.and (rightHypothesis left.sound) sound
  | sign _ => exact .of_scope_eq sound rfl nofun
  | constant _ _ => exact .of_leaf sound rfl nofun rfl rfl
  | @read state _ =>
      refine .of_scope_eq sound rfl (List.forall_mem_singleton.mpr (.var fun frame found => ?_))
      exact Scope.find?_mem_around found
  | @declare state _ =>
      refine ⟨Scope.Sound.declare sound _ _, state.scope.settles_declare _ _,
        List.forall_mem_singleton.mpr (.var fun frame isCurrent => ?_)⟩
      exact Scope.current_mem_around sound isCurrent
  | identifier _ => exact .of_leaf sound rfl nofun rfl rfl
  | word _ _ _ inductionHypothesis =>
      have read := inductionHypothesis sound
      refine (read.skip (.more (.refl _))).rebuild (List.forall_mem_append.mpr ⟨?_, ?_⟩)
      · exact (List.forall_mem_append.mp read.trees).1
      · exact List.forall_mem_singleton.mpr (.leaf nofun rfl rfl)
  | path _ _ _ inductionHypothesis =>
      have read := inductionHypothesis sound
      exact (read.skip (.more (.refl _))).rebuild (List.forall_mem_singleton.mpr (.leaf nofun rfl rfl))
  | empty _ => exact .of_leaf sound rfl nofun rfl rfl
  | omitted _ inductionHypothesis =>
      have read := inductionHypothesis sound
      exact read.rebuild (List.forall_mem_append.mp read.trees).1
  | bad _ _ inductionHypothesis =>
      have read := (inductionHypothesis sound).skip (.more (.refl _))
      exact read.rebuild (List.forall_mem_singleton.mpr (.leaf nofun rfl rfl))
  | missing _ _ => exact .of_leaf sound rfl nofun rfl rfl
  | badEntry _ _ => exact .of_leaf sound rfl nofun rfl rfl
  | missingEntry _ _ => exact .of_leaf sound rfl nofun rfl rfl
  | spoilt _ _ skips _ inductionHypothesis =>
      have read := (inductionHypothesis sound).skip skips
      exact read.rebuild (List.forall_mem_singleton.mpr (.leaf nofun rfl rfl))
  | spoiltEntry _ skips => exact .of_leaf sound skips.scope_eq nofun rfl rfl
  | node _ _ composite _ inductionHypothesis =>
      have read := inductionHypothesis sound
      exact read.rebuild (List.forall_mem_singleton.mpr (.of_isComposite composite read.trees))
  | enclosed _ _ composite _ inductionHypothesis =>
      have read := (inductionHypothesis sound).of_advance
      exact read.rebuild (List.forall_mem_singleton.mpr (.of_isComposite composite read.trees))
  | property _ _ inductionHypothesis =>
      have read := inductionHypothesis sound
      exact ⟨read.sound, read.settles, List.forall_mem_singleton.mpr (.of_isComposite rfl read.trees)⟩
  | compound _ _ inductionHypothesis =>
      have read := inductionHypothesis sound
      obtain ⟨target, value⟩ := List.forall_mem_cons.mp read.trees
      refine read.rebuild (List.forall_mem_singleton.mpr (.of_isComposite rfl ?_))
      refine List.forall_mem_cons.mpr ⟨target, List.forall_mem_singleton.mpr ?_⟩
      exact .of_isComposite rfl read.trees
  | function _ _ _ _ _ headHypothesis bodyHypothesis =>
      obtain ⟨read, fresh, within⟩ := (headHypothesis sound).function bodyHypothesis sound
      exact read.rebuild (List.forall_mem_singleton.mpr (.function fresh (within _ (.head _))))
  | spoiltFunction _ _ _ _ headHypothesis bodyHypothesis =>
      obtain ⟨read, _, _⟩ := (headHypothesis sound).function bodyHypothesis sound
      exact read.rebuild (List.forall_mem_singleton.mpr (.leaf nofun rfl rfl))
  | template _ _ inductionHypothesis =>
      have read := inductionHypothesis sound
      exact ⟨read.sound, read.settles,
        List.forall_mem_singleton.mpr (.node nofun rfl read.trees)⟩
  | noStreams scope => exact ⟨sound, .refl _, nofun⟩
  | stream _ _ firstHypothesis restHypothesis =>
      have first := firstHypothesis sound
      have rest := restHypothesis first.sound
      refine ⟨rest.sound, first.settles.trans rest.settles, ?_⟩
      refine List.forall_mem_cons.mpr ⟨first.trees _ (.head _), fun tree member => ?_⟩
      have same := first.settles.around_eq sound
      exact same ▸ rest.trees tree member
  | element _ isTag _ closes _ inductionHypothesis =>
      have read := ((inductionHypothesis sound).skip closes.skips).of_advance
      refine read.rebuild (List.forall_mem_singleton.mpr (.of_isComposite rfl ?_))
      exact isTag.forall_mem (fun _ => .leaf nofun rfl rfl) read.trees
  | @letIn _ _ _ _ value _ _ _ inductionHypothesis =>
      have read := inductionHypothesis sound
      refine read.rebuild (List.forall_mem_singleton.mpr (.node nofun rfl ?_))
      cases value <;> exact read.trees
  | loop _ _ skips _ _ headHypothesis bodyHypothesis =>
      have head := (headHypothesis sound).skip skips
      have read := head.and (bodyHypothesis head.sound) sound
      refine read.rebuild (List.forall_mem_singleton.mpr (.node nofun rfl ?_))
      simpa [Node.children, Reading.before] using read.trees

/-! ## Whole sources -/

theorem scoped_parseExpression (number : Nat) (text : String) :
    Scoped [] (.expr (parseExpression number text)) := by
  obtain ⟨after, built, _⟩ := Parsed.expression_builds number (Lexeme.scanText text)
  have read := built.isScoped (Scope.sound_new number)
  exact read.trees _ (.head _)

theorem scoped_parseProgram (number : Nat) (file : String) (bytes : List UInt8) {tree : Stmt}
    (member : tree ∈ parseProgram number file bytes) : Scoped [] (.stmt tree) := by
  obtain ⟨after, built, _⟩ := Parsed.statements_build number (Lexeme.scan file bytes)
  have read := built.isScoped (Scope.sound_new number)
  exact read.trees _ (List.mem_map_of_mem member)

end Reckon
