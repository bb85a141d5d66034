import Reckon.Proofs.Parsing.Scoping

/-!
# Frames mirror functions

The frames of a parsed source mirror the nesting of its functions.  The frame of a function has the frame
of the function around it as its parent, and declares the parameters of the function.  A variable that is
declared belongs to the function in which it is declared, and a tagged variable belongs to a function
around it whose frame declares its name.  This is so for every source, since whatever is read, well-formed
or not, keeps what the frames from before say and leads back to the function in which it is read.
-/

namespace Reckon

/-! ## Frames that are kept -/

/-- What a frame declares it goes on to declare. -/
theorem Frame.isSome_find?_declare (frame : Frame) (name : String) (declaration : Variable)
    {other : String} (declared : (frame.find? other).isSome) :
    ((frame.declare name declaration).find? other).isSome := by
  by_cases same : other = name
  · rw [same, find?_declare_self]
    rfl
  · rw [find?_declare_of_ne frame declaration same]
    exact declared

namespace Scope

/-- The frame of a function declares a name. -/
def Declares (scope : Scope) (id : FrameId) (name : String) : Prop :=
  ∃ frame, scope.frame? id = some frame ∧ (frame.find? name).isSome

/-- The functions from before are where they were, and declare the names that they declared. -/
def Retains (before after : Scope) : Prop :=
  ∀ id frame, before.frame? id = some frame →
    ∃ later, after.frame? id = some later ∧ later.parent = frame.parent ∧
      ∀ name, (frame.find? name).isSome → (later.find? name).isSome

variable {scope before middle after : Scope} {id : FrameId} {name : String}

theorem Retains.refl (scope : Scope) : scope.Retains scope :=
  fun _ frame found => ⟨frame, found, rfl, fun _ declared => declared⟩

theorem Retains.trans (left : before.Retains middle) (right : middle.Retains after) :
    before.Retains after := by
  intro id frame found
  obtain ⟨between, foundBetween, sameLeft, declaredLeft⟩ := left id frame found
  obtain ⟨later, foundLater, sameRight, declaredRight⟩ := right id between foundBetween
  exact ⟨later, foundLater, sameRight.trans sameLeft,
    fun name declared => declaredRight name (declaredLeft name declared)⟩

theorem Retains.declares (retains : before.Retains after) (declares : before.Declares id name) :
    after.Declares id name := by
  obtain ⟨frame, found, declared⟩ := declares
  obtain ⟨later, foundLater, _, keeps⟩ := retains id frame found
  exact ⟨later, foundLater, keeps name declared⟩

theorem Retains.parent {parent : Option FrameId} (retains : before.Retains after)
    (isParent : (before.frame? id).map Frame.parent = some parent) :
    (after.frame? id).map Frame.parent = some parent := by
  obtain ⟨frame, found, rfl⟩ := Option.map_eq_some_iff.mp isParent
  obtain ⟨later, foundLater, same, _⟩ := retains id frame found
  rw [foundLater]
  exact congrArg some same

theorem retains_push (scope : Scope) : scope.Retains scope.push.2 := by
  intro id frame found
  refine ⟨frame, ?_, rfl, fun _ declared => declared⟩
  unfold frame? at found ⊢
  by_cases same : id.source = scope.source
  · rw [if_pos same] at found
    have inRange := (Array.getElem?_eq_some_iff.mp found).1
    refine (if_pos same).trans ?_
    change (scope.frames.push _)[id.index]? = some frame
    rw [Array.getElem?_push, if_neg (Nat.ne_of_lt inRange), found]
  · rw [if_neg same] at found
    cases found

theorem retains_declare (scope : Scope) (name : String) (declaration : Variable) :
    scope.Retains (scope.declare name declaration) := by
  intro id frame found
  unfold declare
  split
  · exact ⟨frame, found, rfl, fun _ declared => declared⟩
  · next current isCurrent =>
    unfold frame? at found ⊢
    dsimp only
    split at found
    case isFalse => cases found
    case isTrue sameSource =>
      rw [if_pos sameSource, Array.getElem?_modify, found]
      by_cases same : current.index = id.index
      · rw [if_pos same]
        exact ⟨_, rfl, rfl, fun _ => frame.isSome_find?_declare name declaration⟩
      · rw [if_neg same]
        exact ⟨_, rfl, rfl, fun _ declared => declared⟩

theorem retains_declareAll (scope : Scope) (params : List Variable) :
    scope.Retains (scope.declareAll params) :=
  declareAll_keeps (motive := scope.Retains) (.refl scope)
    (fun middle param retains => retains.trans (middle.retains_declare param.name param)) params

theorem retains_pop (scope : Scope) : scope.Retains scope.pop.2 := by
  unfold pop
  split <;> exact .refl _

theorem current_eq_head? (sound : scope.Sound) : scope.current = scope.around.head? := by
  cases isCurrent : scope.current with
  | none =>
      rw [around_of_none isCurrent]
      rfl
  | some id =>
      obtain ⟨outer, innermost⟩ := around_eq_cons sound isCurrent
      rw [innermost]
      rfl

/-- A name that is found is declared by the frame in which it is found. -/
theorem declares_of_find? (found : scope.find? name = some id) : scope.Declares id name := by
  obtain ⟨entry, isFound, rfl⟩ := Option.map_eq_some_iff.mp found
  have declared := List.find?_some isFound
  exact ⟨entry.2, frame?_of_mem_chainFrom (List.mem_of_find?_eq_some isFound), declared⟩

theorem declares_declare (sound : scope.Sound) (isCurrent : scope.current = some id)
    (declaration : Variable) : (scope.declare name declaration).Declares id name := by
  obtain ⟨sameSource, inRange⟩ := sound.current id isCurrent
  refine ⟨scope.frames[id.index].declare name declaration, ?_, ?_⟩
  · rw [declare, isCurrent]
    refine (if_pos sameSource).trans ?_
    rw [Array.getElem?_modify, if_pos rfl, Array.getElem?_eq_getElem inRange]
    rfl
  · rw [Frame.find?_declare_self]
    rfl

theorem declares_declareAll (sound : scope.Sound) (isCurrent : scope.current = some id)
    {params : List Variable} {param : Variable} (member : param ∈ params) :
    (scope.declareAll params).Declares id param.name := by
  induction params generalizing scope with
  | nil => cases member
  | cons first rest inductionHypothesis =>
      have declared := sound.declare first.name first
      rcases List.mem_cons.mp member with rfl | later
      · exact (retains_declareAll _ rest).declares (declares_declare sound isCurrent param)
      · exact inductionHypothesis declared ((scope.current_declare _ _).trans isCurrent) later

end Scope

/-! ## Framed trees -/

/-- Within functions with the given frames, innermost first, a tree mirrors the frames of a scope: tagged
variables belong to functions around them that declare their names, functions are within the innermost
frame and declare their parameters, and what is declared otherwise belongs to the innermost frame. -/
inductive Framed (scope : Scope) : List FrameId → Node → Prop
  | var {around : List FrameId} {name : Variable} :
      (∀ frame, name.frame = some frame → frame ∈ around ∧ scope.Declares frame name.name) →
      Framed scope around (.expr (.var name))
  | function {around : List FrameId} {span : Span} {frame : FrameId} {params : List Variable}
      {body : Body} : frame ∉ around →
      (scope.frame? frame).map Frame.parent = some around.head? →
      (∀ param ∈ params, param.frame = some frame ∧ scope.Declares frame param.name) →
      Framed scope (frame :: around) body.root →
      Framed scope around (.expr (.function span frame params body))
  | node {around : List FrameId} {node : Node} : (∀ name, node ≠ .expr (.var name)) →
      node.stays = true → (∀ name ∈ node.declared, name.frame = around.head?) →
      (∀ child ∈ node.children, Framed scope around child) → Framed scope around node

theorem Node.declared_of_isComposite {node : Node} (composite : node.isComposite = true) :
    node.declared = [] := by
  cases node with
  | expr value => rfl
  | entry value => rfl
  | stmt value => cases value <;> first | rfl | cases composite

namespace Framed

variable {before scope after : Scope} {around : List FrameId} {node : Node}

theorem mono (framed : Framed before around node) (retains : before.Retains after) :
    Framed after around node := by
  induction framed with
  | var tagged =>
      refine .var fun frame found => ?_
      exact ⟨(tagged frame found).1, retains.declares (tagged frame found).2⟩
  | function fresh parent params _ inductionHypothesis =>
      refine .function fresh (retains.parent parent) (fun param member => ?_) inductionHypothesis
      exact ⟨(params param member).1, retains.declares (params param member).2⟩
  | node other stays declared _ inductionHypothesis =>
      exact .node other stays declared inductionHypothesis

/-- A node without children is framed, unless it is a variable. -/
theorem leaf (other : ∀ name, node ≠ .expr (.var name)) (stays : node.stays = true)
    (noNames : node.declared = []) (noChildren : node.children = []) : Framed scope around node := by
  refine .node other stays ?_ ?_
  · rw [noNames]
    exact nofun
  · rw [noChildren]
    exact nofun

theorem of_isComposite (composite : node.isComposite = true)
    (children : ∀ child ∈ node.children, Framed scope around child) : Framed scope around node := by
  refine .node (Node.ne_var_of_isComposite composite) (Node.stays_of_isComposite composite) ?_ children
  rw [Node.declared_of_isComposite composite]
  exact nofun

end Framed

/-! ## Reading -/

open ParseState

/-- What is read keeps the frames, and builds trees that mirror them. -/
structure Reading.IsFramed (reading : Reading) (trees : List Node) : Prop where
  retains : reading.before.Retains reading.after
  trees : ∀ tree ∈ trees, Framed reading.after reading.before.around tree

namespace Reading.IsFramed

variable {first second third : ParseState} {trees more : List Node} {node : Node}

/-- Some lexemes are read without a change of scopes. -/
theorem of_scope_eq (same : second.scope = first.scope)
    (areFramed : ∀ tree ∈ trees, Framed first.scope first.scope.around tree) :
    (lexemes first second).IsFramed trees := by
  constructor
  · change first.scope.Retains second.scope
    rw [same]
    exact .refl _
  · change ∀ tree ∈ trees, Framed second.scope first.scope.around tree
    rw [same]
    exact areFramed

/-- A lexeme becomes a leaf. -/
theorem of_leaf (same : second.scope = first.scope) (other : ∀ name, node ≠ .expr (.var name))
    (stays : node.stays = true) (noNames : node.declared = []) (noChildren : node.children = []) :
    (lexemes first second).IsFramed [node] :=
  of_scope_eq same (List.forall_mem_singleton.mpr (.leaf other stays noNames noChildren))

/-- Other trees are built from the same lexemes. -/
theorem rebuild (read : (lexemes first second).IsFramed trees)
    (areFramed : ∀ tree ∈ more, Framed second.scope first.scope.around tree) :
    (lexemes first second).IsFramed more :=
  ⟨read.retains, areFramed⟩

/-- An invalid leaf, or another one, is built from the same lexemes. -/
theorem rebuild_leaf (read : (lexemes first second).IsFramed trees)
    (other : ∀ name, node ≠ .expr (.var name)) (stays : node.stays = true)
    (noNames : node.declared = []) (noChildren : node.children = []) :
    (lexemes first second).IsFramed [node] :=
  read.rebuild (List.forall_mem_singleton.mpr (.leaf other stays noNames noChildren))

theorem and (left : (lexemes first second).IsFramed trees)
    (right : (lexemes second third).IsFramed more)
    (same : second.scope.around = first.scope.around) :
    (lexemes first third).IsFramed (trees ++ more) := by
  constructor
  · exact left.retains.trans right.retains
  · refine List.forall_mem_append.mpr ⟨fun tree member => ?_, fun tree member => ?_⟩
    · exact (left.trees tree member).mono right.retains
    · exact same ▸ right.trees tree member

/-- What is passed over changes nothing. -/
theorem skip (read : (lexemes first second).IsFramed trees) (skips : Skips second third) :
    (lexemes first third).IsFramed trees := by
  have same : (lexemes first third).after = (lexemes first second).after := skips.scope_eq
  constructor
  · rw [same]
    exact read.retains
  · rw [same]
    exact read.trees

/-- A sign before what is read changes nothing. -/
theorem of_advance (read : (lexemes first.advance second).IsFramed trees) :
    (lexemes first second).IsFramed trees :=
  ⟨read.retains, read.trees⟩

/-- The body of a function is read within the function, whose frame is within the one before. -/
theorem function {params : List Variable} (sound : first.scope.Sound)
    (within : (lexemes first second).IsScoped trees) (head : (lexemes first second).IsFramed trees)
    (body : (second.enter params).scope.Sound →
      (lexemes (second.enter params) third).IsFramed more) :
    (lexemes first third.leave).IsFramed [] ∧
      (third.leave.scope.frame? second.scope.push.1).map Frame.parent =
        some first.scope.around.head? ∧
      (∀ param ∈ params, third.leave.scope.Declares second.scope.push.1 param.name) ∧
      ∀ tree ∈ more, Framed third.leave.scope (second.scope.push.1 :: first.scope.around) tree := by
  have middle : second.scope.Sound := within.sound
  have same : second.scope.around = first.scope.around := within.settles.around_eq sound
  have read := body (middle.push.declareAll params)
  -- The frame of the function is new after the head, gets its parameters, and stays from then on.
  have after : (second.enter params).scope.Retains third.leave.scope :=
    read.retains.trans third.scope.retains_pop
  have entered : second.scope.push.2.Retains third.leave.scope :=
    (second.scope.push.2.retains_declareAll params).trans after
  refine ⟨⟨head.retains.trans (second.scope.retains_push.trans entered), nofun⟩, ?_, ?_, ?_⟩
  · refine entered.parent ?_
    rw [second.scope.frame?_push, ← same, ← Scope.current_eq_head? middle]
    rfl
  · exact fun param member => after.declares (Scope.declares_declareAll middle.push rfl member)
  · have around := Scope.around_enter middle params
    rw [same] at around
    exact fun tree member => around ▸ (read.trees tree member).mono third.scope.retains_pop

end Reading.IsFramed

/-- The parameters of a function are tagged with its frame. -/
theorem Grammar.frame_of_mem_parameterNames {frame : FrameId} {items : List Expr} {param : Variable}
    (member : param ∈ parameterNames frame items) : param.frame = some frame := by
  obtain ⟨item, _, tagged⟩ := List.mem_filterMap.mp member
  split at tagged <;> cases tagged
  rfl

/-- Trees mirror the frames after them, in the functions where they are read. -/
theorem Derives.isFramed {reading : Reading} {trees : List Node} (derived : Derives reading trees)
    (sound : reading.before.Sound) : reading.IsFramed trees := by
  induction derived with
  | nothing _ => exact .of_scope_eq rfl nofun
  | sequence left _ leftHypothesis rightHypothesis =>
      have within := left.isScoped sound
      exact (leftHypothesis sound).and (rightHypothesis within.sound) (within.settles.around_eq sound)
  | sign _ => exact .of_scope_eq rfl nofun
  | constant _ _ => exact .of_leaf rfl nofun rfl rfl rfl
  | @read state _ =>
      refine .of_scope_eq rfl (List.forall_mem_singleton.mpr (.var fun frame found => ?_))
      exact ⟨Scope.find?_mem_around found, Scope.declares_of_find? found⟩
  | @declare state _ =>
      refine ⟨state.scope.retains_declare _ _,
        List.forall_mem_singleton.mpr (.var fun frame isCurrent => ?_)⟩
      exact ⟨Scope.current_mem_around sound isCurrent, Scope.declares_declare sound isCurrent _⟩
  | identifier _ => exact .of_leaf rfl nofun rfl rfl rfl
  | word _ _ _ inductionHypothesis =>
      have read := inductionHypothesis sound
      refine (read.skip (.more (.refl _))).rebuild (List.forall_mem_append.mpr ⟨?_, ?_⟩)
      · exact (List.forall_mem_append.mp read.trees).1
      · exact List.forall_mem_singleton.mpr (.leaf nofun rfl rfl rfl)
  | path _ _ _ inductionHypothesis =>
      exact ((inductionHypothesis sound).skip (.more (.refl _))).rebuild_leaf nofun rfl rfl rfl
  | empty _ => exact .of_leaf rfl nofun rfl rfl rfl
  | omitted _ inductionHypothesis =>
      have read := inductionHypothesis sound
      exact read.rebuild (List.forall_mem_append.mp read.trees).1
  | bad _ _ inductionHypothesis =>
      exact ((inductionHypothesis sound).skip (.more (.refl _))).rebuild_leaf nofun rfl rfl rfl
  | missing _ _ => exact .of_leaf rfl nofun rfl rfl rfl
  | badEntry _ _ => exact .of_leaf rfl nofun rfl rfl rfl
  | missingEntry _ _ => exact .of_leaf rfl nofun rfl rfl rfl
  | spoilt _ _ skips _ inductionHypothesis =>
      exact ((inductionHypothesis sound).skip skips).rebuild_leaf nofun rfl rfl rfl
  | spoiltEntry _ skips => exact .of_leaf skips.scope_eq nofun rfl rfl rfl
  | node _ _ composite _ inductionHypothesis =>
      have read := inductionHypothesis sound
      exact read.rebuild (List.forall_mem_singleton.mpr (.of_isComposite composite read.trees))
  | enclosed _ _ composite _ inductionHypothesis =>
      have read := (inductionHypothesis sound).of_advance
      exact read.rebuild (List.forall_mem_singleton.mpr (.of_isComposite composite read.trees))
  | property _ _ inductionHypothesis =>
      have read := inductionHypothesis sound
      exact ⟨read.retains, List.forall_mem_singleton.mpr (.of_isComposite rfl read.trees)⟩
  | compound _ _ inductionHypothesis =>
      have read := inductionHypothesis sound
      obtain ⟨target, value⟩ := List.forall_mem_cons.mp read.trees
      refine read.rebuild (List.forall_mem_singleton.mpr (.of_isComposite rfl ?_))
      refine List.forall_mem_cons.mpr ⟨target, List.forall_mem_singleton.mpr ?_⟩
      exact .of_isComposite rfl read.trees
  | function head _ _ _ _ headHypothesis bodyHypothesis =>
      have within := head.isScoped sound
      have fresh := within.settles.around_eq sound ▸ Scope.push_not_mem_around _
      obtain ⟨read, parent, params, trees⟩ :=
        Reading.IsFramed.function sound within (headHypothesis sound) bodyHypothesis
      refine read.rebuild (List.forall_mem_singleton.mpr ?_)
      refine .function fresh parent (fun param member => ?_) (trees _ (.head _))
      exact ⟨Grammar.frame_of_mem_parameterNames member, params param member⟩
  | spoiltFunction _ head _ _ headHypothesis bodyHypothesis =>
      obtain ⟨read, _⟩ :=
        Reading.IsFramed.function sound (head.isScoped sound) (headHypothesis sound) bodyHypothesis
      exact read.rebuild_leaf nofun rfl rfl rfl
  | template _ _ inductionHypothesis =>
      have read := inductionHypothesis sound
      exact ⟨read.retains, List.forall_mem_singleton.mpr (.node nofun rfl nofun read.trees)⟩
  | noStreams scope => exact ⟨.refl _, nofun⟩
  | stream first _ firstHypothesis restHypothesis =>
      have within := first.isScoped sound
      have same := within.settles.around_eq sound
      have read := firstHypothesis sound
      have rest := restHypothesis within.sound
      refine ⟨read.retains.trans rest.retains, ?_⟩
      refine List.forall_mem_cons.mpr ⟨(read.trees _ (.head _)).mono rest.retains, ?_⟩
      exact fun tree member => same ▸ rest.trees tree member
  | element _ isTag _ closes _ inductionHypothesis =>
      have read := ((inductionHypothesis sound).skip closes.skips).of_advance
      refine read.rebuild (List.forall_mem_singleton.mpr (.of_isComposite rfl ?_))
      exact isTag.forall_mem (fun _ => .leaf nofun rfl rfl rfl) read.trees
  | @letIn _ _ _ _ value _ declared _ inductionHypothesis =>
      have read := inductionHypothesis sound
      refine read.rebuild (List.forall_mem_singleton.mpr (.node nofun rfl ?_ ?_))
      · exact List.forall_mem_singleton.mpr (declared.trans (Scope.current_eq_head? sound))
      · cases value <;> exact read.trees
  | loop head declared skips _ _ headHypothesis bodyHypothesis =>
      have within := (head.isScoped sound).skip skips
      have read := ((headHypothesis sound).skip skips).and (bodyHypothesis within.sound)
        (within.settles.around_eq sound)
      refine read.rebuild (List.forall_mem_singleton.mpr (.node nofun rfl ?_ ?_))
      · exact fun name member => (declared name member).trans (Scope.current_eq_head? sound)
      · simpa [Node.children, Reading.before, Reading.after] using read.trees

/-! ## Whole sources -/

/-- What is read from the start of a source leaves no function open, and builds trees that mirror the
frames. -/
theorem Derives.framed_of_start {source : Nat} {lexemes : List Lexeme} {after : ParseState}
    {trees : List Node} (built : (ParseState.start lexemes { source }).Builds trees after) :
    after.scope.current = none ∧ ∀ tree ∈ trees, Framed after.scope [] tree :=
  ⟨(built.isScoped (Scope.sound_new source)).settles.current,
    (built.isFramed (Scope.sound_new source)).trees⟩

/-- After every source, well-formed or not, no function is open, and its trees mirror its frames: this
holds of every text that is parsed as an expression, and of all bytes that are parsed as statements. -/
theorem frames_mirror_functions (source : Nat) :
    (∀ text : String,
      let parsed := Parsed.expression source (Lexeme.scanText text)
      parsed.scope.current = none ∧ Framed parsed.scope [] (.expr parsed.tree)) ∧
    ∀ (file : String) (bytes : List UInt8),
      let parsed := Parsed.statements source (Lexeme.scan file bytes)
      parsed.scope.current = none ∧ ∀ tree ∈ parsed.tree, Framed parsed.scope [] (.stmt tree) := by
  constructor
  · intro text parsed
    obtain ⟨after, built, _, same⟩ := Parsed.expression_built source (Lexeme.scanText text)
    obtain ⟨closed, framed⟩ := Derives.framed_of_start built
    rw [← same] at closed framed
    exact ⟨closed, framed _ (.head _)⟩
  · intro file bytes parsed
    obtain ⟨after, built, _, same⟩ := Parsed.statements_built source (Lexeme.scan file bytes)
    obtain ⟨closed, framed⟩ := Derives.framed_of_start built
    rw [← same] at closed framed
    exact ⟨closed, fun tree member => framed _ (List.mem_map_of_mem member)⟩

end Reckon
