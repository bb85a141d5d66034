import Reckon.Proofs.Parsing.Spans

/-!
# Spans nest

In a source where nothing is missing or malformed, each node starts with a significant lexeme and stops
with one, in the source or in a template of it, and its span holds those of its children.  There is one
exception: a fragment has a tag without a name, which no lexeme stands for.
-/

namespace Reckon

open ParseState

/-! ## Trees without gaps -/

namespace Node

variable {node : Node}

/-- A tree is full, or it is a missing operand, which may be left out. -/
inductive IsPlain : Node → Prop
  | full {node : Node} : node.IsFull → IsPlain node
  | missing (span : Span) : IsPlain (.expr (.empty span))

theorem IsPlain.isFull (plain : node.IsPlain) (other : ∀ span, node ≠ .expr (.empty span)) :
    node.IsFull := by
  cases plain with
  | full full => exact full
  | missing span => exact absurd rfl (other span)

theorem IsPlain.isFull_of_composite (plain : node.IsPlain) (composite : node.isComposite = true) :
    node.IsFull := by
  refine plain.isFull ?_
  rintro span rfl
  cases composite

theorem IsFull.plain_children (full : node.IsFull) : ∀ child ∈ node.children, child.IsPlain :=
  fun _ member => .full (full.child member)

/-- What is malformed is not plain. -/
theorem IsPlain.diagnostic?_eq_none (plain : node.IsPlain) : node.diagnostic? = none := by
  cases plain with
  | missing span => rfl
  | full full =>
      have sound := full node node.mem_walk_self
      unfold diagnostic?
      split <;> first | rfl | cases sound

theorem children_letIn (span : Span) (name : Variable) (value : Option Expr) :
    (Node.stmt (.letIn span name value)).children =
      .expr (.var name) :: value.toList.map .expr := by
  cases value <;> rfl

end Node

/-! ## Reading -/

/-- Full trees nest that are read from lexemes which stand one after the other. -/
def Reading.Nests (source : List Lexeme) : Reading → List Node → Prop
  | lexemes first second, trees => ∀ high, first.Stands source high → (∀ tree ∈ trees, tree.IsPlain) →
    first.Moves source second ∧ Nested source trees second.previous.offset
  | streams _ subs _, trees => ∀ low high, Lexeme.LaidAll low subs high →
    (∀ stream ∈ subs, ∀ lexeme ∈ Cursor.aheadOf stream, lexeme.IsMark source) →
      (∀ tree ∈ trees, tree.IsPlain) → ∀ tree ∈ trees, tree.IsFull → tree.Nests source

namespace Reading

variable {source : List Lexeme} {first second : ParseState} {node : Node}

/-- A leaf in place of a lexeme. -/
theorem nests_leaf {scope : Scope} (more : first.token ≠ .eof)
    (span : node.span = first.cursor.current.span) (noChildren : node.children = []) :
    (lexemes first { first.advance with scope }).Nests source [node] := by
  intro high stands _
  refine ⟨Moves.withScope (.lands (stands.lands_advance more)) scope, .single fun _ => ?_⟩
  refine ⟨Node.nests_of_leaf ?_ noChildren, ?_⟩ <;> rw [span]
  · exact (stands.current more).isMarked
  · exact Nat.le_refl _

theorem nests_malformed {diagnostic : Diagnostic} (malformed : node.diagnostic? = some diagnostic) :
    (lexemes first second).Nests source [node] := by
  intro high _ plain
  rw [(plain node (.head _)).diagnostic?_eq_none] at malformed
  cases malformed

/-- A last leaf that gets longer by a lexeme. -/
theorem nests_longer (trees : List Node) {longer : Node}
    (built : first.Builds (trees ++ [node]) second)
    (nests : (lexemes first second).Nests source (trees ++ [node])) (more : second.token ≠ .eof)
    (leaf : node.children = []) (full : node.isGap = false)
    (span : longer.span = ⟨node.span.start, second.cursor.current.span.stop⟩)
    (noChildren : longer.children = []) :
    (lexemes first second.advance).Nests source (trees ++ [longer]) := by
  intro high stands plain
  have isFull := Node.isFull_of_leaf leaf full
  have row := Row.of_builds built stands (nests high stands (List.forall_mem_append.mpr
    ⟨(List.forall_mem_append.mp plain).1, List.forall_mem_singleton.mpr (.full isFull)⟩))
  have lands := row.after.lands_advance more
  exact ⟨row.moves.trans row.after.laid (.lands lands),
    row.lengthen row.after more isFull span noChildren⟩

end Reading

open Reading

/-- A compound assignment: its target is read once, and stands in the tree twice. -/
theorem Row.compound {source : List Lexeme} {high : Nat} {first second : ParseState} {op : BinaryOp}
    {target value : Expr} (row : Row source high first [.expr target, .expr value] second)
    (parts : ∀ tree ∈ [Node.expr target, .expr value], tree.IsFull)
    (full : (Node.expr (Expr.join op target value)).IsFull) :
    Nested source
      [.expr (.assignment ⟨target.span.start, value.span.stop⟩ target (Expr.join op target value))]
      second.previous.offset := by
  have covers : first.Covers [Node.expr target, .expr value] second
      ⟨target.span.start, value.span.stop⟩ :=
    ⟨.inr ⟨.expr target, rfl, rfl⟩, .inr ⟨.expr value, rfl, rfl⟩⟩
  obtain ⟨marked, holds, stop⟩ := row.marked_of_covers covers parts nofun
  have join : (Node.expr (Expr.join op target value)).Nests source := row.parent marked holds full
  refine .single fun _ => ⟨.node marked ?_ ?_, stop⟩
  · exact List.forall_mem_cons.mpr
      ⟨holds _ (.head _), List.forall_mem_singleton.mpr (Span.holds_refl _)⟩
  · exact List.forall_mem_cons.mpr ⟨fun _ => row.nests _ (.head _) (parts _ (.head _)),
      List.forall_mem_singleton.mpr fun _ => join⟩

/-- A function around its head and its body. -/
theorem Row.function {source : List Lexeme} {high : Nat} {first second : ParseState} {head : Expr}
    {names : List Variable} {frame : FrameId} {body : Body}
    (row : Row source high first [.expr head, body.root] second)
    (isList : Grammar.parameters? head = some (names.map .var)) (full : body.root.IsFull) :
    Nested source
      [.expr (.function ⟨head.span.start, body.span.stop⟩ frame
        (Grammar.parameterNames frame (names.map .var)) body)] second.previous.offset := by
  have fullHead := Node.isFull_parameters isList
  have root : body.span.stop = body.root.span.stop := congrArg Span.stop body.span_root.symm
  have covers : first.Covers [Node.expr head, body.root] second ⟨head.span.start, body.span.stop⟩ :=
    ⟨.inr ⟨.expr head, rfl, rfl⟩, .inr ⟨body.root, rfl, root⟩⟩
  obtain ⟨marked, holds, stop⟩ := row.marked_of_covers covers
    (List.forall_mem_cons.mpr ⟨fullHead, List.forall_mem_singleton.mpr full⟩) nofun
  have params := (row.nests _ (.head _) fullHead).parameters isList frame
  refine .single fun _ => ⟨.node marked ?_ ?_, stop⟩
  · refine List.forall_mem_append.mpr
      ⟨fun param member => ?_, fun _ isBody => holds _ (.tail _ isBody)⟩
    exact (holds _ (.head _)).trans (params param member).2
  · exact List.forall_mem_append.mpr ⟨fun param member _ => (params param member).1,
      List.forall_mem_singleton.mpr fun _ => row.nests _ (.tail _ (.head _)) full⟩

theorem Derives.nests {reading : Reading} {trees : List Node} (derived : Derives reading trees)
    {source : List Lexeme} (wide : Lexeme.AllWide source) : reading.Nests source trees := by
  induction derived with
  | nothing _ => exact fun _ _ _ => ⟨.stays rfl rfl, .nil _ _⟩
  | sequence leftDerived rightDerived leftHypothesis rightHypothesis =>
      intro high stands plain
      obtain ⟨plainLeft, plainRight⟩ := List.forall_mem_append.mp plain
      have left := Row.of_builds leftDerived stands (leftHypothesis high stands plainLeft)
      have right := Row.of_builds rightDerived left.after (rightHypothesis high left.after plainRight)
      exact ⟨(left.and right).moves, (left.and right).toNested⟩
  | sign isSign =>
      exact fun _ stands _ => ⟨.lands (stands.lands_advance (Token.ne_eof_of_isSign isSign)), .nil _ _⟩
  | constant _ more | read more | declare more | identifier more => exact nests_leaf more rfl rfl
  | word _ derived more inductionHypothesis =>
      exact nests_longer _ derived inductionHypothesis more rfl rfl rfl rfl
  | path _ derived more inductionHypothesis =>
      exact nests_longer [] derived inductionHypothesis more rfl rfl rfl rfl
  | empty _ => exact fun _ _ _ => ⟨.stays rfl rfl, .single fun full => (full.not_gap rfl).elim⟩
  | omitted _ inductionHypothesis =>
      intro high stands plain
      obtain ⟨moves, nested⟩ := inductionHypothesis high stands (List.forall_mem_append.mpr
        ⟨plain, List.forall_mem_singleton.mpr (.missing _)⟩)
      exact ⟨moves, nested.init⟩
  | bad | missing | badEntry | missingEntry | spoilt | spoiltEntry | spoiltFunction =>
      exact nests_malformed rfl
  | node derived nonempty composite covers inductionHypothesis =>
      intro high stands plain
      have full := (plain _ (.head _)).isFull_of_composite composite
      have row := Row.of_builds derived stands (inductionHypothesis high stands full.plain_children)
      obtain ⟨marked, holds, stop⟩ := row.marked_of_covers covers (fun _ => full.child) nonempty
      exact ⟨row.moves, .single fun _ => ⟨row.parent marked holds full, stop⟩⟩
  | enclosed isSign derived composite span inductionHypothesis =>
      intro high stands plain
      have full := (plain _ (.head _)).isFull_of_composite composite
      have inner := Row.of_builds derived stands.advance
        (inductionHypothesis high stands.advance full.plain_children)
      obtain ⟨row, lands⟩ := inner.after_lexeme stands (Token.ne_eof_of_isSign isSign)
      exact ⟨row.moves, row.between lands span⟩
  | property derived span inductionHypothesis =>
      intro high stands plain
      have full := (plain _ (.head _)).isFull nofun
      have value := Row.of_builds derived stands.advance
        (inductionHypothesis high stands.advance full.plain_children)
      have more := (value.lands (.head _) (full.child (.head _))).token_ne_eof
      obtain ⟨row, lands⟩ := value.after_lexeme stands (token_ne_eof_of_advance more)
      exact ⟨row.moves, row.between lands span⟩
  | @compound _ _ _ op target value derived span inductionHypothesis =>
      intro high stands plain
      subst span
      have full : (Node.expr (Expr.join op target value)).IsFull :=
        ((plain _ (.head _)).isFull nofun).child (.tail _ (.head _))
      have row := Row.of_builds derived stands (inductionHypothesis high stands full.plain_children)
      exact ⟨row.moves, row.compound (fun _ => full.child) full⟩
  | @function _ second _ _ _ _ headDerived isList isArrow same bodyDerived headHypothesis
      bodyHypothesis =>
    intro high stands plain
    have full := ((plain _ (.head _)).isFull nofun).child (List.mem_append_right _ (.head _))
    obtain ⟨names, rfl⟩ := Grammar.exists_names_of_length same
    have head := Row.of_builds headDerived stands (headHypothesis high stands
      (List.forall_mem_singleton.mpr (.full (Node.isFull_parameters isList))))
    have entered := head.after.advance.withScope
      (second.scope.push.2.declareAll (Grammar.parameterNames second.scope.push.1 (names.map .var)))
    have body := Row.of_builds bodyDerived entered (bodyHypothesis high entered
      (List.forall_mem_singleton.mpr (.full full)))
    have arrow := (Row.of_withScope body).after_lexeme head.after (isArrow ▸ nofun)
    have row := head.and arrow.1
    exact ⟨row.moves.withScope _, row.function isList full⟩
  | @template state trees scope isTemplate derived inductionHypothesis =>
      intro high stands plain
      have full := (plain _ (.head _)).isFull nofun
      have more : state.token ≠ .eof := isTemplate ▸ nofun
      have mark := stands.current more
      obtain ⟨_, inside, _⟩ := stands.laid.advance
      have arranged := Derives.arranges derived _ _ inside
      have nests := inductionHypothesis _ _ inside
        (fun stream isSub => wide.marks fun _ => mark.occurs.sub isTemplate isSub) full.plain_children
      have moves := Moves.withScope (.lands (stands.lands_advance more)) scope
      refine ⟨moves, .single fun _ => ⟨.node mark.isMarked (fun child member => ?_) ?_, Nat.le_refl _⟩⟩
      · exact ⟨(arranged.start child member).1, arranged.stop child member⟩
      · exact fun child member _ => nests child member (full.child member)
  | noStreams => exact fun _ _ _ _ _ => nofun
  | stream _ _ firstHypothesis restHypothesis =>
      intro low high laid marks plain
      obtain ⟨plainFirst, plainRest⟩ := List.forall_mem_cons.mp plain
      cases laid with
      | cons ends first rest =>
          obtain ⟨started, _⟩ := laid_start _ first ends
          obtain ⟨_, nested⟩ := firstHypothesis _ ⟨started, marks _ (.head _)⟩
            (List.forall_mem_singleton.mpr plainFirst)
          exact List.forall_mem_cons.mpr ⟨nested.nests _ (.head _),
            restHypothesis _ _ rest (fun stream member => marks stream (.tail _ member)) plainRest⟩
  | element isLess isTag derived closes span inductionHypothesis =>
      intro high stands plain
      have full := (plain _ (.head _)).isFull nofun
      have parts := Row.of_builds derived stands.advance (inductionHypothesis high stands.advance
        fun tree member => full.plain_children tree (isTag.subset _ member))
      have inner := parts.closed closes
      obtain ⟨row, lands⟩ := inner.1.after_lexeme stands (isLess ▸ nofun)
      refine ⟨row.moves, ?_⟩
      cases isTag with
      | named _ => exact row.between lands span
      | fragment => exact row.fragment lands span stands.laid.step.2 (Nat.le_of_lt inner.2.wide)
  | @letIn _ _ span name value derived _ same inductionHypothesis =>
      intro high stands plain
      have full := (plain _ (.head _)).isFull nofun
      have children := Node.children_letIn span name value
      rw [← children] at derived inductionHypothesis
      have row := Row.of_builds derived stands (inductionHypothesis high stands full.plain_children)
      have isName : Node.expr (.var name) ∈ (Node.stmt (.letIn span name value)).children :=
        children ▸ .head _
      exact ⟨row.moves, row.between (row.lands isName (full.child isName)) same⟩
  | @loop _ _ _ _ span key value loopSource body headDerived _ skips bodyDerived same headHypothesis
      bodyHypothesis =>
    intro high stands plain
    have full := (plain _ (.head _)).isFull nofun
    have children := Node.children_forIn span key value loopSource body
    have parts := full.plain_children
    rw [children] at parts
    obtain ⟨plainHead, plainBody⟩ := List.forall_mem_append.mp parts
    have head := Row.of_builds headDerived stands (headHypothesis high stands plainHead)
    have skipped := (head.after.skips skips).1
    have inBody := Row.of_builds bodyDerived skipped (bodyHypothesis high skipped plainBody)
    -- There is a body, so no end of the source was passed over before it.
    have more := (inBody.lands (.head _) ((plainBody _ (.head _)).isFull nofun)).token_ne_eof
    have row := head.and (inBody.after_skips head.after skips more)
    rw [← children] at row
    have isBody : .stmt (.block body) ∈
        (Node.stmt (.forIn span key value loopSource body)).children :=
      children ▸ List.mem_append_right _ (.head _)
    exact ⟨row.moves, row.between (row.lands isBody (full.child isBody)) same⟩

/-! ## Sources -/

/-- The spans of all nodes of some trees nest: they lie within a source of a given length, and hold the
spans of the children.  Each starts with a significant lexeme and stops with one, behind the start, unless
the node is the tag of a fragment. -/
structure SpansNest (nodes : List Node) (lexemes : List Lexeme) (length : Nat) : Prop where
  within : ∀ node ∈ nodes,
    node.span.start.offset ≤ node.span.stop.offset ∧ node.span.stop.offset ≤ length
  marked : ∀ node ∈ nodes, node.span.IsMarked lexemes ∨ ∃ outer ∈ nodes, outer.IsFragment node
  holds : ∀ node ∈ nodes, ∀ child ∈ node.children, node.span.Holds child.span

theorem SpansNest.of_within_marked {nodes : List Node} {lexemes : List Lexeme} {length : Nat}
    (within : ∀ span : Span, span.IsMarked lexemes → span.stop.offset ≤ length)
    (marked : ∀ node ∈ nodes, node.span.IsMarked lexemes ∨ ∃ outer ∈ nodes, outer.IsFragment node)
    (holds : ∀ node ∈ nodes, ∀ child ∈ node.children, node.span.Holds child.span) :
    SpansNest nodes lexemes length := by
  refine ⟨fun node member => ?_, marked, holds⟩
  rcases marked node member with own | ⟨outer, isOuter, span, point, attributes, children, rfl, rfl⟩
  · exact ⟨Nat.le_of_lt own.wide, within _ own⟩
  · -- The fragment is no tag itself, so it lies within the source, and the place of its tag in it.
    refine ⟨Nat.le_refl _, Nat.le_trans (holds _ isOuter _ (.head _)).2 ?_⟩
    rcases marked _ isOuter with own | ⟨_, _, _, _, _, _, _, isTag⟩
    · exact within _ own
    · cases isTag

theorem ParseState.Builds.spansNest {file : String} {bytes : List UInt8} {scope : Scope}
    {after : ParseState} {trees : List Node}
    (built : (start (Lexeme.scan file bytes) scope).Builds trees after)
    (full : ∀ node ∈ trees.flatMap Node.walk, node.isGap = false) :
    SpansNest (trees.flatMap Node.walk) (Lexeme.scan file bytes) bytes.length := by
  have wide : Lexeme.AllWide (Lexeme.scan file bytes) :=
    fun _ occurs more => (Lexeme.bounds_of_occurs_scan occurs more).1
  have each : ∀ tree ∈ trees, tree.IsFull :=
    fun tree member node below => full node (List.mem_flatMap.mpr ⟨tree, member, below⟩)
  obtain ⟨high, laid⟩ := laid_start_scan file bytes scope
  obtain ⟨_, nested⟩ := Derives.nests built wide high ⟨laid, wide.marks fun _ => .here⟩
    fun tree member => .full (each tree member)
  have walk : ∀ node ∈ trees.flatMap Node.walk,
      (node.span.IsMarked (Lexeme.scan file bytes) ∨
        ∃ outer ∈ trees.flatMap Node.walk, outer.IsFragment node) ∧
          ∀ child ∈ node.children, node.span.Holds child.span := by
    intro node member
    obtain ⟨tree, isTree, below⟩ := List.mem_flatMap.mp member
    obtain ⟨own, holds⟩ := (nested.nests tree isTree (each tree isTree)).walk node below
    refine ⟨own.imp_right fun ⟨outer, found, isTag⟩ => ⟨outer, ?_, isTag⟩, holds⟩
    exact List.mem_flatMap.mpr ⟨tree, isTree, found⟩
  refine .of_within_marked (fun span own => ?_) (fun node member => (walk node member).1)
    fun node member => (walk node member).2
  obtain ⟨last, mark, same⟩ := own.stop
  rw [same]
  exact (Lexeme.bounds_of_occurs_scan mark.occurs mark.more).2

/-- In an expression or a program in which nothing is missing or malformed, the spans nest. -/
theorem spans_nest (source : Nat) :
    (∀ text : String,
      let nodes := (Node.expr (parseExpression source text)).walk
      (∀ node ∈ nodes, node.isGap = false) →
        SpansNest nodes (Lexeme.scanText text) text.toUTF8.toList.length) ∧
    ∀ (file : String) (bytes : List UInt8),
      let nodes := Stmt.visitAll (fun _ => true) (parseProgram source file bytes)
      (∀ node ∈ nodes, node.isGap = false) →
        SpansNest nodes (Lexeme.scan file bytes) bytes.length := by
  constructor
  · intro text nodes full
    obtain ⟨_, built, _⟩ := Parsed.expression_builds source (Lexeme.scanText text)
    have same : nodes = [Node.expr (parseExpression source text)].flatMap Node.walk :=
      (List.flatMap_singleton _ _).symm
    rw [same] at full ⊢
    exact built.spansNest full
  · intro file bytes nodes full
    obtain ⟨_, built, _⟩ := Parsed.statements_build source (Lexeme.scan file bytes)
    have same : nodes = ((parseProgram source file bytes).map .stmt).flatMap Node.walk :=
      Stmt.visitAll_eq_flatMap _ _
    rw [same] at full ⊢
    exact built.spansNest full

/-- An expression with an element in a template in a fragment, and a program with a compound assignment
and a function. -/
theorem spans_of_fragment_and_compound_nest :
    let text := "<><b k=\"v\">one two</b>\x7b`n = $\x7bx y\x7d`\x7d</>"
    let bytes := "x += 1; let y = (n, m) => \x7b return; \x7d".toUTF8.toList
    let tree := (Node.expr (parseExpression 0 text)).walk
    let nodes := Stmt.visitAll (fun _ => true) (parseProgram 0 "" bytes)
    ((∀ node ∈ tree, node.isGap = false) ∧
      SpansNest tree (Lexeme.scanText text) text.toUTF8.toList.length) ∧
    (∀ node ∈ nodes, node.isGap = false) ∧ SpansNest nodes (Lexeme.scan "" bytes) bytes.length := by
  intro text bytes tree nodes
  have inTree : ∀ node ∈ tree, node.isGap = false := by
    decide +kernel
  have inNodes : ∀ node ∈ nodes, node.isGap = false := by
    decide +kernel
  exact ⟨⟨inTree, (spans_nest 0).1 text inTree⟩, inNodes, (spans_nest 0).2 "" bytes inNodes⟩

end Reckon
