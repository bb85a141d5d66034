import Reckon.Proofs.Lexeme.Layout
import Reckon.Proofs.Parsing.BuildsStatement

/-!
# The order of diagnostics

Lexemes stand one after the other, so trees that are read one after the other do too, and with them what
is malformed.  A compound assignment is the exception: its target is read once and stands in the tree
twice.
-/

namespace Reckon

/-! ## Trees -/

namespace Node

/-- All nodes of a tree. -/
def walk (node : Node) : List Node :=
  node.visit fun _ => true

/-- The diagnostics of a tree. -/
def diagnostics (node : Node) : List Diagnostic :=
  node.walk.filterMap diagnostic?

theorem walk_eq (node : Node) : node.walk = node :: node.children.flatMap walk := by
  rw [walk, visit_eq, above, if_pos rfl]
  rfl

theorem diagnostics_eq (node : Node) :
    node.diagnostics = node.diagnostic?.toList ++ node.children.flatMap diagnostics := by
  rw [diagnostics, walk_eq, List.filterMap_cons, List.filterMap_flatMap]
  cases node.diagnostic? <;> rfl

theorem diagnostics_ne_nil_of_child {node child : Node} (member : child ∈ node.children)
    (reported : child.diagnostics ≠ []) : node.diagnostics ≠ [] := by
  rw [diagnostics_eq]
  intro silent
  have sound := List.flatMap_eq_nil_iff.mp (List.append_eq_nil_iff.mp silent).2
  exact reported (sound child member)

theorem span_of_diagnostic? {node : Node} {diagnostic : Diagnostic}
    (found : node.diagnostic? = some diagnostic) : diagnostic.span = node.span := by
  unfold diagnostic? at found
  split at found <;> cases found <;> rfl

/-- No compound assignment of the tree has a malformed target. -/
def HasSoundTargets (node : Node) : Prop :=
  ∀ span target op value, .expr (.assignment span target (Expr.join op target value)) ∈ node.walk →
    target.diagnostics = []

theorem mem_walk_self (node : Node) : node ∈ node.walk := by
  rw [walk_eq]
  exact .head _

theorem diagnostics_compound {span : Span} {op : BinaryOp} {target value : Expr}
    (sound : target.diagnostics = []) :
    (expr (.assignment span target (Expr.join op target value))).diagnostics =
      (expr value).diagnostics := by
  have own : (expr target).diagnostics = [] := sound
  simp [diagnostics_eq (expr (.assignment ..)), diagnostics_eq (expr (.binary ..)), children,
    Expr.join, own, diagnostic?]

theorem HasSoundTargets.child {node child : Node} (sound : node.HasSoundTargets)
    (member : child ∈ node.children) : child.HasSoundTargets := by
  intro span target op value below
  refine sound span target op value ?_
  rw [walk_eq]
  exact .tail _ (List.mem_flatMap.mpr ⟨child, member, below⟩)

theorem hasSoundTargets_of_leaf {node : Node} (noChildren : node.children = []) :
    node.HasSoundTargets := by
  intro span target op value member
  rw [walk_eq, noChildren, List.flatMap_nil] at member
  rw [← List.mem_singleton.mp member] at noChildren
  cases noChildren

theorem diagnostics_variableNodes (names : List Variable) :
    (variableNodes names).flatMap diagnostics = [] := by
  refine List.flatMap_eq_nil_iff.mpr fun node member => ?_
  obtain ⟨name, _, rfl⟩ := List.mem_map.mp member
  rw [diagnostics_eq]
  rfl

theorem diagnostic?_of_isComposite {node : Node} (composite : node.isComposite = true) :
    node.diagnostic? = none := by
  unfold diagnostic?
  split
  · cases composite
  · cases composite
  · rfl

end Node

/-! ## Order -/

/-- Each diagnostic starts where the one before it starts, or later. -/
def Diagnostic.InOrder (diagnostics : List Diagnostic) : Prop :=
  diagnostics.Pairwise fun earlier later => earlier.span.start.offset ≤ later.span.start.offset

/-- Diagnostics start between two offsets, in order. -/
structure Ordered (low : Nat) (diagnostics : List Diagnostic) (high : Nat) : Prop where
  within : ∀ diagnostic ∈ diagnostics,
    low ≤ diagnostic.span.start.offset ∧ diagnostic.span.start.offset ≤ high
  sorted : Diagnostic.InOrder diagnostics

namespace Ordered

variable {low middle high : Nat} {left right : List Diagnostic}

theorem nil (low high : Nat) : Ordered low [] high :=
  ⟨fun _ member => (nomatch member), .nil⟩

theorem append (first : Ordered low left middle) (second : Ordered middle right high)
    (before : low ≤ middle) (after : middle ≤ high) : Ordered low (left ++ right) high where
  within := by
    refine List.forall_mem_append.mpr ⟨fun diagnostic member => ?_, fun diagnostic member => ?_⟩
    · exact ⟨(first.within _ member).1, Nat.le_trans (first.within _ member).2 after⟩
    · exact ⟨Nat.le_trans before (second.within _ member).1, (second.within _ member).2⟩
  sorted := by
    refine List.pairwise_append.mpr ⟨first.sorted, second.sorted, fun earlier isLeft later isRight => ?_⟩
    exact Nat.le_trans (first.within _ isLeft).2 (second.within _ isRight).1

theorem mono {lower higher : Nat} (ordered : Ordered low left high) (lowerLe : lower ≤ low)
    (leHigher : high ≤ higher) : Ordered lower left higher where
  within _ member :=
    ⟨Nat.le_trans lowerLe (ordered.within _ member).1,
      Nat.le_trans (ordered.within _ member).2 leHigher⟩
  sorted := ordered.sorted

end Ordered

/-- Trees start between two offsets and stop before the second one, and their diagnostics are in order
unless a compound assignment repeats some of them. -/
structure Arranged (low : Nat) (trees : List Node) (high : Nat) : Prop where
  le : low ≤ high
  start : ∀ tree ∈ trees, low ≤ tree.span.start.offset ∧ tree.span.start.offset ≤ high
  stop : ∀ tree ∈ trees, tree.span.stop.offset ≤ high
  ordered : (∀ tree ∈ trees, tree.HasSoundTargets) →
    Ordered low (trees.flatMap Node.diagnostics) high

namespace Arranged

variable {low middle high : Nat} {left right : List Node} {node : Node}

theorem nil (le : low ≤ high) : Arranged low [] high :=
  ⟨le, nofun, nofun, fun _ => .nil low high⟩

theorem append (first : Arranged low left middle) (second : Arranged middle right high) :
    Arranged low (left ++ right) high where
  le := Nat.le_trans first.le second.le
  start := by
    refine List.forall_mem_append.mpr ⟨fun tree member => ?_, fun tree member => ?_⟩
    · exact ⟨(first.start _ member).1, Nat.le_trans (first.start _ member).2 second.le⟩
    · exact ⟨Nat.le_trans first.le (second.start _ member).1, (second.start _ member).2⟩
  stop := by
    refine List.forall_mem_append.mpr ⟨fun tree member => ?_, second.stop⟩
    exact Nat.le_trans (first.stop _ member) second.le
  ordered sound := by
    obtain ⟨soundLeft, soundRight⟩ := List.forall_mem_append.mp sound
    rw [List.flatMap_append]
    exact (first.ordered soundLeft).append (second.ordered soundRight) first.le second.le

theorem mono {lower higher : Nat} (arranged : Arranged low left high) (lowerLe : lower ≤ low)
    (leHigher : high ≤ higher) : Arranged lower left higher where
  le := Nat.le_trans lowerLe (Nat.le_trans arranged.le leHigher)
  start _ member :=
    ⟨Nat.le_trans lowerLe (arranged.start _ member).1,
      Nat.le_trans (arranged.start _ member).2 leHigher⟩
  stop _ member := Nat.le_trans (arranged.stop _ member) leHigher
  ordered sound := (arranged.ordered sound).mono lowerLe leHigher

/-- One tree whose span and whose diagnostics stand between two offsets. -/
theorem single (le : low ≤ high) (start : low ≤ node.span.start.offset)
    (startLe : node.span.start.offset ≤ high) (stop : node.span.stop.offset ≤ high)
    (ordered : node.HasSoundTargets → Ordered low node.diagnostics high) :
    Arranged low [node] high where
  le := le
  start := List.forall_mem_singleton.mpr ⟨start, startLe⟩
  stop := List.forall_mem_singleton.mpr stop
  ordered sound := by
    rw [List.flatMap_singleton]
    exact ordered (sound node (.head _))

/-- A node without children. -/
theorem leaf (le : low ≤ high) (start : low ≤ node.span.start.offset)
    (startLe : node.span.start.offset ≤ high) (stop : node.span.stop.offset ≤ high)
    (noChildren : node.children = []) : Arranged low [node] high := by
  refine single le start startLe stop fun _ => ?_
  rw [Node.diagnostics_eq, noChildren, List.flatMap_nil, List.append_nil]
  cases found : node.diagnostic? with
  | none => exact .nil low high
  | some diagnostic =>
      refine ⟨List.forall_mem_singleton.mpr ?_, List.pairwise_singleton _ _⟩
      rw [Node.span_of_diagnostic? found]
      exact ⟨start, startLe⟩

/-- A tree that may be left out. -/
theorem init (arranged : Arranged low (left ++ [node]) high) (sound : node.HasSoundTargets) :
    Arranged low left high where
  le := arranged.le
  start := (List.forall_mem_append.mp arranged.start).1
  stop := (List.forall_mem_append.mp arranged.stop).1
  ordered soundLeft := by
    have ordered := arranged.ordered (List.forall_mem_append.mpr
      ⟨soundLeft, List.forall_mem_singleton.mpr sound⟩)
    rw [List.flatMap_append] at ordered
    exact ⟨(List.forall_mem_append.mp ordered.within).1, (List.pairwise_append.mp ordered.sorted).1⟩

/-- A last leaf that gets longer. -/
theorem lengthen {longer : Node} (arranged : Arranged low (left ++ [node]) middle)
    (le : middle ≤ high) (same : longer.span.start = node.span.start)
    (stop : longer.span.stop.offset ≤ high) (leaf : node.children = [])
    (silent : longer.diagnostics = []) : Arranged low (left ++ [longer]) high where
  le := Nat.le_trans arranged.le le
  start := by
    obtain ⟨others, own⟩ := List.forall_mem_append.mp (arranged.mono (Nat.le_refl _) le).start
    refine List.forall_mem_append.mpr ⟨others, List.forall_mem_singleton.mpr ?_⟩
    rw [same]
    exact own node (.head _)
  stop := by
    obtain ⟨others, _⟩ := List.forall_mem_append.mp (arranged.mono (Nat.le_refl _) le).stop
    exact List.forall_mem_append.mpr ⟨others, List.forall_mem_singleton.mpr stop⟩
  ordered sound := by
    have others := (arranged.init (Node.hasSoundTargets_of_leaf leaf)).mono (Nat.le_refl _) le
    rw [List.flatMap_append, List.flatMap_singleton, silent, List.append_nil]
    exact others.ordered (List.forall_mem_append.mp sound).1

/-- A compound assignment: its target is read once, and stands in the tree twice. -/
theorem compound {span : Span} {op : BinaryOp} {target value : Expr}
    (parts : Arranged low [.expr target, .expr value] high)
    (start : low ≤ span.start.offset) (startLe : span.start.offset ≤ high)
    (stop : span.stop.offset ≤ high) :
    Arranged low [.expr (.assignment span target (Expr.join op target value))] high := by
  refine single parts.le start startLe stop fun sound => ?_
  have joined := sound.child (.tail _ (.head _))
  have ordered := parts.ordered (List.forall_mem_cons.mpr
    ⟨sound.child (.head _), List.forall_mem_singleton.mpr (joined.child (.tail _ (.head _)))⟩)
  have spared : (Node.expr target).diagnostics = [] := sound _ _ _ _ (Node.mem_walk_self _)
  rw [Node.diagnostics_compound spared]
  rw [List.flatMap_cons, List.flatMap_singleton, spared, List.nil_append] at ordered
  exact ordered

/-- A node that stands where its children do. -/
theorem parent (children : Arranged low node.children high) (start : low ≤ node.span.start.offset)
    (startLe : node.span.start.offset ≤ high) (stop : node.span.stop.offset ≤ high)
    (wellFormed : node.diagnostic? = none) : Arranged low [node] high := by
  refine single children.le start startLe stop fun sound => ?_
  rw [Node.diagnostics_eq, wellFormed]
  exact children.ordered fun _ => sound.child

end Arranged

/-! ## States -/

namespace ParseState

/-- Where the current lexeme starts. -/
def offset (state : ParseState) : Nat :=
  state.cursor.current.span.start.offset

/-- The lexemes from the current one on stand after what was read, up to an offset. -/
structure Laid (state : ParseState) (high : Nat) : Prop where
  previous : state.previous.offset ≤ state.offset
  ahead : Lexeme.Laid state.offset (state.cursor.ahead ++ [state.cursor.final]) high

variable {state : ParseState} {high : Nat}

theorem Laid.offset_le (laid : state.Laid high) : state.offset ≤ high :=
  laid.ahead.le

theorem ahead_concat_final (state : ParseState) :
    ∃ rest, state.cursor.ahead ++ [state.cursor.final] = state.cursor.current :: rest := by
  unfold Cursor.current
  cases state.cursor.ahead with
  | nil => exact ⟨[], rfl⟩
  | cons lexeme rest => exact ⟨rest ++ [state.cursor.final], rfl⟩

/-- Lexemes that stand from an offset on stand from the current one on. -/
theorem laid_of_ahead (state : ParseState) {low : Nat}
    (ahead : Lexeme.Laid low (state.cursor.ahead ++ [state.cursor.final]) high) :
    Lexeme.Laid state.offset (state.cursor.ahead ++ [state.cursor.final]) high ∧
      low ≤ state.offset := by
  obtain ⟨rest, shape⟩ := state.ahead_concat_final
  rw [shape] at ahead ⊢
  cases ahead with
  | cons before inside point others => exact ⟨.cons (Nat.le_refl _) inside point others, before⟩

/-- The current lexeme stands before the next one, and its replacements stand in it. -/
theorem Laid.advance (laid : state.Laid high) :
    state.advance.Laid high ∧
      Lexeme.LaidAll state.offset state.cursor.current.subs state.cursor.current.span.stop.offset ∧
      state.cursor.current.span.stop.offset ≤ state.advance.offset := by
  have moved {rest : List Lexeme}
      (inside : Lexeme.LaidAll state.offset state.cursor.current.subs
        state.cursor.current.span.stop.offset)
      (shape : state.advance.cursor.ahead ++ [state.advance.cursor.final] = rest)
      (others : Lexeme.Laid state.cursor.current.span.stop.offset rest high) :
      state.advance.Laid high ∧
        Lexeme.LaidAll state.offset state.cursor.current.subs
          state.cursor.current.span.stop.offset ∧
        state.cursor.current.span.stop.offset ≤ state.advance.offset := by
    obtain ⟨ahead, previous⟩ := state.advance.laid_of_ahead (shape ▸ others)
    exact ⟨⟨previous, ahead⟩, inside, previous⟩
  have ahead := laid.ahead
  cases lexemes : state.cursor.ahead with
  | nil =>
      have isFinal : state.cursor.current = state.cursor.final := by
        rw [Cursor.current, lexemes, List.headD_nil]
      have isEnd : state.cursor.current.token = .eof := isFinal ▸ state.cursor.final_eq_eof
      rw [lexemes, List.nil_append, ← isFinal] at ahead
      cases ahead with
      | cons before inside point rest =>
          have noWidth := congrArg Position.offset (point isEnd)
          refine moved inside (show _ = [state.cursor.current] from ?_) ?_
          · rw [ParseState.advance, Cursor.ahead_advance, Cursor.final_advance, lexemes, List.tail_nil,
              List.nil_append, isFinal]
          · exact .cons (Nat.le_of_eq noWidth) inside point rest
  | cons lexeme rest =>
      have isCurrent : state.cursor.current = lexeme := by
        rw [Cursor.current, lexemes, List.headD_cons]
      rw [lexemes, List.cons_append, ← isCurrent] at ahead
      cases ahead with
      | cons before inside point others =>
          refine moved inside ?_ others
          rw [ParseState.advance, Cursor.ahead_advance, Cursor.final_advance, lexemes, List.tail_cons]

end ParseState

/-- What a cursor reads is part of the stream, if this has an end. -/
theorem Cursor.aheadOf_concat_finalOf_sublist {lexemes : List Lexeme}
    (ends : (lexemes.find? (·.token.isEof)).isSome) :
    (aheadOf lexemes ++ [finalOf lexemes]).Sublist lexemes := by
  obtain ⟨final, found⟩ := Option.isSome_iff_exists.mp ends
  have split : (lexemes.takeWhile (!·.token.isEof) ++ [final]).Sublist lexemes := by
    induction lexemes with
    | nil => cases found
    | cons lexeme rest inductionHypothesis =>
        cases isEnd : lexeme.token.isEof with
        | true =>
            simp only [List.find?_cons, isEnd] at found
            cases found
            rw [List.takeWhile_cons_of_neg (by simp [isEnd]), List.nil_append]
            exact List.singleton_sublist.mpr (.head _)
        | false =>
            simp only [List.find?_cons, isEnd] at found
            rw [List.takeWhile_cons_of_pos (by simp [isEnd])]
            exact (inductionHypothesis (found ▸ rfl) found).cons_cons _
  have isFinal : finalOf lexemes = final := by
    rw [finalOf, found]
  rw [isFinal]
  exact (List.filter_sublist.append_right _).trans split

/-- The start of a stream. -/
theorem ParseState.laid_start {low high : Nat} {lexemes : List Lexeme} (scope : Scope)
    (laid : Lexeme.Laid low lexemes high) (ends : (lexemes.find? (·.token.isEof)).isSome) :
    (start lexemes scope).Laid high ∧ low ≤ (start lexemes scope).offset := by
  have read := laid.sublist (Cursor.aheadOf_concat_finalOf_sublist ends)
  obtain ⟨ahead, before⟩ := (start lexemes scope).laid_of_ahead read
  exact ⟨⟨Nat.le_refl _, ahead⟩, before⟩

/-! ## Reading -/

namespace ParseState

variable {first second third state : ParseState} {high : Nat} {trees : List Node}

theorem Laid.step (laid : state.Laid high) :
    state.advance.Laid high ∧ state.offset ≤ state.advance.offset := by
  obtain ⟨later, inside, before⟩ := laid.advance
  exact ⟨later, Nat.le_trans inside.le before⟩

theorem Skips.laid (skips : Skips first second) (laid : first.Laid high) :
    second.Laid high ∧ first.offset ≤ second.offset := by
  induction skips with
  | refl => exact ⟨laid, Nat.le_refl _⟩
  | more _ inductionHypothesis =>
      obtain ⟨between, before⟩ := inductionHypothesis
      exact ⟨between.step.1, Nat.le_trans before between.step.2⟩

/-- A leaf in place of a lexeme. -/
theorem Laid.arranged_lexeme (laid : state.Laid high) {node : Node}
    (span : node.span = state.cursor.current.span) (noChildren : node.children = []) :
    Arranged state.offset [node] state.advance.offset := by
  obtain ⟨_, inside, before⟩ := laid.advance
  have start : node.span.start.offset = state.offset := by
    rw [span]
    rfl
  refine .leaf laid.step.2 (Nat.le_of_eq start.symm) ?_ (span ▸ before) noChildren
  exact start ▸ laid.step.2

/-- A leaf without width. -/
theorem arranged_point {node : Node} (span : node.span = .point state.cursor.current.span.start)
    (noChildren : node.children = []) : Arranged state.offset [node] state.offset := by
  have start : node.span.start.offset = state.offset := by
    rw [span]
    rfl
  have stop : node.span.stop.offset = state.offset := by
    rw [span]
    rfl
  exact .leaf (Nat.le_refl _) (Nat.le_of_eq start.symm) (Nat.le_of_eq start) (Nat.le_of_eq stop)
    noChildren

/-- A tag stands before what is read after it. -/
theorem ReadsTag.arranged {tag : Expr} {read more : List Node} {after : Nat}
    (isTag : state.ReadsTag tag read) (arranged : Arranged state.offset (read ++ more) after) :
    Arranged state.offset (.expr tag :: more) after := by
  cases isTag with
  | fragment => exact (arranged_point rfl rfl).append arranged
  | named _ => exact arranged

/-- A construct stands where its lexemes do. -/
theorem Covers.within {span : Span} (covers : first.Covers trees third span)
    (arranged : Arranged first.offset trees second.offset) (le : second.offset ≤ third.offset)
    (laid : third.Laid high) :
    (first.offset ≤ span.start.offset ∧ span.start.offset ≤ third.offset) ∧
      span.stop.offset ≤ third.offset := by
  constructor
  · rcases covers.start with lexeme | ⟨tree, isHead, same⟩
    · rw [lexeme]
      exact ⟨Nat.le_refl _, Nat.le_trans arranged.le le⟩
    · rw [same]
      obtain ⟨above, below⟩ := arranged.start tree (List.mem_of_head? isHead)
      exact ⟨above, Nat.le_trans below le⟩
  · rcases covers.stop with lexeme | ⟨tree, isLast, same⟩
    · rw [lexeme]
      exact laid.previous
    · rw [same]
      exact Nat.le_trans (arranged.stop tree (List.mem_of_getLast? isLast)) le

end ParseState

theorem Body.span_root (body : Body) : body.root.span = body.span := by
  cases body <;> rfl

open ParseState

/-- Trees stand where they are read, if the lexemes stand one after the other. -/
def Reading.Arranges : Reading → List Node → Prop
  | lexemes first second, trees => ∀ high, first.Laid high →
    second.Laid high ∧ Arranged first.offset trees second.offset
  | streams _ subs _, trees => ∀ low high, Lexeme.LaidAll low subs high →
    Arranged low trees high

theorem Derives.arranges {reading : Reading} {trees : List Node} (derived : Derives reading trees) :
    reading.Arranges trees := by
  induction derived with
  | nothing state => exact fun high laid => ⟨laid, .nil (Nat.le_refl _)⟩
  | sequence _ _ leftHypothesis rightHypothesis =>
      intro high laid
      obtain ⟨between, left⟩ := leftHypothesis high laid
      obtain ⟨later, right⟩ := rightHypothesis high between
      exact ⟨later, left.append right⟩
  | sign _ => exact fun high laid => ⟨laid.step.1, .nil laid.step.2⟩
  | constant _ _ => exact fun high laid => ⟨laid.step.1, laid.arranged_lexeme rfl rfl⟩
  | read _ => exact fun high laid => ⟨laid.step.1, laid.arranged_lexeme rfl rfl⟩
  | declare _ =>
      intro high laid
      obtain ⟨later, _⟩ := laid.step
      exact ⟨⟨later.previous, later.ahead⟩, laid.arranged_lexeme rfl rfl⟩
  | identifier _ => exact fun high laid => ⟨laid.step.1, laid.arranged_lexeme rfl rfl⟩
  | word longer _ _ inductionHypothesis =>
      intro high laid
      obtain ⟨between, arranged⟩ := inductionHypothesis high laid
      have step := between.step
      refine ⟨step.1, arranged.lengthen step.2 rfl between.advance.2.2 rfl ?_⟩
      rw [Node.diagnostics_eq]
      rfl
  | path longer _ _ inductionHypothesis =>
      intro high laid
      obtain ⟨between, arranged⟩ := inductionHypothesis high laid
      have step := between.step
      have last : Arranged _ ([] ++ [_]) _ := arranged
      refine ⟨step.1, last.lengthen step.2 rfl between.advance.2.2 rfl ?_⟩
      rw [Node.diagnostics_eq]
      rfl
  | empty _ => exact fun high laid => ⟨laid, arranged_point rfl rfl⟩
  | omitted _ inductionHypothesis =>
      intro high laid
      obtain ⟨later, arranged⟩ := inductionHypothesis high laid
      exact ⟨later, arranged.init (Node.hasSoundTargets_of_leaf rfl)⟩
  | bad _ _ inductionHypothesis =>
      intro high laid
      obtain ⟨between, arranged⟩ := inductionHypothesis high laid
      exact ⟨between.step.1, (between.arranged_lexeme rfl rfl).mono arranged.le (Nat.le_refl _)⟩
  | missing _ _ => exact fun high laid => ⟨laid, arranged_point rfl rfl⟩
  | badEntry _ _ => exact fun high laid => ⟨laid.step.1, laid.arranged_lexeme rfl rfl⟩
  | missingEntry _ _ => exact fun high laid => ⟨laid, arranged_point rfl rfl⟩
  | spoilt _ _ skips covers inductionHypothesis =>
      intro high laid
      obtain ⟨between, arranged⟩ := inductionHypothesis high laid
      obtain ⟨later, le⟩ := skips.laid between
      obtain ⟨⟨start, startLe⟩, stop⟩ := covers.within arranged le later
      exact ⟨later, .leaf (Nat.le_trans arranged.le le) start startLe stop rfl⟩
  | spoiltEntry _ skips =>
      intro high laid
      obtain ⟨between, le⟩ := skips.laid laid
      exact ⟨between.step.1, (between.arranged_lexeme rfl rfl).mono le (Nat.le_refl _)⟩
  | node _ _ composite covers inductionHypothesis =>
      intro high laid
      obtain ⟨later, arranged⟩ := inductionHypothesis high laid
      obtain ⟨⟨start, startLe⟩, stop⟩ := covers.within arranged (Nat.le_refl _) later
      exact ⟨later, arranged.parent start startLe stop (Node.diagnostic?_of_isComposite composite)⟩
  | enclosed _ _ composite span inductionHypothesis =>
      intro high laid
      obtain ⟨later, arranged⟩ := inductionHypothesis high laid.step.1
      have whole := arranged.mono laid.step.2 (Nat.le_refl _)
      refine ⟨later, whole.parent ?_ ?_ ?_ (Node.diagnostic?_of_isComposite composite)⟩ <;> rw [span]
      · exact Nat.le_refl _
      · exact whole.le
      · exact later.previous
  | property _ span inductionHypothesis =>
      intro high laid
      obtain ⟨later, arranged⟩ := inductionHypothesis high laid.step.1
      have whole := arranged.mono laid.step.2 (Nat.le_refl _)
      subst span
      exact ⟨later, whole.parent (Nat.le_refl _) whole.le later.previous rfl⟩
  | compound _ span inductionHypothesis =>
      intro high laid
      obtain ⟨later, arranged⟩ := inductionHypothesis high laid
      obtain ⟨start, startLe⟩ := arranged.start _ (.head _)
      have stop := arranged.stop _ (.tail _ (.head _))
      subst span
      exact ⟨later, arranged.compound start startLe stop⟩
  | function _ _ _ _ _ headHypothesis bodyHypothesis =>
      intro high laid
      obtain ⟨between, head⟩ := headHypothesis high laid
      obtain ⟨entered, le⟩ := between.step
      obtain ⟨later, body⟩ := bodyHypothesis high ⟨entered.previous, entered.ahead⟩
      have whole := Nat.le_trans le body.le
      obtain ⟨start, startLe⟩ := head.start _ (.head _)
      have stop := body.stop _ (.head _)
      rw [Body.span_root] at stop
      refine ⟨⟨later.previous, later.ahead⟩, .single (Nat.le_trans head.le whole) start
        (Nat.le_trans startLe whole) stop fun sound => ?_⟩
      rw [Node.diagnostics_eq, Node.children, List.flatMap_append, Node.diagnostics_variableNodes]
      have ordered := body.ordered (List.forall_mem_singleton.mpr
        (sound.child (List.mem_append_right _ (.head _))))
      exact ordered.mono (Nat.le_trans head.le le) (Nat.le_refl _)
  | spoiltFunction _ _ _ _ headHypothesis bodyHypothesis =>
      intro high laid
      obtain ⟨between, head⟩ := headHypothesis high laid
      obtain ⟨entered, le⟩ := between.step
      obtain ⟨later, body⟩ := bodyHypothesis high ⟨entered.previous, entered.ahead⟩
      have whole := Nat.le_trans le body.le
      obtain ⟨start, startLe⟩ := head.start _ (.head _)
      have stop := body.stop _ (.head _)
      rw [Body.span_root] at stop
      exact ⟨⟨later.previous, later.ahead⟩, .leaf (Nat.le_trans head.le whole) start
        (Nat.le_trans startLe whole) stop rfl⟩
  | template _ _ inductionHypothesis =>
      intro high laid
      obtain ⟨later, inside, before⟩ := laid.advance
      have arranged := (inductionHypothesis _ _ inside).mono (Nat.le_refl _) before
      exact ⟨⟨later.previous, later.ahead⟩, arranged.parent (Nat.le_refl _) arranged.le before rfl⟩
  | noStreams scope =>
      intro low high laid
      exact .nil laid.le
  | stream _ _ firstHypothesis restHypothesis =>
      intro low high laid
      cases laid with
      | cons ends first rest =>
          obtain ⟨started, before⟩ := laid_start _ first ends
          obtain ⟨later, arranged⟩ := firstHypothesis _ started
          exact (arranged.mono before later.offset_le).append (restHypothesis _ _ rest)
  | @element first _ _ _ _ _ _ _ _ isTag _ closes span inductionHypothesis =>
      intro high laid
      obtain ⟨between, arranged⟩ := inductionHypothesis high laid.step.1
      obtain ⟨later, le⟩ := closes.skips.laid between
      have whole := (isTag.arranged arranged).mono laid.step.2 le
      subst span
      exact ⟨later, whole.parent (Nat.le_refl _) whole.le later.previous rfl⟩
  | @letIn _ _ _ _ value _ _ span inductionHypothesis =>
      intro high laid
      obtain ⟨later, arranged⟩ := inductionHypothesis high laid
      subst span
      refine ⟨later, .parent ?_ (Nat.le_refl _) arranged.le later.previous rfl⟩
      cases value <;> exact arranged
  | loop _ _ skips _ span headHypothesis bodyHypothesis =>
      intro high laid
      obtain ⟨between, head⟩ := headHypothesis high laid
      obtain ⟨skipped, le⟩ := skips.laid between
      obtain ⟨later, body⟩ := bodyHypothesis high skipped
      have whole := (head.mono (Nat.le_refl _) le).append body
      subst span
      refine ⟨later, .parent ?_ (Nat.le_refl _) whole.le later.previous rfl⟩
      simpa [Node.children] using whole

/-! ## Sources -/

/-- The lexemes of a source stand one after the other. -/
theorem ParseState.laid_start_scan (file : String) (bytes : List UInt8) (scope : Scope) :
    ∃ high, (start (Lexeme.scan file bytes) scope).Laid high := by
  have laid := Lexeme.laid_scanFrom ((Text.Rune.decode bytes).length + 1) {} (.first file)
    (Text.Rune.decode bytes)
  have ends := Lexeme.isSome_find?_scanFrom ((Text.Rune.decode bytes).length + 1) {} (.first file)
    (Text.Rune.decode bytes)
  exact ⟨_, (laid_start scope laid ends).1⟩

theorem ParseState.Builds.inOrder {file : String} {bytes : List UInt8} {scope : Scope}
    {after : ParseState} {trees : List Node}
    (built : (start (Lexeme.scan file bytes) scope).Builds trees after)
    (sound : ∀ tree ∈ trees, tree.HasSoundTargets) :
    Diagnostic.InOrder (trees.flatMap Node.diagnostics) := by
  obtain ⟨high, started⟩ := laid_start_scan file bytes scope
  obtain ⟨_, arranged⟩ := Derives.arranges built high started
  exact (arranged.ordered sound).sorted

theorem Stmt.diagnostics_eq_flatMap (trees : List Stmt) :
    Stmt.diagnostics trees = (trees.map .stmt).flatMap Node.diagnostics := by
  rw [Stmt.diagnostics, Stmt.visitAll_eq_flatMap, List.filterMap_flatMap]
  rfl

/-- What is malformed in an expression or in a program is reported in the order of the source, if no
compound assignment has a malformed target. -/
theorem malformed_reported_in_order (source : Nat) :
    (∀ text, (Node.expr (parseExpression source text)).HasSoundTargets →
      Diagnostic.InOrder (parseExpression source text).diagnostics) ∧
    ∀ file bytes, (∀ tree ∈ parseProgram source file bytes, (Node.stmt tree).HasSoundTargets) →
      Diagnostic.InOrder (Stmt.diagnostics (parseProgram source file bytes)) := by
  constructor
  · intro text sound
    obtain ⟨_, built, _⟩ := Parsed.expression_builds source (Lexeme.scanText text)
    have inOrder := built.inOrder (List.forall_mem_singleton.mpr sound)
    rw [List.flatMap_singleton] at inOrder
    exact inOrder
  · intro file bytes sound
    obtain ⟨_, built, _⟩ := Parsed.statements_build source (Lexeme.scan file bytes)
    rw [Stmt.diagnostics_eq_flatMap]
    exact built.inOrder (List.forall_mem_map.mpr sound)

/-- A compound assignment repeats what is malformed in its target. -/
theorem compound_repeats_malformed_target :
    (parseExpression 0 "f(@, @) += 1").diagnostics.map (·.span.start.offset) = [2, 5, 2, 5] := by
  decide +kernel

end Reckon
