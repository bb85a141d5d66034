import Reckon.Proofs.Lexeme.Tiling
import Reckon.Proofs.Parsing.Accounting

/-!
# Where spans start and stop

The parser takes the start of a span from a lexeme or from a first child, and the end from a last child
or from the lexeme that it has read last.  So nested spans go together with where the parser stands: it
has either read nothing, or it stops with a significant lexeme behind all the trees that it has built.
-/

namespace Reckon

/-! ## Nested spans -/

/-- A significant lexeme of a source, or of a replacement in it, which has a width. -/
structure Lexeme.IsMark (lexeme : Lexeme) (source : List Lexeme) : Prop where
  occurs : lexeme.Occurs source
  significant : lexeme.isSignificant = true
  more : lexeme.token ≠ .eof
  wide : lexeme.span.start.offset < lexeme.span.stop.offset

/-- A span has a width, and starts and stops with significant lexemes. -/
structure Span.IsMarked (span : Span) (source : List Lexeme) : Prop where
  wide : span.start.offset < span.stop.offset
  start : ∃ lexeme : Lexeme, lexeme.IsMark source ∧ span.start = lexeme.span.start
  stop : ∃ lexeme : Lexeme, lexeme.IsMark source ∧ span.stop = lexeme.span.stop

theorem Lexeme.IsMark.isMarked {lexeme : Lexeme} {source : List Lexeme} (mark : lexeme.IsMark source) :
    lexeme.span.IsMarked source :=
  ⟨mark.wide, ⟨lexeme, mark, rfl⟩, ⟨lexeme, mark, rfl⟩⟩

namespace Node

/-- Whether a node stands for something that is missing or malformed. -/
def isGap : Node → Bool
  | .expr (.empty _) | .expr (.invalid ..) | .entry (.invalid ..) => true
  | _ => false

/-- Nothing is missing or malformed in a tree. -/
def IsFull (node : Node) : Prop :=
  ∀ inner ∈ node.walk, inner.isGap = false

/-- A node is a fragment, and another one is the tag without a name that it has. -/
def IsFragment (node tag : Node) : Prop :=
  ∃ span point attributes children,
    node = .expr (.markup span (.identifier ⟨.point point, ""⟩) attributes children) ∧
      tag = .expr (.identifier ⟨.point point, ""⟩)

/-- The spans of a tree nest. -/
inductive Nests (source : List Lexeme) : Node → Prop
  | node {node : Node} : node.span.IsMarked source →
      (∀ child ∈ node.children, node.span.Holds child.span) →
      (∀ child ∈ node.children, ¬node.IsFragment child → Nests source child) → Nests source node

variable {source : List Lexeme} {node : Node}

theorem IsFull.child {child : Node} (full : node.IsFull) (member : child ∈ node.children) :
    child.IsFull := by
  intro inner below
  refine full inner ?_
  rw [walk_eq]
  exact .tail _ (List.mem_flatMap.mpr ⟨child, member, below⟩)

theorem IsFull.not_gap (full : node.IsFull) (gap : node.isGap = true) : False := by
  rw [full node node.mem_walk_self] at gap
  cases gap

theorem isFull_of_leaf (noChildren : node.children = []) (notGap : node.isGap = false) :
    node.IsFull := by
  intro inner member
  rw [walk_eq, noChildren, List.flatMap_nil] at member
  rw [List.mem_singleton.mp member, notGap]

theorem Nests.isMarked (nests : node.Nests source) : node.span.IsMarked source := by
  cases nests with
  | node marked _ _ => exact marked

theorem nests_of_leaf (marked : node.span.IsMarked source) (noChildren : node.children = []) :
    node.Nests source := by
  refine .node marked ?_ ?_ <;> rw [noChildren] <;> exact nofun

/-- Within a tree each node is marked, unless it is the tag of a fragment, and holds its children. -/
theorem Nests.walk (nests : node.Nests source) :
    ∀ inner ∈ node.walk,
      (inner.span.IsMarked source ∨ ∃ outer ∈ node.walk, outer.IsFragment inner) ∧
        ∀ child ∈ inner.children, inner.span.Holds child.span := by
  induction nests with
  | @node node marked holds _ inductionHypothesis =>
      intro inner member
      rw [walk_eq] at member
      rcases List.mem_cons.mp member with rfl | below
      · exact ⟨.inl marked, holds⟩
      obtain ⟨child, isChild, inside⟩ := List.mem_flatMap.mp below
      have subset : child.walk ⊆ node.walk := by
        intro other found
        rw [walk_eq node]
        exact .tail _ (List.mem_flatMap.mpr ⟨child, isChild, found⟩)
      by_cases isTag : node.IsFragment child
      · -- The tag of a fragment is a leaf.
        obtain ⟨_, point, _, _, _, rfl⟩ := id isTag
        rw [walk_eq] at inside
        cases List.mem_singleton.mp inside
        exact ⟨.inr ⟨node, node.mem_walk_self, isTag⟩, nofun⟩
      · obtain ⟨known, below⟩ := inductionHypothesis child isChild isTag inner inside
        exact ⟨known.imp_right fun ⟨outer, found, tags⟩ => ⟨outer, subset found, tags⟩, below⟩

end Node

namespace Lexeme

/-- All lexemes of a source but the ends of texts have a width. -/
def AllWide (source : List Lexeme) : Prop :=
  ∀ lexeme : Lexeme, lexeme.Occurs source → lexeme.token ≠ .eof →
    lexeme.span.start.offset < lexeme.span.stop.offset

variable {source stream : List Lexeme}

/-- The parser reads marks. -/
theorem AllWide.marks (wide : AllWide source) (occurs : ∀ lexeme ∈ stream, lexeme.Occurs source) :
    ∀ lexeme ∈ Cursor.aheadOf stream, lexeme.IsMark source := by
  intro lexeme member
  obtain ⟨taken, significant⟩ := List.mem_filter.mp member
  have inSource := occurs lexeme ((List.takeWhile_sublist _).subset taken)
  have more := Cursor.token_ne_eof_of_mem_aheadOf member
  exact ⟨inSource, significant, more, wide lexeme inSource more⟩

end Lexeme

/-! ## States -/

namespace ParseState

variable {source : List Lexeme} {first second third state : ParseState} {high : Nat}
variable {trees : List Node}

/-- The lexemes to be read are marks, and stand after what was read. -/
structure Stands (state : ParseState) (source : List Lexeme) (high : Nat) : Prop where
  laid : state.Laid high
  marks : ∀ lexeme ∈ state.cursor.ahead, lexeme.IsMark source

/-- Something was read, and a mark last. -/
structure Lands (first : ParseState) (source : List Lexeme) (second : ParseState) : Prop
    extends first.Passes second where
  wide : first.offset < second.previous.offset
  last : ∃ lexeme : Lexeme, lexeme.IsMark source ∧ second.previous = lexeme.span.stop

/-- Nothing was read, or a mark last. -/
inductive Moves (first : ParseState) (source : List Lexeme) (second : ParseState) : Prop
  | stays : second.cursor = first.cursor → second.previous = first.previous →
      Moves first source second
  | lands : first.Lands source second → Moves first source second

theorem Stands.current (stands : state.Stands source high) (more : state.token ≠ .eof) :
    state.cursor.current.IsMark source :=
  stands.marks _ (current_mem_ahead more)

theorem Stands.reads {read : List Lexeme} (stands : first.Stands source high)
    (reads : first.Reads read second) (laid : second.Laid high) : second.Stands source high := by
  refine ⟨laid, fun lexeme member => stands.marks lexeme ?_⟩
  rw [reads]
  exact List.mem_append_right _ member

theorem Stands.advance (stands : state.Stands source high) : state.advance.Stands source high :=
  stands.reads state.reads_taken stands.laid.step.1

theorem Stands.builds (stands : first.Stands source high) (built : first.Builds trees second) :
    second.Stands source high ∧ Arranged first.offset trees second.offset := by
  obtain ⟨_, reads, _⟩ := Derives.accounts built high stands.laid
  obtain ⟨laid, arranged⟩ := Derives.arranges built high stands.laid
  exact ⟨stands.reads reads laid, arranged⟩

/-- The frames do not matter for where the parser stands. -/
theorem Stands.withScope (stands : state.Stands source high) (scope : Scope) :
    Stands { state with scope } source high :=
  ⟨⟨stands.laid.previous, stands.laid.ahead⟩, stands.marks⟩

theorem Stands.skips (stands : first.Stands source high) (skips : Skips first second) :
    second.Stands source high ∧ first.offset ≤ second.offset := by
  obtain ⟨_, reads, _⟩ := skips.gap stands.laid
  obtain ⟨laid, le⟩ := skips.laid stands.laid
  exact ⟨stands.reads reads laid, le⟩

theorem Stands.lands_advance (stands : state.Stands source high) (more : state.token ≠ .eof) :
    state.Lands source state.advance where
  toPasses := passes_advance more
  wide := (stands.current more).wide
  last := ⟨_, stands.current more, rfl⟩

theorem Passes.token_ne_eof (passes : first.Passes second) : first.token ≠ .eof := by
  intro ended
  have nothing := first.token_eq_eof_iff.mp ended
  have shorter := passes.shorter
  rw [Cursor.remaining, Cursor.remaining, nothing] at shorter
  exact Nat.not_lt_zero _ shorter

theorem token_ne_eof_of_advance (more : state.advance.token ≠ .eof) : state.token ≠ .eof := by
  intro ended
  refine more (state.advance.token_eq_eof_iff.mpr ?_)
  rw [advance, Cursor.ahead_advance, state.token_eq_eof_iff.mp ended, List.tail_nil]

theorem Lands.trans_moves (left : first.Lands source second) (laid : second.Laid high)
    (right : second.Moves source third) : first.Lands source third := by
  cases right with
  | stays cursor previous =>
      refine ⟨left.trans_reaches (.of_cursor_eq cursor), ?_, ?_⟩ <;> rw [previous]
      · exact left.wide
      · exact left.last
  | lands right =>
      refine ⟨left.trans_reaches right.toReaches, ?_, right.last⟩
      exact Nat.lt_trans left.wide (Nat.lt_of_le_of_lt laid.previous right.wide)

theorem Moves.trans_lands (left : first.Moves source second) (laid : second.Laid high)
    (right : second.Lands source third) : first.Lands source third := by
  cases left with
  | stays cursor _ =>
      refine ⟨Reaches.trans_passes (.of_cursor_eq cursor) right.toPasses, ?_, right.last⟩
      have wide := right.wide
      rw [offset, cursor] at wide
      exact wide
  | lands left => exact left.trans_moves laid (.lands right)

theorem Moves.trans (left : first.Moves source second) (laid : second.Laid high)
    (right : second.Moves source third) : first.Moves source third := by
  cases left with
  | lands left => exact .lands (left.trans_moves laid right)
  | stays cursor previous =>
      cases right with
      | stays nextCursor nextPrevious =>
          exact .stays (nextCursor.trans cursor) (nextPrevious.trans previous)
      | lands right => exact .lands (Moves.trans_lands (.stays cursor previous) laid right)

theorem Moves.withScope (moves : first.Moves source second) (scope : Scope) :
    first.Moves source { second with scope } := by
  cases moves with
  | stays cursor previous => exact .stays cursor previous
  | lands lands => exact .lands ⟨⟨⟨lands.suffix, lands.final⟩, lands.shorter⟩, lands.wide, lands.last⟩

theorem Moves.of_withScope {scope : Scope}
    (moves : Moves { first with scope } source second) : first.Moves source second := by
  cases moves with
  | stays cursor previous => exact .stays cursor previous
  | lands lands => exact .lands ⟨⟨⟨lands.suffix, lands.final⟩, lands.shorter⟩, lands.wide, lands.last⟩

theorem Moves.previous_le (moves : first.Moves source second) (laid : first.Laid high) :
    first.previous.offset ≤ second.previous.offset := by
  cases moves with
  | stays _ previous => exact Nat.le_of_eq (congrArg Position.offset previous.symm)
  | lands lands => exact Nat.le_trans laid.previous (Nat.le_of_lt lands.wide)

/-- What is passed over before something else is read. -/
theorem Skips.moves (skips : Skips first second) (stands : first.Stands source high)
    (more : second.token ≠ .eof) : first.Moves source second := by
  induction skips with
  | refl => exact .stays rfl rfl
  | more skips inductionHypothesis =>
      have between := (stands.skips skips).1
      have here := token_ne_eof_of_advance more
      exact (inductionHypothesis here).trans between.laid (.lands (between.lands_advance here))

/-- An element does not end before it is closed. -/
theorem ClosesElement.lands (closes : first.ClosesElement second) (stands : first.Stands source high) :
    first.Lands source second := by
  cases closes with
  | within isSlash isGreater =>
      have slash := stands.lands_advance (isSlash ▸ nofun)
      have greater := stands.advance.lands_advance (isGreater ▸ nofun)
      exact slash.trans_moves stands.advance.laid (.lands greater)
  | @tag last isLess isSlash path isGreater =>
      have more : last.token ≠ .eof := isGreater ▸ nofun
      have less := stands.lands_advance (isLess ▸ nofun)
      have slash := stands.advance.lands_advance (isSlash ▸ nofun)
      have named := path.skips.moves stands.advance.advance more
      have after := (stands.advance.advance.skips path.skips).1
      have opened := less.trans_moves stands.advance.laid (.lands slash)
      have passed := opened.trans_moves stands.advance.advance.laid named
      exact passed.trans_moves after.laid (.lands (after.lands_advance more))

theorem Lands.isMarked (lands : first.Lands source second) (stands : first.Stands source high) :
    Span.IsMarked ⟨first.cursor.current.span.start, second.previous⟩ source :=
  ⟨lands.wide, ⟨_, stands.current lands.token_ne_eof, rfl⟩, lands.last⟩

end ParseState

open ParseState

/-! ## Trees in a row -/

/-- Full trees have nested spans and stand one after the other, up to an offset. -/
structure Nested (source : List Lexeme) (trees : List Node) (high : Nat) : Prop where
  nests : ∀ tree ∈ trees, tree.IsFull → tree.Nests source
  stop : ∀ tree ∈ trees, tree.IsFull → tree.span.stop.offset ≤ high
  apart : trees.Pairwise fun left right =>
    left.IsFull → right.IsFull → left.span.stop.offset ≤ right.span.start.offset

namespace Nested

variable {source : List Lexeme} {second : ParseState} {middle high : Nat}
variable {trees left right : List Node} {node : Node}

theorem nil (source : List Lexeme) (high : Nat) : Nested source [] high :=
  ⟨nofun, nofun, .nil⟩

theorem single (own : node.IsFull → node.Nests source ∧ node.span.stop.offset ≤ high) :
    Nested source [node] high where
  nests := List.forall_mem_singleton.mpr fun full => (own full).1
  stop := List.forall_mem_singleton.mpr fun full => (own full).2
  apart := List.pairwise_singleton _ _

theorem append (before : Nested source left middle) (after : Nested source right high)
    (le : middle ≤ high) (start : ∀ tree ∈ right, middle ≤ tree.span.start.offset) :
    Nested source (left ++ right) high where
  nests := List.forall_mem_append.mpr ⟨before.nests, after.nests⟩
  stop := List.forall_mem_append.mpr
    ⟨fun tree member full => Nat.le_trans (before.stop tree member full) le, after.stop⟩
  apart := by
    refine List.pairwise_append.mpr ⟨before.apart, after.apart, ?_⟩
    intro earlier isLeft later isRight full _
    exact Nat.le_trans (before.stop earlier isLeft full) (start later isRight)

theorem mono (nested : Nested source trees middle) (le : middle ≤ high) : Nested source trees high :=
  ⟨nested.nests, fun tree member full => Nat.le_trans (nested.stop tree member full) le, nested.apart⟩

theorem init (nested : Nested source (left ++ right) high) : Nested source left high where
  nests := (List.forall_mem_append.mp nested.nests).1
  stop := (List.forall_mem_append.mp nested.stop).1
  apart := (List.pairwise_append.mp nested.apart).1

/-- Trees start where the first of them does. -/
theorem start_le (nested : Nested source trees high) (full : ∀ tree ∈ trees, tree.IsFull)
    (isHead : node ∈ trees.head?) :
    ∀ tree ∈ trees, node.span.start.offset ≤ tree.span.start.offset := by
  obtain ⟨rest, rfl⟩ := List.head?_eq_some_iff.mp isHead
  obtain ⟨own, others⟩ := List.forall_mem_cons.mp full
  refine List.forall_mem_cons.mpr ⟨Nat.le_refl _, fun tree member => ?_⟩
  have wide := (nested.nests node (.head _) own).isMarked.wide
  have apart := (List.pairwise_cons.mp nested.apart).1 tree member own (others tree member)
  omega

/-- What stands before the last tree. -/
theorem before_last (nested : Nested source (left ++ [node]) high) (full : node.IsFull) :
    Nested source left node.span.start.offset where
  nests := nested.init.nests
  stop tree member isFull :=
    (List.pairwise_append.mp nested.apart).2.2 tree member node (.head _) isFull full
  apart := nested.init.apart

/-- Trees stop where the last of them does. -/
theorem le_stop (nested : Nested source trees high) (full : ∀ tree ∈ trees, tree.IsFull)
    (isLast : node ∈ trees.getLast?) :
    ∀ tree ∈ trees, tree.span.stop.offset ≤ node.span.stop.offset := by
  obtain ⟨rest, rfl⟩ := List.getLast?_eq_some_iff.mp isLast
  obtain ⟨others, own⟩ := List.forall_mem_append.mp full
  have fullLast := own node (.head _)
  have wide := (nested.nests node (List.mem_append_right _ (.head _)) fullLast).isMarked.wide
  refine List.forall_mem_append.mpr ⟨fun tree member => ?_, ?_⟩
  · have stop := (nested.before_last fullLast).stop tree member (others tree member)
    exact Nat.le_trans stop (Nat.le_of_lt wide)
  · exact List.forall_mem_singleton.mpr (Nat.le_refl _)

/-- A node around its children. -/
theorem parent (nested : Nested source node.children high)
    (own : node.span.IsMarked source) (holds : ∀ child ∈ node.children, node.span.Holds child.span)
    (full : node.IsFull) : node.Nests source :=
  .node own holds fun child member _ => nested.nests child member (full.child member)

/-- A last leaf that gets longer by a lexeme. -/
theorem lengthen {longer : Node} (nested : Nested source (trees ++ [node]) second.previous.offset)
    (stands : second.Stands source high) (more : second.token ≠ .eof) (full : node.IsFull)
    (span : longer.span = ⟨node.span.start, second.cursor.current.span.stop⟩)
    (leaf : longer.children = []) :
    Nested source (trees ++ [longer]) second.advance.previous.offset := by
  have isLast : node ∈ trees ++ [node] := List.mem_append_right _ (.head _)
  have own := (nested.nests node isLast full).isMarked
  have mark := stands.current more
  have shorter : node.span.stop.offset < second.advance.previous.offset :=
    Nat.lt_of_le_of_lt (Nat.le_trans (nested.stop node isLast full) stands.laid.previous) mark.wide
  have marked : longer.span.IsMarked source := by
    rw [span]
    exact ⟨Nat.lt_trans own.wide shorter, own.start, ⟨_, mark, rfl⟩⟩
  have start : node.span.start.offset ≤ longer.span.start.offset :=
    Nat.le_of_eq (congrArg (fun span => span.start.offset) span.symm)
  have stop : longer.span.stop.offset ≤ second.advance.previous.offset :=
    Nat.le_of_eq (congrArg (fun span => span.stop.offset) span)
  exact (nested.before_last full).append (.single fun _ => ⟨Node.nests_of_leaf marked leaf, stop⟩)
    (Nat.le_of_lt (Nat.lt_trans own.wide shorter)) (List.forall_mem_singleton.mpr start)

end Nested

/-- Trees in a row that are read from one state to another. -/
structure Row (source : List Lexeme) (high : Nat) (first : ParseState) (trees : List Node)
    (second : ParseState) : Prop extends Nested source trees second.previous.offset where
  before : first.Stands source high
  after : second.Stands source high
  arranged : Arranged first.offset trees second.offset
  moves : first.Moves source second

namespace Row

variable {source : List Lexeme} {first second third : ParseState} {high : Nat}
variable {trees left right : List Node} {node : Node}

theorem of_builds (built : first.Builds trees second) (stands : first.Stands source high)
    (read : first.Moves source second ∧ Nested source trees second.previous.offset) :
    Row source high first trees second := by
  obtain ⟨after, arranged⟩ := stands.builds built
  exact ⟨read.2, stands, after, arranged, read.1⟩

theorem and (row : Row source high first left second) (next : Row source high second right third) :
    Row source high first (left ++ right) third where
  toNested := by
    refine row.append next.toNested (next.moves.previous_le row.after.laid) fun tree member => ?_
    exact Nat.le_trans row.after.laid.previous (next.arranged.start tree member).1
  before := row.before
  after := next.after
  arranged := row.arranged.append next.arranged
  moves := row.moves.trans row.after.laid next.moves

/-- What is read after a lexeme. -/
theorem after_lexeme (row : Row source high first.advance trees second)
    (stands : first.Stands source high) (more : first.token ≠ .eof) :
    Row source high first trees second ∧ first.Lands source second := by
  have lands := (stands.lands_advance more).trans_moves row.before.laid row.moves
  have arranged := row.arranged.mono stands.laid.step.2 (Nat.le_refl _)
  exact ⟨⟨row.toNested, stands, row.after, arranged, .lands lands⟩, lands⟩

/-- What is read after other lexemes were passed over. -/
theorem after_skips (row : Row source high second trees third) (stands : first.Stands source high)
    (skips : Skips first second) (more : second.token ≠ .eof) : Row source high first trees third where
  toNested := row.toNested
  before := stands
  after := row.after
  arranged := row.arranged.mono (stands.skips skips).2 (Nat.le_refl _)
  moves := (skips.moves stands more).trans row.before.laid row.moves

/-- What is read before an element is closed. -/
theorem closed (row : Row source high first trees second) (closes : second.ClosesElement third) :
    Row source high first trees third ∧ first.Lands source third := by
  have closing := closes.lands row.after
  have lands := row.moves.trans_lands row.after.laid closing
  obtain ⟨after, le⟩ := row.after.skips closes.skips
  have later := Moves.previous_le (.lands closing) row.after.laid
  have arranged := row.arranged.mono (Nat.le_refl _) le
  exact ⟨⟨row.mono later, row.before, after, arranged, .lands lands⟩, lands⟩

theorem of_withScope {scope : Scope} (row : Row source high { first with scope } trees second) :
    Row source high first trees second where
  toNested := row.toNested
  before := row.before.withScope first.scope
  after := row.after
  arranged := row.arranged
  moves := row.moves.of_withScope

/-- A full tree is not built from nothing. -/
theorem lands (row : Row source high first trees second) (member : node ∈ trees) (full : node.IsFull) :
    first.Lands source second := by
  cases row.moves with
  | lands lands => exact lands
  | stays _ previous =>
      have wide := (row.nests node member full).isMarked.wide
      have start := (row.arranged.start node member).1
      have stop := row.stop node member full
      have before := row.before.laid.previous
      rw [previous] at stop
      omega

/-- A construct around its parts. -/
theorem marked_of_covers {span : Span} (row : Row source high first trees second)
    (covers : first.Covers trees second span) (full : ∀ tree ∈ trees, tree.IsFull)
    (nonempty : trees ≠ []) :
    span.IsMarked source ∧ (∀ tree ∈ trees, span.Holds tree.span) ∧
      span.stop.offset ≤ second.previous.offset := by
  obtain ⟨tree, member⟩ := List.exists_mem_of_ne_nil trees nonempty
  have own (node : Node) (member : node ∈ trees) := (row.nests node member (full node member)).isMarked
  have lands := row.lands member (full tree member)
  have start : (∃ lexeme : Lexeme, lexeme.IsMark source ∧ span.start = lexeme.span.start) ∧
      ∀ tree ∈ trees, span.start.offset ≤ tree.span.start.offset := by
    rcases covers.start with same | ⟨head, isHead, same⟩ <;> rw [same]
    · exact ⟨(lands.isMarked row.before).start, fun tree member => (row.arranged.start tree member).1⟩
    · exact ⟨(own head (List.mem_of_head? isHead)).start, row.start_le full isHead⟩
  have stop : (∃ lexeme : Lexeme, lexeme.IsMark source ∧ span.stop = lexeme.span.stop) ∧
      (∀ tree ∈ trees, tree.span.stop.offset ≤ span.stop.offset) ∧
        span.stop.offset ≤ second.previous.offset := by
    rcases covers.stop with same | ⟨last, isLast, same⟩ <;> rw [same]
    · exact ⟨lands.last, fun tree member => row.stop tree member (full tree member), Nat.le_refl _⟩
    · have isMember := List.mem_of_getLast? isLast
      exact ⟨(own last isMember).stop, row.le_stop full isLast,
        row.stop last isMember (full last isMember)⟩
  have wide := (own tree member).wide
  have above := start.2 tree member
  have below := stop.2.1 tree member
  refine ⟨⟨by omega, start.1, stop.1⟩, fun tree member => ?_, stop.2.2⟩
  exact ⟨start.2 tree member, stop.2.1 tree member⟩

/-- A node from the current lexeme on, up to the last one that was read. -/
theorem between (row : Row source high first node.children second) (lands : first.Lands source second)
    (span : node.span = ⟨first.cursor.current.span.start, second.previous⟩) :
    Nested source [node] second.previous.offset := by
  have stop : node.span.stop.offset ≤ second.previous.offset :=
    Nat.le_of_eq (congrArg (fun span => span.stop.offset) span)
  refine .single fun full => ⟨row.parent ?_ (fun child member => ?_) full, stop⟩ <;> rw [span]
  · exact lands.isMarked row.before
  · exact ⟨(row.arranged.start child member).1, row.stop child member (full.child member)⟩

/-- A fragment around its parts and the place of its tag. -/
theorem fragment {span : Span} {point : Position} {attributes : List Entry} {children : List Expr}
    (row : Row source high first (attributes.map .entry ++ children.map .expr) second)
    (lands : first.Lands source second)
    (same : span = ⟨first.cursor.current.span.start, second.previous⟩)
    (start : first.offset ≤ point.offset) (stop : point.offset ≤ second.previous.offset) :
    Nested source [.expr (.markup span (.identifier ⟨.point point, ""⟩) attributes children)]
      second.previous.offset := by
  subst same
  refine .single fun full => ⟨.node (lands.isMarked row.before) ?_ ?_, Nat.le_refl _⟩
  · refine List.forall_mem_cons.mpr ⟨⟨start, stop⟩, fun child member => ?_⟩
    exact ⟨(row.arranged.start child member).1, row.stop child member (full.child (.tail _ member))⟩
  · refine List.forall_mem_cons.mpr ⟨fun other => absurd ⟨_, _, _, _, rfl, rfl⟩ other, ?_⟩
    exact fun child member _ => row.nests child member (full.child (.tail _ member))

end Row

/-! ## Parameters -/

theorem Span.Holds.trans {outer middle inner : Span} (left : outer.Holds middle)
    (right : middle.Holds inner) : outer.Holds inner :=
  ⟨Nat.le_trans left.1 right.1, Nat.le_trans right.2 left.2⟩

/-- The items of a parameter list nest in it. -/
theorem Node.Nests.items {source : List Lexeme} {head : Expr} {items : List Expr}
    (nests : (Node.expr head).Nests source) (isList : Grammar.parameters? head = some items) :
    ∀ item ∈ items, item.span.IsMarked source ∧ head.span.Holds item.span := by
  unfold Grammar.parameters? at isList
  split at isList <;> cases isList
  · exact List.forall_mem_singleton.mpr ⟨nests.isMarked, Span.holds_refl _⟩
  · cases nests with
    | node _ holds children =>
        intro item member
        have isChild : Node.expr item ∈ items.map .expr := List.mem_map_of_mem member
        refine ⟨(children _ isChild ?_).isMarked, holds _ isChild⟩
        rintro ⟨_, _, _, _, isMarkup, _⟩
        cases isMarkup

/-- The parameters of a function nest in its head. -/
theorem Node.Nests.parameters {source : List Lexeme} {head : Expr} {names : List Variable}
    (nests : (Node.expr head).Nests source)
    (isList : Grammar.parameters? head = some (names.map .var)) (frame : FrameId) :
    ∀ param ∈ variableNodes (Grammar.parameterNames frame (names.map .var)),
      param.Nests source ∧ head.span.Holds param.span := by
  rw [Grammar.parameterNames_map_var]
  intro param member
  obtain ⟨declared, isDeclared, rfl⟩ := List.mem_map.mp member
  obtain ⟨name, isName, rfl⟩ := List.mem_map.mp isDeclared
  obtain ⟨marked, holds⟩ := nests.items isList _ (List.mem_map_of_mem isName)
  exact ⟨nests_of_leaf marked rfl, holds⟩

theorem Node.isFull_parameters {head : Expr} {names : List Variable}
    (isList : Grammar.parameters? head = some (names.map .var)) : (Node.expr head).IsFull := by
  intro inner member
  rcases (Grammar.walk_parameters isList).2 inner member with isName | ⟨span, items, rfl⟩
  · obtain ⟨name, _, rfl⟩ := List.mem_map.mp isName
    rfl
  · rfl

end Reckon
