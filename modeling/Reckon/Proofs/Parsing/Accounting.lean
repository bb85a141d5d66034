import Reckon.Proofs.Parsing.Order

/-!
# What becomes of the lexemes

In a source that is not malformed, each name and each literal is found in the tree again: within a leaf,
or as the key of a property.  There are two exceptions.  The name in a closing tag is not compared with
the one in the opening tag, and whatever stands between the source of a loop and its body is passed over.
-/

namespace Reckon

/-- Whether a span holds another one. -/
def Span.Holds (outer inner : Span) : Prop :=
  outer.start.offset ≤ inner.start.offset ∧ inner.stop.offset ≤ outer.stop.offset

instance (outer inner : Span) : Decidable (outer.Holds inner) :=
  inferInstanceAs (Decidable (_ ∧ _))

theorem Span.holds_refl (span : Span) : span.Holds span :=
  ⟨Nat.le_refl _, Nat.le_refl _⟩

/-- Whether a node is a leaf around a lexeme or a property with it as its key. -/
def Node.Accounts : Node → Lexeme → Prop
  | .expr (.constant span _), lexeme => span.Holds lexeme.span
  | .expr (.interpolated span _ _), lexeme => span.Holds lexeme.span
  | .expr (.var name), lexeme => name.span.Holds lexeme.span
  | .expr (.identifier name), lexeme => name.span.Holds lexeme.span
  | .entry (.property span key _), lexeme => span.start = lexeme.span.start ∧ key = lexeme.lit
  | _, _ => False

instance : (node : Node) → (lexeme : Lexeme) → Decidable (node.Accounts lexeme)
  | .expr (.constant span _), lexeme => inferInstanceAs (Decidable (span.Holds lexeme.span))
  | .expr (.interpolated span _ _), lexeme => inferInstanceAs (Decidable (span.Holds lexeme.span))
  | .expr (.var name), lexeme => inferInstanceAs (Decidable (name.span.Holds lexeme.span))
  | .expr (.identifier name), lexeme => inferInstanceAs (Decidable (name.span.Holds lexeme.span))
  | .entry (.property span key _), lexeme =>
      inferInstanceAs (Decidable (span.start = lexeme.span.start ∧ key = lexeme.lit))
  | .expr (.empty _), _ | .expr (.invalid ..), _ | .expr (.binary ..), _ | .expr (.unary ..), _
  | .expr (.factorial ..), _ | .expr (.range ..), _ | .expr (.conditional ..), _
  | .expr (.call ..), _ | .expr (.arguments ..), _ | .expr (.matrix ..), _ | .expr (.object ..), _
  | .expr (.function ..), _ | .expr (.member ..), _ | .expr (.assignment ..), _
  | .expr (.markup ..), _ | .entry (.invalid ..), _ | .stmt _, _ => .isFalse id

/-- Whether a node is a loop with a lexeme between its source and its body. -/
def Node.PassesOver : Node → Lexeme → Prop
  | .stmt (.forIn _ _ _ source body), lexeme =>
      source.span.stop.offset ≤ lexeme.span.start.offset ∧
        lexeme.span.stop.offset ≤ body.span.start.offset
  | _, _ => False

/-- Whether a lexeme stands in a closing tag: after the signs that open the tag, and after nothing else
but a path of names. -/
def Lexeme.ClosesTag (lexeme : Lexeme) (lexemes : List Lexeme) : Prop :=
  ∃ before less slash path after,
    lexemes = before ++ less :: slash :: (path ++ lexeme :: after) ∧
      less.token = .less ∧ slash.token = .slash ∧
        ∀ part ∈ path, part.token = .name ∨ part.token = .dot

theorem Lexeme.ClosesTag.append {lexeme : Lexeme} {lexemes : List Lexeme}
    (closes : lexeme.ClosesTag lexemes) (left right : List Lexeme) :
    lexeme.ClosesTag (left ++ lexemes ++ right) := by
  obtain ⟨before, less, slash, path, after, rfl, isLess, isSlash, isPath⟩ := closes
  exact ⟨left ++ before, less, slash, path, after ++ right, by simp, isLess, isSlash, isPath⟩

/-! ## Lexemes in trees -/

/-- Each name and each literal among lexemes is in the trees, if it is not in a closing tag and no loop
passes over it. -/
def Found (read : List Lexeme) (trees : List Node) : Prop :=
  ∀ lexeme ∈ read, lexeme.token.isContent = true → lexeme.ClosesTag read ∨
    ∃ node ∈ trees.flatMap Node.walk, node.Accounts lexeme ∨ node.PassesOver lexeme

namespace Found

variable {left right read : List Lexeme} {trees more : List Node}

theorem nil (trees : List Node) : Found [] trees :=
  nofun

/-- Other trees in which the same lexemes are found. -/
theorem into (found : Found read trees)
    (same : ∀ lexeme, ∀ node ∈ trees.flatMap Node.walk,
      node.Accounts lexeme ∨ node.PassesOver lexeme →
        ∃ other ∈ more.flatMap Node.walk, other.Accounts lexeme ∨ other.PassesOver lexeme) :
    Found read more := by
  intro lexeme member content
  rcases found lexeme member content with closes | ⟨node, below, stands⟩
  · exact .inl closes
  · exact .inr (same lexeme node below stands)

theorem mono (found : Found read trees) (part : trees.flatMap Node.walk ⊆ more.flatMap Node.walk) :
    Found read more :=
  found.into fun _ node below stands => ⟨node, part below, stands⟩

theorem append (first : Found left trees) (second : Found right trees) :
    Found (left ++ right) trees := by
  intro lexeme member content
  rcases List.mem_append.mp member with isLeft | isRight
  · refine (first lexeme isLeft content).imp (fun closes => ?_) id
    exact closes.append [] right
  · refine (second lexeme isRight content).imp (fun closes => ?_) id
    simpa using closes.append left []

theorem and (first : Found left trees) (second : Found right more) :
    Found (left ++ right) (trees ++ more) := by
  refine .append (first.mono ?_) (second.mono ?_)
  · rw [List.flatMap_append]
    exact List.subset_append_left _ _
  · rw [List.flatMap_append]
    exact List.subset_append_right _ _

/-- The children of a node are in its tree. -/
theorem parent {node : Node} (found : Found read node.children) : Found read [node] := by
  refine found.mono fun other below => ?_
  rw [List.flatMap_singleton, Node.walk_eq]
  exact .tail _ below

theorem child {node : Node} (found : Found read trees) (part : trees ⊆ node.children) :
    Found read [node] := by
  refine .parent (found.mono fun other below => ?_)
  obtain ⟨tree, member, inside⟩ := List.mem_flatMap.mp below
  exact List.mem_flatMap.mpr ⟨tree, part member, inside⟩

end Found

/-! ## Parameters -/

theorem Grammar.exists_names_of_length {frame : FrameId} {items : List Expr}
    (same : (parameterNames frame items).length = items.length) :
    ∃ names : List Variable, items = names.map .var := by
  have isName := List.filterMap_length_eq_length.mp same
  clear same
  induction items with
  | nil => exact ⟨[], rfl⟩
  | cons first rest inductionHypothesis =>
      obtain ⟨own, others⟩ := List.forall_mem_cons.mp isName
      obtain ⟨names, rfl⟩ := inductionHypothesis others
      split at own
      · next name => exact ⟨name :: names, rfl⟩
      · cases own

theorem Grammar.parameterNames_map_var (frame : FrameId) (names : List Variable) :
    parameterNames frame (names.map .var) = names.map ({ · with frame := some frame }) := by
  rw [parameterNames, List.filterMap_map, ← List.filterMap_eq_map]
  rfl

/-- What a parameter list is made of: its names, and a pair of parentheses if there is one. -/
theorem Grammar.walk_parameters {head : Expr} {names : List Variable}
    (isList : parameters? head = some (names.map .var)) :
    (Node.expr head).diagnostics = [] ∧
      ∀ node ∈ (Node.expr head).walk, node ∈ variableNodes names ∨
        ∃ span items, node = .expr (.arguments span items) := by
  have own (name : Variable) : (Node.expr (.var name)).walk = [.expr (.var name)] := by
    rw [Node.walk_eq]
    rfl
  unfold parameters? at isList
  split at isList
  · next name =>
    obtain ⟨only, rfl, same⟩ := List.map_eq_singleton_iff.mp (Option.some.inj isList).symm
    cases same
    rw [own, Node.diagnostics_eq]
    exact ⟨rfl, fun node member => .inl member⟩
  · next span items =>
    cases isList
    have children : (Node.expr (.arguments span (names.map .var))).children = variableNodes names :=
      List.map_map
    rw [Node.diagnostics_eq, Node.walk_eq, children, Node.diagnostics_variableNodes]
    refine ⟨rfl, fun node member => ?_⟩
    rcases List.mem_cons.mp member with rfl | below
    · exact .inr ⟨span, _, rfl⟩
    · obtain ⟨child, isChild, inside⟩ := List.mem_flatMap.mp below
      obtain ⟨name, _, rfl⟩ := List.mem_map.mp isChild
      rw [own] at inside
      exact .inl (List.mem_singleton.mp inside ▸ isChild)
  · cases isList

/-- What is found in a parameter list is found in the parameters. -/
theorem Found.parameters {read : List Lexeme} {head : Expr} {items : List Expr} {frame : FrameId}
    (found : Found read [.expr head]) (isList : Grammar.parameters? head = some items)
    (same : (Grammar.parameterNames frame items).length = items.length) :
    Found read (variableNodes (Grammar.parameterNames frame items)) := by
  obtain ⟨names, rfl⟩ := Grammar.exists_names_of_length same
  obtain ⟨_, inside⟩ := Grammar.walk_parameters isList
  refine found.into fun lexeme node below stands => ?_
  rw [List.flatMap_singleton] at below
  rcases inside node below with isName | ⟨span, items, rfl⟩
  · obtain ⟨name, member, rfl⟩ := List.mem_map.mp isName
    rw [Grammar.parameterNames_map_var]
    refine ⟨.expr (.var { name with frame := some frame }), ?_, stands⟩
    refine List.mem_flatMap.mpr ⟨_, ?_, Node.mem_walk_self _⟩
    exact List.mem_map_of_mem (List.mem_map_of_mem member)
  · exact (stands.elim id id).elim

/-! ## Reading -/

namespace ParseState

variable {first second third : ParseState} {high : Nat}

/-- From one state to another, lexemes are read. -/
def Reads (first : ParseState) (read : List Lexeme) (second : ParseState) : Prop :=
  first.cursor.ahead = read ++ second.cursor.ahead

theorem reads_nil (state : ParseState) : state.Reads [] state :=
  rfl

theorem Reads.trans {left right : List Lexeme} (before : first.Reads left second)
    (after : second.Reads right third) : first.Reads (left ++ right) third := by
  unfold Reads at *
  rw [before, after, List.append_assoc]

/-- The lexeme that an advance passes, unless there is none left. -/
def taken (state : ParseState) : List Lexeme :=
  state.cursor.ahead.take 1

theorem reads_taken (state : ParseState) : state.Reads state.taken state.advance := by
  rw [Reads, advance, Cursor.ahead_advance, ← List.drop_one]
  exact (List.take_append_drop 1 _).symm

theorem eq_current_of_mem_taken {state : ParseState} {lexeme : Lexeme}
    (member : lexeme ∈ state.taken) : lexeme = state.cursor.current := by
  unfold taken at member
  unfold Cursor.current
  cases lexemes : state.cursor.ahead with
  | nil => rw [lexemes] at member; cases member
  | cons next rest => rw [lexemes] at member; exact List.mem_singleton.mp member

theorem taken_of_token_eq {state : ParseState} {token : Token} (found : state.token = token)
    (more : token ≠ .eof) : state.taken = [state.cursor.current] := by
  unfold taken Cursor.current
  cases lexemes : state.cursor.ahead with
  | nil => exact absurd (found.symm.trans (state.token_eq_eof_iff.mpr lexemes)) more
  | cons next rest => rfl

/-- Lexemes that are passed over stand between the places where this begins and ends. -/
theorem Skips.gap (skips : Skips first second) (laid : first.Laid high) :
    ∃ gap, first.Reads gap second ∧ ∀ lexeme ∈ gap,
      first.offset ≤ lexeme.span.start.offset ∧ lexeme.span.stop.offset ≤ second.offset := by
  induction skips with
  | refl => exact ⟨[], reads_nil _, nofun⟩
  | @more middle skips inductionHypothesis =>
      obtain ⟨gap, reads, between⟩ := inductionHypothesis
      obtain ⟨here, before⟩ := skips.laid laid
      obtain ⟨_, _, inside⟩ := here.advance
      refine ⟨gap ++ middle.taken, reads.trans middle.reads_taken, fun lexeme member => ?_⟩
      rcases List.mem_append.mp member with early | last
      · exact ⟨(between lexeme early).1, Nat.le_trans (between lexeme early).2 here.step.2⟩
      · rw [eq_current_of_mem_taken last]
        exact ⟨before, inside⟩

/-- The span of a last leaf that gets longer by the current lexeme. -/
theorem Laid.holds_longer {low : Nat} {trees : List Node} {node : Node} (laid : second.Laid high)
    (arranged : Arranged low (trees ++ [node]) second.offset) :
    (∀ inner, node.span.Holds inner →
      Span.Holds ⟨node.span.start, second.cursor.current.span.stop⟩ inner) ∧
      Span.Holds ⟨node.span.start, second.cursor.current.span.stop⟩ second.cursor.current.span := by
  have isLast : node ∈ trees ++ [node] := List.mem_append_right _ (.head _)
  have stop : node.span.stop.offset ≤ second.cursor.current.span.stop.offset :=
    Nat.le_trans (arranged.stop node isLast) laid.advance.2.1.le
  exact ⟨fun inner holds => ⟨holds.1, Nat.le_trans holds.2 stop⟩,
    (arranged.start node isLast).2, Nat.le_refl _⟩

theorem SkipsPath.path (skips : SkipsPath first second) :
    ∃ path, first.Reads path second ∧
      ∀ part ∈ path, part.token = .name ∨ part.token = .dot := by
  induction skips with
  | refl => exact ⟨[], reads_nil _, nofun⟩
  | @more middle _ isPart inductionHypothesis =>
      obtain ⟨path, reads, parts⟩ := inductionHypothesis
      refine ⟨path ++ middle.taken, reads.trans middle.reads_taken, fun part member => ?_⟩
      rcases List.mem_append.mp member with early | last
      · exact parts part early
      · rw [eq_current_of_mem_taken last]
        exact isPart

end ParseState

/-! ## Trees -/

namespace ParseState.ReadsTag

variable {state : ParseState} {tag : Expr} {read more : List Node}

/-- What is read for a tag is the tag. -/
theorem subset (isTag : state.ReadsTag tag read) (more : List Node) :
    read ++ more ⊆ .expr tag :: more := by
  cases isTag with
  | fragment => exact List.subset_cons_self _ _
  | named _ => exact List.Subset.refl _

theorem silent (isTag : state.ReadsTag tag read)
    (silent : (.expr tag :: more).flatMap Node.diagnostics = []) :
    (read ++ more).flatMap Node.diagnostics = [] := by
  rw [List.flatMap_eq_nil_iff] at silent ⊢
  exact fun node member => silent node (isTag.subset more member)

end ParseState.ReadsTag

theorem Node.silent_children {node : Node} (silent : [node].flatMap diagnostics = []) :
    node.children.flatMap diagnostics = [] := by
  rw [List.flatMap_singleton, diagnostics_eq] at silent
  exact (List.append_eq_nil_iff.mp silent).2

theorem Node.not_silent {node : Node} {diagnostic : Diagnostic}
    (found : node.diagnostic? = some diagnostic) : [node].flatMap diagnostics ≠ [] := by
  rw [List.flatMap_singleton, diagnostics_eq, found]
  exact nofun

/-- A last leaf that gets longer by one lexeme. -/
theorem Found.lengthen {read : List Lexeme} {trees : List Node} {node longer : Node}
    {state : ParseState} (found : Found read (trees ++ [node])) (leaf : node.children = [])
    (same : ∀ lexeme, node.Accounts lexeme ∨ node.PassesOver lexeme → longer.Accounts lexeme)
    (stands : longer.Accounts state.cursor.current) :
    Found (read ++ state.taken) (trees ++ [longer]) := by
  have own : longer ∈ (trees ++ [longer]).flatMap Node.walk := by
    rw [List.flatMap_append, List.flatMap_singleton]
    exact List.mem_append_right _ (Node.mem_walk_self _)
  refine .append (found.into fun lexeme other below stands => ?_) fun lexeme member _ => ?_
  · rw [List.flatMap_append, List.flatMap_singleton, Node.walk_eq, leaf] at below
    rcases List.mem_append.mp below with before | last
    · rw [List.flatMap_append]
      exact ⟨other, List.mem_append_left _ before, stands⟩
    · rw [List.mem_singleton.mp last] at stands
      exact ⟨longer, own, .inl (same lexeme stands)⟩
  · rw [ParseState.eq_current_of_mem_taken member]
    exact .inr ⟨longer, own, .inl stands⟩

/-- Nothing is found in a closing tag. -/
theorem Found.closing {less slash greater : Lexeme} {path : List Lexeme} (isLess : less.token = .less)
    (isSlash : slash.token = .slash) (isGreater : greater.token = .greater)
    (isPath : ∀ part ∈ path, part.token = .name ∨ part.token = .dot) (trees : List Node) :
    Found (less :: slash :: (path ++ [greater])) trees := by
  intro lexeme member content
  rcases List.mem_cons.mp member with rfl | member
  · rw [isLess] at content; cases content
  rcases List.mem_cons.mp member with rfl | member
  · rw [isSlash] at content; cases content
  rcases List.mem_append.mp member with inPath | last
  · obtain ⟨before, after, rfl⟩ := List.append_of_mem inPath
    refine .inl ⟨[], less, slash, before, after ++ [greater], ?_, isLess, isSlash, ?_⟩
    · rw [List.nil_append, List.append_assoc, List.cons_append]
    · exact (List.forall_mem_append.mp isPath).1
  · rw [List.mem_singleton.mp last, isGreater] at content; cases content

theorem Found.sign {state : ParseState} (isSign : state.token.isSign = true)
    (trees : List Node) : Found state.taken trees := by
  intro lexeme member content
  rw [ParseState.eq_current_of_mem_taken member] at content
  exact absurd content (Bool.not_eq_true _ |>.mpr (Token.isContent_of_isSign isSign))

theorem Found.taken {state : ParseState} {node : Node} (stands : node.Accounts state.cursor.current) :
    Found state.taken [node] := by
  intro lexeme member _
  rw [ParseState.eq_current_of_mem_taken member, List.flatMap_singleton]
  exact .inr ⟨node, Node.mem_walk_self _, .inl stands⟩

/-- Nothing is found in what closes an element. -/
theorem ParseState.ClosesElement.found {first second : ParseState}
    (closes : first.ClosesElement second) :
    ∃ read, first.Reads read second ∧ ∀ trees, Found read trees := by
  cases closes with
  | within isSlash isGreater =>
      refine ⟨_, first.reads_taken.trans first.advance.reads_taken, fun trees => ?_⟩
      exact .append (.sign (isSlash ▸ rfl) trees) (.sign (isGreater ▸ rfl) trees)
  | @tag last isLess isSlash path isGreater =>
      obtain ⟨names, reads, isPath⟩ := path.path
      have whole := first.reads_taken.trans (first.advance.reads_taken.trans
        (reads.trans last.reads_taken))
      rw [taken_of_token_eq isLess nofun, taken_of_token_eq isSlash nofun,
        taken_of_token_eq isGreater nofun] at whole
      exact ⟨_, whole, Found.closing isLess isSlash isGreater isPath⟩

/-- Nothing is found in a tree that may be left out. -/
theorem Found.init {read : List Lexeme} {trees : List Node} {span : Span}
    (found : Found read (trees ++ [.expr (.empty span)])) : Found read trees := by
  refine found.into fun lexeme node below stands => ?_
  rw [List.flatMap_append, List.flatMap_singleton, Node.walk_eq] at below
  rcases List.mem_append.mp below with before | last
  · exact ⟨node, before, stands⟩
  · rw [List.mem_singleton.mp last] at stands
    exact (stands.elim id id).elim

theorem Node.children_forIn (span : Span) (key value : Option Variable) (source : Expr)
    (body : Block) :
    (Node.stmt (.forIn span key value source body)).children =
      variableNodes key.toList ++ variableNodes value.toList ++ [.expr source] ++
        [.stmt (.block body)] := by
  simp [Node.children]

/-- A loop passes over what stands between its source and its body. -/
theorem Found.loop {head gap tail : List Lexeme} {span : Span} {key value : Option Variable}
    {source : Expr} {body : Block}
    (inHead : Found head (variableNodes key.toList ++ variableNodes value.toList ++ [.expr source]))
    (inGap : ∀ lexeme ∈ gap, source.span.stop.offset ≤ lexeme.span.start.offset ∧
      lexeme.span.stop.offset ≤ body.span.start.offset)
    (inBody : Found tail [.stmt (.block body)]) :
    Found (head ++ (gap ++ tail)) [.stmt (.forIn span key value source body)] := by
  have children := Node.children_forIn span key value source body
  have passed : Found gap [.stmt (.forIn span key value source body)] := by
    intro lexeme member _
    rw [List.flatMap_singleton]
    exact .inr ⟨_, Node.mem_walk_self _, .inr (inGap lexeme member)⟩
  exact .append (inHead.child (children ▸ List.subset_append_left _ _))
    (passed.append (inBody.child (children ▸ List.subset_append_right _ _)))

/-- The lexemes that are read are found in the trees, if they stand one after the other and nothing is
malformed. -/
def Reading.Accounts : Reading → List Node → Prop
  | lexemes first second, trees => ∀ high, first.Laid high →
    ∃ read, first.Reads read second ∧ (trees.flatMap Node.diagnostics = [] → Found read trees)
  | streams .., _ => True

namespace Reading

open ParseState

theorem accounts_nothing (state : ParseState) (trees : List Node) :
    (lexemes state state).Accounts trees :=
  fun _ _ => ⟨[], state.reads_nil, fun _ => .nil trees⟩

/-- A leaf in place of a lexeme. -/
theorem accounts_leaf {state next : ParseState} (moved : next.cursor = state.cursor.advance)
    {node : Node} (stands : node.Accounts state.cursor.current) :
    (lexemes state next).Accounts [node] := by
  refine fun _ _ => ⟨state.taken, ?_, fun _ => .taken stands⟩
  rw [Reads, moved]
  exact state.reads_taken

/-- Something malformed in place of lexemes. -/
theorem accounts_malformed {first second : ParseState} (skips : Skips first second) {node : Node}
    {diagnostic : Diagnostic} (found : node.diagnostic? = some diagnostic) :
    (lexemes first second).Accounts [node] := by
  intro high laid
  obtain ⟨gap, reads, _⟩ := skips.gap laid
  exact ⟨gap, reads, fun silent => absurd silent (Node.not_silent found)⟩

end Reading

open ParseState Reading

theorem Derives.accounts {reading : Reading} {trees : List Node} (derived : Derives reading trees) :
    reading.Accounts trees := by
  induction derived with
  | nothing state => exact accounts_nothing state []
  | sequence derived _ leftHypothesis rightHypothesis =>
      intro high laid
      obtain ⟨leftRead, leftReads, leftFound⟩ := leftHypothesis high laid
      obtain ⟨between, _⟩ := derived.arranges high laid
      obtain ⟨rightRead, rightReads, rightFound⟩ := rightHypothesis high between
      refine ⟨leftRead ++ rightRead, leftReads.trans rightReads, fun silent => ?_⟩
      rw [List.flatMap_append] at silent
      obtain ⟨leftSilent, rightSilent⟩ := List.append_eq_nil_iff.mp silent
      exact (leftFound leftSilent).and (rightFound rightSilent)
  | @sign state isSign => exact fun _ _ => ⟨state.taken, state.reads_taken, fun _ => .sign isSign []⟩
  | constant | read | declare | identifier => exact accounts_leaf rfl (Span.holds_refl _)
  | @word first second trees span text longer derived _ inductionHypothesis =>
      intro high laid
      obtain ⟨read, reads, found⟩ := inductionHypothesis high laid
      obtain ⟨between, arranged⟩ := derived.arranges high laid
      obtain ⟨whole, last⟩ := between.holds_longer arranged
      refine ⟨read ++ second.taken, reads.trans second.reads_taken, fun silent => ?_⟩
      refine (found ?_).lengthen rfl (fun lexeme stands => whole _ (stands.resolve_right id)) last
      rw [List.flatMap_append] at silent ⊢
      rw [(List.append_eq_nil_iff.mp silent).1, List.flatMap_singleton, Node.diagnostics_eq]
      rfl
  | @path first second span name longer derived _ inductionHypothesis =>
      intro high laid
      obtain ⟨read, reads, found⟩ := inductionHypothesis high laid
      obtain ⟨between, arranged⟩ := derived.arranges high laid
      have last : Arranged _ ([] ++ [_]) _ := arranged
      obtain ⟨whole, last⟩ := between.holds_longer last
      refine ⟨read ++ second.taken, reads.trans second.reads_taken, fun _ => ?_⟩
      have identifier : Found read ([] ++ [.expr (.identifier ⟨span, name⟩)]) := by
        refine found ?_
        rw [List.flatMap_singleton, Node.diagnostics_eq]
        rfl
      exact identifier.lengthen rfl (fun lexeme stands => whole _ (stands.resolve_right id)) last
  | empty state => exact accounts_nothing state _
  | omitted _ inductionHypothesis =>
      intro high laid
      obtain ⟨read, reads, found⟩ := inductionHypothesis high laid
      refine ⟨read, reads, fun silent => (found ?_).init⟩
      rw [List.flatMap_append, silent, List.flatMap_singleton, Node.diagnostics_eq]
      rfl
  | @bad _ second _ _ _ inductionHypothesis =>
      intro high laid
      obtain ⟨read, reads, _⟩ := inductionHypothesis high laid
      exact ⟨read ++ second.taken, reads.trans second.reads_taken,
        fun silent => absurd silent (Node.not_silent rfl)⟩
  | badEntry => exact accounts_malformed (.more (.refl _)) rfl
  | missing | missingEntry => exact accounts_malformed (.refl _) rfl
  | spoilt _ derived skips _ inductionHypothesis =>
      intro high laid
      obtain ⟨read, reads, _⟩ := inductionHypothesis high laid
      obtain ⟨between, _⟩ := derived.arranges high laid
      obtain ⟨gap, skipped, _⟩ := skips.gap between
      exact ⟨read ++ gap, reads.trans skipped, fun silent => absurd silent (Node.not_silent rfl)⟩
  | spoiltEntry _ skips => exact accounts_malformed (.more skips) rfl
  | node _ _ _ _ inductionHypothesis =>
      intro high laid
      obtain ⟨read, reads, found⟩ := inductionHypothesis high laid
      exact ⟨read, reads, fun silent => (found (Node.silent_children silent)).parent⟩
  | @enclosed first _ _ isSign _ _ _ inductionHypothesis =>
      intro high laid
      obtain ⟨read, reads, found⟩ := inductionHypothesis high laid.step.1
      refine ⟨first.taken ++ read, first.reads_taken.trans reads, fun silent => ?_⟩
      exact .append (.sign isSign _) (found (Node.silent_children silent)).parent
  | @property first _ _ _ _ span inductionHypothesis =>
      intro high laid
      obtain ⟨read, reads, found⟩ := inductionHypothesis high laid.step.1
      refine ⟨first.taken ++ read, first.reads_taken.trans reads, fun silent => ?_⟩
      subst span
      exact .append (.taken ⟨rfl, rfl⟩) (found (Node.silent_children silent)).parent
  | @compound _ _ _ op target value _ _ inductionHypothesis =>
      intro high laid
      obtain ⟨read, reads, found⟩ := inductionHypothesis high laid
      refine ⟨read, reads, fun silent => ?_⟩
      -- The second child of the assignment has both the target and the value as its children.
      have children : [Node.expr target, .expr (Expr.join op target value)].flatMap Node.diagnostics = [] :=
        Node.silent_children silent
      rw [List.flatMap_cons] at children
      have join := (List.append_eq_nil_iff.mp children).2
      have inJoin : Found read [.expr (Expr.join op target value)] :=
        Found.parent (found (Node.silent_children join))
      exact inJoin.child (List.subset_cons_self _ _)
  | @function _ second _ _ items _ headDerived isList isArrow same _ headHypothesis bodyHypothesis =>
      intro high laid
      obtain ⟨headRead, headReads, headFound⟩ := headHypothesis high laid
      obtain ⟨between, _⟩ := headDerived.arranges high laid
      obtain ⟨entered, _⟩ := between.step
      obtain ⟨bodyRead, bodyReads, bodyFound⟩ := bodyHypothesis high ⟨entered.previous, entered.ahead⟩
      refine ⟨headRead ++ (second.taken ++ bodyRead),
        headReads.trans (second.reads_taken.trans bodyReads), fun silent => ?_⟩
      have children := Node.silent_children silent
      rw [Node.children, List.flatMap_append] at children
      obtain ⟨names, rfl⟩ := Grammar.exists_names_of_length same
      have headSilent := (Grammar.walk_parameters isList).1
      rw [List.flatMap_singleton] at headFound
      have params := (headFound headSilent).parameters isList same
      have arrow := Found.sign (isArrow ▸ rfl : second.token.isSign = true) []
      exact (params.and (arrow.and (bodyFound (List.append_eq_nil_iff.mp children).2))).parent
  | @spoiltFunction _ second _ _ _ _ _ headDerived _ _ headHypothesis bodyHypothesis =>
      intro high laid
      obtain ⟨headRead, headReads, _⟩ := headHypothesis high laid
      obtain ⟨between, _⟩ := headDerived.arranges high laid
      obtain ⟨entered, _⟩ := between.step
      obtain ⟨bodyRead, bodyReads, _⟩ := bodyHypothesis high ⟨entered.previous, entered.ahead⟩
      exact ⟨headRead ++ (second.taken ++ bodyRead),
        headReads.trans (second.reads_taken.trans bodyReads),
        fun silent => absurd silent (Node.not_silent rfl)⟩
  | template => exact accounts_leaf rfl (Span.holds_refl _)
  | noStreams => trivial
  | stream => trivial
  | @element first _ _ _ _ _ _ _ isLess isTag _ closes _ inductionHypothesis =>
      intro high laid
      obtain ⟨read, reads, found⟩ := inductionHypothesis high laid.step.1
      obtain ⟨tail, closed, nothing⟩ := closes.found
      refine ⟨first.taken ++ (read ++ tail), first.reads_taken.trans (reads.trans closed),
        fun silent => ?_⟩
      have parts := found (isTag.silent (Node.silent_children silent))
      exact .append (.sign (isLess ▸ rfl) _) (.append (parts.child (isTag.subset _)) (nothing _))
  | @letIn _ _ _ _ value _ _ _ inductionHypothesis =>
      intro high laid
      obtain ⟨read, reads, found⟩ := inductionHypothesis high laid
      refine ⟨read, reads, fun silent => Found.parent ?_⟩
      cases value <;> exact found (Node.silent_children silent)
  | @loop _ _ _ _ _ _ _ source _ headDerived _ skips bodyDerived _ headHypothesis bodyHypothesis =>
      intro high laid
      obtain ⟨headRead, headReads, headFound⟩ := headHypothesis high laid
      obtain ⟨between, head⟩ := headDerived.arranges high laid
      obtain ⟨gap, gapReads, inGap⟩ := skips.gap between
      obtain ⟨skipped, _⟩ := skips.laid between
      obtain ⟨bodyRead, bodyReads, bodyFound⟩ := bodyHypothesis high skipped
      obtain ⟨_, bodyArranged⟩ := bodyDerived.arranges high skipped
      refine ⟨headRead ++ (gap ++ bodyRead), headReads.trans (gapReads.trans bodyReads), fun silent => ?_⟩
      have parts := Node.silent_children silent
      rw [Node.children_forIn, List.flatMap_append] at parts
      obtain ⟨headSilent, bodySilent⟩ := List.append_eq_nil_iff.mp parts
      refine .loop (headFound headSilent) (fun lexeme member => ?_) (bodyFound bodySilent)
      exact ⟨Nat.le_trans (head.stop (.expr source) (by simp)) (inGap lexeme member).1,
        Nat.le_trans (inGap lexeme member).2 (bodyArranged.start _ (.head _)).1⟩

/-! ## Sources -/

theorem Lexeme.isSignificant_of_isContent {lexeme : Lexeme} (content : lexeme.token.isContent = true) :
    lexeme.isSignificant = true := by
  unfold isSignificant
  cases token : lexeme.token <;> rw [token] at content <;> first | rfl | cases content

/-- The parser sees each name and each literal of a source. -/
theorem Lexeme.mem_aheadOf_scanFrom {bound : Nat} {state : ScanState} {position : Position}
    {runes : List Text.Rune} {lexeme : Lexeme} (member : lexeme ∈ scanFrom bound state position runes)
    (content : lexeme.token.isContent = true) :
    lexeme ∈ Cursor.aheadOf (scanFrom bound state position runes) := by
  have ended (position : Position) (last : lexeme ∈ [endOfSource position]) : False := by
    rw [List.mem_singleton.mp last] at content
    cases content
  induction bound generalizing state position runes with
  | zero => exact (ended _ member).elim
  | succ bound inductionHypothesis =>
      cases runes with
      | nil => exact (ended _ member).elim
      | cons first rest =>
          have more := Recognized.token_next_ne_eof state.newlineEnds first rest
          simp only [scanFrom] at member ⊢
          rw [Cursor.aheadOf, List.takeWhile_cons_of_pos (by simpa [Token.isEof] using more)]
          refine List.mem_filter.mpr ⟨?_, isSignificant_of_isContent content⟩
          rcases List.mem_cons.mp member with rfl | later
          · exact .head _
          · exact .tail _ (List.mem_filter.mp (inductionHypothesis later)).1

/-- In a program without diagnostics, each name and each literal is in the tree, within a leaf or as the
key of a property, unless it stands in a closing tag or between the source of a loop and its body. -/
theorem contents_in_trees (source : Nat) (file : String) (bytes : List UInt8)
    (silent : Stmt.diagnostics (parseProgram source file bytes) = []) :
    ∀ lexeme ∈ Lexeme.scan file bytes, lexeme.token.isContent = true →
      lexeme.ClosesTag (Cursor.aheadOf (Lexeme.scan file bytes)) ∨
        ∃ node ∈ Stmt.visitAll (fun _ => true) (parseProgram source file bytes),
          node.Accounts lexeme ∨ node.PassesOver lexeme := by
  intro lexeme member content
  obtain ⟨after, built, exhausted⟩ := Parsed.statements_build source (Lexeme.scan file bytes)
  obtain ⟨high, started⟩ := laid_start_scan file bytes { source }
  obtain ⟨read, reads, found⟩ := Derives.accounts built high started
  rw [Reads, exhausted.ahead, List.append_nil] at reads
  rw [Stmt.diagnostics_eq_flatMap] at silent
  rw [Stmt.visitAll_eq_flatMap]
  subst reads
  exact found silent lexeme (Lexeme.mem_aheadOf_scanFrom member content) content

/-- A program with a loop, a property and a tag. -/
theorem contents_of_tagged_loop_in_trees :
    let bytes := "for x in [1] \x7b print(<a k=\"v\">w</a>) \x7d".toUTF8.toList
    Stmt.diagnostics (parseProgram 0 "" bytes) = [] ∧
      ∀ lexeme ∈ Lexeme.scan "" bytes, lexeme.token.isContent = true →
        lexeme.ClosesTag (Cursor.aheadOf (Lexeme.scan "" bytes)) ∨
          ∃ node ∈ Stmt.visitAll (fun _ => true) (parseProgram 0 "" bytes),
            node.Accounts lexeme ∨ node.PassesOver lexeme := by
  intro bytes
  have silent : Stmt.diagnostics (parseProgram 0 "" bytes) = [] := by
    decide +kernel
  exact ⟨silent, contents_in_trees 0 "" bytes silent⟩

/-- A text between the source of a loop and its body is not in the tree, and there is no diagnostic. -/
theorem loop_passes_over_text :
    let bytes := "for x in [1] \"lost\" \x7b \x7d".toUTF8.toList
    Stmt.diagnostics (parseProgram 0 "" bytes) = [] ∧
      ∃ lexeme ∈ Lexeme.scan "" bytes, lexeme.token = .string ∧
        ∀ node ∈ Stmt.visitAll (fun _ => true) (parseProgram 0 "" bytes), ¬node.Accounts lexeme := by
  decide +kernel

end Reckon
