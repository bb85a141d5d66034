import Reckon.Proofs.Parsing.Accounting

/-!
# Expressions report an unclosed string

A string or a template that is not closed takes the rest of its line or of the source.  Where it is the
last lexeme, a parser either stays before it, or its tree has a diagnostic: some parsers pass over
lexemes without one, but none of them may end where the source does.
-/

namespace Reckon

namespace ParseState

variable {state : ParseState} {trees more : List Node} {node : Node}

/-- Whether the last lexeme ahead is a string or a template that is not closed. -/
def Unclosed (state : ParseState) : Prop :=
  ∃ last ∈ state.cursor.ahead.getLast?, last.token = .badString

/-- An unclosed string is still ahead, or one of the trees that were read has a diagnostic. -/
def Watched (trees : List Node) (state : ParseState) : Prop :=
  state.Unclosed ∨ ∃ tree ∈ trees, tree.diagnostics ≠ []

/-- Behind an unclosed string the source ends. -/
theorem Unclosed.advance (unclosed : state.Unclosed) :
    state.advance.Unclosed ∨ state.token = .badString ∧ state.advance.token = .eof := by
  obtain ⟨last, isLast, token⟩ := unclosed
  cases ahead : state.cursor.ahead with
  | nil => simp [ahead] at isLast
  | cons first rest =>
      cases rest with
      | nil =>
          rw [ahead, List.getLast?_singleton] at isLast
          cases isLast
          refine .inr ⟨?_, (token_eq_eof_iff _).mpr ?_⟩
          · simp [ParseState.token, Cursor.current, ahead, token]
          · simp [ParseState.advance, Cursor.advance, ahead]
      | cons second rest =>
          rw [ahead, List.getLast?_cons_cons] at isLast
          refine .inl ⟨last, ?_, token⟩
          simpa [ParseState.advance, Cursor.advance, ahead] using isLast

namespace Watched

theorem start (unclosed : state.Unclosed) (trees : List Node) : state.Watched trees :=
  .inl unclosed

theorem mono (watched : state.Watched trees) (part : trees ⊆ more) : state.Watched more :=
  watched.imp_right fun ⟨tree, member, reported⟩ => ⟨tree, part member, reported⟩

/-- A sign is no string. -/
theorem sign {expected : Token} (watched : state.Watched trees) (same : state.token = expected)
    (other : expected ≠ .badString) : state.advance.Watched trees := by
  refine watched.elim (fun unclosed => ?_) .inr
  rcases unclosed.advance with ahead | ⟨isString, -⟩
  · exact .inl ahead
  · exact absurd (same.symm.trans isString) other

/-- A lexeme that is passed over is before an unclosed string, or the source ends behind it. -/
theorem pass (watched : state.Watched trees) :
    state.advance.Watched trees ∨ state.advance.token = .eof := by
  rcases watched with unclosed | reported
  · exact unclosed.advance.imp .inl And.right
  · exact .inl (.inr reported)

/-- A malformed node has a diagnostic. -/
theorem report {diagnostic : Diagnostic} (state : ParseState)
    (malformed : node.diagnostic? = some diagnostic) : state.Watched [node] := by
  refine .inr ⟨node, List.mem_singleton_self _, ?_⟩
  rw [Node.diagnostics_eq, malformed]
  exact List.cons_ne_nil _ _

theorem reportAfter {diagnostic : Diagnostic} (trees : List Node) (state : ParseState)
    (malformed : node.diagnostic? = some diagnostic) : state.Watched (trees ++ [node]) :=
  (report state malformed).mono (List.subset_append_right _ _)

/-- The diagnostics of its children are those of a node. -/
theorem parent (watched : state.Watched node.children) : state.Watched [node] := by
  refine watched.imp_right fun ⟨child, member, reported⟩ => ?_
  exact ⟨node, List.mem_singleton_self _, Node.diagnostics_ne_nil_of_child member reported⟩

/-- A missing operand has no diagnostics. -/
theorem of_isEmpty {tree : Expr} (watched : state.Watched (trees ++ [.expr tree]))
    (isEmpty : tree.isEmpty = true) : state.Watched trees := by
  refine watched.imp_right fun ⟨found, member, reported⟩ => ⟨found, ?_, reported⟩
  rcases List.mem_append.mp member with isFirst | isLast
  · exact isFirst
  · rw [List.mem_singleton.mp isLast] at reported
    cases tree with
    | empty span => exact absurd rfl reported
    | _ => cases isEmpty

theorem append {α : Type} {wrap : α → Node} {list : List α} {item : α}
    (watched : state.Watched (list.map wrap ++ [wrap item])) :
    state.Watched ((list ++ [item]).map wrap) := by
  rwa [List.map_append]

theorem concat {α : Type} {wrap : α → Node} {list : List α} {item : α}
    (watched : state.Watched (trees ++ list.map wrap ++ [wrap item])) :
    state.Watched (trees ++ (list ++ [item]).map wrap) := by
  rwa [List.map_append, ← List.append_assoc]

theorem assign {target value : Expr} (watched : state.Watched [.expr target, .expr value]) :
    state.Watched [.expr (Expr.assign target value)] := by
  unfold Expr.assign
  split
  · exact parent watched
  · exact report state rfl

theorem assign_compound {target value : Expr} (op : BinaryOp)
    (watched : state.Watched [.expr target, .expr value]) :
    state.Watched [.expr (Expr.assign target (Expr.join op target value))] := by
  refine assign ?_
  have joined : state.Watched [.expr (Expr.join op target value)] := parent watched
  exact joined.mono (List.subset_cons_self _ _)

theorem powerChain {base : Expr} {exponents : List Expr}
    (watched : state.Watched ((base :: exponents).map .expr)) :
    state.Watched [.expr (Expr.powerChain base exponents)] := by
  induction exponents generalizing base with
  | nil => exact watched
  | cons next rest inductionHypothesis =>
      refine parent ?_
      rcases watched with unclosed | ⟨tree, member, reported⟩
      · exact .inl unclosed
      · rcases List.mem_cons.mp member with rfl | later
        · exact .inr ⟨_, List.mem_cons_self, reported⟩
        · have chain := inductionHypothesis (.inr ⟨tree, later, reported⟩)
          exact chain.mono (List.subset_cons_self _ _)

end Watched

end ParseState

namespace Grammar

open Reckon.Parser ParseState

variable {inner : Grammar} {state : ParseState} {trees : List Node}

/-- The parser of an expression stays before an unclosed string or reports it. -/
abbrev WatchesExpr (parser : Parser Expr) (state : ParseState) : Prop :=
  parser.Ensures state fun tree after => after.Watched [.expr tree]

/-- The parsers of a grammar stay before an unclosed string or report it. -/
structure Watches (grammar : Grammar) : Prop where
  expr : ∀ {state}, state.Unclosed → WatchesExpr grammar.expr state
  lambda : ∀ {state}, state.Unclosed → WatchesExpr grammar.lambda state
  unary : ∀ {state}, state.Unclosed → WatchesExpr grammar.unary state
  markup : ∀ {state}, state.Unclosed → state.token = .less → WatchesExpr grammar.markup state
  block : ∀ {state}, state.Unclosed → state.token = .leftBrace →
    grammar.block.Ensures state fun tree after => after.Watched [.stmt (.block tree)]
  ifStatement : ∀ {state}, state.Unclosed → state.token = .kwIf →
    grammar.ifStatement.Ensures state fun tree after => after.Watched [.stmt tree]

/-- What is read after other trees. -/
theorem watched_after {α : Type} {parser : Parser α} {nodes : α → List Node}
    (watched : state.Watched trees)
    (parsed : state.Unclosed → parser.Ensures state fun result after => after.Watched (nodes result)) :
    parser.Ensures state fun result after => after.Watched (trees ++ nodes result) := by
  rcases watched with unclosed | reported
  · exact (parsed unclosed).mono fun _ _ found => found.mono (List.subset_append_right _ _)
  · have kept : state.Watched trees := .inr reported
    exact fun _ _ _ => .mono (.inr reported) (List.subset_append_left _ _)

/-- What a round of a loop reads, whether it ends or goes on. -/
abbrev WatchesRound {α : Type} (nodes : α → List Node) (parser : Parser (Round α α))
    (state : ParseState) : Prop :=
  parser.Ensures state (Round.Meets (fun result after => after.Watched (nodes result))
    fun result after => after.Watched (nodes result))

/-- A loop that goes on from an operand. -/
theorem loop_watches {round : Expr → Parser (Round Expr Expr)} {operand : Expr}
    (start : state.Watched [.expr operand])
    (step : ∀ left middle, ParseState.Watched [.expr left] middle →
      WatchesRound (fun tree => [.expr tree]) (round left) middle) :
    WatchesExpr (loop round operand) state :=
  loop_ensures (fun left middle => ParseState.Watched [.expr left] middle) start step

/-! ## Lists and literals -/

theorem itemsRound_watches (watches : inner.Watches) (close : Token) {soFar : List Expr}
    (before : state.Watched (trees ++ soFar.map .expr)) :
    WatchesRound (fun list => trees ++ list.map .expr) (inner.itemsRound close soFar) state := by
  simp only [itemsRound, ensures_bind, ensures_token, ensures_ite, ensures_pure, ensures_accept,
    accepted_iff, refused_iff]
  refine ⟨fun _ => before, fun _ => ?_⟩
  refine (watched_after before watches.expr).mono fun item after grown => ?_
  have counted : after.Watched (trees ++
      (if !item.isEmpty || after.token == .comma then soFar ++ [item] else soFar).map .expr) := by
    split
    · exact .concat grown
    · next missing =>
      rw [Bool.or_eq_true, not_or, Bool.not_eq_true, Bool.not_eq_false'] at missing
      exact grown.of_isEmpty missing.1
  exact ⟨fun comma => counted.sign comma (by decide), fun _ => counted⟩

theorem items_watch (watches : inner.Watches) {close : Token} (other : close ≠ .badString)
    (defect : Defect) (before : state.Watched trees) :
    (inner.items close defect).Ensures state fun list after =>
      after.Watched (trees ++ list.map .expr) := by
  have listed : (loop (inner.itemsRound close) []).Ensures state fun list after =>
      after.Watched (trees ++ list.map .expr) := by
    refine loop_ensures (fun list middle => ParseState.Watched (trees ++ list.map .expr) middle)
      (by simpa using before) ?_
    exact fun _ _ watched => itemsRound_watches watches close watched
  simp only [items, ensures_bind]
  refine listed.mono fun list last found => ?_
  simp only [ensures_accept, ensures_ite, ensures_bind, ensures_pure, ensures_missing,
    accepted_iff, refused_iff]
  exact ⟨fun isClose => found.sign isClose other, fun _ => .concat (.reportAfter _ last rfl)⟩

theorem literal_watches (value : Literal) {expected : Token} (unclosed : state.Unclosed)
    (same : state.token = expected) (other : expected ≠ .badString) :
    WatchesExpr (literal value) state := by
  simp only [WatchesExpr, literal, ensures_bind, ensures_skipLexeme, ensures_pure]
  exact (Watched.start unclosed _).sign same other

theorem bad_watches (defect : Defect) : WatchesExpr (bad defect) state := by
  rw [WatchesExpr, ensures_bad]
  exact .report _ rfl

theorem number_watches (unclosed : state.Unclosed) (isNumber : state.token = .number) :
    WatchesExpr number state := by
  simp only [WatchesExpr, number, ensures_bind, ensures_current]
  split
  · exact literal_watches _ unclosed isNumber (by decide)
  · exact bad_watches _

/-- The streams of a template are read elsewhere. -/
theorem replacements_watch (streams : List (List Lexeme)) :
    (streams.mapM fun lexemes => do
      let outer ← get
      set (ParseState.start lexemes outer.scope)
      let replacement ← inner.whole
      modify fun state => { outer with scope := state.scope }
      return replacement : Parser (List Expr)).Ensures state fun _ after =>
        after.cursor = state.cursor := by
  induction streams generalizing state with
  | nil => simp
  | cons lexemes rest inductionHypothesis =>
      simp only [List.mapM_cons, ensures_bind, ensures_get, ensures_set, ensures_modify, ensures_pure]
      intro tree last _
      exact inductionHypothesis

theorem template_watches (unclosed : state.Unclosed) (isTemplate : state.token = .template) :
    WatchesExpr inner.template state := by
  simp only [WatchesExpr, template, ensures_bind, ensures_current]
  refine (replacements_watch _).mono fun trees after same => ?_
  simp only [ensures_skipLexeme, ensures_pure]
  have ahead : after.Unclosed := by rwa [Unclosed, same]
  have token : after.token = .template := by rwa [ParseState.token, same]
  exact (Watched.start ahead _).sign token (by decide)

/-! ## Brackets -/

theorem matrix_watches (watches : inner.Watches) (unclosed : state.Unclosed)
    (bracket : state.token = .leftBracket) : WatchesExpr inner.matrix state := by
  simp only [WatchesExpr, matrix, ensures_bind, ensures_current, ensures_advance, ensures_spanFrom,
    ensures_pure]
  refine Ensures.mono (loop_ensures
    (fun soFar middle => ParseState.Watched (soFar.cells.map .expr) middle) ?_ ?_ :
    Ensures _ _ fun rows after => after.Watched (rows.flatten.map .expr)) fun _ _ both => .parent both
  · exact (Watched.start unclosed _).sign bracket (by decide)
  intro soFar middle watched
  have next {cell : Expr} {after : ParseState}
      (read : after.Watched (soFar.cells.map .expr ++ [.expr cell])) : after.Watched
        (({ soFar with row := soFar.row ++ [cell] } : MatrixRows).cells.map .expr) := by
    rw [MatrixRows.cells, ← List.append_assoc]
    exact .append read
  simp only [ensures_bind, ensures_token]
  split
  · next closing =>
    simp only [ensures_bind, ensures_advance, ensures_pure, Round.Meets, MatrixRows.flatten_endRow]
    exact watched.sign closing (by decide)
  · simp only [ensures_bind, ensures_missing, ensures_pure, Round.Meets, MatrixRows.flatten_endRow]
    exact next (.reportAfter _ middle rfl)
  · next separator =>
    simp only [ensures_bind, ensures_advance, ensures_pure, Round.Meets, MatrixRows.cells_endRow]
    exact watched.sign separator (by decide)
  · next separator =>
    simp only [ensures_bind, ensures_advance, ensures_pure]
    exact watched.sign separator (by decide)
  · simp only [ensures_bind, ensures_ite, ensures_bad, ensures_pure]
    refine (watched_after watched watches.expr).mono fun cell after read =>
      ⟨fun _ => ?_, fun _ => next read⟩
    exact next (.reportAfter _ after.advance rfl)

theorem property_watches (watches : inner.Watches) {expected : Token} (unclosed : state.Unclosed)
    (same : state.token = expected) (other : expected ≠ .badString) :
    inner.property.Ensures state fun entry after => after.Watched [.entry entry] := by
  have key (trees : List Node) : state.advance.Watched trees :=
    (Watched.start unclosed trees).sign same other
  simp only [property, ensures_bind, ensures_current, ensures_advance, ensures_accept, ensures_ite,
    ensures_spanFrom, ensures_findFrame, ensures_pure, accepted_iff, refused_iff]
  refine ⟨fun colon => ?_, fun _ => ⟨fun _ => key _, fun _ => .report _ rfl⟩⟩
  exact (watched_after ((key []).sign colon (by decide)) watches.expr).mono fun _ _ both => .parent both

theorem object_watches (watches : inner.Watches) (unclosed : state.Unclosed)
    (brace : state.token = .leftBrace) : WatchesExpr inner.object state := by
  simp only [WatchesExpr, object, ensures_bind, ensures_current, ensures_advance, ensures_spanFrom,
    ensures_pure]
  refine Ensures.mono (loop_ensures
    (fun soFar middle => ParseState.Watched (soFar.map .entry) middle) ?_ ?_ :
    Ensures _ _ fun entries after => after.Watched (entries.map .entry)) fun _ _ both => .parent both
  · exact (Watched.start unclosed _).sign brace (by decide)
  intro soFar middle watched
  have next {entry : Entry} {after : ParseState}
      (read : after.Watched (soFar.map .entry ++ [.entry entry])) :
      after.Watched ((soFar ++ [entry]).map .entry) :=
    .append read
  have listed {expected : Token} (same : middle.token = expected) (other : expected ≠ .badString) :
      inner.property.Ensures middle fun entry after =>
        after.Watched ((soFar ++ [entry]).map .entry) :=
    (watched_after watched fun ahead => property_watches watches ahead same other).mono
      fun _ _ => next
  simp only [ensures_bind, ensures_token]
  split
  · next closing =>
    simp only [ensures_bind, ensures_advance, ensures_pure]
    exact watched.sign closing (by decide)
  · simp only [ensures_bind, ensures_here, ensures_pure]
    exact next (.reportAfter _ middle rfl)
  iterate 2
    next separator =>
      simp only [ensures_bind, ensures_advance, ensures_pure]
      exact watched.sign separator (by decide)
  iterate 3
    next key =>
      simp only [ensures_bind, ensures_pure]
      exact listed key (by decide)
  · simp only [ensures_bind, ensures_skipLexeme, ensures_pure]
    exact next (.reportAfter _ middle.advance rfl)

/-! ## Operands -/

theorem operand_watches (watches : inner.Watches) (unclosed : state.Unclosed) :
    WatchesExpr inner.operand state := by
  simp only [WatchesExpr, operand, ensures_bind, ensures_token]
  split
  · next isNumber => exact number_watches unclosed isNumber
  · next isString =>
    simp only [ensures_bind, ensures_current]
    exact literal_watches _ unclosed isString (by decide)
  · exact bad_watches _
  · next isTemplate => exact template_watches unclosed isTemplate
  iterate 3
    next keyword => exact literal_watches _ unclosed keyword (by decide)
  · next isName =>
    simp only [ensures_bind, ensures_variableRead, ensures_pure]
    exact (Watched.start unclosed _).sign isName (by decide)
  · next paren =>
    simp only [ensures_bind, ensures_current, ensures_advance, ensures_spanFrom, ensures_pure]
    have opened := (Watched.start unclosed []).sign paren (by decide)
    exact (items_watch watches (by decide) _ opened).mono fun _ _ both => .parent both
  · next bracket => exact matrix_watches watches unclosed bracket
  · next brace => exact object_watches watches unclosed brace
  · next less => exact watches.markup unclosed less
  · exact bad_watches _
  iterate 7
    simp only [ensures_bind, ensures_here, ensures_pure]
    exact .start unclosed _
  exact bad_watches _

theorem postfixRound_watches (watches : inner.Watches) {owner : Expr}
    (before : state.Watched [.expr owner]) :
    WatchesRound (fun tree => [.expr tree]) (inner.postfixRound owner) state := by
  simp only [postfixRound, ensures_bind, ensures_token]
  split
  · next paren =>
    simp only [ensures_ite, ensures_bind, ensures_advance, ensures_spanFrom, ensures_pure]
    refine ⟨fun _ => before, fun _ => ?_⟩
    have opened := before.sign paren (by decide)
    exact (items_watch watches (by decide) _ opened).mono fun _ _ both => .parent both
  · next dot =>
    simp only [ensures_ite, ensures_bind, ensures_advance, ensures_token, ensures_identifierRead,
      ensures_missing, ensures_pure]
    refine ⟨fun isName => ?_, fun _ => .parent (.reportAfter [_] _ rfl)⟩
    have named := (before.sign dot (by decide)).sign isName (by decide)
    exact .parent (named.mono (List.subset_append_left [_] _))
  · next bang =>
    simp only [ensures_bind, ensures_advance, ensures_spanFrom, ensures_pure]
    exact .parent (before.sign bang (by decide))
  · rw [ensures_pure]
    exact before

theorem postfixed_watches (watches : inner.Watches) (unclosed : state.Unclosed) :
    WatchesExpr inner.postfixed state := by
  simp only [WatchesExpr, postfixed, ensures_bind]
  refine (operand_watches watches unclosed).mono fun owner middle watched => ?_
  exact loop_watches watched fun _ _ => postfixRound_watches watches

theorem ne_badString_of_unaryOp? {token : Token} {op : UnaryOp} (found : unaryOp? token = some op) :
    token ≠ .badString := by
  rintro rfl
  cases found

theorem signed_watches (watches : inner.Watches) (unclosed : state.Unclosed) :
    WatchesExpr inner.signed state := by
  simp only [WatchesExpr, signed, ensures_bind, ensures_token]
  split
  · next op found =>
    simp only [ensures_bind, ensures_current, ensures_advance, ensures_pure]
    have opened := (Watched.start unclosed []).sign rfl (ne_badString_of_unaryOp? found)
    exact (watched_after opened watches.unary).mono fun _ _ both => .parent both
  · exact postfixed_watches watches unclosed

/-! ## Operators between operands -/

/-- The equals sign of a compound assignment is no string. -/
theorem compound_watches (stop : Position) (before : state.Watched trees) :
    (compound stop).Ensures state fun _ after => after.Watched trees := by
  simp only [compound, ensures_bind, ensures_current, ensures_ite, ensures_advance, ensures_pure]
  exact ⟨fun found => before.sign found.1 (by decide), fun _ => before⟩

theorem operatorRound_watches (watches : inner.Watches) (op : BinaryOp) {operand : Parser Expr}
    (parsed : ∀ {state : ParseState}, state.Unclosed → WatchesExpr operand state) {left : Expr}
    (before : state.Watched [.expr left]) (other : state.token ≠ .badString) :
    WatchesRound (fun tree => [.expr tree]) (inner.operatorRound op operand left) state := by
  simp only [operatorRound, ensures_bind, ensures_current, ensures_advance]
  refine (compound_watches _ (before.sign rfl other)).mono fun isCompound middle watched => ?_
  simp only [ensures_ite, ensures_bind, ensures_pure]
  refine ⟨fun _ => ?_, fun _ => ?_⟩
  · exact (watched_after watched watches.expr).mono fun _ _ both => .assign_compound op both
  · exact (watched_after watched parsed).mono fun _ _ both => .parent both

theorem powerRound_watches (watches : inner.Watches) {base : Expr} {exponents : List Expr}
    (before : state.Watched ((base :: exponents).map .expr)) :
    (inner.powerRound base exponents).Ensures state
      (Round.Meets (fun more after => after.Watched ((base :: more).map .expr))
        fun tree after => after.Watched [.expr tree]) := by
  simp only [powerRound, ensures_bind, ensures_token, ensures_ite, ensures_current,
    ensures_advance, ensures_pure]
  refine ⟨fun caret => ?_, fun _ => before.powerChain⟩
  refine (compound_watches _ (before.sign caret (by decide))).mono fun isCompound middle watched =>
    ⟨fun _ => ?_, fun _ => ?_⟩
  · exact (watched_after watched.powerChain watches.expr).mono fun _ _ both => .assign_compound _ both
  · refine (watched_after watched (signed_watches watches)).mono fun exponent after read => ?_
    have longer : after.Watched ((base :: exponents ++ [exponent]).map .expr) := .append read
    exact longer

theorem power_watches (watches : inner.Watches) (unclosed : state.Unclosed) :
    WatchesExpr inner.power state := by
  simp only [WatchesExpr, power, ensures_bind]
  refine (signed_watches watches unclosed).mono fun base middle watched => ?_
  refine loop_ensures
    (fun exponents middle => ParseState.Watched ((base :: exponents).map .expr) middle) watched ?_
  exact fun _ _ => powerRound_watches watches

theorem productRound_watches (watches : inner.Watches) {left : Expr}
    (before : state.Watched [.expr left]) :
    WatchesRound (fun tree => [.expr tree]) (inner.productRound left) state := by
  have besides : WatchesRound (fun tree => [.expr tree])
      (do return .again (Expr.juxtapose left (← inner.power))) state := by
    simp only [ensures_bind, ensures_pure]
    exact (watched_after before (power_watches watches)).mono fun _ _ both => .parent both
  simp only [productRound, ensures_bind, ensures_token]
  split
  · next op found =>
    refine operatorRound_watches watches op (power_watches watches) before fun isString => ?_
    rw [isString] at found
    cases found
  · split
    iterate 7 exact besides
    · rw [ensures_ite, ensures_pure]
      exact ⟨fun _ => besides, fun _ => before⟩
    · rw [ensures_pure]
      exact before

theorem product_watches (watches : inner.Watches) (unclosed : state.Unclosed) :
    WatchesExpr inner.product state := by
  simp only [WatchesExpr, product, ensures_bind]
  refine (power_watches watches unclosed).mono fun left middle watched => ?_
  exact loop_watches watched fun _ _ => productRound_watches watches

theorem sumRound_watches (watches : inner.Watches) {left : Expr}
    (before : state.Watched [.expr left]) :
    WatchesRound (fun tree => [.expr tree]) (inner.sumRound left) state := by
  simp only [sumRound, ensures_bind, ensures_token]
  split
  · next op found =>
    refine operatorRound_watches watches op (product_watches watches) before fun isString => ?_
    rw [isString] at found
    cases found
  · rw [ensures_pure]
    exact before

theorem sum_watches (watches : inner.Watches) (unclosed : state.Unclosed) :
    WatchesExpr inner.sum state := by
  simp only [WatchesExpr, sum, ensures_bind]
  refine (product_watches watches unclosed).mono fun left middle watched => ?_
  exact loop_watches watched fun _ _ => sumRound_watches watches

/-- Operands joined by the operators of one level, none of which is a string. -/
theorem leftChain_watches {operator? : Token → Option BinaryOp} {operand : Parser Expr}
    (signs : operator? .badString = none)
    (parsed : ∀ {state : ParseState}, state.Unclosed → WatchesExpr operand state)
    (unclosed : state.Unclosed) : WatchesExpr (leftChain operator? operand) state := by
  simp only [WatchesExpr, leftChain, ensures_bind]
  refine (parsed unclosed).mono fun left middle watched =>
    loop_watches watched fun left middle before => ?_
  simp only [chainRound, ensures_bind, ensures_token]
  split
  · next op found =>
    simp only [ensures_bind, ensures_advance, ensures_pure]
    have other : middle.token ≠ .badString := by
      intro isString
      rw [isString, signs] at found
      cases found
    exact (watched_after (before.sign rfl other) parsed).mono fun _ _ both => .parent both
  · rw [ensures_pure]
    exact before

theorem comparison_watches (watches : inner.Watches) (unclosed : state.Unclosed) :
    WatchesExpr inner.comparison state :=
  leftChain_watches rfl (sum_watches watches) unclosed

theorem equality_watches (watches : inner.Watches) (unclosed : state.Unclosed) :
    WatchesExpr inner.equality state :=
  leftChain_watches rfl (comparison_watches watches) unclosed

theorem conjunction_watches (watches : inner.Watches) (unclosed : state.Unclosed) :
    WatchesExpr inner.conjunction state :=
  leftChain_watches rfl (equality_watches watches) unclosed

theorem disjunction_watches (watches : inner.Watches) (unclosed : state.Unclosed) :
    WatchesExpr inner.disjunction state :=
  leftChain_watches rfl (conjunction_watches watches) unclosed

theorem pipe_watches (watches : inner.Watches) (unclosed : state.Unclosed) :
    WatchesExpr inner.pipe state :=
  leftChain_watches rfl (disjunction_watches watches) unclosed

theorem range_watches (watches : inner.Watches) (unclosed : state.Unclosed) :
    WatchesExpr inner.range state := by
  simp only [WatchesExpr, range, ensures_bind, ensures_token, ensures_ite, ensures_advance,
    ensures_accept, ensures_pure, accepted_iff, refused_iff]
  refine (pipe_watches watches unclosed).mono fun left middle watched =>
    ⟨fun sign => ?_, fun _ => watched⟩
  have opened := watched.sign sign (by decide)
  refine (watched_after opened (pipe_watches watches)).mono fun right after both =>
    ⟨fun again => ?_, fun _ => .parent both⟩
  have stepped := both.sign again (by decide)
  exact (watched_after stepped (pipe_watches watches)).mono fun _ _ both => .parent both

theorem conditional_watches (watches : inner.Watches) (unclosed : state.Unclosed) :
    WatchesExpr inner.conditional state := by
  simp only [WatchesExpr, conditional, ensures_bind, ensures_token, ensures_ite, ensures_advance,
    ensures_accept, ensures_missing, ensures_pure, accepted_iff, refused_iff]
  refine (range_watches watches unclosed).mono fun test middle watched =>
    ⟨fun question => ?_, fun _ => watched⟩
  have asked := watched.sign question (by decide)
  refine (watched_after asked watches.lambda).mono fun whenTrue after both =>
    ⟨fun colon => ?_, fun _ => .parent (.reportAfter [_, _] _ rfl)⟩
  have answered := both.sign colon (by decide)
  exact (watched_after answered watches.lambda).mono fun _ _ both => .parent both

/-! ## Functions and assignments -/

theorem function_watches (watches : inner.Watches) (unclosed : state.Unclosed) :
    WatchesExpr inner.function state := by
  simp only [WatchesExpr, function, ensures_bind, ensures_token, ensures_ite, ensures_pure]
  refine (conditional_watches watches unclosed).mono fun head middle watched =>
    ⟨fun arrow => ?_, fun _ => watched⟩
  split
  · rw [ensures_pure]
    exact watched
  next items isList =>
  simp only [ensures_bind, ensures_advance, ensures_pushFrame, ensures_declareAll, ensures_ite,
    ensures_popFrame, ensures_pure, ensures_token, ensures_map]
  let params := parameterNames middle.scope.push.1 items
  have opened : (middle.enter params).Watched [.expr head] := watched.sign arrow (by decide)
  have finished {body : Body} {last : ParseState} (read : last.Watched [.expr head, body.root]) :
      (params.length = items.length → last.leave.Watched
        [.expr (.function ⟨head.span.start, body.span.stop⟩ middle.scope.push.1 params body)]) ∧
      (¬params.length = items.length →
        last.leave.Watched
          [.expr (.invalid ⟨head.span.start, body.span.stop⟩ .invalidParameter)]) := by
    refine ⟨fun allNames => .parent ?_, fun _ => .report _ rfl⟩
    obtain ⟨names, rfl⟩ := exists_names_of_length allNames
    have silent := (walk_parameters isList).1
    refine read.imp_right fun found => ?_
    obtain ⟨tree, member, reported⟩ := found
    refine ⟨tree, ?_, reported⟩
    rcases List.mem_cons.mp member with rfl | isBody
    · exact absurd silent reported
    · exact List.mem_append_right _ isBody
  refine ⟨fun brace => ?_, fun _ => ?_⟩
  · exact (watched_after opened fun ahead => watches.block ahead brace).mono fun body last read =>
      @finished (.block body) last read
  · exact (watched_after opened watches.expr).mono fun body last read =>
      @finished (.expr body) last read

theorem assignment_watches (watches : inner.Watches) (unclosed : state.Unclosed) :
    WatchesExpr inner.assignment state := by
  simp only [WatchesExpr, assignment, ensures_bind, ensures_token, ensures_ite, ensures_advance,
    ensures_pure]
  refine (function_watches watches unclosed).mono fun target middle watched =>
    ⟨fun sign => ?_, fun _ => watched⟩
  exact (watched_after (watched.sign sign (by decide)) watches.expr).mono fun _ _ both => .assign both

/-! ## Whole streams -/

theorem skipSemicolons_watches (before : state.Watched trees) :
    skipSemicolons.Ensures state fun _ after => after.Watched trees := by
  refine loop_ensures (fun _ middle => ParseState.Watched trees middle) before
    fun _ middle watched => ?_
  simp only [ensures_bind, ensures_accept, ensures_ite, ensures_pure, accepted_iff, refused_iff]
  exact ⟨fun semicolon => watched.sign semicolon (by decide), fun _ => watched⟩

theorem entire_watches (watches : inner.Watches) (unclosed : state.Unclosed) :
    WatchesExpr inner.entire state := by
  simp only [WatchesExpr, entire, ensures_bind]
  refine (skipSemicolons_watches (.start unclosed [])).mono fun _ middle skipped => ?_
  refine (watched_after skipped (assignment_watches watches)).mono fun tree after watched => ?_
  refine loop_watches watched fun soFar last before => ?_
  simp only [ensures_bind]
  refine (skipSemicolons_watches before).mono fun _ last before => ?_
  simp only [ensures_bind, ensures_token, ensures_ite, ensures_bad, ensures_pure]
  refine ⟨fun _ => before, fun _ => ?_⟩
  have joined {rest : ParseState} : rest.Watched
      [.expr (Expr.join .multiply soFar (.invalid last.cursor.current.span .unexpectedToken))] :=
    .parent (.reportAfter [_] rest rfl)
  refine (watched_after joined (assignment_watches watches)).mono fun next after both => ?_
  simp only [Round.Meets]
  split
  · exact joined
  · exact .parent both

end Grammar

end Reckon
