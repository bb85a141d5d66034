import Reckon.Proofs.Parsing.Derives

/-!
# Parsing expressions builds trees

A grammar builds trees if every result of its parsers is derived from the lexemes that were read.  From
such a grammar every parser of a construct builds trees too: the signs of the construct leave nothing
behind, and what is between them becomes its children.
-/

namespace Reckon

namespace ParseState

variable {first second third : ParseState} {trees more : List Node}

/-! ## Putting readings together -/

theorem Builds.and (left : first.Builds trees second) (right : second.Builds more third) :
    first.Builds (trees ++ more) third :=
  .sequence left right

/-- One more item after those of a list. -/
theorem Builds.concat {α : Type} {wrap : α → Node} (trees : List Node) {list : List α} {item : α}
    (built : first.Builds (trees ++ list.map wrap) second)
    (last : second.Builds [wrap item] third) :
    first.Builds (trees ++ (list ++ [item]).map wrap) third := by
  rw [List.map_append, ← List.append_assoc]
  exact built.and last

/-- A sign after what was read. -/
theorem Builds.sign (built : first.Builds trees second) (isSign : second.token.isSign = true) :
    first.Builds trees second.advance :=
  List.append_nil trees ▸ Derives.sequence built (.sign isSign)

/-- A sign before what is read. -/
theorem Builds.after_sign (isSign : first.token.isSign = true)
    (built : first.advance.Builds trees second) : first.Builds trees second :=
  Derives.sequence (.sign isSign) built

theorem isSign_of_eq {token expected : Token} (same : token = expected)
    (isSign : expected.isSign = true) : token.isSign = true :=
  same ▸ isSign

theorem ne_eof_of_eq {token expected : Token} (same : token = expected) (more : expected ≠ .eof) :
    token ≠ .eof :=
  same ▸ more

theorem Builds.join {left right : Expr} (op : BinaryOp)
    (built : first.Builds [.expr left, .expr right] second) :
    first.Builds [.expr (Expr.join op left right)] second :=
  .node built (List.cons_ne_nil _ _) rfl ⟨.inr ⟨_, rfl, rfl⟩, .inr ⟨_, rfl, rfl⟩⟩

theorem Builds.juxtapose {left right : Expr}
    (built : first.Builds [.expr left, .expr right] second) :
    first.Builds [.expr (Expr.juxtapose left right)] second :=
  .node built (List.cons_ne_nil _ _) rfl ⟨.inr ⟨_, rfl, rfl⟩, .inr ⟨_, rfl, rfl⟩⟩

/-- A construct that cannot be assigned to spoils an assignment. -/
theorem Builds.assign {target value : Expr}
    (built : first.Builds [.expr target, .expr value] second) :
    first.Builds [.expr (Expr.assign target value)] second := by
  unfold Expr.assign
  split
  · exact .node built (List.cons_ne_nil _ _) rfl ⟨.inr ⟨_, rfl, rfl⟩, .inr ⟨_, rfl, rfl⟩⟩
  · exact .spoilt _ built (.refl _) ⟨.inr ⟨_, rfl, rfl⟩, .inr ⟨_, rfl, rfl⟩⟩

theorem Builds.assign_compound {target value : Expr} (op : BinaryOp)
    (built : first.Builds [.expr target, .expr value] second) :
    first.Builds [.expr (Expr.assign target (Expr.join op target value))] second := by
  unfold Expr.assign
  split
  · exact .compound built rfl
  · exact .spoilt _ built (.refl _) ⟨.inr ⟨_, rfl, rfl⟩, .inr ⟨_, rfl, rfl⟩⟩

/-- A missing operand leaves nothing behind. -/
theorem Builds.omit {tree : Expr} (built : first.Builds (trees ++ [.expr tree]) second)
    (isEmpty : tree.isEmpty = true) : first.Builds trees second := by
  cases tree with
  | empty span => exact Derives.omitted built
  | _ => cases isEmpty

theorem Builds.omit_only {tree : Expr} (built : first.Builds [.expr tree] second)
    (isEmpty : tree.isEmpty = true) : first.Builds [] second :=
  Builds.omit (show first.Builds ([] ++ [.expr tree]) second from built) isEmpty

/-- Operands with the signs of powers between them. -/
inductive Powers : ParseState → List Expr → ParseState → Prop
  | last {first second : ParseState} {tree : Expr} : first.Builds [.expr tree] second →
      Powers first [tree] second
  | more {first second third : ParseState} {tree : Expr} {rest : List Expr} :
      first.Builds [.expr tree] second → second.token = .caret → Powers second.advance rest third →
      Powers first (tree :: rest) third

theorem Powers.concat {items : List Expr} {tree : Expr} (powers : first.Powers items second)
    (caret : second.token = .caret) (built : second.advance.Builds [.expr tree] third) :
    first.Powers (items ++ [tree]) third := by
  induction powers with
  | last start => exact .more start caret (.last built)
  | more start sign _ inductionHypothesis => exact .more start sign (inductionHypothesis caret built)

theorem Powers.builds {base : Expr} {exponents : List Expr}
    (powers : first.Powers (base :: exponents) second) :
    first.Builds [.expr (Expr.powerChain base exponents)] second := by
  induction exponents generalizing base first with
  | nil =>
      cases powers with
      | last built => exact built
      | more _ _ rest => nomatch rest
  | cons next rest inductionHypothesis =>
      cases powers with
      | more start caret powers =>
          exact ((start.sign (isSign_of_eq caret rfl)).and (inductionHypothesis powers)).join _

end ParseState

namespace Grammar

open Reckon.Parser ParseState

/-- The parser builds one expression. -/
abbrev BuildsExpr (parser : Parser Expr) (state : ParseState) : Prop :=
  parser.Ensures state fun tree after => state.Builds [.expr tree] after

/-- The parsers of a grammar build trees. -/
structure Builds (grammar : Grammar) : Prop where
  expr : ∀ state, BuildsExpr grammar.expr state
  lambda : ∀ state, BuildsExpr grammar.lambda state
  unary : ∀ state, BuildsExpr grammar.unary state
  markup : ∀ state, state.token = .less → BuildsExpr grammar.markup state
  block : ∀ state, state.token = .leftBrace →
    grammar.block.Ensures state fun tree after => state.Builds [.stmt (.block tree)] after
  ifStatement : ∀ state, state.token = .kwIf →
    grammar.ifStatement.Ensures state fun tree after => state.Builds [.stmt tree] after
  whole : ∀ state, BuildsExpr grammar.whole state

variable {inner : Grammar} {first state : ParseState}

/-- A parser after what was read before it. -/
theorem BuildsExpr.after {parser : Parser Expr} {trees : List Node}
    (parsed : BuildsExpr parser state) (before : first.Builds trees state) :
    parser.Ensures state fun tree after => first.Builds (trees ++ [.expr tree]) after :=
  parsed.mono fun _ _ built => before.and built

/-- What a round of a loop builds, whether it ends or goes on. -/
abbrev BuildsRound {α : Type} (first : ParseState) (nodes : α → List Node)
    (parser : Parser (Round α α)) (state : ParseState) : Prop :=
  parser.Ensures state (Round.Meets (fun result after => first.Builds (nodes result) after)
    fun result after => first.Builds (nodes result) after)

/-- What follows an operand. -/
abbrev Extends (first : ParseState) (parser : Parser (Round Expr Expr)) (state : ParseState) : Prop :=
  BuildsRound first (fun tree => [.expr tree]) parser state

/-- A loop that goes on from an operand. -/
theorem loop_builds {round : Expr → Parser (Round Expr Expr)} {operand : Expr}
    (start : first.Builds [.expr operand] state)
    (step : ∀ left middle, first.Builds [.expr left] middle → Extends first (round left) middle) :
    (loop round operand).Ensures state fun tree after => first.Builds [.expr tree] after :=
  loop_ensures (fun left middle => first.Builds [.expr left] middle) start step

/-! ## Lists and literals -/

theorem itemsRound_builds (builds : inner.Builds) (close : Token) {trees : List Node}
    {soFar : List Expr} (before : first.Builds (trees ++ soFar.map .expr) state) :
    BuildsRound first (fun list => trees ++ list.map .expr) (inner.itemsRound close soFar) state := by
  simp only [itemsRound, ensures_bind, ensures_token, ensures_ite, ensures_pure, ensures_accept,
    accepted_iff, refused_iff]
  refine ⟨fun _ => before, fun _ => ?_⟩
  refine ((builds.expr state).after before).mono fun item after grown => ?_
  -- An item that does not count is a missing operand.
  have counted : first.Builds
      (trees ++ (if !item.isEmpty || after.token == .comma then soFar ++ [item]
        else soFar).map .expr) after := by
    split
    · rw [List.map_append, ← List.append_assoc]
      exact grown
    · next missing =>
      rw [Bool.or_eq_true, not_or, Bool.not_eq_true, Bool.not_eq_false'] at missing
      exact grown.omit missing.1
  exact ⟨fun comma => counted.sign (isSign_of_eq comma rfl), fun _ => counted⟩

theorem items_builds (builds : inner.Builds) {close : Token} (isSign : close.isSign = true)
    (defect : Defect) {trees : List Node} (before : first.Builds trees state) :
    (inner.items close defect).Ensures state fun list after =>
      first.Builds (trees ++ list.map .expr) after := by
  have listed : (loop (inner.itemsRound close) []).Ensures state fun list after =>
      first.Builds (trees ++ list.map .expr) after := by
    refine loop_ensures (fun list middle => first.Builds (trees ++ list.map .expr) middle)
      (by simpa using before) ?_
    exact fun _ _ built => itemsRound_builds builds close built
  simp only [items, ensures_bind]
  refine listed.mono fun list last found => ?_
  simp only [ensures_accept, ensures_ite, ensures_bind, ensures_pure, ensures_missing,
    accepted_iff, refused_iff]
  exact ⟨fun isClose => found.sign (isSign_of_eq isClose isSign),
    fun _ => found.concat trees (.missing _ defect)⟩

theorem literal_builds (value : Literal) (more : state.token ≠ .eof) :
    BuildsExpr (literal value) state := by
  simp only [BuildsExpr, literal, ensures_bind, ensures_skipLexeme, ensures_pure]
  exact .constant value more

theorem bad_builds (defect : Defect) : BuildsExpr (bad defect) state := by
  rw [BuildsExpr, ensures_bad]
  exact .bad defect (.nothing state)

theorem number_builds (isNumber : state.token = .number) : BuildsExpr number state := by
  simp only [BuildsExpr, number, ensures_bind, ensures_current]
  split
  · exact literal_builds _ (ne_eof_of_eq isNumber (by decide))
  · exact bad_builds _

@[simp]
theorem ensures_variableRead (post : Variable → ParseState → Prop) :
    variableRead.Ensures state post ↔ post state.reference state.advance := by
  simp only [variableRead, ensures_bind, ensures_current, ensures_findFrame, ensures_skipLexeme,
    ensures_pure]
  rfl

@[simp]
theorem ensures_identifierRead (post : Identifier → ParseState → Prop) :
    identifierRead.Ensures state post ↔
      post ⟨state.cursor.current.span, state.cursor.current.lit⟩ state.advance := by
  simp only [identifierRead, ensures_bind, ensures_current, ensures_skipLexeme, ensures_pure]

/-- The streams of a template are read one after the other and share their scopes. -/
theorem replacements_build (builds : inner.Builds) (streams : List (List Lexeme)) :
    (streams.mapM fun lexemes => do
      let outer ← get
      set (ParseState.start lexemes outer.scope)
      let replacement ← inner.whole
      modify fun state => { outer with scope := state.scope }
      return replacement : Parser (List Expr)).Ensures state fun trees after =>
        Derives (.streams state.scope streams after.scope) (trees.map .expr) ∧
          after = { state with scope := after.scope } := by
  induction streams generalizing state with
  | nil =>
      rw [List.mapM_nil, ensures_pure]
      exact ⟨.noStreams _, rfl⟩
  | cons lexemes rest inductionHypothesis =>
      simp only [List.mapM_cons, ensures_bind, ensures_get, ensures_set, ensures_modify, ensures_pure]
      refine (builds.whole _).mono fun tree last built => ?_
      refine inductionHypothesis.mono fun trees after derived => ?_
      obtain ⟨others, same⟩ := derived
      exact ⟨.stream built others, same⟩

theorem template_builds (builds : inner.Builds) (isTemplate : state.token = .template) :
    BuildsExpr inner.template state := by
  simp only [BuildsExpr, template, ensures_bind, ensures_current]
  refine (replacements_build builds _).mono fun trees after derived => ?_
  obtain ⟨streams, same⟩ := derived
  simp only [ensures_skipLexeme, ensures_pure]
  rw [same]
  exact .template isTemplate streams

/-! ## Brackets -/

/-- All cells, row by row. -/
def MatrixRows.cells (matrix : MatrixRows) : List Expr :=
  matrix.rows.flatten ++ matrix.row

theorem MatrixRows.cells_endRow (matrix : MatrixRows) : matrix.endRow.cells = matrix.cells := by
  unfold endRow
  split
  · rfl
  · simp [cells]

theorem MatrixRows.flatten_endRow (matrix : MatrixRows) :
    matrix.endRow.rows.flatten = matrix.cells := by
  unfold endRow
  split
  · next isEmpty => simp [cells, List.isEmpty_iff.mp isEmpty]
  · simp [cells]

theorem matrix_builds (builds : inner.Builds) (bracket : state.token = .leftBracket) :
    BuildsExpr inner.matrix state := by
  simp only [BuildsExpr, matrix, ensures_bind, ensures_current, ensures_advance, ensures_spanFrom,
    ensures_pure]
  refine Ensures.mono (loop_ensures
    (fun soFar middle => state.advance.Builds (soFar.cells.map .expr) middle) ?_ ?_ :
    Ensures _ _ fun rows after => state.advance.Builds (rows.flatten.map .expr) after) ?_
  · exact .nothing state.advance
  · intro soFar middle built
    have next {cell : Expr} {after : ParseState} (read : middle.Builds [.expr cell] after) :
        state.advance.Builds (({ soFar with row := soFar.row ++ [cell] } : MatrixRows).cells.map .expr)
          after := by
      rw [MatrixRows.cells, ← List.append_assoc]
      exact built.concat [] read
    simp only [ensures_bind, ensures_token]
    split
    · next closing =>
      simp only [ensures_bind, ensures_advance, ensures_pure, Round.Meets,
        MatrixRows.flatten_endRow]
      exact built.sign (isSign_of_eq closing rfl)
    · simp only [ensures_bind, ensures_missing, ensures_pure, Round.Meets,
        MatrixRows.flatten_endRow]
      exact next (.missing middle _)
    · next separator =>
      simp only [ensures_bind, ensures_advance, ensures_pure, Round.Meets,
        MatrixRows.cells_endRow]
      exact built.sign (isSign_of_eq separator rfl)
    · next separator =>
      simp only [ensures_bind, ensures_advance, ensures_pure]
      exact built.sign (isSign_of_eq separator rfl)
    · simp only [ensures_bind, ensures_ite, ensures_bad, ensures_pure]
      refine (builds.expr middle).mono fun cell after read => ⟨fun isEmpty => ?_, fun _ => next read⟩
      exact next ((read.omit_only isEmpty).and (.bad _ (.nothing after)))
  · intro rows after built
    exact .enclosed (isSign_of_eq bracket rfl) built rfl rfl

theorem property_builds (builds : inner.Builds) (more : state.token ≠ .eof) :
    inner.property.Ensures state fun entry after => state.Builds [.entry entry] after := by
  simp only [property, ensures_bind, ensures_current, ensures_advance, ensures_accept, ensures_ite,
    ensures_spanFrom, ensures_findFrame, ensures_pure, accepted_iff, refused_iff]
  refine ⟨fun colon => ?_, fun _ => ⟨fun _ => ?_, fun _ => ?_⟩⟩
  · refine (builds.expr _).mono fun value after built => ?_
    exact .property (Builds.after_sign (isSign_of_eq colon rfl) built) rfl
  · exact .node (.read more) (List.cons_ne_nil _ _) rfl ⟨.inl rfl, .inl rfl⟩
  · exact .badEntry state _

theorem object_builds (builds : inner.Builds) (brace : state.token = .leftBrace) :
    BuildsExpr inner.object state := by
  simp only [BuildsExpr, object, ensures_bind, ensures_current, ensures_advance, ensures_spanFrom,
    ensures_pure]
  refine Ensures.mono (loop_ensures
    (fun soFar middle => state.advance.Builds (soFar.map .entry) middle) ?_ ?_ :
    Ensures _ _ fun entries after => state.advance.Builds (entries.map .entry) after) ?_
  · exact .nothing state.advance
  · intro soFar middle built
    have next {entry : Entry} {after : ParseState} (read : middle.Builds [.entry entry] after) :
        state.advance.Builds ((soFar ++ [entry]).map .entry) after :=
      built.concat [] read
    simp only [ensures_bind, ensures_token]
    split
    · next closing =>
      simp only [ensures_bind, ensures_advance, ensures_pure]
      exact built.sign (isSign_of_eq closing rfl)
    · simp only [ensures_bind, ensures_here, ensures_pure]
      exact next (.missingEntry middle _)
    · next separator =>
      simp only [ensures_bind, ensures_advance, ensures_pure]
      exact built.sign (isSign_of_eq separator rfl)
    · next separator =>
      simp only [ensures_bind, ensures_advance, ensures_pure]
      exact built.sign (isSign_of_eq separator rfl)
    iterate 3
      next isKey =>
        simp only [ensures_bind, ensures_pure]
        exact (property_builds builds (ne_eof_of_eq isKey (by decide))).mono fun _ _ => next
    simp only [ensures_bind, ensures_skipLexeme, ensures_pure]
    exact next (.badEntry middle _)
  · intro entries after built
    exact .enclosed (isSign_of_eq brace rfl) built rfl rfl

/-! ## Operands -/

theorem operand_builds (builds : inner.Builds) : BuildsExpr inner.operand state := by
  simp only [BuildsExpr, operand, ensures_bind, ensures_token]
  split
  · next isNumber => exact number_builds isNumber
  · next isString =>
    simp only [ensures_bind, ensures_current]
    exact literal_builds _ (ne_eof_of_eq isString (by decide))
  · exact bad_builds _
  · next isTemplate => exact template_builds builds isTemplate
  iterate 3
    next keyword => exact literal_builds _ (ne_eof_of_eq keyword (by decide))
  · next isName =>
    simp only [ensures_bind, ensures_variableRead, ensures_pure]
    exact .read (ne_eof_of_eq isName (by decide))
  · next paren =>
    simp only [ensures_bind, ensures_current, ensures_advance, ensures_spanFrom, ensures_pure]
    refine (items_builds builds rfl _ (.nothing state.advance)).mono fun list after built => ?_
    exact .enclosed (isSign_of_eq paren rfl) built rfl rfl
  · next bracket => exact matrix_builds builds bracket
  · next brace => exact object_builds builds brace
  · next less => exact builds.markup state less
  · exact bad_builds _
  iterate 7
    simp only [ensures_bind, ensures_here, ensures_pure]
    exact .empty state
  exact bad_builds _

theorem postfixRound_builds (builds : inner.Builds) {owner : Expr}
    (before : first.Builds [.expr owner] state) :
    Extends first (inner.postfixRound owner) state := by
  simp only [postfixRound, ensures_bind, ensures_token]
  split
  · next paren =>
    simp only [ensures_ite, ensures_bind, ensures_advance, ensures_spanFrom, ensures_pure]
    refine ⟨fun _ => before, fun _ => ?_⟩
    have opened := before.sign (isSign_of_eq paren rfl)
    refine (items_builds builds rfl _ opened).mono fun list after built => ?_
    exact .node built (List.cons_ne_nil _ _) rfl ⟨.inr ⟨_, rfl, rfl⟩, .inl rfl⟩
  · next dot =>
    have opened := before.sign (isSign_of_eq dot rfl)
    simp only [ensures_ite, ensures_bind, ensures_advance, ensures_token, ensures_identifierRead,
      ensures_missing, ensures_pure]
    refine ⟨fun isName => ?_, fun _ => ?_⟩
    · exact .node (opened.and (.identifier (ne_eof_of_eq isName (by decide))))
        (List.cons_ne_nil _ _) rfl
        ⟨.inr ⟨_, rfl, rfl⟩, .inr ⟨_, rfl, rfl⟩⟩
    · exact (opened.and (.missing _ _)).join _
  · next bang =>
    simp only [ensures_bind, ensures_advance, ensures_spanFrom, ensures_pure]
    exact .node (before.sign (isSign_of_eq bang rfl)) (List.cons_ne_nil _ _) rfl
      ⟨.inr ⟨_, rfl, rfl⟩, .inl rfl⟩
  · rw [ensures_pure]
    exact before

theorem postfixed_builds (builds : inner.Builds) : BuildsExpr inner.postfixed state := by
  simp only [BuildsExpr, postfixed, ensures_bind]
  refine (operand_builds builds).mono fun owner middle built => ?_
  exact loop_builds built fun _ _ => postfixRound_builds builds

theorem isSign_of_unaryOp? {token : Token} {op : UnaryOp} (found : unaryOp? token = some op) :
    token.isSign = true := by
  cases token <;> first | rfl | cases found

theorem signed_builds (builds : inner.Builds) : BuildsExpr inner.signed state := by
  simp only [BuildsExpr, signed, ensures_bind, ensures_token]
  split
  · next op found =>
    simp only [ensures_bind, ensures_current, ensures_advance, ensures_pure]
    refine (builds.unary _).mono fun operand after built => ?_
    exact .node (Builds.after_sign (isSign_of_unaryOp? found) built) (List.cons_ne_nil _ _) rfl
      ⟨.inl rfl, .inr ⟨_, rfl, rfl⟩⟩
  · exact postfixed_builds builds

/-! ## Operators between operands -/

/-- The equals sign of a compound assignment is a sign. -/
theorem compound_builds (stop : Position) {trees : List Node} (before : first.Builds trees state) :
    (compound stop).Ensures state fun isCompound after =>
      first.Builds trees after ∧ (isCompound = false → after = state) := by
  simp only [compound, ensures_bind, ensures_current, ensures_ite, ensures_advance, ensures_pure]
  exact ⟨fun found => ⟨before.sign (isSign_of_eq found.1 rfl), Bool.noConfusion⟩,
    fun _ => ⟨before, fun _ => trivial⟩⟩

theorem operatorRound_builds (builds : inner.Builds) (op : BinaryOp) {operand : Parser Expr}
    (parsed : ∀ state, BuildsExpr operand state) {left : Expr}
    (before : first.Builds [.expr left] state) (isSign : state.token.isSign = true) :
    Extends first (inner.operatorRound op operand left) state := by
  simp only [operatorRound, ensures_bind, ensures_current, ensures_advance]
  refine (compound_builds _ (before.sign isSign)).mono fun isCompound middle found => ?_
  have built := found.1
  simp only [ensures_ite, ensures_bind, ensures_pure]
  refine ⟨fun _ => ?_, fun _ => ?_⟩
  · exact ((builds.expr middle).after built).mono fun _ _ both => both.assign_compound op
  · exact ((parsed middle).after built).mono fun _ _ both => both.join op

theorem powerRound_builds (builds : inner.Builds) {base : Expr} {exponents : List Expr}
    (before : first.Powers (base :: exponents) state) :
    (inner.powerRound base exponents).Ensures state
      (Round.Meets (fun more after => first.Powers (base :: more) after)
        fun tree after => first.Builds [.expr tree] after) := by
  simp only [powerRound, ensures_bind, ensures_token, ensures_ite, ensures_current,
    ensures_advance, ensures_pure]
  refine ⟨fun caret => ?_, fun _ => before.builds⟩
  have target := before.builds.sign (isSign_of_eq caret rfl)
  refine (compound_builds _ target).mono fun isCompound middle found => ⟨fun _ => ?_, ?_⟩
  · exact ((builds.expr middle).after found.1).mono fun _ _ both => both.assign_compound _
  · intro notCompound
    rw [found.2 (Bool.eq_false_iff.mpr notCompound)]
    exact (signed_builds builds).mono fun _ _ exponent => before.concat caret exponent

theorem power_builds (builds : inner.Builds) : BuildsExpr inner.power state := by
  simp only [BuildsExpr, power, ensures_bind]
  refine (signed_builds builds).mono fun base middle built => ?_
  refine loop_ensures (fun exponents middle => state.Powers (base :: exponents) middle)
    (.last built) ?_
  exact fun _ _ => powerRound_builds builds

/-- An operator that joins operands leaves nothing behind. -/
theorem isSign_of_joins {operator? : Token → Option BinaryOp} (table : operator? ∈ joiningOps)
    {token : Token} {op : BinaryOp} (found : operator? token = some op) : token.isSign = true := by
  have signs : ∀ token ∈ joiningSigns, token.isSign = true := by decide
  exact signs token (mem_joiningSigns table found)

theorem productRound_builds (builds : inner.Builds) {left : Expr}
    (before : first.Builds [.expr left] state) :
    Extends first (inner.productRound left) state := by
  have besides :
      Extends first (do return .again (Expr.juxtapose left (← inner.power))) state := by
    simp only [ensures_bind, ensures_pure]
    exact ((power_builds builds).after before).mono fun _ _ both => both.juxtapose
  simp only [productRound, ensures_bind, ensures_token]
  split
  · next op found =>
    exact operatorRound_builds builds op (fun _ => power_builds builds) before
      (isSign_of_joins (by simp [joiningOps]) found)
  · split
    iterate 7 exact besides
    · rw [ensures_ite, ensures_pure]
      exact ⟨fun _ => besides, fun _ => before⟩
    · rw [ensures_pure]
      exact before

theorem product_builds (builds : inner.Builds) : BuildsExpr inner.product state := by
  simp only [BuildsExpr, product, ensures_bind]
  refine (power_builds builds).mono fun left middle built => ?_
  exact loop_builds built fun _ _ => productRound_builds builds

theorem sumRound_builds (builds : inner.Builds) {left : Expr}
    (before : first.Builds [.expr left] state) :
    Extends first (inner.sumRound left) state := by
  simp only [sumRound, ensures_bind, ensures_token]
  split
  · next op found =>
    exact operatorRound_builds builds op (fun _ => product_builds builds) before
      (isSign_of_joins (by simp [joiningOps]) found)
  · rw [ensures_pure]
    exact before

theorem sum_builds (builds : inner.Builds) : BuildsExpr inner.sum state := by
  simp only [BuildsExpr, sum, ensures_bind]
  refine (product_builds builds).mono fun left middle built => ?_
  exact loop_builds built fun _ _ => sumRound_builds builds

theorem leftChain_builds {operator? : Token → Option BinaryOp} {operand : Parser Expr}
    (table : operator? ∈ joiningOps)
    (parsed : ∀ state, BuildsExpr operand state) : BuildsExpr (leftChain operator? operand) state := by
  simp only [BuildsExpr, leftChain, ensures_bind]
  refine (parsed state).mono fun left middle built => loop_builds built fun left middle before => ?_
  simp only [chainRound, ensures_bind, ensures_token]
  split
  · next op found =>
    simp only [ensures_bind, ensures_advance, ensures_pure]
    have sign := before.sign (isSign_of_joins table found)
    exact ((parsed _).after sign).mono fun _ _ both => both.join op
  · rw [ensures_pure]
    exact before

theorem comparison_builds (builds : inner.Builds) : BuildsExpr inner.comparison state :=
  leftChain_builds (by simp [joiningOps]) fun _ => sum_builds builds

theorem equality_builds (builds : inner.Builds) : BuildsExpr inner.equality state :=
  leftChain_builds (by simp [joiningOps]) fun _ => comparison_builds builds

theorem conjunction_builds (builds : inner.Builds) : BuildsExpr inner.conjunction state :=
  leftChain_builds (by simp [joiningOps]) fun _ => equality_builds builds

theorem disjunction_builds (builds : inner.Builds) : BuildsExpr inner.disjunction state :=
  leftChain_builds (by simp [joiningOps]) fun _ => conjunction_builds builds

theorem pipe_builds (builds : inner.Builds) : BuildsExpr inner.pipe state :=
  leftChain_builds (by simp [joiningOps]) fun _ => disjunction_builds builds

theorem range_builds (builds : inner.Builds) : BuildsExpr inner.range state := by
  simp only [BuildsExpr, range, ensures_bind, ensures_token, ensures_ite, ensures_advance,
    ensures_accept, ensures_pure, accepted_iff, refused_iff]
  refine (pipe_builds builds).mono fun left middle built => ⟨fun sign => ?_, fun _ => built⟩
  have opened := built.sign (isSign_of_eq sign rfl)
  refine ((pipe_builds builds).after opened).mono fun right after both =>
    ⟨fun again => ?_, fun _ => ?_⟩
  · have stepped := both.sign (isSign_of_eq again rfl)
    refine ((pipe_builds builds).after stepped).mono fun last after all => ?_
    exact .node all (List.cons_ne_nil _ _) rfl ⟨.inr ⟨_, rfl, rfl⟩, .inr ⟨_, rfl, rfl⟩⟩
  · exact .node both (List.cons_ne_nil _ _) rfl ⟨.inr ⟨_, rfl, rfl⟩, .inr ⟨_, rfl, rfl⟩⟩

theorem conditional_builds (builds : inner.Builds) : BuildsExpr inner.conditional state := by
  simp only [BuildsExpr, conditional, ensures_bind, ensures_token, ensures_ite, ensures_advance,
    ensures_accept, ensures_missing, ensures_pure, accepted_iff, refused_iff]
  refine (range_builds builds).mono fun test middle built => ⟨fun question => ?_, fun _ => built⟩
  have asked := built.sign (isSign_of_eq question rfl)
  refine ((builds.lambda _).after asked).mono fun whenTrue after both =>
    ⟨fun colon => ?_, fun _ => ?_⟩
  · have answered := both.sign (isSign_of_eq colon rfl)
    refine ((builds.lambda _).after answered).mono fun whenFalse after all => ?_
    exact .node all (List.cons_ne_nil _ _) rfl ⟨.inr ⟨_, rfl, rfl⟩, .inr ⟨_, rfl, rfl⟩⟩
  · exact .node (both.and (.missing _ _)) (List.cons_ne_nil _ _) rfl
      ⟨.inr ⟨_, rfl, rfl⟩, .inr ⟨_, rfl, rfl⟩⟩

/-! ## Functions and assignments -/

theorem function_builds (builds : inner.Builds) : BuildsExpr inner.function state := by
  simp only [BuildsExpr, function, ensures_bind, ensures_token, ensures_ite, ensures_pure]
  refine (conditional_builds builds).mono fun head middle built => ⟨fun arrow => ?_, fun _ => built⟩
  split
  · rw [ensures_pure]
    exact built
  · next items isList =>
    simp only [ensures_bind, ensures_advance, ensures_pushFrame, ensures_declareAll, ensures_ite,
      ensures_popFrame, ensures_pure, ensures_token, ensures_map]
    have finished {body : Body} {last : ParseState}
        (read : (middle.enter (parameterNames middle.scope.push.1 items)).Builds [body.root] last) :
        ((parameterNames middle.scope.push.1 items).length = items.length →
          state.Builds
            [.expr (.function ⟨head.span.start, body.span.stop⟩ middle.scope.push.1
              (parameterNames middle.scope.push.1 items) body)] last.leave) ∧
        (¬(parameterNames middle.scope.push.1 items).length = items.length →
          state.Builds
            [.expr (.invalid ⟨head.span.start, body.span.stop⟩ .invalidParameter)] last.leave) :=
      ⟨fun allNames => .function built isList arrow allNames read,
        fun _ => .spoiltFunction _ built arrow read⟩
    refine ⟨fun brace => ?_, fun _ => ?_⟩
    · exact (builds.block _ brace).mono fun body last read => finished read
    · exact (builds.expr _).mono fun body last read => finished read

theorem assignment_builds (builds : inner.Builds) : BuildsExpr inner.assignment state := by
  simp only [BuildsExpr, assignment, ensures_bind, ensures_token, ensures_ite, ensures_advance,
    ensures_pure]
  refine (function_builds builds).mono fun target middle built => ⟨fun sign => ?_, fun _ => built⟩
  have opened := built.sign (isSign_of_eq sign rfl)
  exact ((builds.expr _).after opened).mono fun _ _ both => both.assign

/-! ## Whole streams -/

theorem skipSemicolons_builds {trees : List Node} (before : first.Builds trees state) :
    skipSemicolons.Ensures state fun _ after => first.Builds trees after := by
  refine loop_ensures (fun _ middle => first.Builds trees middle) before fun _ middle built => ?_
  simp only [ensures_bind, ensures_accept, ensures_ite, ensures_pure, accepted_iff, refused_iff]
  exact ⟨fun semicolon => built.sign (isSign_of_eq semicolon rfl), fun _ => built⟩

theorem entire_builds (builds : inner.Builds) : BuildsExpr inner.entire state := by
  simp only [BuildsExpr, entire, ensures_bind]
  refine (skipSemicolons_builds (.nothing state)).mono fun _ middle skipped => ?_
  refine ((assignment_builds builds).after skipped).mono fun tree after built => ?_
  refine loop_builds built fun soFar last before => ?_
  simp only [ensures_bind]
  refine (skipSemicolons_builds before).mono fun _ last before => ?_
  simp only [ensures_bind, ensures_token, ensures_ite, ensures_bad, ensures_pure]
  refine ⟨fun _ => before, fun _ => ?_⟩
  have joined := (before.and (.bad .unexpectedToken (.nothing last))).join .multiply
  refine ((assignment_builds builds).after joined).mono fun next after both => ?_
  simp only [Round.Meets]
  split
  · next isEmpty => exact Builds.omit both isEmpty
  · exact both.join .multiply

end Grammar

end Reckon
