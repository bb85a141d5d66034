import Reckon.Proofs.Parsing.Relocating

/-!
# Parsing moved expressions

The parsers of expressions do the same with lexemes that were moved.  Places are compared only where an
equals sign may follow an operator directly.
-/

namespace Reckon

variable {move : Relocation}

/-! ## Trees -/

namespace Expr

@[simp]
theorem join_relocate (op : BinaryOp) (left right : Expr) :
    join op (left.relocate move) (right.relocate move) = (join op left right).relocate move := by
  simp [join, relocate, Span.relocate]

@[simp]
theorem juxtapose_relocate (left right : Expr) :
    juxtapose (left.relocate move) (right.relocate move) = (juxtapose left right).relocate move := by
  simp [juxtapose, relocate, Span.relocate]

@[simp]
theorem assign_relocate (target value : Expr) :
    assign (target.relocate move) (value.relocate move) = (assign target value).relocate move := by
  unfold assign
  rw [isAssignable_relocate]
  split <;> simp [relocate, Span.relocate]

@[simp]
theorem powerChain_relocate (base : Expr) (exponents : List Expr) :
    powerChain (base.relocate move) (exponents.map (relocate move)) =
      (powerChain base exponents).relocate move := by
  induction exponents generalizing base with
  | nil => rfl
  | cons next rest inductionHypothesis =>
      rw [List.map_cons, powerChain, inductionHypothesis, join_relocate, powerChain]

end Expr

namespace Grammar

open Reckon.Parser

/-- The parsers of a grammar do the same with lexemes that were moved. -/
structure Moves (move : Relocation) (grammar : Grammar) : Prop where
  expr : Parser.Moves move (Expr.relocate move) grammar.expr grammar.expr
  lambda : Parser.Moves move (Expr.relocate move) grammar.lambda grammar.lambda
  unary : Parser.Moves move (Expr.relocate move) grammar.unary grammar.unary
  markup : Parser.Moves move (Expr.relocate move) grammar.markup grammar.markup
  block : Parser.Moves move (Block.relocate move) grammar.block grammar.block
  ifStatement : Parser.Moves move (Stmt.relocate move) grammar.ifStatement grammar.ifStatement
  whole : Parser.Moves move (Expr.relocate move) grammar.whole grammar.whole

variable {inner : Grammar}

/-! ## Lists and literals -/

theorem itemsRound_moves (moves : inner.Moves move) (close : Token) (soFar : List Expr) :
    Parser.Moves move (Round.map (List.map (Expr.relocate move)) (List.map (Expr.relocate move)))
      (inner.itemsRound close soFar) (inner.itemsRound close (soFar.map (Expr.relocate move))) := by
  refine moves_bind_same moves_token fun token => moves_ite (moves_pure rfl) ?_
  refine moves_bind moves.expr fun item => moves_bind_same moves_token fun next => ?_
  have longer : (if (!(item.relocate move).isEmpty || next == Token.comma) = true then
      soFar.map (Expr.relocate move) ++ [item.relocate move] else soFar.map (Expr.relocate move)) =
      (if (!item.isEmpty || next == Token.comma) = true then soFar ++ [item] else soFar).map
        (Expr.relocate move) := by
    rw [Expr.isEmpty_relocate]
    split <;> simp
  rw [longer]
  refine moves_bind_same (moves_accept .comma) fun accepted => ?_
  exact moves_ite (moves_pure rfl) (moves_pure rfl)

theorem items_moves (moves : inner.Moves move) (close : Token) (defect : Defect) :
    Parser.Moves move (List.map (Expr.relocate move)) (inner.items close defect)
      (inner.items close defect) := by
  refine moves_bind (moves_loop _ _ (itemsRound_moves moves close) []) fun found => ?_
  refine moves_bind_same (moves_accept close) fun accepted => moves_ite (moves_pure rfl) ?_
  exact moves_bind (moves_missing defect) fun last => moves_pure (by simp)

theorem literal_moves (value : Literal) :
    Parser.Moves move (Expr.relocate move) (literal value) (literal value) :=
  moves_bind moves_skipLexeme fun _ => moves_pure rfl

theorem number_moves : Parser.Moves move (Expr.relocate move) number number := by
  refine moves_bind moves_current fun lexeme => ?_
  rw [Lexeme.lit_relocate]
  split
  · exact literal_moves _
  · exact moves_bad _

theorem variableRead_moves :
    Parser.Moves move (Variable.relocate move) variableRead variableRead := by
  refine moves_bind moves_current fun lexeme => ?_
  rw [Lexeme.lit_relocate]
  refine moves_bind_same (moves_findFrame _) fun frame => ?_
  exact moves_bind moves_skipLexeme fun span => moves_pure rfl

theorem identifierRead_moves :
    Parser.Moves move (Identifier.relocate move) identifierRead identifierRead := by
  refine moves_bind moves_current fun lexeme => ?_
  rw [Lexeme.lit_relocate]
  exact moves_bind moves_skipLexeme fun span => moves_pure rfl

/-- The replacement of a template with the given lexemes. The state outside is kept but for the
scope. -/
def replacement (inner : Grammar) (lexemes : List Lexeme) : Parser Expr := do
  let outer ← get
  set (ParseState.start lexemes outer.scope)
  let replacement ← inner.whole
  modify fun state => { outer with scope := state.scope }
  return replacement

theorem replacement_moves (steady : move.Steady) (moves : inner.Moves move) (lexemes : List Lexeme) :
    Parser.Moves move (Expr.relocate move) (inner.replacement lexemes)
      (inner.replacement (lexemes.map (Lexeme.relocate move))) := by
  intro outer
  have whole := moves.whole (ParseState.start lexemes outer.scope)
  rw [← ParseState.start_map_relocate steady] at whole
  change (inner.whole (ParseState.start _ (outer.scope.relocate move))).bind _ =
    ((inner.whole (ParseState.start lexemes outer.scope)).bind _).map _
  rw [whole]
  cases inner.whole (ParseState.start lexemes outer.scope) with
  | none => rfl
  | some found => rfl

theorem template_moves (steady : move.Steady) (moves : inner.Moves move) :
    Parser.Moves move (Expr.relocate move) inner.template inner.template := by
  refine moves_bind moves_current fun lexeme => ?_
  rw [Lexeme.subs_relocate, Lexeme.parts_relocate]
  refine moves_bind (moves_mapM (List.map (Lexeme.relocate move)) inner.replacement inner.replacement
    (replacement_moves steady moves) lexeme.subs) fun replacements => ?_
  refine moves_bind moves_skipLexeme fun span => moves_pure ?_
  rw [Expr.relocate, Expr.relocateAll_eq_map]

/-! ## Brackets -/

/-- Rows of a matrix with their spans moved. -/
def MatrixRows.relocate (move : Relocation) (matrix : MatrixRows) : MatrixRows where
  rows := matrix.rows.map (List.map (Expr.relocate move))
  row := matrix.row.map (Expr.relocate move)

theorem MatrixRows.endRow_relocate (matrix : MatrixRows) :
    (matrix.relocate move).endRow = matrix.endRow.relocate move := by
  unfold endRow relocate
  simp only [List.isEmpty_map]
  split <;> simp

theorem matrix_moves (moves : inner.Moves move) :
    Parser.Moves move (Expr.relocate move) inner.matrix inner.matrix := by
  have cells (soFar : MatrixRows) (cell : Expr) :
      ({ soFar.relocate move with row := (soFar.relocate move).row ++ [cell.relocate move] } : MatrixRows) =
        MatrixRows.relocate move { soFar with row := soFar.row ++ [cell] } := by
    simp [MatrixRows.relocate]
  refine moves_bind moves_current fun lexeme => moves_bind_same moves_advance fun _ => ?_
  rw [Lexeme.span_relocate]
  refine moves_bind (moves_loop (MatrixRows.relocate move) (List.map (List.map (Expr.relocate move)))
    (fun soFar => ?_) {}) fun rows => ?_
  · refine moves_bind_same moves_token fun token => ?_
    split
    · refine moves_bind_same moves_advance fun _ => moves_pure ?_
      rw [MatrixRows.endRow_relocate]
      rfl
    · refine moves_bind (moves_missing _) fun last => moves_pure ?_
      rw [cells, MatrixRows.endRow_relocate]
      rfl
    · refine moves_bind_same moves_advance fun _ => moves_pure ?_
      rw [MatrixRows.endRow_relocate]
      rfl
    · exact moves_bind_same moves_advance fun _ => moves_pure rfl
    · refine moves_bind moves.expr fun cell => ?_
      rw [Expr.isEmpty_relocate]
      refine moves_ite (moves_bind (moves_bad _) fun cell => moves_pure ?_) (moves_pure ?_)
      · rw [cells]
        rfl
      · rw [cells]
        rfl
  · refine moves_bind (moves_spanFrom _) fun span => moves_pure ?_
    rw [Expr.relocate, Expr.relocateRows_eq_map]

theorem property_moves (moves : inner.Moves move) :
    Parser.Moves move (Entry.relocate move) inner.property inner.property := by
  refine moves_bind moves_current fun key => moves_bind_same moves_advance fun _ => ?_
  rw [Lexeme.span_relocate, Lexeme.lit_relocate, Lexeme.token_relocate]
  refine moves_bind_same (moves_accept .colon) fun accepted => moves_ite ?_ (moves_ite ?_ ?_)
  · refine moves_bind moves.expr fun value => moves_bind (moves_spanFrom _) fun span => ?_
    exact moves_pure rfl
  · refine moves_bind_same (moves_findFrame _) fun frame => ?_
    exact moves_bind (moves_spanFrom _) fun span => moves_pure rfl
  · exact moves_pure rfl

theorem object_moves (moves : inner.Moves move) :
    Parser.Moves move (Expr.relocate move) inner.object inner.object := by
  refine moves_bind moves_current fun lexeme => moves_bind_same moves_advance fun _ => ?_
  rw [Lexeme.span_relocate]
  refine moves_bind (moves_loop (List.map (Entry.relocate move)) (List.map (Entry.relocate move))
    (fun soFar => ?_) []) fun entries => ?_
  · refine moves_bind_same moves_token fun token => ?_
    split
    · exact moves_bind_same moves_advance fun _ => moves_pure rfl
    · refine moves_bind moves_here fun span => moves_pure ?_
      simp [Round.map, Entry.relocate]
    · exact moves_bind_same moves_advance fun _ => moves_pure rfl
    · exact moves_bind_same moves_advance fun _ => moves_pure rfl
    · refine moves_bind (property_moves moves) fun entry => moves_pure ?_
      simp [Round.map]
    · refine moves_bind (property_moves moves) fun entry => moves_pure ?_
      simp [Round.map]
    · refine moves_bind (property_moves moves) fun entry => moves_pure ?_
      simp [Round.map]
    · refine moves_bind moves_skipLexeme fun span => moves_pure ?_
      simp [Round.map, Entry.relocate]
  · refine moves_bind (moves_spanFrom _) fun span => moves_pure ?_
    rw [Expr.relocate, Entry.relocateAll_eq_map]

/-! ## Operands -/

theorem arguments_moves (moves : inner.Moves move) (start : Position) :
    Parser.Moves move (Expr.relocate move)
      (do
        advance
        let list ← inner.items .rightParen .parenExpected
        return .arguments (← spanFrom start) list)
      (do
        advance
        let list ← inner.items .rightParen .parenExpected
        return .arguments (← spanFrom (move start)) list) := by
  refine moves_bind_same moves_advance fun _ => moves_bind (items_moves moves _ _) fun list => ?_
  refine moves_bind (moves_spanFrom start) fun span => moves_pure ?_
  rw [Expr.relocate, Expr.relocateAll_eq_map]

theorem operand_moves (steady : move.Steady) (moves : inner.Moves move) :
    Parser.Moves move (Expr.relocate move) inner.operand inner.operand := by
  refine moves_bind_same moves_token fun token => ?_
  have empty : Parser.Moves move (Expr.relocate move) (do return .empty (← here))
      (do return .empty (← here)) :=
    moves_bind moves_here fun span => moves_pure rfl
  split
  · exact number_moves
  · refine moves_bind moves_current fun lexeme => ?_
    rw [Lexeme.lit_relocate]
    exact literal_moves _
  · exact moves_bad _
  · exact template_moves steady moves
  · exact literal_moves _
  · exact literal_moves _
  · exact literal_moves _
  · exact moves_bind variableRead_moves fun name => moves_pure rfl
  · refine moves_bind moves_current fun lexeme => ?_
    rw [Lexeme.span_relocate]
    exact arguments_moves moves _
  · exact matrix_moves moves
  · exact object_moves moves
  · exact moves.markup
  · exact moves_bad _
  · exact empty
  · exact empty
  · exact empty
  · exact empty
  · exact empty
  · exact empty
  · exact empty
  · exact moves_bad _

theorem postfixRound_moves (moves : inner.Moves move) (owner : Expr) :
    Parser.Moves move (Round.map (Expr.relocate move) (Expr.relocate move))
      (inner.postfixRound owner) (inner.postfixRound (owner.relocate move)) := by
  unfold postfixRound
  simp only [Expr.isNumber_relocate, Expr.span_relocate]
  refine moves_bind_same moves_token fun token => ?_
  split
  · refine moves_ite (moves_pure rfl) (moves_bind_same moves_advance fun _ => ?_)
    refine moves_bind (items_moves moves _ _) fun args => ?_
    refine moves_bind (moves_spanFrom _) fun span => moves_pure ?_
    rw [Round.map, Expr.relocate, Expr.relocateAll_eq_map]
  · refine moves_bind_same moves_advance fun _ => moves_bind_same moves_token fun next => ?_
    refine moves_ite (moves_bind identifierRead_moves fun selector => moves_pure rfl) ?_
    refine moves_bind (moves_missing _) fun last => moves_pure ?_
    rw [Expr.join_relocate, Round.map]
  · refine moves_bind_same moves_advance fun _ => ?_
    exact moves_bind (moves_spanFrom _) fun span => moves_pure rfl
  · exact moves_pure rfl

theorem postfixed_moves (steady : move.Steady) (moves : inner.Moves move) :
    Parser.Moves move (Expr.relocate move) inner.postfixed inner.postfixed :=
  moves_bind (operand_moves steady moves) fun operand =>
    moves_loop _ _ (postfixRound_moves moves) operand

theorem signed_moves (steady : move.Steady) (moves : inner.Moves move) :
    Parser.Moves move (Expr.relocate move) inner.signed inner.signed := by
  refine moves_bind_same moves_token fun token => ?_
  split
  · refine moves_bind moves_current fun lexeme => moves_bind_same moves_advance fun _ => ?_
    refine moves_bind moves.unary fun operand => moves_pure ?_
    simp [Expr.relocate, Span.relocate]
  · exact postfixed_moves steady moves

/-! ## Operators between operands -/

theorem compound_moves (steady : move.Steady) (stop : Position) :
    Parser.Moves move id (compound stop) (compound (move stop)) := by
  refine moves_bind moves_current fun lexeme => ?_
  simp only [Lexeme.token_relocate, Lexeme.span_relocate, Span.relocate, steady.isAdjacent]
  refine moves_ite ?_ (moves_pure rfl)
  exact moves_bind_same moves_advance fun _ => moves_pure rfl

theorem operatorRound_moves (steady : move.Steady) (moves : inner.Moves move) (op : BinaryOp)
    {operand : Parser Expr} (operandMoves : Parser.Moves move (Expr.relocate move) operand operand)
    (left : Expr) :
    Parser.Moves move (Round.map (Expr.relocate move) (Expr.relocate move))
      (inner.operatorRound op operand left) (inner.operatorRound op operand (left.relocate move)) := by
  refine moves_bind moves_current fun lexeme => moves_bind_same moves_advance fun _ => ?_
  rw [Lexeme.span_relocate]
  refine moves_bind_same (compound_moves steady _) fun isCompound => moves_ite ?_ ?_
  · refine moves_bind moves.expr fun value => moves_pure ?_
    rw [Expr.join_relocate, Expr.assign_relocate, Round.map]
  · refine moves_bind operandMoves fun right => moves_pure ?_
    rw [Expr.join_relocate, Round.map]

theorem powerRound_moves (steady : move.Steady) (moves : inner.Moves move) (base : Expr)
    (exponents : List Expr) :
    Parser.Moves move (Round.map (List.map (Expr.relocate move)) (Expr.relocate move))
      (inner.powerRound base exponents)
      (inner.powerRound (base.relocate move) (exponents.map (Expr.relocate move))) := by
  unfold powerRound
  rw [Expr.powerChain_relocate]
  refine moves_bind_same moves_token fun token => moves_ite ?_ (moves_pure rfl)
  refine moves_bind moves_current fun lexeme => moves_bind_same moves_advance fun _ => ?_
  rw [Lexeme.span_relocate]
  refine moves_bind_same (compound_moves steady _) fun isCompound => moves_ite ?_ ?_
  · refine moves_bind moves.expr fun value => moves_pure ?_
    rw [Expr.join_relocate, Expr.assign_relocate, Round.map]
  · refine moves_bind (signed_moves steady moves) fun exponent => moves_pure ?_
    simp [Round.map]

theorem power_moves (steady : move.Steady) (moves : inner.Moves move) :
    Parser.Moves move (Expr.relocate move) inner.power inner.power :=
  moves_bind (signed_moves steady moves) fun base =>
    moves_loop (List.map (Expr.relocate move)) _ (powerRound_moves steady moves base) []

theorem productRound_moves (steady : move.Steady) (moves : inner.Moves move) (left : Expr) :
    Parser.Moves move (Round.map (Expr.relocate move) (Expr.relocate move))
      (inner.productRound left) (inner.productRound (left.relocate move)) := by
  have juxtaposed : Parser.Moves move (Round.map (Expr.relocate move) (Expr.relocate move))
      (do return .again (Expr.juxtapose left (← inner.power)))
      (do return .again (Expr.juxtapose (left.relocate move) (← inner.power))) := by
    refine moves_bind (power_moves steady moves) fun right => moves_pure ?_
    rw [Expr.juxtapose_relocate, Round.map]
  refine moves_bind_same moves_token fun token => ?_
  split
  · exact operatorRound_moves steady moves _ (power_moves steady moves) left
  · split
    · exact juxtaposed
    · exact juxtaposed
    · exact juxtaposed
    · exact juxtaposed
    · exact juxtaposed
    · exact juxtaposed
    · exact juxtaposed
    · rw [Expr.isNumber_relocate]
      exact moves_ite juxtaposed (moves_pure rfl)
    · exact moves_pure rfl

theorem product_moves (steady : move.Steady) (moves : inner.Moves move) :
    Parser.Moves move (Expr.relocate move) inner.product inner.product :=
  moves_bind (power_moves steady moves) fun left =>
    moves_loop _ _ (productRound_moves steady moves) left

theorem sumRound_moves (steady : move.Steady) (moves : inner.Moves move) (left : Expr) :
    Parser.Moves move (Round.map (Expr.relocate move) (Expr.relocate move))
      (inner.sumRound left) (inner.sumRound (left.relocate move)) := by
  refine moves_bind_same moves_token fun token => ?_
  split
  · exact operatorRound_moves steady moves _ (product_moves steady moves) left
  · exact moves_pure rfl

theorem sum_moves (steady : move.Steady) (moves : inner.Moves move) :
    Parser.Moves move (Expr.relocate move) inner.sum inner.sum :=
  moves_bind (product_moves steady moves) fun left => moves_loop _ _ (sumRound_moves steady moves) left

theorem leftChain_moves (operator? : Token → Option BinaryOp) {operand : Parser Expr}
    (operandMoves : Parser.Moves move (Expr.relocate move) operand operand) :
    Parser.Moves move (Expr.relocate move) (leftChain operator? operand)
      (leftChain operator? operand) := by
  refine moves_bind operandMoves fun first => moves_loop _ _ (fun left => ?_) first
  refine moves_bind_same moves_token fun token => ?_
  split
  · refine moves_bind_same moves_advance fun _ => moves_bind operandMoves fun right => ?_
    refine moves_pure ?_
    rw [Expr.join_relocate, Round.map]
  · exact moves_pure rfl

/-- The chains between sums and ranges. -/
theorem pipe_moves (steady : move.Steady) (moves : inner.Moves move) :
    Parser.Moves move (Expr.relocate move) inner.pipe inner.pipe := by
  refine leftChain_moves _ (leftChain_moves _ (leftChain_moves _ (leftChain_moves _ ?_)))
  exact leftChain_moves _ (sum_moves steady moves)

theorem range_moves (steady : move.Steady) (moves : inner.Moves move) :
    Parser.Moves move (Expr.relocate move) inner.range inner.range := by
  have part := pipe_moves steady moves
  refine moves_bind part fun first => moves_bind_same moves_token fun token => ?_
  refine moves_ite (moves_bind_same moves_advance fun _ => ?_) (moves_pure rfl)
  refine moves_bind part fun second => moves_bind_same (moves_accept .range) fun again => ?_
  refine moves_ite (moves_bind part fun last => moves_pure ?_) (moves_pure ?_)
  · simp [Expr.relocate, Expr.relocate?, Span.relocate]
  · simp [Expr.relocate, Expr.relocate?, Span.relocate]

theorem conditional_moves (steady : move.Steady) (moves : inner.Moves move) :
    Parser.Moves move (Expr.relocate move) inner.conditional inner.conditional := by
  refine moves_bind (range_moves steady moves) fun test => moves_bind_same moves_token fun token => ?_
  refine moves_ite (moves_bind_same moves_advance fun _ => ?_) (moves_pure rfl)
  refine moves_bind moves.lambda fun whenTrue => moves_bind_same (moves_accept .colon) fun found => ?_
  refine moves_ite (moves_bind moves.lambda fun whenFalse => moves_pure ?_)
    (moves_bind (moves_missing _) fun whenFalse => moves_pure ?_)
  · simp [Expr.relocate, Span.relocate]
  · simp [Expr.relocate, Span.relocate]

/-! ## Functions and assignments -/

theorem parameters?_relocate (head : Expr) :
    parameters? (head.relocate move) = (parameters? head).map (List.map (Expr.relocate move)) := by
  cases head with
  | arguments span items => exact congrArg some (Expr.relocateAll_eq_map items)
  | _ => rfl

theorem parameterNames_relocate (frame : FrameId) (items : List Expr) :
    parameterNames frame (items.map (Expr.relocate move)) =
      (parameterNames frame items).map (Variable.relocate move) := by
  rw [parameterNames, parameterNames, List.filterMap_map, List.map_filterMap]
  refine congrArg (List.filterMap · items) (funext fun item => ?_)
  cases item <;> rfl

theorem declareAll_moves (params : List Variable) :
    Parser.Moves move id (params.forM declare)
      ((params.map (Variable.relocate move)).forM declare) := by
  induction params with
  | nil => exact moves_pure rfl
  | cons first rest inductionHypothesis =>
      exact moves_bind_same (moves_declare first) fun _ => inductionHypothesis

theorem function_moves (steady : move.Steady) (moves : inner.Moves move) :
    Parser.Moves move (Expr.relocate move) inner.function inner.function := by
  refine moves_bind (conditional_moves steady moves) fun head => ?_
  refine moves_bind_same moves_token fun token => moves_ite ?_ (moves_pure rfl)
  rw [parameters?_relocate]
  cases parameters? head with
  | none => exact moves_pure rfl
  | some items =>
      refine moves_bind_same moves_advance fun _ => moves_bind_same moves_pushFrame fun frame => ?_
      simp only [parameterNames_relocate, List.length_map, Expr.span_relocate]
      refine moves_bind_same (declareAll_moves _) fun _ => moves_bind_same moves_token fun opening => ?_
      have result (body : Body) : Parser.Moves move (Expr.relocate move)
          (do
            popFrame
            let span : Span := ⟨head.span.start, body.span.stop⟩
            if (parameterNames frame items).length = items.length then
              return .function span frame (parameterNames frame items) body
            else return .invalid span .invalidParameter)
          (do
            popFrame
            let span : Span := ⟨(head.span.relocate move).start, (body.relocate move).span.stop⟩
            if (parameterNames frame items).length = items.length then
              return .function span frame ((parameterNames frame items).map (Variable.relocate move))
                (body.relocate move)
            else return .invalid span .invalidParameter) := by
        refine moves_bind_same moves_popFrame fun _ => moves_ite (moves_pure ?_) (moves_pure ?_)
        · simp [Expr.relocate, Span.relocate]
        · simp [Expr.relocate, Span.relocate]
      refine moves_ite ?_ ?_
      · refine moves_bind (moves_map moves.block fun block => ?_) result
        rfl
      · refine moves_bind (moves_map moves.expr fun value => ?_) result
        rfl

theorem assignment_moves (steady : move.Steady) (moves : inner.Moves move) :
    Parser.Moves move (Expr.relocate move) inner.assignment inner.assignment := by
  refine moves_bind (function_moves steady moves) fun target => ?_
  refine moves_bind_same moves_token fun token => moves_ite ?_ (moves_pure rfl)
  refine moves_bind_same moves_advance fun _ => moves_bind moves.expr fun value => moves_pure ?_
  rw [Expr.assign_relocate]

theorem skipSemicolons_moves : Parser.Moves move id skipSemicolons skipSemicolons := by
  refine moves_loop id id (fun _ => ?_) ()
  refine moves_bind_same (moves_accept .semicolon) fun found => ?_
  exact moves_ite (moves_pure rfl) (moves_pure rfl)

theorem entire_moves (steady : move.Steady) (moves : inner.Moves move) :
    Parser.Moves move (Expr.relocate move) inner.entire inner.entire := by
  refine moves_bind_same skipSemicolons_moves fun _ => ?_
  refine moves_bind (assignment_moves steady moves) fun first => moves_loop _ _ (fun soFar => ?_) first
  refine moves_bind_same skipSemicolons_moves fun _ => moves_bind_same moves_token fun token => ?_
  refine moves_ite (moves_pure rfl) (moves_bind (moves_bad _) fun excess => ?_)
  refine moves_bind (assignment_moves steady moves) fun next => moves_pure ?_
  rw [Expr.isEmpty_relocate, Expr.join_relocate, Expr.join_relocate, Round.map]
  split <;> rfl

end Grammar

end Reckon
