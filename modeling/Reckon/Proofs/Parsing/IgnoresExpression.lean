import Reckon.Proofs.Parsing.Ignoring
import Reckon.Proofs.Parsing.MovesExpression
import Reckon.Proofs.RoundTrip.Juxtaposition

/-!
# Expressions ignore what is behind them

The parsers of expressions do not notice a semicolon behind the lexeme at which they stop, and a grammar
that does all that another one does keeps this up at every level.
-/

namespace Reckon

/-- How many lexemes a parser of markup looks at behind what it reads: none if nothing is missing. -/
def Expr.lookahead (tree : Expr) : Nat :=
  if tree.diagnostics = [] then 0 else 1

theorem Expr.lookahead_of_ne {tree : Expr} (reported : tree.diagnostics ≠ []) : tree.lookahead = 1 :=
  if_neg reported

theorem Expr.lookahead_le (tree : Expr) : tree.lookahead ≤ 1 := by
  unfold lookahead
  split <;> decide

theorem Expr.lookahead_le_join (left right : Expr) :
    right.lookahead ≤ (Expr.join .multiply left right).lookahead := by
  by_cases sound : right.diagnostics = []
  · rw [lookahead, if_pos sound]
    exact Nat.zero_le _
  · rw [lookahead_of_ne sound, lookahead_of_ne (Grammar.diagnostics_join_ne_nil (.inr sound))]

namespace Grammar

open Reckon.Parser

/-- The second grammar does what the first one does, and ignores a semicolon behind it. -/
structure Ignores (gap : Gap) (first second : Grammar) : Prop where
  expr : Parser.Ignores gap first.expr second.expr
  lambda : Parser.Ignores gap first.lambda second.lambda
  unary : Parser.Ignores gap first.unary second.unary
  markup : IgnoresUpTo gap 2 Expr.lookahead first.markup second.markup
  block : Parser.Ignores gap first.block second.block
  ifStatement : Parser.Ignores gap first.ifStatement second.ifStatement
  whole : ∀ {state found}, first.whole state = some found → second.whole state = some found

variable {gap : Gap} {first second : Grammar}

/-! ## Lists and literals -/

theorem items_ignores (ignores : first.Ignores gap second) (close : Token) (defect : Defect) :
    Parser.Ignores gap (first.items close defect) (second.items close defect) := by
  have round (soFar : List Expr) :
      Parser.Ignores gap (first.itemsRound close soFar) (second.itemsRound close soFar) := by
    refine ignores_bind ignores_token fun _ => ignores_ite (fun _ => ignores_pure _) fun _ => ?_
    refine ignores_bind ignores.expr fun item => ignores_bind ignores_token fun _ => ?_
    refine ignores_bind (ignores_accept .comma) fun _ => ?_
    exact ignores_ite (fun _ => ignores_pure _) fun _ => ignores_pure _
  refine ignores_bind (ignores_loop round []) fun found => ignores_bind (ignores_accept close) fun _ => ?_
  refine ignores_ite (fun _ => ignores_pure _) fun _ => ?_
  exact ignores_bind (ignores_missing defect) fun _ => ignores_pure _

theorem literal_ignoresUpTo (enough : Nat) (value : Literal) :
    IgnoresUpTo gap (enough + 1) (fun _ => enough) (literal value) (literal value) :=
  ignores_bind (ignoresUpTo_skipLexeme enough) fun _ => ignoresUpTo_pure (Nat.le_refl enough)

theorem literal_ignores (value : Literal) : Parser.Ignores gap (literal value) (literal value) :=
  (literal_ignoresUpTo 1 value).mono (Nat.le_succ 1) fun _ => Nat.le_refl 1

theorem number_ignores : Parser.Ignores gap number number := by
  refine ignores_bind ignores_current fun lexeme => ?_
  split
  · exact literal_ignores _
  · exact ignores_bad _

theorem variableRead_ignores : Parser.Ignores gap variableRead variableRead :=
  ignores_bind ignores_current fun _ => ignores_bind (ignores_findFrame _) fun _ =>
    ignores_bind ignores_skipLexeme fun _ => ignores_pure _

theorem identifierRead_ignores : Parser.Ignores gap identifierRead identifierRead :=
  ignores_bind ignores_current fun _ => ignores_bind ignores_skipLexeme fun _ => ignores_pure _

/-- A replacement is a stream of its own. -/
theorem replacement_ignores (ignores : first.Ignores gap second) (lexemes : List Lexeme) :
    Parser.Ignores gap (first.replacement lexemes) (second.replacement lexemes) := by
  have run (grammar : Grammar) (outer : ParseState) : grammar.replacement lexemes outer =
      (grammar.whole (ParseState.start lexemes outer.scope)).map fun found =>
        (found.1, { outer with scope := found.2.scope }) := by
    change (grammar.whole (ParseState.start lexemes outer.scope)).bind _ = _
    cases grammar.whole (ParseState.start lexemes outer.scope) <;> rfl
  refine ⟨fun {state found} ran => ?_, fun {state result after} ran before => ?_⟩
  · rw [run, Option.map_eq_some_iff] at ran
    obtain ⟨read, wholeRan, rfl⟩ := ran
    rw [run, ignores.whole wholeRan]
    rfl
  · rw [run, Option.map_eq_some_iff] at ran
    obtain ⟨read, wholeRan, same⟩ := ran
    obtain ⟨rfl, rfl⟩ := Prod.mk.inj same
    have inside : second.whole (ParseState.start lexemes (state.insert gap).scope) = some read :=
      ignores.whole wholeRan
    rw [run, inside]
    exact ⟨before, rfl⟩

theorem template_ignores (ignores : first.Ignores gap second) :
    Parser.Ignores gap first.template second.template := by
  refine ignores_bind ignores_current fun lexeme => ?_
  refine ignores_bind (ignores_mapM (replacement_ignores ignores) lexeme.subs) fun _ => ?_
  exact ignores_bind ignores_skipLexeme fun _ => ignores_pure _

/-! ## Brackets -/

theorem matrix_ignores (ignores : first.Ignores gap second) :
    Parser.Ignores gap first.matrix second.matrix := by
  refine ignores_bind ignores_current fun _ => ignores_bind ignores_advance fun _ => ?_
  refine ignores_bind (ignores_loop (fun soFar => ?_) _) fun _ => ?_
  · refine ignores_bind ignores_token fun _ => ?_
    split
    · exact ignores_bind ignores_advance fun _ => ignores_pure _
    · exact ignores_bind (ignores_missing _) fun _ => ignores_pure _
    · exact ignores_bind ignores_advance fun _ => ignores_pure _
    · exact ignores_bind ignores_advance fun _ => ignores_pure _
    · refine ignores_bind ignores.expr fun cell => ?_
      refine ignores_ite (fun _ => ?_) fun _ => ignores_pure _
      exact ignores_bind (ignores_bad _) fun _ => ignores_pure _
  · exact ignores_bind (ignores_spanFrom _) fun _ => ignores_pure _

theorem property_ignores (ignores : first.Ignores gap second) :
    Parser.Ignores gap first.property second.property := by
  refine ignores_bind ignores_current fun key => ignores_bind ignores_advance fun _ => ?_
  refine ignores_bind (ignores_accept .colon) fun _ => ignores_ite (fun _ => ?_) fun _ =>
    ignores_ite (fun _ => ?_) fun _ => ignores_pure _
  · exact ignores_bind ignores.expr fun _ => ignores_bind (ignores_spanFrom _) fun _ => ignores_pure _
  · exact ignores_bind (ignores_findFrame _) fun _ =>
      ignores_bind (ignores_spanFrom _) fun _ => ignores_pure _

theorem object_ignores (ignores : first.Ignores gap second) :
    Parser.Ignores gap first.object second.object := by
  have entry (soFar : List Entry) : Parser.Ignores (α := Round (List Entry) (List Entry)) gap
      (do return .again (soFar ++ [← first.property]))
      (do return .again (soFar ++ [← second.property])) :=
    ignores_bind (property_ignores ignores) fun _ => ignores_pure _
  refine ignores_bind ignores_current fun _ => ignores_bind ignores_advance fun _ => ?_
  refine ignores_bind (ignores_loop (fun soFar => ?_) []) fun _ => ?_
  · refine ignores_bind ignores_token fun _ => ?_
    split
    · exact ignores_bind ignores_advance fun _ => ignores_pure _
    · exact ignores_bind ignores_here fun _ => ignores_pure _
    · exact ignores_bind ignores_advance fun _ => ignores_pure _
    · exact ignores_bind ignores_advance fun _ => ignores_pure _
    · exact entry soFar
    · exact entry soFar
    · exact entry soFar
    · exact ignores_bind ignores_skipLexeme fun _ => ignores_pure _
  · exact ignores_bind (ignores_spanFrom _) fun _ => ignores_pure _

/-! ## Operands -/

theorem operand_ignores (ignores : first.Ignores gap second) :
    Parser.Ignores gap first.operand second.operand := by
  have empty : Parser.Ignores (α := Expr) gap (do return .empty (← here)) (do return .empty (← here)) :=
    ignores_bind ignores_here fun _ => ignores_pure _
  refine ignores_bind ignores_token fun _ => ?_
  split
  · exact number_ignores
  · exact ignores_bind ignores_current fun _ => literal_ignores _
  · exact ignores_bad _
  · exact template_ignores ignores
  · exact literal_ignores _
  · exact literal_ignores _
  · exact literal_ignores _
  · exact ignores_bind variableRead_ignores fun _ => ignores_pure _
  · refine ignores_bind ignores_current fun _ => ignores_bind ignores_advance fun _ => ?_
    refine ignores_bind (items_ignores ignores _ _) fun _ => ?_
    exact ignores_bind (ignores_spanFrom _) fun _ => ignores_pure _
  · exact matrix_ignores ignores
  · exact object_ignores ignores
  · exact ignores.markup.mono (Nat.le_succ 1) Expr.lookahead_le
  · exact ignores_bad _
  · exact empty
  · exact empty
  · exact empty
  · exact empty
  · exact empty
  · exact empty
  · exact empty
  · exact ignores_bad _

theorem postfixRound_ignores (ignores : first.Ignores gap second) (owner : Expr) :
    Parser.Ignores gap (first.postfixRound owner) (second.postfixRound owner) := by
  refine ignores_bind ignores_token fun _ => ?_
  split
  · refine ignores_ite (fun _ => ignores_pure _) fun _ => ignores_bind ignores_advance fun _ => ?_
    refine ignores_bind (items_ignores ignores _ _) fun _ => ?_
    exact ignores_bind (ignores_spanFrom _) fun _ => ignores_pure _
  · refine ignores_bind ignores_advance fun _ => ignores_bind ignores_token fun _ => ?_
    refine ignores_ite (fun _ => ?_) fun _ => ?_
    · exact ignores_bind identifierRead_ignores fun _ => ignores_pure _
    · exact ignores_bind (ignores_missing _) fun _ => ignores_pure _
  · refine ignores_bind ignores_advance fun _ => ?_
    exact ignores_bind (ignores_spanFrom _) fun _ => ignores_pure _
  · exact ignores_pure _

theorem postfixed_ignores (ignores : first.Ignores gap second) :
    Parser.Ignores gap first.postfixed second.postfixed :=
  ignores_bind (operand_ignores ignores) (ignores_loop (postfixRound_ignores ignores))

theorem signed_ignores (ignores : first.Ignores gap second) :
    Parser.Ignores gap first.signed second.signed := by
  refine ignores_bind ignores_token fun _ => ?_
  split
  · refine ignores_bind ignores_current fun _ => ignores_bind ignores_advance fun _ => ?_
    exact ignores_bind ignores.unary fun _ => ignores_pure _
  · exact postfixed_ignores ignores

/-! ## Operators between operands -/

theorem compound_ignores (stop : Position) : Parser.Ignores gap (compound stop) (compound stop) := by
  refine ignores_bind ignores_current fun _ => ignores_ite (fun _ => ?_) fun _ => ignores_pure _
  exact ignores_bind ignores_advance fun _ => ignores_pure _

theorem operatorRound_ignores (ignores : first.Ignores gap second) (op : BinaryOp)
    {operand secondOperand : Parser Expr} (operands : Parser.Ignores gap operand secondOperand)
    (left : Expr) :
    Parser.Ignores gap (first.operatorRound op operand left)
      (second.operatorRound op secondOperand left) := by
  refine ignores_bind ignores_current fun _ => ignores_bind ignores_advance fun _ => ?_
  refine ignores_bind (compound_ignores _) fun _ => ignores_ite (fun _ => ?_) fun _ => ?_
  · exact ignores_bind ignores.expr fun _ => ignores_pure _
  · exact ignores_bind operands fun _ => ignores_pure _

theorem powerRound_ignores (ignores : first.Ignores gap second) (base : Expr) (exponents : List Expr) :
    Parser.Ignores gap (first.powerRound base exponents) (second.powerRound base exponents) := by
  refine ignores_bind ignores_token fun _ => ignores_ite (fun _ => ?_) fun _ => ignores_pure _
  refine ignores_bind ignores_current fun _ => ignores_bind ignores_advance fun _ => ?_
  refine ignores_bind (compound_ignores _) fun _ => ignores_ite (fun _ => ?_) fun _ => ?_
  · exact ignores_bind ignores.expr fun _ => ignores_pure _
  · exact ignores_bind (signed_ignores ignores) fun _ => ignores_pure _

theorem power_ignores (ignores : first.Ignores gap second) :
    Parser.Ignores gap first.power second.power :=
  ignores_bind (signed_ignores ignores) fun base => ignores_loop (powerRound_ignores ignores base) []

theorem productRound_ignores (ignores : first.Ignores gap second) (left : Expr) :
    Parser.Ignores gap (first.productRound left) (second.productRound left) := by
  have juxtaposed : Parser.Ignores (α := Round Expr Expr) gap
      (do return .again (Expr.juxtapose left (← first.power)))
      (do return .again (Expr.juxtapose left (← second.power))) :=
    ignores_bind (power_ignores ignores) fun _ => ignores_pure _
  refine ignores_bind ignores_token fun _ => ?_
  split
  · exact operatorRound_ignores ignores _ (power_ignores ignores) left
  · split
    · exact juxtaposed
    · exact juxtaposed
    · exact juxtaposed
    · exact juxtaposed
    · exact juxtaposed
    · exact juxtaposed
    · exact juxtaposed
    · exact ignores_ite (fun _ => juxtaposed) fun _ => ignores_pure _
    · exact ignores_pure _

theorem product_ignores (ignores : first.Ignores gap second) :
    Parser.Ignores gap first.product second.product :=
  ignores_bind (power_ignores ignores) (ignores_loop (productRound_ignores ignores))

theorem sumRound_ignores (ignores : first.Ignores gap second) (left : Expr) :
    Parser.Ignores gap (first.sumRound left) (second.sumRound left) := by
  refine ignores_bind ignores_token fun _ => ?_
  split
  · exact operatorRound_ignores ignores _ (product_ignores ignores) left
  · exact ignores_pure _

theorem sum_ignores (ignores : first.Ignores gap second) :
    Parser.Ignores gap first.sum second.sum :=
  ignores_bind (product_ignores ignores) (ignores_loop (sumRound_ignores ignores))

theorem chainRound_ignores (operator? : Token → Option BinaryOp) {operand secondOperand : Parser Expr}
    (operands : Parser.Ignores gap operand secondOperand) (left : Expr) :
    Parser.Ignores gap (chainRound operator? operand left)
      (chainRound operator? secondOperand left) := by
  refine ignores_bind ignores_token fun _ => ?_
  split
  · refine ignores_bind ignores_advance fun _ => ?_
    exact ignores_bind operands fun _ => ignores_pure _
  · exact ignores_pure _

theorem leftChain_ignores (operator? : Token → Option BinaryOp) {operand secondOperand : Parser Expr}
    (operands : Parser.Ignores gap operand secondOperand) :
    Parser.Ignores gap (leftChain operator? operand) (leftChain operator? secondOperand) :=
  ignores_bind operands (ignores_loop (chainRound_ignores operator? operands))

/-- The chains between sums and ranges. -/
theorem pipe_ignores (ignores : first.Ignores gap second) :
    Parser.Ignores gap first.pipe second.pipe := by
  refine leftChain_ignores _ (leftChain_ignores _ (leftChain_ignores _ (leftChain_ignores _ ?_)))
  exact leftChain_ignores _ (sum_ignores ignores)

theorem range_ignores (ignores : first.Ignores gap second) :
    Parser.Ignores gap first.range second.range := by
  have part := pipe_ignores ignores
  refine ignores_bind part fun _ => ignores_bind ignores_token fun _ => ?_
  refine ignores_ite (fun _ => ignores_bind ignores_advance fun _ => ?_) fun _ => ignores_pure _
  refine ignores_bind part fun _ => ignores_bind (ignores_accept .range) fun _ => ?_
  refine ignores_ite (fun _ => ?_) fun _ => ignores_pure _
  exact ignores_bind part fun _ => ignores_pure _

theorem conditional_ignores (ignores : first.Ignores gap second) :
    Parser.Ignores gap first.conditional second.conditional := by
  refine ignores_bind (range_ignores ignores) fun _ => ignores_bind ignores_token fun _ => ?_
  refine ignores_ite (fun _ => ignores_bind ignores_advance fun _ => ?_) fun _ => ignores_pure _
  refine ignores_bind ignores.lambda fun _ => ignores_bind (ignores_accept .colon) fun _ => ?_
  refine ignores_ite (fun _ => ?_) fun _ => ?_
  · exact ignores_bind ignores.lambda fun _ => ignores_pure _
  · exact ignores_bind (ignores_missing _) fun _ => ignores_pure _

/-! ## Functions and assignments -/

theorem function_ignores (ignores : first.Ignores gap second) :
    Parser.Ignores gap first.function second.function := by
  refine ignores_bind (conditional_ignores ignores) fun head => ignores_bind ignores_token fun _ => ?_
  refine ignores_ite (fun _ => ?_) fun _ => ignores_pure _
  split
  · exact ignores_pure _
  · refine ignores_bind ignores_advance fun _ => ignores_bind ignores_pushFrame fun _ => ?_
    refine ignores_bind (ignores_declareAll _) fun _ => ignores_bind ignores_token fun _ => ?_
    refine ignores_ite (fun _ => ?_) fun _ => ?_
    · refine ignores_bind (ignores_map ignores.block) fun _ => ignores_bind ignores_popFrame fun _ => ?_
      exact ignores_ite (fun _ => ignores_pure _) fun _ => ignores_pure _
    · refine ignores_bind (ignores_map ignores.expr) fun _ => ignores_bind ignores_popFrame fun _ => ?_
      exact ignores_ite (fun _ => ignores_pure _) fun _ => ignores_pure _

theorem assignment_ignores (ignores : first.Ignores gap second) :
    Parser.Ignores gap first.assignment second.assignment := by
  refine ignores_bind (function_ignores ignores) fun _ => ignores_bind ignores_token fun _ => ?_
  refine ignores_ite (fun _ => ignores_bind ignores_advance fun _ => ?_) fun _ => ignores_pure _
  exact ignores_bind ignores.expr fun _ => ignores_pure _

theorem skipSemicolons_ignores : Parser.Ignores gap skipSemicolons skipSemicolons := by
  refine ignores_loop (fun _ => ?_) ()
  refine ignores_bind (ignores_accept .semicolon) fun _ => ?_
  exact ignores_ite (fun _ => ignores_pure _) fun _ => ignores_pure _

theorem entire_ignores (ignores : first.Ignores gap second) :
    Parser.Ignores gap first.entire second.entire := by
  refine ignores_bind skipSemicolons_ignores fun _ => ?_
  refine ignores_bind (assignment_ignores ignores) (ignores_loop fun soFar => ?_)
  refine ignores_bind skipSemicolons_ignores fun _ => ignores_bind ignores_token fun _ => ?_
  refine ignores_ite (fun _ => ignores_pure _) fun _ => ignores_bind (ignores_bad _) fun _ => ?_
  exact ignores_bind (assignment_ignores ignores) fun _ => ignores_pure _

end Grammar

end Reckon
