import Reckon.Proofs.Parsing.MovesExpression

/-!
# Parsing moved elements and statements

The parsers of markup and of statements do the same with lexemes that were moved, and so does the grammar
of each depth.
-/

namespace Reckon

variable {move : Relocation}

namespace Grammar

open Reckon.Parser

variable {inner : Grammar}

/-! ## Elements -/

theorem componentPath_moves (head : Variable) :
    Parser.Moves move (Expr.relocate move) (componentPath head) (componentPath (head.relocate move)) := by
  refine moves_loop (Expr.relocate move) _ (fun owner => ?_) (.var head)
  refine moves_bind_same moves_token fun token => moves_bind_same moves_peekToken fun next => ?_
  refine moves_ite (moves_bind_same moves_advance fun _ => ?_) (moves_pure rfl)
  refine moves_bind identifierRead_moves fun selector => moves_pure ?_
  simp [Round.map, Expr.relocate, Span.relocate, Identifier.relocate]

theorem plainPath_moves (head : Identifier) :
    Parser.Moves move (Identifier.relocate move) (plainPath head)
      (plainPath (head.relocate move)) := by
  refine moves_loop _ _ (fun path => ?_) head
  refine moves_bind_same moves_token fun token => moves_bind_same moves_peekToken fun next => ?_
  refine moves_ite (moves_bind_same moves_advance fun _ => ?_) (moves_pure rfl)
  exact moves_bind identifierRead_moves fun word => moves_pure rfl

theorem tag_moves : Parser.Moves move (Expr.relocate move) tag tag := by
  refine moves_bind moves_current fun lexeme => ?_
  rw [Lexeme.token_relocate, Lexeme.lit_relocate]
  refine moves_ite (moves_bind moves_here fun span => moves_pure rfl) (moves_ite ?_ ?_)
  · exact moves_bind variableRead_moves fun name => componentPath_moves name
  · refine moves_bind identifierRead_moves fun name => ?_
    exact moves_bind (plainPath_moves name) fun path => moves_pure rfl

theorem braced_moves (moves : inner.Moves move) :
    Parser.Moves move (Expr.relocate move) inner.braced inner.braced := by
  refine moves_bind_same moves_advance fun _ => moves_bind moves.expr fun value => ?_
  refine moves_bind_same (moves_accept _) fun found => moves_ite (moves_pure rfl) ?_
  refine moves_bind (moves_missing _) fun last => moves_pure ?_
  rw [Expr.join_relocate]

theorem attributeValue?_moves (steady : move.Steady) (moves : inner.Moves move) :
    Parser.Moves move (Option.map (Expr.relocate move)) inner.attributeValue?
      inner.attributeValue? := by
  refine moves_bind_same moves_token fun token => ?_
  split
  · refine moves_bind moves_current fun lexeme => ?_
    rw [Lexeme.lit_relocate]
    exact moves_bind (literal_moves _) fun value => moves_pure rfl
  · exact moves_bind number_moves fun value => moves_pure rfl
  · exact moves_bind (template_moves steady moves) fun value => moves_pure rfl
  · exact moves_bind (braced_moves moves) fun value => moves_pure rfl
  · exact moves_pure rfl

theorem attributeEntry_moves (steady : move.Steady) (moves : inner.Moves move) :
    Parser.Moves move (Entry.relocate move) inner.attributeEntry inner.attributeEntry := by
  refine moves_bind moves_current fun key => moves_bind_same moves_advance fun _ => ?_
  rw [Lexeme.span_relocate, Lexeme.lit_relocate]
  refine moves_bind_same (moves_accept .assign) fun found => moves_ite ?_ ?_
  · refine moves_bind (attributeValue?_moves steady moves) fun value => ?_
    cases value with
    | none => exact moves_bind moves_skipLexeme fun span => moves_pure rfl
    | some value => exact moves_bind (moves_spanFrom _) fun span => moves_pure rfl
  · exact moves_bind (moves_spanFrom _) fun span => moves_pure rfl

theorem attributes_moves (steady : move.Steady) (moves : inner.Moves move) :
    Parser.Moves move (Prod.map (List.map (Entry.relocate move)) id) inner.attributes
      inner.attributes := by
  refine moves_loop (List.map (Entry.relocate move)) _ (fun soFar => ?_) []
  refine moves_bind_same moves_token fun token => ?_
  split
  · refine moves_bind (attributeEntry_moves steady moves) fun entry => moves_pure ?_
    simp [Round.map]
  · refine moves_bind_same moves_advance fun _ => ?_
    refine moves_bind_same (moves_accept .greater) fun found => moves_pure rfl
  · exact moves_bind_same moves_advance fun _ => moves_pure rfl
  · exact moves_pure rfl
  · refine moves_bind moves_skipLexeme fun span => moves_pure ?_
    simp [Round.map, Entry.relocate]

namespace Children

/-- Children with their spans moved. -/
def relocate (move : Relocation) (children : Children) : Children where
  finished := children.finished.map (Expr.relocate move)
  text := children.text.map fun text => (text.1.relocate move, text.2)

variable (children : Children)

theorem all_relocate :
    (children.relocate move).all = children.all.map (Expr.relocate move) := by
  unfold all relocate
  cases children.text with
  | none => rfl
  | some text =>
      simp only [Option.map_some, List.map_append]
      rfl

theorem add_relocate (child : Expr) :
    (children.relocate move).add (child.relocate move) = (children.add child).relocate move := by
  rw [add, all_relocate, add, relocate, List.map_append]
  rfl

theorem addWord_relocate (lexeme : Lexeme) :
    (children.relocate move).addWord (lexeme.relocate move) =
      (children.addWord lexeme).relocate move := by
  unfold addWord
  simp only [relocate, Lexeme.lit_relocate, Lexeme.span_relocate]
  cases children.text <;> rfl

end Children

theorem children_moves (moves : inner.Moves move) :
    Parser.Moves move (Option.map (List.map (Expr.relocate move))) inner.children
      inner.children := by
  refine moves_loop (Children.relocate move) _ (fun soFar => ?_) {}
  refine moves_bind_same moves_token fun token => ?_
  split
  · exact moves_pure rfl
  · refine moves_bind_same moves_peekToken fun next => moves_ite (moves_pure ?_) ?_
    · rw [Children.all_relocate]
      rfl
    · refine moves_bind moves.markup fun child => moves_pure ?_
      rw [Children.add_relocate, Round.map]
  · refine moves_bind (braced_moves moves) fun child => moves_pure ?_
    rw [Children.add_relocate, Round.map]
  · refine moves_bind moves_current fun lexeme => ?_
    rw [Lexeme.lit_relocate]
    refine moves_bind (literal_moves _) fun child => moves_pure ?_
    rw [Children.add_relocate, Round.map]
  · exact moves_bind_same moves_advance fun _ => moves_pure rfl
  · refine moves_bind moves_current fun lexeme => moves_bind_same moves_advance fun _ => ?_
    refine moves_pure ?_
    rw [Children.addWord_relocate, Round.map]

theorem skipClosingTag_moves : Parser.Moves move id skipClosingTag skipClosingTag := by
  refine moves_bind_same (moves_loop id id (fun _ => ?_) ()) fun _ => ?_
  · refine moves_bind_same moves_token fun token => moves_bind_same moves_token fun again => ?_
    exact moves_ite (moves_pure rfl) (moves_bind_same moves_advance fun _ => moves_pure rfl)
  · exact moves_bind_same (moves_accept .greater) fun found => moves_pure rfl

theorem element_moves (steady : move.Steady) (moves : inner.Moves move) :
    Parser.Moves move (Expr.relocate move) inner.element inner.element := by
  refine moves_bind moves_current fun lexeme => moves_bind_same moves_advance fun _ => ?_
  rw [Lexeme.span_relocate]
  refine moves_bind_same moves_token fun token => moves_ite ?_ ?_
  · refine moves_bind_same skipClosingTag_moves fun _ => ?_
    exact moves_bind (moves_spanFrom _) fun span => moves_pure rfl
  · have broken : Parser.Moves move (Expr.relocate move)
        (do return .invalid (← spanFrom lexeme.span.start) .elementNotClosed)
        (do return .invalid (← spanFrom (move lexeme.span.start)) .elementNotClosed) :=
      moves_bind (moves_spanFrom _) fun span => moves_pure rfl
    refine moves_bind tag_moves fun opening => ?_
    refine moves_bind (attributes_moves steady moves) fun found => ?_
    obtain ⟨entries, ending⟩ := found
    cases ending with
    | broken => exact broken
    | closed =>
        refine moves_bind (moves_spanFrom _) fun span => moves_pure ?_
        simp [Expr.relocate, Entry.relocateAll_eq_map, Expr.relocateAll]
    | opened =>
        refine moves_bind (children_moves moves) fun list => ?_
        cases list with
        | none => exact broken
        | some list =>
            refine moves_bind_same moves_advance fun _ => moves_bind_same moves_advance fun _ => ?_
            refine moves_bind tag_moves fun closing => ?_
            refine moves_bind_same (moves_accept .greater) fun found => moves_ite ?_ broken
            refine moves_bind (moves_spanFrom _) fun span => ?_
            rw [Expr.tagPath_relocate, Expr.tagPath_relocate]
            refine moves_ite (moves_pure ?_) (moves_pure rfl)
            simp [Expr.relocate, Entry.relocateAll_eq_map, Expr.relocateAll_eq_map]

/-! ## Parts of statements -/

theorem body_moves (moves : inner.Moves move) :
    Parser.Moves move (Block.relocate move) inner.body inner.body := by
  refine moves_bind_same moves_token fun token => moves_ite moves.block ?_
  exact moves_bind moves_here fun span => moves_pure rfl

theorem skipToElse_moves : Parser.Moves move id skipToElse skipToElse := by
  refine moves_bind_same moves_token fun token => moves_bind_same moves_peekToken fun next => ?_
  exact moves_ite moves_advance (moves_pure rfl)

theorem alternative_moves (moves : inner.Moves move) :
    Parser.Moves move (Option.map (Stmt.relocate move)) inner.alternative inner.alternative := by
  refine moves_bind_same skipToElse_moves fun _ => ?_
  refine moves_bind_same (moves_accept .kwElse) fun found => moves_ite ?_ (moves_pure rfl)
  refine moves_bind_same moves_token fun token => moves_ite ?_ ?_
  · exact moves_map moves.ifStatement fun _ => rfl
  · exact moves_map (body_moves moves) fun _ => rfl

theorem ifThenElse_moves (steady : move.Steady) (moves : inner.Moves move) :
    Parser.Moves move (Stmt.relocate move) inner.ifThenElse inner.ifThenElse := by
  refine moves_bind moves_current fun lexeme => moves_bind_same moves_advance fun _ => ?_
  rw [Lexeme.span_relocate]
  refine moves_bind (assignment_moves steady moves) fun test => ?_
  refine moves_bind (body_moves moves) fun whenTrue => ?_
  refine moves_bind (alternative_moves moves) fun whenFalse => ?_
  refine moves_bind (moves_spanFrom _) fun span => moves_pure ?_
  rw [Stmt.relocate, Stmt.relocate?_eq_map]

theorem whileLoop_moves (steady : move.Steady) (moves : inner.Moves move) :
    Parser.Moves move (Stmt.relocate move) inner.whileLoop inner.whileLoop := by
  refine moves_bind moves_current fun lexeme => moves_bind_same moves_advance fun _ => ?_
  rw [Lexeme.span_relocate]
  refine moves_bind (assignment_moves steady moves) fun test => ?_
  refine moves_bind (body_moves moves) fun repeated => ?_
  exact moves_bind (moves_spanFrom _) fun span => moves_pure rfl

theorem declaredVariable_moves :
    Parser.Moves move (Variable.relocate move) declaredVariable declaredVariable := by
  refine moves_bind moves_current fun lexeme => moves_bind_same moves_currentFrame fun frame => ?_
  rw [Lexeme.span_relocate, Lexeme.lit_relocate]
  refine moves_bind_same (moves_declare ⟨lexeme.span, lexeme.lit, frame⟩) fun _ => ?_
  exact moves_bind_same moves_advance fun _ => moves_pure rfl

theorem skipToBrace_moves : Parser.Moves move id skipToBrace skipToBrace := by
  refine moves_loop id id (fun _ => ?_) ()
  refine moves_bind_same moves_token fun token => ?_
  split
  · exact moves_pure rfl
  · exact moves_pure rfl
  · exact moves_pure rfl
  · exact moves_pure rfl
  · exact moves_bind_same moves_advance fun _ => moves_pure rfl

theorem loopSource_moves (steady : move.Steady) (moves : inner.Moves move) :
    Parser.Moves move (Expr.relocate move) inner.loopSource inner.loopSource := by
  refine moves_bind_same (moves_accept .kwIn) fun found => ?_
  exact moves_ite (assignment_moves steady moves) (moves_missing _)

theorem loopHead_moves (steady : move.Steady) (moves : inner.Moves move) :
    Parser.Moves move
      (Prod.map (Option.map (Variable.relocate move))
        (Prod.map (Option.map (Variable.relocate move)) (Expr.relocate move)))
      inner.loopHead inner.loopHead := by
  refine moves_bind_same moves_token fun token => moves_ite ?_ ?_
  · exact moves_bind (moves_missing _) fun source => moves_pure rfl
  refine moves_bind declaredVariable_moves fun first => ?_
  refine moves_bind_same (moves_accept .comma) fun found => moves_ite ?_ ?_
  · refine moves_bind_same moves_token fun token => moves_ite ?_ ?_
    · refine moves_bind declaredVariable_moves fun second => ?_
      exact moves_bind (loopSource_moves steady moves) fun source => moves_pure rfl
    · exact moves_bind (moves_missing _) fun source => moves_pure rfl
  · exact moves_bind (loopSource_moves steady moves) fun source => moves_pure rfl

theorem forLoop_moves (steady : move.Steady) (moves : inner.Moves move) :
    Parser.Moves move (Stmt.relocate move) inner.forLoop inner.forLoop := by
  refine moves_bind moves_current fun lexeme => moves_bind_same moves_advance fun _ => ?_
  rw [Lexeme.span_relocate]
  refine moves_bind (loopHead_moves steady moves) fun head => ?_
  refine moves_bind_same skipToBrace_moves fun _ => moves_bind (body_moves moves) fun repeated => ?_
  exact moves_bind (moves_spanFrom _) fun span => moves_pure rfl

theorem returnStatement_moves (steady : move.Steady) (moves : inner.Moves move) :
    Parser.Moves move (Stmt.relocate move) inner.returnStatement inner.returnStatement := by
  have result (start : Position) (value : Option Expr) : Parser.Moves move (Stmt.relocate move)
      (do return .returnValue (← spanFrom start) value)
      (do return .returnValue (← spanFrom (move start)) (value.map (Expr.relocate move))) := by
    refine moves_bind (moves_spanFrom _) fun span => moves_pure ?_
    rw [Stmt.relocate, Expr.relocate?_eq_map]
  refine moves_bind moves_current fun lexeme => moves_bind_same moves_advance fun _ => ?_
  rw [Lexeme.span_relocate]
  refine moves_bind_same moves_token fun token => ?_
  split
  · exact result _ none
  · exact result _ none
  · exact result _ none
  · exact moves_bind (moves_map (assignment_moves steady moves) fun _ => rfl) (result _)

theorem letStatement_moves (steady : move.Steady) (moves : inner.Moves move) :
    Parser.Moves move (Stmt.relocate move) inner.letStatement inner.letStatement := by
  have result (start : Position) (name : Variable) (value : Option Expr) :
      Parser.Moves move (Stmt.relocate move)
        (do return .letIn (← spanFrom start) name value)
        (do return .letIn (← spanFrom (move start)) (name.relocate move)
              (value.map (Expr.relocate move))) := by
    refine moves_bind (moves_spanFrom _) fun span => moves_pure ?_
    rw [Stmt.relocate, Expr.relocate?_eq_map]
  refine moves_bind moves_current fun lexeme => moves_bind_same moves_advance fun _ => ?_
  rw [Lexeme.span_relocate]
  refine moves_bind_same moves_token fun token => moves_ite ?_ ?_
  · exact moves_bind (moves_missing _) fun value => moves_pure rfl
  refine moves_bind declaredVariable_moves fun name => ?_
  refine moves_bind_same (moves_accept .assign) fun found => moves_ite ?_ ?_
  · exact moves_bind (moves_map (assignment_moves steady moves) fun _ => rfl) (result _ name)
  · exact result _ name none

/-! ## Statements -/

theorem statement_moves (steady : move.Steady) (moves : inner.Moves move) :
    Parser.Moves move (Stmt.relocate move) inner.statement inner.statement := by
  refine moves_bind_same moves_token fun token => ?_
  split
  · exact moves_map moves.block fun _ => rfl
  · exact ifThenElse_moves steady moves
  · exact whileLoop_moves steady moves
  · exact forLoop_moves steady moves
  · exact returnStatement_moves steady moves
  · exact moves_bind moves_skipLexeme fun span => moves_pure rfl
  · exact moves_bind moves_skipLexeme fun span => moves_pure rfl
  · exact letStatement_moves steady moves
  · exact moves_bind (assignment_moves steady moves) fun value => moves_pure rfl

theorem needsTerminator_relocate (statement : Stmt) :
    needsTerminator (statement.relocate move) = needsTerminator statement := by
  cases statement <;> rfl

theorem terminator_moves :
    Parser.Moves move (List.map (Stmt.relocate move)) terminator terminator := by
  refine moves_bind_same moves_token fun token => ?_
  split
  · exact moves_bind_same moves_advance fun _ => moves_pure rfl
  · exact moves_pure rfl
  · exact moves_pure rfl
  · exact moves_bind (moves_bad _) fun excess => moves_pure rfl

theorem statements_moves (steady : move.Steady) (moves : inner.Moves move) (inBlock : Bool) :
    Parser.Moves move (Prod.map (List.map (Stmt.relocate move)) id) (inner.statements inBlock)
      (inner.statements inBlock) := by
  refine moves_loop (List.map (Stmt.relocate move)) _ (fun soFar => ?_) []
  refine moves_bind_same moves_token fun token => ?_
  split
  · exact moves_bind_same moves_advance fun _ => moves_pure rfl
  · exact moves_pure rfl
  · refine moves_ite (moves_pure rfl) (moves_bind_same moves_remaining fun before => ?_)
    refine moves_bind (statement_moves steady moves) fun first => ?_
    refine moves_bind_same moves_remaining fun left => ?_
    have rest (first : Stmt) : Parser.Moves move
        (Round.map (List.map (Stmt.relocate move))
          (Prod.map (List.map (Stmt.relocate move)) (id : Bool → Bool)))
        (do
          let rest ← if needsTerminator first then terminator else pure []
          return .again (soFar ++ first :: rest))
        (do
          let rest ← if needsTerminator (first.relocate move) then terminator else pure []
          return .again (soFar.map (Stmt.relocate move) ++ first.relocate move :: rest)) := by
      rw [needsTerminator_relocate]
      refine moves_ite ?_ (moves_pure ?_)
      · refine moves_bind terminator_moves fun rest => moves_pure ?_
        simp [Round.map]
      · simp [Round.map]
    refine moves_ite ?_ (rest first)
    exact moves_bind (moves_map (moves_bad _) fun _ => rfl) rest

theorem braces_moves (steady : move.Steady) (moves : inner.Moves move) :
    Parser.Moves move (Block.relocate move) inner.braces inner.braces := by
  refine moves_bind moves_current fun lexeme => moves_bind_same moves_advance fun _ => ?_
  rw [Lexeme.span_relocate]
  refine moves_bind (statements_moves steady moves true) fun found => ?_
  obtain ⟨list, closed⟩ := found
  refine moves_ite ?_ ?_
  · refine moves_bind_same moves_advance fun _ => moves_bind (moves_spanFrom _) fun span => ?_
    refine moves_pure ?_
    rw [Block.relocate, Stmt.relocateAll_eq_map]
  · refine moves_bind (moves_missing _) fun last => moves_bind (moves_spanFrom _) fun span => ?_
    refine moves_pure ?_
    rw [Block.relocate, Stmt.relocateAll_eq_map, List.map_append]
    rfl

/-! ## Grammars -/

theorem Moves.extend (steady : move.Steady) (moves : inner.Moves move) : inner.extend.Moves move where
  expr := assignment_moves steady moves
  lambda := function_moves steady moves
  unary := signed_moves steady moves
  markup := element_moves steady moves
  block := braces_moves steady moves
  ifStatement := ifThenElse_moves steady moves
  whole := entire_moves steady moves

theorem moves_ofDepth (steady : move.Steady) (depth : Nat) : (ofDepth depth).Moves move := by
  induction depth with
  | zero =>
      exact ⟨moves_failure, moves_failure, moves_failure, moves_failure, moves_failure, moves_failure,
        moves_failure⟩
  | succ depth inductionHypothesis => exact inductionHypothesis.extend steady

end Grammar

end Reckon
