import Reckon.Proofs.Parsing.IgnoresExpression

/-!
# Markup and statements ignore what is behind them

The parsers of markup and of statements do not notice a semicolon behind the lexeme at which they stop.
Markup from which nothing is missing ends with a closing sign, and then the semicolon may stand right
behind that.
-/

namespace Reckon

namespace Grammar

open Reckon.Parser

variable {gap : Gap} {first second : Grammar}

/-! ## Tags and attributes -/

theorem componentPath_ignores (head : Variable) :
    Parser.Ignores gap (componentPath head) (componentPath head) := by
  refine ignores_loop (fun owner => ?_) _
  refine ignores_followed .dot (by decide) ?_ (ignores_pure _)
  refine ignores_bind (ignoresUpTo_advance 1) fun _ => ?_
  exact ignores_bind identifierRead_ignores fun _ => ignores_pure _

theorem plainPath_ignores (head : Identifier) :
    Parser.Ignores gap (plainPath head) (plainPath head) := by
  refine ignores_loop (fun path => ?_) _
  refine ignores_followed .dot (by decide) ?_ (ignores_pure _)
  refine ignores_bind (ignoresUpTo_advance 1) fun _ => ?_
  exact ignores_bind identifierRead_ignores fun _ => ignores_pure _

theorem tag_ignores : Parser.Ignores gap tag tag := by
  refine ignores_bind ignores_current fun _ => ignores_ite (fun _ => ?_) fun _ =>
    ignores_ite (fun _ => ?_) fun _ => ?_
  · exact ignores_bind ignores_here fun _ => ignores_pure _
  · exact ignores_bind variableRead_ignores componentPath_ignores
  · refine ignores_bind identifierRead_ignores fun name => ?_
    exact ignores_bind (plainPath_ignores name) fun _ => ignores_pure _

/-- A closing brace is read, and a missing one is reported. -/
theorem braced_ignores (ignores : first.Ignores gap second) :
    IgnoresUpTo gap 1 Expr.lookahead first.braced second.braced := by
  refine ignores_bind ignores_advance fun _ => ignores_bind ignores.expr fun value => ?_
  refine ignores_bind (ignoresUpTo_accept _) fun accepted => ?_
  cases accepted with
  | true => exact ignoresUpTo_pure (Nat.zero_le _)
  | false =>
      have reported (span : Span) : 1 ≤ (Expr.invalid span .braceExpected).lookahead :=
        Nat.le_of_eq (Expr.lookahead_of_ne (diagnostics_invalid_ne_nil span _)).symm
      have missing : IgnoresUpTo gap 1 Expr.lookahead (missing .braceExpected) (missing .braceExpected) :=
        ignores_bind ignores_here fun span => ignoresUpTo_pure (reported span)
      exact ignores_bind missing fun last => ignoresUpTo_pure (Expr.lookahead_le_join value last)

theorem attributeValue?_ignores (ignores : first.Ignores gap second) :
    Parser.Ignores gap first.attributeValue? second.attributeValue? := by
  refine ignores_bind ignores_token fun _ => ?_
  split
  · refine ignores_bind ignores_current fun _ => ?_
    exact ignores_bind (literal_ignores _) fun _ => ignores_pure _
  · exact ignores_bind number_ignores fun _ => ignores_pure _
  · exact ignores_bind (template_ignores ignores) fun _ => ignores_pure _
  · have value := (braced_ignores ignores).mono (Nat.le_refl 1) Expr.lookahead_le
    exact ignores_bind value fun _ => ignores_pure _
  · exact ignores_pure _

theorem attributeEntry_ignores (ignores : first.Ignores gap second) :
    Parser.Ignores gap first.attributeEntry second.attributeEntry := by
  refine ignores_bind ignores_current fun _ => ignores_bind ignores_advance fun _ => ?_
  refine ignores_bind (ignores_accept .assign) fun _ => ignores_ite (fun _ => ?_) fun _ => ?_
  · refine ignores_bind (attributeValue?_ignores ignores) fun value => ?_
    cases value with
    | none => exact ignores_bind ignores_skipLexeme fun _ => ignores_pure _
    | some value => exact ignores_bind (ignores_spanFrom _) fun _ => ignores_pure _
  · exact ignores_bind (ignores_spanFrom _) fun _ => ignores_pure _

/-- How many lexemes are looked at behind an opening tag: none if it ends with `>`. -/
def TagEnd.lookahead : TagEnd → Nat
  | .opened | .closed => 0
  | .broken => 1

theorem attributes_ignores (ignores : first.Ignores gap second) :
    IgnoresUpTo gap 1 (fun found => found.2.lookahead) first.attributes second.attributes := by
  refine ignoresUpTo_loop (fun soFar => ?_) []
  refine ignores_bind ignores_token fun _ => ?_
  split
  · exact ignores_bind (attributeEntry_ignores ignores) fun _ => ignoresUpTo_pure (Nat.le_refl 1)
  · refine ignores_bind ignores_advance fun _ => ignores_bind (ignoresUpTo_accept _) fun accepted => ?_
    cases accepted with
    | true => exact ignoresUpTo_pure (Nat.le_refl 0)
    | false => exact ignoresUpTo_pure (Nat.le_refl 1)
  · exact ignores_bind (ignoresUpTo_advance 0) fun _ => ignoresUpTo_pure (Nat.le_refl 0)
  · exact ignoresUpTo_pure (Nat.le_refl 1)
  · exact ignores_bind ignores_skipLexeme fun _ => ignoresUpTo_pure (Nat.le_refl 1)

/-! ## Children -/

/-- A round of the loop over children, at a lexeme of some class. -/
def childrenRoundAt (inner : Grammar) (soFar : Children) :
    Token → Parser (Round Children (Option (List Expr)))
  | .eof => return .done none
  | .less => do
    if (← peekToken) = .slash then return .done (some soFar.all)
    else return .again (soFar.add (← inner.markup))
  | .leftBrace => do return .again (soFar.add (← inner.braced))
  | .string => do return .again (soFar.add (← literal (.string (← current).lit)))
  | .semicolon => do
    advance
    return .again soFar
  | _ => do
    let lexeme ← current
    advance
    return .again (soFar.addWord lexeme)

/-- A round of the loop over children. -/
def childrenRound (inner : Grammar) (soFar : Children) :
    Parser (Round Children (Option (List Expr))) := do
  inner.childrenRoundAt soFar (← token)

theorem children_eq (inner : Grammar) : inner.children = loop inner.childrenRound {} :=
  rfl

/-- The children that are finished have no diagnostics. -/
def Children.IsSound (children : Children) : Prop :=
  ∀ child ∈ children.finished, child.diagnostics = []

instance (children : Children) : Decidable children.IsSound :=
  inferInstanceAs (Decidable (∀ child ∈ children.finished, child.diagnostics = []))

/-- How many lexemes are looked at behind a round: a closing tag is known from two lexemes that are not
read, and a child ends with a sign of its own. -/
def roundLookahead : Round Children (Option (List Expr)) → Nat
  | .again soFar => if soFar.IsSound then 0 else 1
  | .done none => 1
  | .done (some _) => 2

theorem lookahead_le_of_add (soFar : Children) (child : Expr) :
    child.lookahead ≤ roundLookahead (.again (soFar.add child)) := by
  by_cases sound : child.diagnostics = []
  · rw [Expr.lookahead, if_pos sound]
    exact Nat.zero_le _
  · have unsound : ¬(soFar.add child).IsSound := fun all =>
      sound (all child (List.mem_append_right _ (List.mem_singleton_self child)))
    rw [Expr.lookahead_of_ne sound, roundLookahead, if_neg unsound]

theorem childrenRound_ignores (ignores : first.Ignores gap second) (soFar : Children) :
    IgnoresUpTo gap 1 roundLookahead (first.childrenRound soFar) (second.childrenRound soFar) := by
  refine ignores_bind ignores_token fun _ => ?_
  unfold childrenRoundAt
  split
  · exact ignoresUpTo_pure (Nat.le_refl 1)
  · refine ignores_peek (by decide) (ignoresUpTo_pure (Nat.le_refl 2)) ?_
    have child := ignores.markup.mono (Nat.le_succ 1) fun _ => Nat.le_refl _
    exact ignores_bind child fun child => ignoresUpTo_pure (lookahead_le_of_add soFar child)
  · exact ignores_bind (braced_ignores ignores) fun child =>
      ignoresUpTo_pure (lookahead_le_of_add soFar child)
  · refine ignores_bind ignores_current fun _ => ?_
    exact ignores_bind (literal_ignoresUpTo 0 _) fun _ => ignoresUpTo_pure (Nat.zero_le _)
  · exact ignores_bind (ignoresUpTo_advance 0) fun _ => ignoresUpTo_pure (Nat.zero_le _)
  · refine ignores_bind ignores_current fun _ => ?_
    exact ignores_bind (ignoresUpTo_advance 0) fun _ => ignoresUpTo_pure (Nat.zero_le _)

/-- How many lexemes are looked at behind children: the two that start a closing tag. -/
def childrenLookahead : Option (List Expr) → Nat
  | none => 1
  | some _ => 2

theorem childrenRound_ignores_looped (ignores : first.Ignores gap second) (soFar : Children) :
    IgnoresUpTo gap 1 (Round.lookahead 1 childrenLookahead) (first.childrenRound soFar)
      (second.childrenRound soFar) := by
  refine (childrenRound_ignores ignores soFar).mono (Nat.le_refl 1) fun outcome => ?_
  match outcome with
  | .again soFar =>
      change (if soFar.IsSound then 0 else 1) ≤ 1
      split <;> decide
  | .done none | .done (some _) => exact Nat.le_refl _

theorem children_ignores (ignores : first.Ignores gap second) :
    IgnoresUpTo gap 1 childrenLookahead first.children second.children :=
  ignoresUpTo_loop (childrenRound_ignores_looped ignores) _

/-! ## Elements -/

theorem skipClosingTag_ignores : Parser.Ignores gap skipClosingTag skipClosingTag := by
  refine ignores_bind (ignores_loop (fun _ => ?_) ()) fun _ => ?_
  · refine ignores_bind ignores_token fun _ => ignores_bind ignores_token fun _ => ?_
    refine ignores_ite (fun _ => ignores_pure _) fun _ => ?_
    exact ignores_bind ignores_advance fun _ => ignores_pure _
  · exact ignores_bind (ignores_accept _) fun _ => ignores_pure _

/-- The end of an element after its children: a closing tag, or the report that it is missing. -/
def closing (start : Position) (opening : Expr) (entries : List Entry) :
    Option (List Expr) → Parser Expr
  | none => do return .invalid (← spanFrom start) .elementNotClosed
  | some list => do
    advance
    advance
    let closing ← tag
    if ← accept .greater then
      let span ← spanFrom start
      if closing.tagPath = opening.tagPath then return .markup span opening entries list
      else return .invalid span .elementTagMismatch
    else
      return .invalid (← spanFrom start) .elementNotClosed

theorem invalid_ignores (start : Position) (defect : Defect) :
    IgnoresUpTo gap 1 Expr.lookahead (do return .invalid (← spanFrom start) defect)
      (do return .invalid (← spanFrom start) defect) :=
  ignores_bind (ignores_spanFrom start) fun span => ignoresUpTo_pure
    (Nat.le_of_eq (Expr.lookahead_of_ne (diagnostics_invalid_ne_nil span defect)).symm)

theorem closing_ignores (start : Position) (opening : Expr) (entries : List Entry)
    (found : Option (List Expr)) :
    IgnoresUpTo gap (childrenLookahead found) Expr.lookahead (closing start opening entries found)
      (closing start opening entries found) := by
  cases found with
  | none => exact invalid_ignores start _
  | some list =>
      refine IgnoresUpTo.mono ?_ (Nat.le_succ 2) fun _ => Nat.le_refl _
      refine ignores_bind (ignoresUpTo_advance 2) fun _ => ignores_bind (ignoresUpTo_advance 1) fun _ => ?_
      refine ignores_bind tag_ignores fun _ => ignores_bind (ignoresUpTo_accept _) fun accepted => ?_
      cases accepted with
      | true =>
          refine ignores_bind (ignoresUpTo_spanFrom 0 start) fun span => ignores_ite (fun _ => ?_) fun _ => ?_
          · exact ignoresUpTo_pure (Nat.zero_le _)
          · exact ignoresUpTo_pure (Nat.zero_le _)
      | false => exact invalid_ignores start _

theorem element_ignores (ignores : first.Ignores gap second) :
    IgnoresUpTo gap 2 Expr.lookahead first.element second.element := by
  refine ignores_bind (ignoresUpTo_current (Nat.succ_pos 1)) fun lexeme => ?_
  refine ignores_bind (ignoresUpTo_advance 1) fun _ => ignores_bind ignores_token fun _ => ?_
  refine ignores_ite (fun _ => ?_) fun _ => ?_
  · exact ignores_bind skipClosingTag_ignores fun _ => invalid_ignores _ _
  · refine ignores_bind tag_ignores fun opening => ?_
    refine ignores_bind (attributes_ignores ignores) fun found => ?_
    obtain ⟨entries, tagEnd⟩ := found
    cases tagEnd with
    | broken => exact invalid_ignores _ _
    | closed =>
        refine ignores_bind (ignoresUpTo_spanFrom 0 _) fun _ => ?_
        exact ignoresUpTo_pure (Nat.zero_le _)
    | opened =>
        have children := (children_ignores ignores).mono (Nat.zero_le 1) fun _ => Nat.le_refl _
        refine ignores_bind children fun found => ?_
        have rest := @closing_ignores gap lexeme.span.start opening entries found
        cases found with
        | none => exact rest
        | some list => exact rest

/-! ## Parts of statements -/

theorem body_ignores (ignores : first.Ignores gap second) :
    Parser.Ignores gap first.body second.body := by
  refine ignores_bind ignores_token fun _ => ignores_ite (fun _ => ignores.block) fun _ => ?_
  exact ignores_bind ignores_here fun _ => ignores_pure _

theorem skipToElse_ignores : Parser.Ignores gap skipToElse skipToElse :=
  ignores_followed .semicolon (by decide) (ignoresUpTo_advance 1) (ignores_pure _)

theorem alternative_ignores (ignores : first.Ignores gap second) :
    Parser.Ignores gap first.alternative second.alternative := by
  refine ignores_bind skipToElse_ignores fun _ => ignores_bind (ignores_accept _) fun _ => ?_
  refine ignores_ite (fun _ => ?_) fun _ => ignores_pure _
  refine ignores_bind ignores_token fun _ => ignores_ite (fun _ => ?_) fun _ => ?_
  · exact ignores_map ignores.ifStatement
  · exact ignores_map (body_ignores ignores)

theorem ifThenElse_ignores (ignores : first.Ignores gap second) :
    Parser.Ignores gap first.ifThenElse second.ifThenElse := by
  refine ignores_bind ignores_current fun _ => ignores_bind ignores_advance fun _ => ?_
  refine ignores_bind (assignment_ignores ignores) fun _ => ?_
  refine ignores_bind (body_ignores ignores) fun _ => ?_
  refine ignores_bind (alternative_ignores ignores) fun _ => ?_
  exact ignores_bind (ignores_spanFrom _) fun _ => ignores_pure _

theorem whileLoop_ignores (ignores : first.Ignores gap second) :
    Parser.Ignores gap first.whileLoop second.whileLoop := by
  refine ignores_bind ignores_current fun _ => ignores_bind ignores_advance fun _ => ?_
  refine ignores_bind (assignment_ignores ignores) fun _ => ?_
  refine ignores_bind (body_ignores ignores) fun _ => ?_
  exact ignores_bind (ignores_spanFrom _) fun _ => ignores_pure _

theorem declaredVariable_ignores : Parser.Ignores gap declaredVariable declaredVariable := by
  refine ignores_bind ignores_current fun _ => ignores_bind ignores_currentFrame fun _ => ?_
  refine ignores_bind (ignores_declare _) fun _ => ?_
  exact ignores_bind ignores_advance fun _ => ignores_pure _

theorem skipToBrace_ignores : Parser.Ignores gap skipToBrace skipToBrace := by
  refine ignores_loop (fun _ => ignores_bind ignores_token fun _ => ?_) ()
  split
  · exact ignores_pure _
  · exact ignores_pure _
  · exact ignores_pure _
  · exact ignores_pure _
  · exact ignores_bind ignores_advance fun _ => ignores_pure _

theorem loopSource_ignores (ignores : first.Ignores gap second) :
    Parser.Ignores gap first.loopSource second.loopSource := by
  refine ignores_bind (ignores_accept .kwIn) fun _ => ?_
  exact ignores_ite (fun _ => assignment_ignores ignores) fun _ => ignores_missing _

theorem loopHead_ignores (ignores : first.Ignores gap second) :
    Parser.Ignores gap first.loopHead second.loopHead := by
  refine ignores_bind ignores_token fun _ => ignores_ite (fun _ => ?_) fun _ => ?_
  · exact ignores_bind (ignores_missing _) fun _ => ignores_pure _
  refine ignores_bind declaredVariable_ignores fun _ => ignores_bind (ignores_accept .comma) fun _ => ?_
  refine ignores_ite (fun _ => ?_) fun _ => ?_
  · refine ignores_bind ignores_token fun _ => ignores_ite (fun _ => ?_) fun _ => ?_
    · refine ignores_bind declaredVariable_ignores fun _ => ?_
      exact ignores_bind (loopSource_ignores ignores) fun _ => ignores_pure _
    · exact ignores_bind (ignores_missing _) fun _ => ignores_pure _
  · exact ignores_bind (loopSource_ignores ignores) fun _ => ignores_pure _

theorem forLoop_ignores (ignores : first.Ignores gap second) :
    Parser.Ignores gap first.forLoop second.forLoop := by
  refine ignores_bind ignores_current fun _ => ignores_bind ignores_advance fun _ => ?_
  refine ignores_bind (loopHead_ignores ignores) fun _ => ignores_bind skipToBrace_ignores fun _ => ?_
  refine ignores_bind (body_ignores ignores) fun _ => ?_
  exact ignores_bind (ignores_spanFrom _) fun _ => ignores_pure _

theorem returnStatement_ignores (ignores : first.Ignores gap second) :
    Parser.Ignores gap first.returnStatement second.returnStatement := by
  have result (start : Position) (value : Option Expr) : Parser.Ignores (α := Stmt) gap
      (do return .returnValue (← spanFrom start) value)
      (do return .returnValue (← spanFrom start) value) :=
    ignores_bind (ignores_spanFrom _) fun _ => ignores_pure _
  refine ignores_bind ignores_current fun _ => ignores_bind ignores_advance fun _ => ?_
  refine ignores_bind ignores_token fun _ => ?_
  split
  · exact result _ none
  · exact result _ none
  · exact result _ none
  · exact ignores_bind (ignores_map (assignment_ignores ignores)) (result _)

theorem letStatement_ignores (ignores : first.Ignores gap second) :
    Parser.Ignores gap first.letStatement second.letStatement := by
  have result (start : Position) (name : Variable) (value : Option Expr) :
      Parser.Ignores (α := Stmt) gap (do return .letIn (← spanFrom start) name value)
        (do return .letIn (← spanFrom start) name value) :=
    ignores_bind (ignores_spanFrom _) fun _ => ignores_pure _
  refine ignores_bind ignores_current fun _ => ignores_bind ignores_advance fun _ => ?_
  refine ignores_bind ignores_token fun _ => ignores_ite (fun _ => ?_) fun _ => ?_
  · exact ignores_bind (ignores_missing _) fun _ => ignores_pure _
  refine ignores_bind declaredVariable_ignores fun name => ?_
  refine ignores_bind (ignores_accept .assign) fun _ => ignores_ite (fun _ => ?_) fun _ => ?_
  · exact ignores_bind (ignores_map (assignment_ignores ignores)) (result _ name)
  · exact result _ name none

/-! ## Statements -/

theorem statement_ignores (ignores : first.Ignores gap second) :
    Parser.Ignores gap first.statement second.statement := by
  refine ignores_bind ignores_token fun _ => ?_
  split
  · exact ignores_map ignores.block
  · exact ifThenElse_ignores ignores
  · exact whileLoop_ignores ignores
  · exact forLoop_ignores ignores
  · exact returnStatement_ignores ignores
  · exact ignores_bind ignores_skipLexeme fun _ => ignores_pure _
  · exact ignores_bind ignores_skipLexeme fun _ => ignores_pure _
  · exact letStatement_ignores ignores
  · exact ignores_bind (assignment_ignores ignores) fun _ => ignores_pure _

theorem terminator_ignores : Parser.Ignores gap terminator terminator := by
  refine ignores_bind ignores_token fun _ => ?_
  split
  · exact ignores_bind ignores_advance fun _ => ignores_pure _
  · exact ignores_pure _
  · exact ignores_pure _
  · exact ignores_bind (ignores_bad _) fun _ => ignores_pure _

theorem statements_ignores (ignores : first.Ignores gap second) (inBlock : Bool) :
    Parser.Ignores gap (first.statements inBlock) (second.statements inBlock) := by
  refine ignores_loop (fun soFar => ignores_bind ignores_token fun _ => ?_) []
  split
  · exact ignores_bind ignores_advance fun _ => ignores_pure _
  · exact ignores_pure _
  · refine ignores_ite (fun _ => ignores_pure _) fun _ => ?_
    have rest (read : Stmt) : Parser.Ignores (α := Round (List Stmt) (List Stmt × Bool)) gap
        (do
          let rest ← if needsTerminator read then terminator else pure []
          return .again (soFar ++ read :: rest))
        (do
          let rest ← if needsTerminator read then terminator else pure []
          return .again (soFar ++ read :: rest)) := by
      refine ignores_ite (fun _ => ?_) fun _ => ignores_pure _
      exact ignores_bind terminator_ignores fun _ => ignores_pure _
    refine ignores_measured (statement_ignores ignores) (fun _ => ?_) rest
    exact ignores_bind (ignores_map (ignores_bad _)) rest

theorem braces_ignores (ignores : first.Ignores gap second) :
    Parser.Ignores gap first.braces second.braces := by
  refine ignores_bind ignores_current fun _ => ignores_bind ignores_advance fun _ => ?_
  refine ignores_bind (statements_ignores ignores true) fun _ => ignores_ite (fun _ => ?_) fun _ => ?_
  · refine ignores_bind ignores_advance fun _ => ?_
    exact ignores_bind (ignores_spanFrom _) fun _ => ignores_pure _
  · refine ignores_bind (ignores_missing _) fun _ => ?_
    exact ignores_bind (ignores_spanFrom _) fun _ => ignores_pure _

/-! ## Grammars -/

theorem Ignores.extend (ignores : first.Ignores gap second) :
    first.extend.Ignores gap second.extend where
  expr := assignment_ignores ignores
  lambda := function_ignores ignores
  unary := signed_ignores ignores
  markup := element_ignores ignores
  block := braces_ignores ignores
  ifStatement := ifThenElse_ignores ignores
  whole := (entire_ignores ignores).same

/-- A deeper grammar does what a grammar does, whatever stands behind. -/
theorem ignores_ofDepth (gap : Gap) {depth deeper : Nat} (le : depth ≤ deeper) :
    (ofDepth depth).Ignores gap (ofDepth deeper) := by
  induction depth generalizing deeper with
  | zero =>
      exact ⟨ignores_failure, ignores_failure, ignores_failure, ignores_failure, ignores_failure,
        ignores_failure, nofun⟩
  | succ depth inductionHypothesis =>
      obtain ⟨deeper, rfl⟩ := Nat.exists_eq_succ_of_ne_zero (Nat.ne_zero_of_lt le)
      exact (inductionHypothesis (Nat.le_of_succ_le_succ le)).extend

/-- What a grammar makes of a source is what a deeper one makes of it. -/
theorem entire_deeper {depth deeper : Nat} (le : depth ≤ deeper) {state : ParseState}
    {found : Expr × ParseState} (ran : (ofDepth depth).entire state = some found) :
    (ofDepth deeper).entire state = some found :=
  (entire_ignores (ignores_ofDepth default le)).same ran

end Grammar

end Reckon
