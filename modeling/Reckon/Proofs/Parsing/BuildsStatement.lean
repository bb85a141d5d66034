import Reckon.Proofs.Parsing.BuildsMarkup
import Reckon.Proofs.Parsing.ReadsStatement

/-!
# Parsing statements builds trees

A statement is built from its parts.  Between the head of a `for` loop and its block lexemes are passed
over.  A statement that reads nothing is dropped, and the lexeme there becomes an invalid one.

So every grammar of a depth builds trees, and the tree of a source is derived from its lexemes.
-/

namespace Reckon

namespace Grammar

open Reckon.Parser ParseState

variable {inner : Grammar} {first state : ParseState}

/-- The parser builds one statement. -/
abbrev BuildsStmt (parser : Parser Stmt) (state : ParseState) : Prop :=
  parser.Ensures state fun tree after => state.Builds [.stmt tree] after

/-- The parser builds one block. -/
abbrev BuildsBlock (parser : Parser Block) (state : ParseState) : Prop :=
  parser.Ensures state fun tree after => state.Builds [.stmt (.block tree)] after

/-- An expression is a statement. -/
theorem Builds.statement {tree : Expr} {after : ParseState} (built : first.Builds [.expr tree] after) :
    first.Builds [.stmt (.expr tree)] after :=
  .node built (List.cons_ne_nil _ _) rfl ⟨.inr ⟨_, rfl, rfl⟩, .inr ⟨_, rfl, rfl⟩⟩

/-! ## Conditionals and loops -/

theorem body_builds (builds : inner.Builds) : BuildsBlock inner.body state := by
  simp only [BuildsBlock, body, ensures_bind, ensures_token, ensures_ite, ensures_here, ensures_pure]
  refine ⟨fun brace => builds.block state brace, fun _ => ?_⟩
  exact .node (Builds.statement (.missing state _)) (List.cons_ne_nil _ _) rfl
    ⟨.inl rfl, .inr ⟨_, rfl, rfl⟩⟩

theorem body_after (builds : inner.Builds) {trees : List Node} (before : first.Builds trees state) :
    inner.body.Ensures state fun tree after => first.Builds (trees ++ [.stmt (.block tree)]) after :=
  (body_builds builds).mono fun _ _ built => before.and built

theorem skipToElse_builds {trees : List Node} (before : first.Builds trees state) :
    skipToElse.Ensures state fun _ after => first.Builds trees after := by
  simp only [skipToElse, ensures_bind, ensures_token, ensures_peekToken, ensures_ite,
    ensures_advance, ensures_pure]
  exact ⟨fun newline => before.sign (isSign_of_eq newline.1 rfl), fun _ => before⟩

theorem alternative_builds (builds : inner.Builds) {trees : List Node}
    (before : first.Builds trees state) :
    inner.alternative.Ensures state fun found after =>
      first.Builds (trees ++ found.toList.map .stmt) after := by
  simp only [alternative, ensures_bind]
  refine (skipToElse_builds before).mono fun _ middle built => ?_
  simp only [ensures_accept, ensures_ite, ensures_bind, ensures_token, ensures_map, ensures_pure,
    accepted_iff, refused_iff]
  refine ⟨fun keyword => ⟨fun isIf => ?_, fun _ => ?_⟩, fun _ => by simpa using built⟩
  · have otherwise := built.sign (isSign_of_eq keyword rfl)
    exact (builds.ifStatement _ isIf).mono fun _ _ tree => otherwise.and tree
  · exact body_after builds (built.sign (isSign_of_eq keyword rfl))

theorem ifThenElse_builds (builds : inner.Builds) (keyword : state.token = .kwIf) :
    BuildsStmt inner.ifThenElse state := by
  have opened : state.Builds [] state.advance := Derives.sign (isSign_of_eq keyword rfl)
  simp only [BuildsStmt, ifThenElse, ensures_bind, ensures_current, ensures_advance,
    ensures_spanFrom, ensures_pure]
  refine ((assignment_builds builds).after opened).mono fun test middle tested => ?_
  refine (body_after builds tested).mono fun whenTrue last taken => ?_
  refine (alternative_builds builds taken).mono fun whenFalse after built => ?_
  cases whenFalse <;> exact .node built (List.cons_ne_nil _ _) rfl ⟨.inl rfl, .inl rfl⟩

theorem whileLoop_builds (builds : inner.Builds) (keyword : state.token = .kwWhile) :
    BuildsStmt inner.whileLoop state := by
  have opened : state.Builds [] state.advance := Derives.sign (isSign_of_eq keyword rfl)
  simp only [BuildsStmt, whileLoop, ensures_bind, ensures_current, ensures_advance,
    ensures_spanFrom, ensures_pure]
  refine ((assignment_builds builds).after opened).mono fun test middle tested => ?_
  exact (body_after builds tested).mono fun repeated after built =>
    .node built (List.cons_ne_nil _ _) rfl ⟨.inl rfl, .inl rfl⟩

@[simp]
theorem ensures_declaredVariable (post : Variable → ParseState → Prop) :
    declaredVariable.Ensures state post ↔ post state.declaration state.declare := by
  simp only [declaredVariable, ensures_bind, ensures_current, ensures_currentFrame, ensures_declare,
    ensures_advance, ensures_pure]
  rfl

theorem skipToBrace_skips (before : Skips first state) :
    skipToBrace.Ensures state fun _ after => Skips first after := by
  refine loop_ensures (fun _ middle => Skips first middle) before fun _ middle skipped => ?_
  simp only [ensures_bind, ensures_token]
  split
  iterate 4
    rw [ensures_pure]
    exact skipped
  simp only [ensures_bind, ensures_advance, ensures_pure]
  exact .more skipped

theorem loopSource_builds (builds : inner.Builds) {trees : List Node}
    (before : first.Builds trees state) :
    inner.loopSource.Ensures state fun source after =>
      first.Builds (trees ++ [.expr source]) after := by
  simp only [loopSource, ensures_bind, ensures_accept, ensures_ite, ensures_missing, accepted_iff,
    refused_iff]
  refine ⟨fun keyword => ?_, fun _ => ?_⟩
  · exact (assignment_builds builds).after (before.sign (isSign_of_eq keyword rfl))
  · exact before.and (.missing _ _)

theorem loopHead_builds (builds : inner.Builds) (before : first.Builds [] state)
    (same : state.scope = first.scope) :
    inner.loopHead.Ensures state fun found after =>
      first.Builds (variableNodes found.1.toList ++ variableNodes found.2.1.toList ++
          [.expr found.2.2]) after ∧
        ∀ name ∈ found.1.toList ++ found.2.1.toList, name.frame = first.scope.current := by
  have here : state.declaration.frame = first.scope.current := congrArg Scope.current same
  have next : state.declare.advance.declaration.frame = first.scope.current :=
    (state.scope.current_declare _ _).trans here
  simp only [loopHead, ensures_bind, ensures_token, ensures_ite, ensures_missing, ensures_pure,
    ensures_declaredVariable, ensures_accept, accepted_iff, refused_iff]
  refine ⟨fun _ => ⟨before.and (.missing _ _), List.forall_mem_nil _⟩, fun isName => ?_⟩
  have named := before.and (.declare (ne_eof_of_eq (not_not.mp isName) (by decide)))
  have alone : ∀ name ∈ [state.declaration], name.frame = first.scope.current :=
    List.forall_mem_singleton.mpr here
  refine ⟨fun comma => ⟨fun isName => ?_, fun _ => ?_⟩, fun _ => ?_⟩
  · have both := (named.sign (isSign_of_eq comma rfl)).and (.declare (ne_eof_of_eq isName (by decide)))
    exact (loopSource_builds builds both).mono fun _ _ built =>
      ⟨built, List.forall_mem_cons.mpr ⟨here, List.forall_mem_singleton.mpr next⟩⟩
  · exact ⟨(named.sign (isSign_of_eq comma rfl)).and (.missing _ _), alone⟩
  · exact (loopSource_builds builds named).mono fun _ _ built => ⟨built, alone⟩

theorem forLoop_builds (builds : inner.Builds) (keyword : state.token = .kwFor) :
    BuildsStmt inner.forLoop state := by
  have opened : state.Builds [] state.advance := Derives.sign (isSign_of_eq keyword rfl)
  simp only [BuildsStmt, forLoop, ensures_bind, ensures_current, ensures_advance]
  refine (loopHead_builds builds opened rfl).mono fun found middle head => ?_
  obtain ⟨key, value, source⟩ := found
  obtain ⟨head, declared⟩ := head
  simp only [ensures_spanFrom, ensures_pure]
  refine (skipToBrace_skips (.refl middle)).mono fun _ last skipped => ?_
  exact (body_builds builds).mono fun repeated after built => .loop head declared skipped built rfl

/-! ## Simple statements -/

theorem returnStatement_builds (builds : inner.Builds) (keyword : state.token = .kwReturn) :
    BuildsStmt inner.returnStatement state := by
  have opened : state.Builds [] state.advance := Derives.sign (isSign_of_eq keyword rfl)
  simp only [BuildsStmt, returnStatement, ensures_bind, ensures_current, ensures_advance,
    ensures_token]
  split
  iterate 3
    simp only [ensures_bind, ensures_pure, ensures_spanFrom]
    exact .enclosed (isSign_of_eq keyword rfl) (.nothing state.advance) rfl rfl
  simp only [ensures_bind, ensures_map, ensures_spanFrom, ensures_pure]
  exact ((assignment_builds builds).after opened).mono fun _ _ built =>
    .node built (List.cons_ne_nil _ _) rfl ⟨.inl rfl, .inl rfl⟩

theorem letStatement_builds (builds : inner.Builds) (keyword : state.token = .kwLet) :
    BuildsStmt inner.letStatement state := by
  have opened : state.Builds [] state.advance := Derives.sign (isSign_of_eq keyword rfl)
  simp only [BuildsStmt, letStatement, ensures_bind, ensures_current, ensures_advance,
    ensures_token, ensures_ite, ensures_missing, ensures_declaredVariable, ensures_accept,
    ensures_map, ensures_spanFrom, ensures_pure, accepted_iff, refused_iff]
  refine ⟨fun _ => Builds.statement (opened.and (.missing _ _)), fun isName => ?_⟩
  have named := opened.and (.declare (ne_eof_of_eq (not_not.mp isName) (by decide)))
  refine ⟨fun sign => ?_, fun _ => .letIn named rfl rfl⟩
  have defined := named.sign (isSign_of_eq sign rfl)
  exact ((assignment_builds builds).after defined).mono fun _ _ built => .letIn built rfl rfl

theorem jump_builds (kind : Jump) (isSign : state.token.isSign = true) :
    BuildsStmt (do return .jump (← skipLexeme) kind) state := by
  simp only [BuildsStmt, ensures_bind, ensures_skipLexeme, ensures_pure]
  exact .enclosed isSign (.nothing state.advance) rfl rfl

theorem statement_builds (builds : inner.Builds) : BuildsStmt inner.statement state := by
  simp only [BuildsStmt, statement, ensures_bind, ensures_token]
  split
  · next brace =>
    rw [ensures_map]
    exact builds.block state brace
  · next keyword => exact ifThenElse_builds builds keyword
  · next keyword => exact whileLoop_builds builds keyword
  · next keyword => exact forLoop_builds builds keyword
  · next keyword => exact returnStatement_builds builds keyword
  · next keyword => exact jump_builds _ (isSign_of_eq keyword rfl)
  · next keyword => exact jump_builds _ (isSign_of_eq keyword rfl)
  · next keyword => exact letStatement_builds builds keyword
  · simp only [ensures_bind, ensures_pure]
    exact (assignment_builds builds).mono fun _ _ => Builds.statement

/-! ## Lists of statements -/

theorem terminator_builds {trees : List Node} (before : first.Builds trees state) :
    terminator.Ensures state fun rest after => first.Builds (trees ++ rest.map .stmt) after := by
  simp only [terminator, ensures_bind, ensures_token]
  split
  · next semicolon =>
    simp only [ensures_bind, ensures_advance, ensures_pure]
    simpa using before.sign (isSign_of_eq semicolon rfl)
  · simpa using before
  · simpa using before
  · simp only [ensures_bind, ensures_bad, ensures_pure]
    exact before.and (Builds.statement (.bad _ (.nothing _)))

/-- A statement after others, with its end. -/
theorem terminated_builds {soFar : List Stmt} {tree : Stmt}
    (before : first.Builds ((soFar ++ [tree]).map .stmt) state) :
    (needsTerminator tree = true →
      terminator.Ensures state fun rest after =>
        first.Builds ((soFar ++ tree :: rest).map .stmt) after) ∧
    (¬needsTerminator tree = true → first.Builds ((soFar ++ [tree]).map .stmt) state) := by
  refine ⟨fun _ => ?_, fun _ => before⟩
  refine (terminator_builds before).mono fun rest after built => ?_
  rw [List.append_cons, List.map_append]
  exact built

theorem statements_build (builds : inner.Builds) (inBlock : Bool)
    (before : first.Builds [] state) :
    (inner.statements inBlock).Ensures state fun found after =>
      first.Builds (found.1.map .stmt) after ∧ (found.2 = true → after.token = .rightBrace) := by
  refine loop_ensures (fun soFar middle => first.Builds (soFar.map .stmt) middle) before ?_
  intro soFar middle built
  simp only [ensures_bind, ensures_token]
  split
  · next semicolon =>
    simp only [ensures_bind, ensures_advance, ensures_pure]
    exact built.sign (isSign_of_eq semicolon rfl)
  · rw [ensures_pure]
    exact ⟨built, Bool.noConfusion⟩
  · simp only [ensures_ite, ensures_bind, ensures_remaining, ensures_pure, ensures_map,
      ensures_bad, Round.Meets]
    refine ⟨fun closing => ⟨built, fun _ => closing.1⟩, fun _ => ?_⟩
    refine (statement_builds builds).mono fun tree after read => ⟨fun _ => ?_, fun _ => ?_⟩
    · exact terminated_builds (built.concat [] (Builds.statement (.bad _ read)))
    · exact terminated_builds (built.concat [] read)

theorem braces_builds (builds : inner.Builds) (brace : state.token = .leftBrace) :
    BuildsBlock inner.braces state := by
  have opened : state.token.isSign = true := isSign_of_eq brace rfl
  simp only [BuildsBlock, braces, ensures_bind, ensures_current, ensures_advance]
  refine (statements_build builds true (.nothing state.advance)).mono fun found after parsed => ?_
  obtain ⟨list, closed⟩ := found
  obtain ⟨built, closing⟩ := parsed
  simp only [ensures_ite, ensures_bind, ensures_advance, ensures_missing, ensures_spanFrom,
    ensures_pure]
  refine ⟨fun isClosed => ?_, fun _ => ?_⟩
  · exact .enclosed opened (built.sign (isSign_of_eq (closing isClosed) rfl)) rfl rfl
  · exact .enclosed opened (built.concat [] (Builds.statement (.missing _ _))) rfl rfl

/-! ## Grammars of a depth -/

theorem builds_bottom : bottom.Builds where
  expr _ := ensures_failure _
  lambda _ := ensures_failure _
  unary _ := ensures_failure _
  markup _ _ := ensures_failure _
  block _ _ := ensures_failure _
  ifStatement _ _ := ensures_failure _
  whole _ := ensures_failure _

theorem Builds.extend (builds : inner.Builds) : inner.extend.Builds where
  expr _ := assignment_builds builds
  lambda _ := function_builds builds
  unary _ := signed_builds builds
  markup _ less := element_builds builds less
  block _ brace := braces_builds builds brace
  ifStatement _ keyword := ifThenElse_builds builds keyword
  whole _ := entire_builds builds

theorem builds_ofDepth (depth : Nat) : (ofDepth depth).Builds := by
  induction depth with
  | zero => exact builds_bottom
  | succ depth inductionHypothesis => exact inductionHypothesis.extend

end Grammar

/-! ## Whole sources -/

namespace Parsed

open Grammar Reckon.Parser

/-- The tree of an expression is derived from all its lexemes, and its frames are those after them. -/
theorem expression_built (source : Nat) (lexemes : List Lexeme) :
    ∃ after, (ParseState.start lexemes { source }).Builds [.expr (expression source lexemes).tree]
      after ∧ after.Exhausts lexemes ∧ (expression source lexemes).scope = after.scope := by
  obtain ⟨tree, after, ran, -, exhausted⟩ := attempt_entire source lexemes
  have same : expression source lexemes = { tree, scope := after.scope } := by
    simp only [expression, Parsed.run, ran]
  rw [same]
  exact ⟨after, entire_builds (builds_ofDepth _) _ _ ran, exhausted, rfl⟩

theorem expression_builds (source : Nat) (lexemes : List Lexeme) :
    ∃ after, (ParseState.start lexemes { source }).Builds [.expr (expression source lexemes).tree]
      after ∧ after.Exhausts lexemes := by
  obtain ⟨after, built, exhausted, _⟩ := expression_built source lexemes
  exact ⟨after, built, exhausted⟩

/-- The trees of a list of statements are derived from all its lexemes, and their frames are those after
them. -/
theorem statements_built (source : Nat) (lexemes : List Lexeme) :
    ∃ after, (ParseState.start lexemes { source }).Builds
      ((statements source lexemes).tree.map .stmt) after ∧ after.Exhausts lexemes ∧
        (statements source lexemes).scope = after.scope := by
  obtain ⟨list, after, ran, -, exhausted⟩ := attempt_statements source lexemes
  have same : statements source lexemes = { tree := list, scope := after.scope } := by
    simp only [statements, Parsed.run, ran]
  have built := Grammar.statements_build (builds_ofDepth (Lexeme.weightAll lexemes + 1)) false
    (.nothing (ParseState.start lexemes { source }))
  rw [same]
  refine ⟨after, ?_, exhausted, rfl⟩
  refine (ensures_map _ Prod.fst fun list after =>
    (ParseState.start lexemes { source }).Builds (list.map .stmt) after).mpr ?_ list after ran
  exact built.mono fun _ _ found => found.1

theorem statements_build (source : Nat) (lexemes : List Lexeme) :
    ∃ after, (ParseState.start lexemes { source }).Builds
      ((statements source lexemes).tree.map .stmt) after ∧ after.Exhausts lexemes := by
  obtain ⟨after, built, exhausted, _⟩ := statements_built source lexemes
  exact ⟨after, built, exhausted⟩

end Parsed

end Reckon
