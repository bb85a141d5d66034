import Reckon.Proofs.Parsing.WatchesExpression

/-!
# Markup and statements report an unclosed string

Bare text in markup, a closing tag and the head of a `for` loop pass over strings without a diagnostic.
None of them is complete where the source ends: an element lacks its closing tag, and a loop its block.

So a source that ends with an unclosed string or template has a tree with a diagnostic.
-/

namespace Reckon

namespace Grammar

open Reckon.Parser ParseState

variable {inner : Grammar} {state : ParseState} {trees : List Node}

/-! ## Tags -/

/-- The words of a path are no strings. -/
theorem path_watches {α : Type} {extend : α → Identifier → α} {head : α}
    (before : state.Watched trees) :
    (loop (σ := α) (β := α)
      (fun path => do
        if (← token) = .dot ∧ (← peekToken) = .name then
          advance
          let word ← identifierRead
          return .again (extend path word)
        else
          return .done path)
      head).Ensures state fun _ after => after.Watched trees := by
  refine loop_ensures (fun _ middle => ParseState.Watched trees middle) before
    fun path middle watched => ?_
  simp only [ensures_bind, ensures_token, ensures_peekToken, ensures_ite, ensures_advance,
    ensures_identifierRead, ensures_pure]
  refine ⟨fun selected => ?_, fun _ => watched⟩
  have opened := watched.sign selected.1 (by decide)
  exact opened.sign selected.2 (by decide)

theorem tag_watches (before : state.Watched trees) :
    tag.Ensures state fun _ after => after.Watched trees := by
  simp only [tag, ensures_bind, ensures_current, ensures_ite, ensures_here, ensures_pure,
    ensures_variableRead, ensures_identifierRead]
  refine ⟨fun _ => before, fun isName => ?_⟩
  have head := before.sign (not_not.mp isName) (by decide)
  exact ⟨fun _ => path_watches head, fun _ => path_watches head⟩

/-! ## Attributes -/

theorem braced_watches (watches : inner.Watches) (unclosed : state.Unclosed)
    (brace : state.token = .leftBrace) : WatchesExpr inner.braced state := by
  simp only [WatchesExpr, braced, ensures_bind, ensures_advance, ensures_accept, ensures_ite,
    ensures_missing, ensures_pure, accepted_iff, refused_iff]
  have opened := (Watched.start unclosed []).sign brace (by decide)
  refine (watched_after opened watches.expr).mono fun value after watched =>
    ⟨fun closing => watched.sign closing (by decide), fun _ => .parent (.reportAfter [_] _ rfl)⟩

theorem attributeValue?_watches (watches : inner.Watches) (unclosed : state.Unclosed) :
    inner.attributeValue?.Ensures state fun value after =>
      after.Watched (value.toList.map .expr) := by
  have found {parser : Parser Expr} (parsed : WatchesExpr parser state) :
      (do return some (← parser) : Parser (Option Expr)).Ensures state fun value after =>
        after.Watched (value.toList.map .expr) := by
    simp only [ensures_bind, ensures_pure]
    exact parsed
  simp only [attributeValue?, ensures_bind, ensures_token]
  split
  · next isString =>
    rw [ensures_bind, ensures_current]
    exact found (literal_watches _ unclosed isString (by decide))
  · next isNumber => exact found (number_watches unclosed isNumber)
  · next isTemplate => exact found (template_watches unclosed isTemplate)
  · next brace => exact found (braced_watches watches unclosed brace)
  · rw [ensures_pure]
    exact .start unclosed _

theorem attributeEntry_watches (watches : inner.Watches) (unclosed : state.Unclosed)
    (isName : state.token = .name) :
    inner.attributeEntry.Ensures state fun entry after => after.Watched [.entry entry] := by
  have key (trees : List Node) : state.advance.Watched trees :=
    (Watched.start unclosed trees).sign isName (by decide)
  simp only [attributeEntry, ensures_bind, ensures_current, ensures_advance, ensures_accept,
    ensures_ite, accepted_iff, refused_iff]
  refine ⟨fun sign => ?_, fun _ => ?_⟩
  · have opened := (key []).sign sign (by decide)
    refine (watched_after opened (attributeValue?_watches watches)).mono fun value after watched => ?_
    cases value with
    | some tree =>
        simp only [ensures_bind, ensures_spanFrom, ensures_pure]
        exact .parent watched
    | none =>
        simp only [ensures_bind, ensures_skipLexeme, ensures_pure]
        exact .report _ rfl
  · simp only [ensures_spanFrom, ensures_pure]
    exact key _

/-- The attributes of an element, if its opening tag ends. -/
theorem attributes_watch (watches : inner.Watches) (before : state.Watched trees) :
    inner.attributes.Ensures state fun found after =>
      match found.2 with
      | .broken => True
      | _ => after.Watched (trees ++ found.1.map .entry) := by
  refine loop_ensures (fun soFar middle => ParseState.Watched (trees ++ soFar.map .entry) middle)
    (by simpa using before) fun soFar middle watched => ?_
  simp only [ensures_bind, ensures_token]
  split
  · next isName =>
    simp only [ensures_bind, ensures_pure]
    refine (watched_after watched fun ahead => ?_).mono fun _ _ => .concat
    exact attributeEntry_watches watches ahead isName
  · next slash =>
    simp only [ensures_bind, ensures_advance, ensures_accept, ensures_pure]
    exact ⟨fun greater => (watched.sign slash (by decide)).sign greater (by decide), fun _ => trivial⟩
  · next greater =>
    simp only [ensures_bind, ensures_advance, ensures_pure]
    exact watched.sign greater (by decide)
  · rw [ensures_pure]
    trivial
  · simp only [ensures_bind, ensures_skipLexeme, ensures_pure]
    exact .concat (.reportAfter _ middle.advance rfl)

/-! ## Children -/

theorem Children.finished_sublist_all (children : Children) :
    children.finished.Sublist children.all := by
  unfold all
  split
  · exact .refl _
  · exact List.sublist_append_left _ _

/-- The children of an element, if there is a closing tag behind them. -/
theorem children_watch (watches : inner.Watches) (before : state.Watched trees) :
    inner.children.Ensures state fun found after =>
      ∀ list, found = some list → after.Watched (trees ++ list.map .expr) ∧
        after.token = .less ∧ after.advance.token = .slash := by
  -- A word of bare text may be an unclosed string, but then the source ends behind it.
  refine loop_ensures (fun soFar middle =>
    ParseState.Watched (trees ++ soFar.finished.map .expr) middle ∨ middle.token = .eof)
    (.inl (by simpa using before)) fun soFar middle reached => ?_
  simp only [ensures_bind, ensures_token]
  by_cases ended : middle.token = .eof
  · simp only [ended, ensures_pure]
    rintro list ⟨⟩
  have watched := reached.resolve_right ended
  have next {child : Expr} {after : ParseState}
      (read : after.Watched (trees ++ soFar.finished.map .expr ++ [.expr child])) :
      after.Watched (trees ++ (soFar.add child).finished.map .expr) :=
    (Watched.concat read).mono
      (((soFar.finished_sublist_all.append_right [child]).map .expr).append_left trees).subset
  split
  · next isEof => exact absurd isEof ended
  · next less =>
    simp only [ensures_bind, ensures_peekToken, ensures_ite, ensures_pure]
    refine ⟨fun slash => ?_, fun _ => ?_⟩
    · rintro _ ⟨⟩
      refine ⟨watched.mono ?_, less, slash⟩
      exact ((soFar.finished_sublist_all.map .expr).append_left trees).subset
    · exact (watched_after watched fun ahead => watches.markup ahead less).mono
        fun _ _ child => .inl (next child)
  · next brace =>
    simp only [ensures_bind, ensures_pure]
    exact (watched_after watched fun ahead => braced_watches watches ahead brace).mono
      fun _ _ child => .inl (next child)
  · next isString =>
    simp only [ensures_bind, ensures_current, ensures_pure]
    exact (watched_after watched fun ahead => literal_watches _ ahead isString (by decide)).mono
      fun _ _ child => .inl (next child)
  · next semicolon =>
    simp only [ensures_bind, ensures_advance, ensures_pure]
    exact .inl (watched.sign semicolon (by decide))
  · simp only [ensures_bind, ensures_current, ensures_advance, ensures_pure, Round.Meets,
      Children.finished_addWord]
    exact watched.pass

/-! ## Elements -/

theorem element_watches (watches : inner.Watches) (unclosed : state.Unclosed)
    (less : state.token = .less) : WatchesExpr inner.element state := by
  simp only [WatchesExpr, element, ensures_bind, ensures_current, ensures_advance, ensures_token,
    ensures_ite, ensures_spanFrom, ensures_pure]
  refine ⟨fun _ => fun _ _ _ => .report _ rfl, fun _ => ?_⟩
  refine (tag_watches ((Watched.start unclosed []).sign less (by decide))).mono
    fun opening middle tagged => ?_
  have tagged : middle.Watched [.expr opening] := tagged.mono (List.nil_subset _)
  refine (attributes_watch watches tagged).mono fun found after watched => ?_
  obtain ⟨entries, tagEnd⟩ := found
  cases tagEnd with
  | broken =>
      simp only [ensures_bind, ensures_spanFrom, ensures_pure]
      exact .report _ rfl
  | closed =>
      simp only [ensures_bind, ensures_spanFrom, ensures_pure]
      exact .parent (by simpa [Node.children] using watched)
  | opened =>
      simp only [ensures_bind]
      refine (children_watch watches watched).mono fun found last ended => ?_
      cases found with
      | none =>
          simp only [ensures_bind, ensures_spanFrom, ensures_pure]
          exact .report _ rfl
      | some children =>
          obtain ⟨watched, less, slash⟩ := ended children rfl
          have closing := (watched.sign less (by decide)).sign slash (by decide)
          simp only [ensures_bind, ensures_advance]
          refine (tag_watches closing).mono fun closing final watched => ?_
          simp only [ensures_accept, ensures_ite, ensures_bind, ensures_spanFrom, ensures_pure,
            accepted_iff, refused_iff]
          refine ⟨fun greater => ⟨fun _ => ?_, fun _ => .report _ rfl⟩, fun _ => .report _ rfl⟩
          have finished := watched.sign greater (by decide)
          exact .parent (by simpa [Node.children] using finished)

/-! ## Conditionals and loops -/

/-- The parser of a statement stays before an unclosed string or reports it. -/
abbrev WatchesStmt (parser : Parser Stmt) (state : ParseState) : Prop :=
  parser.Ensures state fun tree after => after.Watched [.stmt tree]

/-- The parser of a block stays before an unclosed string or reports it. -/
abbrev WatchesBlock (parser : Parser Block) (state : ParseState) : Prop :=
  parser.Ensures state fun tree after => after.Watched [.stmt (.block tree)]

/-- A block that is missing is reported. -/
theorem missing_body_watches (missing : state.token ≠ .leftBrace) : WatchesBlock inner.body state := by
  simp only [WatchesBlock, body, ensures_bind, ensures_token, ensures_ite, ensures_here, ensures_pure]
  have reported : state.Watched
      [.expr (.invalid (.point state.cursor.current.span.start) .braceExpected)] := .report _ rfl
  have listed : state.Watched
      [.stmt (.expr (.invalid (.point state.cursor.current.span.start) .braceExpected))] :=
    .parent reported
  exact ⟨fun brace => absurd brace missing, fun _ => .parent listed⟩

theorem body_watches (watches : inner.Watches) (unclosed : state.Unclosed) :
    WatchesBlock inner.body state := by
  by_cases brace : state.token = .leftBrace
  · simp only [WatchesBlock, body, ensures_bind, ensures_token, ensures_ite]
    exact ⟨fun _ => watches.block unclosed brace, fun missing => absurd brace missing⟩
  · exact missing_body_watches brace

theorem skipToElse_watches (before : state.Watched trees) :
    skipToElse.Ensures state fun _ after => after.Watched trees := by
  simp only [skipToElse, ensures_bind, ensures_token, ensures_peekToken, ensures_ite,
    ensures_advance, ensures_pure]
  exact ⟨fun newline => before.sign newline.1 (by decide), fun _ => before⟩

theorem alternative_watches (watches : inner.Watches) (before : state.Watched trees) :
    inner.alternative.Ensures state fun found after =>
      after.Watched (trees ++ found.toList.map .stmt) := by
  simp only [alternative, ensures_bind]
  refine (skipToElse_watches before).mono fun _ middle watched => ?_
  simp only [ensures_accept, ensures_ite, ensures_bind, ensures_token, ensures_map, ensures_pure,
    accepted_iff, refused_iff]
  refine ⟨fun keyword => ?_, fun _ => by simpa using watched⟩
  have otherwise := watched.sign keyword (by decide)
  exact ⟨fun isIf => watched_after otherwise fun ahead => watches.ifStatement ahead isIf,
    fun _ => watched_after otherwise (body_watches watches)⟩

theorem ifThenElse_watches (watches : inner.Watches) (unclosed : state.Unclosed)
    (keyword : state.token = .kwIf) : WatchesStmt inner.ifThenElse state := by
  simp only [WatchesStmt, ifThenElse, ensures_bind, ensures_current, ensures_advance,
    ensures_spanFrom, ensures_pure]
  have opened := (Watched.start unclosed []).sign keyword (by decide)
  refine (watched_after opened (assignment_watches watches)).mono fun test middle tested => ?_
  refine (watched_after tested (body_watches watches)).mono fun whenTrue last taken => ?_
  refine (alternative_watches watches taken).mono fun whenFalse after watched => ?_
  cases whenFalse <;> exact .parent watched

theorem whileLoop_watches (watches : inner.Watches) (unclosed : state.Unclosed)
    (keyword : state.token = .kwWhile) : WatchesStmt inner.whileLoop state := by
  simp only [WatchesStmt, whileLoop, ensures_bind, ensures_current, ensures_advance,
    ensures_spanFrom, ensures_pure]
  have opened := (Watched.start unclosed []).sign keyword (by decide)
  refine (watched_after opened (assignment_watches watches)).mono fun test middle tested => ?_
  exact (watched_after tested (body_watches watches)).mono fun _ _ both => .parent both

theorem skipToBrace_watches (before : state.Watched trees) :
    skipToBrace.Ensures state fun _ after => after.Watched trees ∨ after.token = .eof := by
  refine loop_ensures (fun _ middle => ParseState.Watched trees middle ∨ middle.token = .eof)
    (.inl before) fun _ middle reached => ?_
  simp only [ensures_bind, ensures_token]
  split
  iterate 4
    rw [ensures_pure]
    exact reached
  next more =>
  simp only [ensures_bind, ensures_advance, ensures_pure]
  exact (reached.resolve_right more).pass

theorem loopSource_watches (watches : inner.Watches) (unclosed : state.Unclosed) :
    WatchesExpr inner.loopSource state := by
  simp only [WatchesExpr, loopSource, ensures_bind, ensures_accept, ensures_ite, ensures_missing,
    accepted_iff, refused_iff]
  refine ⟨fun keyword => ?_, fun _ => .report _ rfl⟩
  exact watched_after ((Watched.start unclosed []).sign keyword (by decide))
    (assignment_watches watches)

theorem loopHead_watches (watches : inner.Watches) (before : state.Watched []) :
    inner.loopHead.Ensures state fun found after => after.Watched [.expr found.2.2] := by
  simp only [loopHead, ensures_bind, ensures_token, ensures_ite, ensures_missing, ensures_pure,
    ensures_declaredVariable, ensures_accept, accepted_iff, refused_iff]
  refine ⟨fun _ => .report _ rfl, fun isName => ?_⟩
  have named : state.declare.Watched [] := before.sign (not_not.mp isName) (by decide)
  refine ⟨fun comma => ⟨fun isName => ?_, fun _ => .report _ rfl⟩, fun _ => ?_⟩
  · have both : state.declare.advance.declare.Watched [] :=
      (named.sign comma (by decide)).sign isName (by decide)
    exact watched_after both (loopSource_watches watches)
  · exact watched_after named (loopSource_watches watches)

theorem forLoop_watches (watches : inner.Watches) (unclosed : state.Unclosed)
    (keyword : state.token = .kwFor) : WatchesStmt inner.forLoop state := by
  simp only [WatchesStmt, forLoop, ensures_bind, ensures_current, ensures_advance]
  have opened := (Watched.start unclosed []).sign keyword (by decide)
  refine (loopHead_watches watches opened).mono fun found middle head => ?_
  obtain ⟨key, value, source⟩ := found
  simp only [ensures_spanFrom, ensures_pure]
  have finished {body : Block} {span : Span} {after : ParseState}
      (both : after.Watched [.expr source, .stmt (.block body)]) :
      after.Watched [.stmt (.forIn span key value source body)] :=
    .parent (both.mono (List.subset_append_right _ _))
  refine (skipToBrace_watches head).mono fun _ last reached => ?_
  rcases reached with watched | ended
  · exact (watched_after watched (body_watches watches)).mono fun _ _ both => finished both
  · have missing : last.token ≠ .leftBrace := by rw [ended]; decide
    exact (missing_body_watches missing).mono fun _ _ reported =>
      finished (reported.mono (List.subset_cons_self _ _))

/-! ## Simple statements -/

theorem returnStatement_watches (watches : inner.Watches) (unclosed : state.Unclosed)
    (keyword : state.token = .kwReturn) : WatchesStmt inner.returnStatement state := by
  have opened (trees : List Node) : state.advance.Watched trees :=
    (Watched.start unclosed trees).sign keyword (by decide)
  simp only [WatchesStmt, returnStatement, ensures_bind, ensures_current, ensures_advance,
    ensures_token]
  split
  iterate 3
    simp only [ensures_bind, ensures_pure, ensures_spanFrom]
    exact opened _
  simp only [ensures_bind, ensures_map, ensures_spanFrom, ensures_pure]
  exact (watched_after (opened []) (assignment_watches watches)).mono fun _ _ both => .parent both

theorem letStatement_watches (watches : inner.Watches) (unclosed : state.Unclosed)
    (keyword : state.token = .kwLet) : WatchesStmt inner.letStatement state := by
  simp only [WatchesStmt, letStatement, ensures_bind, ensures_current, ensures_advance,
    ensures_token, ensures_ite, ensures_missing, ensures_declaredVariable, ensures_accept,
    ensures_map, ensures_spanFrom, ensures_pure, accepted_iff, refused_iff]
  have opened (trees : List Node) : state.advance.Watched trees :=
    (Watched.start unclosed trees).sign keyword (by decide)
  refine ⟨fun _ => .parent (.report _ rfl), fun isName => ?_⟩
  have named (trees : List Node) : state.advance.declare.Watched trees :=
    (opened trees).sign (not_not.mp isName) (by decide)
  refine ⟨fun sign => ?_, fun _ => named _⟩
  have defined := (named []).sign sign (by decide)
  exact (watched_after defined (assignment_watches watches)).mono fun _ _ both =>
    .parent (both.mono (List.subset_cons_self _ _))

theorem statement_watches (watches : inner.Watches) (unclosed : state.Unclosed) :
    WatchesStmt inner.statement state := by
  simp only [WatchesStmt, statement, ensures_bind, ensures_token]
  split
  · next brace =>
    rw [ensures_map]
    exact watches.block unclosed brace
  · next keyword => exact ifThenElse_watches watches unclosed keyword
  · next keyword => exact whileLoop_watches watches unclosed keyword
  · next keyword => exact forLoop_watches watches unclosed keyword
  · next keyword => exact returnStatement_watches watches unclosed keyword
  iterate 2
    next keyword =>
      simp only [ensures_bind, ensures_skipLexeme, ensures_pure]
      exact (Watched.start unclosed _).sign keyword (by decide)
  · next keyword => exact letStatement_watches watches unclosed keyword
  · simp only [ensures_bind, ensures_pure]
    exact (assignment_watches watches unclosed).mono fun _ _ watched => .parent watched

/-! ## Lists of statements -/

theorem terminator_watches (before : state.Watched trees) :
    terminator.Ensures state fun rest after => after.Watched (trees ++ rest.map .stmt) := by
  simp only [terminator, ensures_bind, ensures_token]
  split
  · next semicolon =>
    simp only [ensures_bind, ensures_advance, ensures_pure]
    simpa using before.sign semicolon (by decide)
  · simpa using before
  · simpa using before
  · simp only [ensures_bind, ensures_bad, ensures_pure]
    have reported : state.advance.Watched
        [.stmt (.expr (.invalid state.cursor.current.span .terminatorExpected))] :=
      .parent (.report _ rfl)
    exact reported.mono (List.subset_append_right _ _)

/-- A statement after others, with its end. -/
theorem terminated_watches {soFar : List Stmt} {tree : Stmt}
    (before : state.Watched ((soFar ++ [tree]).map .stmt)) :
    (needsTerminator tree = true →
      terminator.Ensures state fun rest after =>
        after.Watched ((soFar ++ tree :: rest).map .stmt)) ∧
    (¬needsTerminator tree = true → state.Watched ((soFar ++ [tree]).map .stmt)) := by
  refine ⟨fun _ => ?_, fun _ => before⟩
  refine (terminator_watches before).mono fun rest after watched => ?_
  rw [List.append_cons, List.map_append]
  exact watched

theorem statements_watch (watches : inner.Watches) (inBlock : Bool) (before : state.Watched []) :
    (inner.statements inBlock).Ensures state fun found after =>
      after.Watched (found.1.map .stmt) ∧ (found.2 = true → after.token = .rightBrace) := by
  refine loop_ensures (fun soFar middle => ParseState.Watched (soFar.map .stmt) middle) before ?_
  intro soFar middle watched
  simp only [ensures_bind, ensures_token]
  split
  · next semicolon =>
    simp only [ensures_bind, ensures_advance, ensures_pure]
    exact watched.sign semicolon (by decide)
  · rw [ensures_pure]
    exact ⟨watched, Bool.noConfusion⟩
  · simp only [ensures_ite, ensures_bind, ensures_remaining, ensures_pure, ensures_map,
      ensures_bad, Round.Meets]
    refine ⟨fun closing => ⟨watched, fun _ => closing.1⟩, fun _ => ?_⟩
    refine (watched_after watched (statement_watches watches)).mono fun tree after read =>
      ⟨fun _ => ?_, fun _ => ?_⟩
    · have reported : after.advance.Watched
          [.stmt (.expr (.invalid after.cursor.current.span .unexpectedToken))] :=
        .parent (.report _ rfl)
      exact terminated_watches (.append (reported.mono (List.subset_append_right _ _)))
    · exact terminated_watches (.append read)

theorem braces_watches (watches : inner.Watches) (unclosed : state.Unclosed)
    (brace : state.token = .leftBrace) : WatchesBlock inner.braces state := by
  simp only [WatchesBlock, braces, ensures_bind, ensures_current, ensures_advance]
  have opened := (Watched.start unclosed []).sign brace (by decide)
  refine (statements_watch watches true opened).mono fun found after parsed => ?_
  obtain ⟨list, closed⟩ := found
  obtain ⟨watched, closing⟩ := parsed
  simp only [ensures_ite, ensures_bind, ensures_advance, ensures_missing, ensures_spanFrom,
    ensures_pure]
  refine ⟨fun isClosed => .parent (watched.sign (closing isClosed) (by decide)), fun _ => ?_⟩
  have reported : after.Watched
      [.stmt (.expr (.invalid (.point after.cursor.current.span.start) .unterminatedBlock))] :=
    .parent (.report _ rfl)
  exact .parent (.append (reported.mono (List.subset_append_right _ _)))

/-! ## Grammars of a depth -/

theorem watches_bottom : bottom.Watches where
  expr _ := ensures_failure _
  lambda _ := ensures_failure _
  unary _ := ensures_failure _
  markup _ _ := ensures_failure _
  block _ _ := ensures_failure _
  ifStatement _ _ := ensures_failure _

theorem Watches.extend (watches : inner.Watches) : inner.extend.Watches where
  expr := assignment_watches watches
  lambda := function_watches watches
  unary := signed_watches watches
  markup := element_watches watches
  block := braces_watches watches
  ifStatement := ifThenElse_watches watches

theorem watches_ofDepth (depth : Nat) : (ofDepth depth).Watches := by
  induction depth with
  | zero => exact watches_bottom
  | succ depth inductionHypothesis => exact inductionHypothesis.extend

end Grammar

/-- A source that ends with an unclosed string or template has a diagnostic. -/
theorem Parsed.diagnostics_expression_of_unclosed (source : Nat) {lexemes : List Lexeme}
    (unclosed : (ParseState.start lexemes { source }).Unclosed) :
    (expression source lexemes).tree.diagnostics ≠ [] := by
  obtain ⟨tree, after, ran, -, exhausted⟩ := attempt_entire source lexemes
  have same : expression source lexemes = { tree, scope := after.scope } := by
    simp only [expression, Parsed.run, ran]
  rw [same]
  rcases Grammar.entire_watches (Grammar.watches_ofDepth _) unclosed _ _ ran with ahead | reported
  · obtain ⟨last, isLast, -⟩ := ahead
    rw [exhausted.ahead] at isLast
    cases isLast
  · obtain ⟨node, member, reported⟩ := reported
    rwa [List.mem_singleton.mp member] at reported

end Reckon
