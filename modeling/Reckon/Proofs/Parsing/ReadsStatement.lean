import Reckon.Proofs.Parsing.ReadsMarkup
import Reckon.Proofs.Parsing.Stream

/-!
# Parsing statements gives results

A list of statements goes on only after it has read something: a statement that read nothing is
replaced by the lexeme in its place.
-/

namespace Reckon.Grammar

open Reckon.Parser

variable {inner : Grammar} {bound : Nat} {state : ParseState}

/-! ## Blocks of other statements -/

theorem body_gives (reads : inner.Reads bound) (light : state.weight < bound) :
    inner.body.Gives state fun block after => state.Reaches after ∧ block.Complete := by
  simp only [body, gives_bind, gives_token, gives_ite, gives_here, gives_pure]
  refine ⟨fun brace => ?_, fun _ => ⟨.refl state, .mk ?_⟩⟩
  · exact (reads.block state light brace).mono fun block after read => ⟨read.1.toReaches, read.2⟩
  · intro statement member
    rw [List.mem_singleton.mp member]
    exact .expr (.invalid _ _)

theorem skipToElse_gives : skipToElse.Gives state fun _ after => state.Reaches after := by
  simp only [skipToElse, gives_bind, gives_token, gives_peekToken, gives_ite, gives_advance,
    gives_pure]
  exact ⟨fun _ => ParseState.reaches_advance state, fun _ => .refl state⟩

theorem alternative_gives (reads : inner.Reads bound) (light : state.weight < bound) :
    inner.alternative.Gives state fun found after =>
      state.Reaches after ∧ (∀ other ∈ found, other.isAlternative = true) ∧
        ∀ other ∈ found, other.Complete := by
  simp only [alternative, gives_bind, gives_ite, gives_accept_cases, gives_token, gives_map,
    gives_pure]
  refine skipToElse_gives.mono fun _ place reached => ?_
  have elseReached := reached.trans (ParseState.reaches_advance place)
  have elseLight := Nat.lt_of_le_of_lt elseReached.weight_le light
  refine ⟨fun _ => ⟨fun nested => ?_, fun _ => ?_⟩, fun _ => ⟨reached, by simp, by simp⟩⟩
  · refine (reads.ifStatement _ elseLight nested).mono fun other after otherRead => ?_
    exact ⟨elseReached.trans otherRead.1.toReaches, by simpa using otherRead.2.2,
      by simpa using otherRead.2.1⟩
  · refine (body_gives reads elseLight).mono fun block after blockRead => ?_
    exact ⟨elseReached.trans blockRead.1, by simp [Stmt.isAlternative],
      by simpa using Stmt.Complete.block blockRead.2⟩

theorem ifThenElse_gives (reads : inner.Reads bound) (light : state.weight ≤ bound)
    (more : state.token ≠ .eof) :
    inner.ifThenElse.Gives state fun tree after =>
      state.Passes after ∧ tree.Complete ∧ tree.isAlternative = true := by
  have keyRead := ParseState.passes_advance more
  have keyLight : state.advance.weight < bound := Nat.lt_of_lt_of_le keyRead.weight_lt light
  simp only [ifThenElse, gives_bind, gives_current, gives_advance, gives_spanFrom, gives_pure]
  refine (assignment_gives reads (Nat.le_of_lt keyLight)).mono fun test middle testRead => ?_
  have middleLight := Nat.lt_of_le_of_lt testRead.reaches.weight_le keyLight
  refine (body_gives reads middleLight).mono fun whenTrue inside bodyRead => ?_
  have insideLight := Nat.lt_of_le_of_lt bodyRead.1.weight_le middleLight
  refine (alternative_gives reads insideLight).mono fun whenFalse after elseRead => ?_
  exact ⟨keyRead.trans_reaches ((testRead.reaches.trans bodyRead.1).trans elseRead.1),
    .ifThen testRead.complete bodyRead.2 elseRead.2.1 elseRead.2.2, rfl⟩

theorem whileLoop_gives (reads : inner.Reads bound) (light : state.weight ≤ bound)
    (more : state.token ≠ .eof) :
    inner.whileLoop.Gives state fun tree after => state.Passes after ∧ tree.Complete := by
  have keyRead := ParseState.passes_advance more
  have keyLight : state.advance.weight < bound := Nat.lt_of_lt_of_le keyRead.weight_lt light
  simp only [whileLoop, gives_bind, gives_current, gives_advance, gives_spanFrom, gives_pure]
  refine (assignment_gives reads (Nat.le_of_lt keyLight)).mono fun test middle testRead => ?_
  have middleLight := Nat.lt_of_le_of_lt testRead.reaches.weight_le keyLight
  refine (body_gives reads middleLight).mono fun repeated after bodyRead => ?_
  exact ⟨keyRead.trans_reaches (testRead.reaches.trans bodyRead.1),
    .whileDo testRead.complete bodyRead.2⟩

/-! ## Declarations and jumps -/

theorem declaredVariable_gives (more : state.token ≠ .eof) :
    declaredVariable.Gives state fun _ after => state.Passes after := by
  simp only [declaredVariable, gives_bind, gives_current, gives_currentFrame, gives_declare,
    gives_advance, gives_pure]
  exact ParseState.passes_advance_withScope more _

theorem skipToBrace_gives : skipToBrace.Gives state fun _ after => state.Reaches after := by
  unfold skipToBrace
  refine loop_gives (fun _ middle => state.Reaches middle) (fun _ after => state.Reaches after)
    (.refl state) ?_ fun _ _ reached => reached
  intro _ middle reached
  rw [gives_bind, gives_token]
  split
  case h_5 notEof =>
    simp only [gives_bind, gives_advance, gives_pure]
    have read : middle.Passes middle.advance := ParseState.passes_advance notEof
    exact ⟨read.shorter, reached.trans read.toReaches⟩
  all_goals
    rw [gives_pure]
    exact reached

theorem loopSource_gives (reads : inner.Reads bound) (light : state.weight ≤ bound) :
    inner.loopSource.Gives state fun tree after => state.Reaches after ∧ tree.Complete := by
  simp only [loopSource, gives_bind, gives_ite, gives_accept_cases, gives_missing]
  refine ⟨fun _ => ?_, fun _ => ⟨.refl state, .invalid _ _⟩⟩
  have inReached := ParseState.reaches_advance state
  refine (assignment_gives reads (Nat.le_trans inReached.weight_le light)).mono
    fun source after sourceRead => ?_
  exact ⟨inReached.trans sourceRead.reaches, sourceRead.complete⟩

/-- A loop without a value variable has a source that says so. -/
theorem loopHead_gives (reads : inner.Reads bound) (light : state.weight ≤ bound) :
    inner.loopHead.Gives state fun found after =>
      state.Reaches after ∧ found.2.2.Complete ∧
        (found.2.1 = none → ∃ place, found.2.2 = .invalid place .identifierExpected) := by
  simp only [loopHead, gives_bind, gives_token, gives_ite, gives_accept_cases, gives_missing,
    gives_pure]
  refine ⟨fun _ => ⟨.refl state, .invalid _ _, fun _ => ⟨_, rfl⟩⟩, fun named => ?_⟩
  have name : state.token = .name := Decidable.not_not.mp named
  refine (declaredVariable_gives (by simp [name])).mono fun first middle firstRead => ?_
  have firstReached := firstRead.toReaches
  have commaReached := firstReached.trans (ParseState.reaches_advance middle)
  refine ⟨fun _ => ⟨fun second => ?_, fun _ => ?_⟩, fun _ => ?_⟩
  · refine (declaredVariable_gives (by simp [second])).mono fun value inside secondRead => ?_
    have secondReached := commaReached.trans secondRead.toReaches
    refine (loopSource_gives reads (Nat.le_trans secondReached.weight_le light)).mono
      fun source after sourceRead => ?_
    exact ⟨secondReached.trans sourceRead.1, sourceRead.2, by simp⟩
  · exact ⟨commaReached, .invalid _ _, fun _ => ⟨_, rfl⟩⟩
  · refine (loopSource_gives reads (Nat.le_trans firstReached.weight_le light)).mono
      fun source after sourceRead => ?_
    exact ⟨firstReached.trans sourceRead.1, sourceRead.2, by simp⟩

theorem forLoop_gives (reads : inner.Reads bound) (light : state.weight ≤ bound)
    (more : state.token ≠ .eof) :
    inner.forLoop.Gives state fun tree after => state.Passes after ∧ tree.Complete := by
  have keyRead := ParseState.passes_advance more
  have keyLight : state.advance.weight < bound := Nat.lt_of_lt_of_le keyRead.weight_lt light
  simp only [forLoop, gives_bind, gives_current, gives_advance, gives_spanFrom, gives_pure]
  refine (loopHead_gives reads (Nat.le_of_lt keyLight)).mono fun found middle headRead => ?_
  obtain ⟨key, value, source⟩ := found
  refine skipToBrace_gives.mono fun _ inside skipped => ?_
  have insideReached := headRead.1.trans skipped
  have insideLight := Nat.lt_of_le_of_lt insideReached.weight_le keyLight
  refine (body_gives reads insideLight).mono fun repeated after bodyRead => ?_
  exact ⟨keyRead.trans_reaches (insideReached.trans bodyRead.1),
    .forIn headRead.2.2 headRead.2.1 bodyRead.2⟩

theorem returnStatement_gives (reads : inner.Reads bound) (light : state.weight ≤ bound)
    (more : state.token ≠ .eof) :
    inner.returnStatement.Gives state fun tree after => state.Passes after ∧ tree.Complete := by
  have keyRead := ParseState.passes_advance more
  simp only [returnStatement, gives_bind, gives_current, gives_advance, gives_token]
  split
  case h_4 =>
    simp only [gives_bind, gives_map, gives_spanFrom, gives_pure]
    refine (assignment_gives reads (Nat.le_trans keyRead.toReaches.weight_le light)).mono
      fun value after valueRead => ?_
    exact ⟨keyRead.trans_reaches valueRead.reaches,
      .returnValue (by simpa using valueRead.complete)⟩
  all_goals
    simp only [gives_bind, gives_spanFrom, gives_pure]
    exact ⟨keyRead, .returnValue (by simp)⟩

theorem letStatement_gives (reads : inner.Reads bound) (light : state.weight ≤ bound)
    (more : state.token ≠ .eof) :
    inner.letStatement.Gives state fun tree after => state.Passes after ∧ tree.Complete := by
  have keyRead := ParseState.passes_advance more
  simp only [letStatement, gives_bind, gives_current, gives_advance, gives_token, gives_ite,
    gives_missing, gives_accept_cases, gives_map, gives_spanFrom, gives_pure]
  refine ⟨fun _ => ⟨keyRead, .expr (.invalid _ _)⟩, fun named => ?_⟩
  have isName : state.advance.token = .name := Decidable.not_not.mp named
  refine (declaredVariable_gives (by simp [isName])).mono fun name middle nameRead => ?_
  have nameReached := keyRead.trans_reaches nameRead.toReaches
  refine ⟨fun _ => ?_, fun _ => ⟨nameReached, .letIn (by simp)⟩⟩
  have signReached := nameReached.trans_reaches (ParseState.reaches_advance middle)
  refine (assignment_gives reads (Nat.le_trans signReached.toReaches.weight_le light)).mono
    fun value after valueRead => ?_
  exact ⟨signReached.trans_reaches valueRead.reaches, .letIn (by simpa using valueRead.complete)⟩

/-! ## Lists of statements -/

theorem statement_gives (reads : inner.Reads bound) (light : state.weight < bound) :
    inner.statement.Gives state fun tree after => state.Reaches after ∧ tree.Complete := by
  have passing {parser : Parser Stmt}
      (given : parser.Gives state fun tree after => state.Passes after ∧ tree.Complete) :
      parser.Gives state fun tree after => state.Reaches after ∧ tree.Complete :=
    given.mono fun _ _ read => ⟨read.1.toReaches, read.2⟩
  have le := Nat.le_of_lt light
  unfold statement
  rw [gives_bind, gives_token]
  split
  · next found =>
    rw [gives_map]
    exact (reads.block state light found).mono fun block after read =>
      ⟨read.1.toReaches, .block read.2⟩
  · next found =>
    exact passing ((ifThenElse_gives reads le (by simp [found])).mono fun _ _ read =>
      ⟨read.1, read.2.1⟩)
  · next found => exact passing (whileLoop_gives reads le (by simp [found]))
  · next found => exact passing (forLoop_gives reads le (by simp [found]))
  · next found => exact passing (returnStatement_gives reads le (by simp [found]))
  · simp only [gives_bind, gives_skipLexeme, gives_pure]
    exact ⟨ParseState.reaches_advance state, .jump _ _⟩
  · simp only [gives_bind, gives_skipLexeme, gives_pure]
    exact ⟨ParseState.reaches_advance state, .jump _ _⟩
  · next found => exact passing (letStatement_gives reads le (by simp [found]))
  · simp only [gives_bind, gives_pure]
    exact (assignment_gives reads le).mono fun tree after read =>
      ⟨read.reaches, .expr read.complete⟩

theorem terminator_gives :
    terminator.Gives state fun list after =>
      state.Reaches after ∧ ∀ statement ∈ list, statement.Complete := by
  unfold terminator
  rw [gives_bind, gives_token]
  split
  · simp only [gives_bind, gives_advance, gives_pure]
    exact ⟨ParseState.reaches_advance state, by simp⟩
  · rw [gives_pure]
    exact ⟨.refl state, by simp⟩
  · rw [gives_pure]
    exact ⟨.refl state, by simp⟩
  · simp only [gives_bind, gives_bad, gives_pure]
    refine ⟨ParseState.reaches_advance state, ?_⟩
    intro statement member
    rw [List.mem_singleton.mp member]
    exact .expr (.invalid _ _)

/-- What a list of statements says: outside of a block it ends at the end of the source only, and
inside of one a brace that was found is still ahead. -/
structure Listing (inBlock : Bool) (before : ParseState) (found : List Stmt × Bool)
    (after : ParseState) : Prop where
  reaches : before.Reaches after
  complete : ∀ statement ∈ found.1, statement.Complete
  ended : found.2 = false → after.cursor.ahead = []
  brace : found.2 = true → inBlock = true ∧ after.token = .rightBrace

theorem statements_gives (reads : inner.Reads bound) (light : state.weight < bound)
    (inBlock : Bool) :
    (inner.statements inBlock).Gives state (Listing inBlock state) := by
  unfold statements
  refine loop_gives
    (fun list middle => state.Reaches middle ∧ ∀ statement ∈ list, statement.Complete)
    (Listing inBlock state) ⟨.refl state, by simp⟩ ?_ fun _ _ listed => listed
  rintro soFar place ⟨reached, complete⟩
  have lighter : place.weight < bound := Nat.lt_of_le_of_lt reached.weight_le light
  rw [gives_bind, gives_token]
  split
  · next found =>
    have read := ParseState.passes_advance (by simp [found] : place.token ≠ .eof)
    simp only [gives_bind, gives_advance, gives_pure]
    exact ⟨read.shorter, reached.trans read.toReaches, complete⟩
  · next found =>
    rw [gives_pure]
    exact ⟨reached, complete, fun _ => place.token_eq_eof_iff.mp found, by simp⟩
  · next notEof =>
    have finish {first : Stmt} {middle : ParseState} (read : place.Passes middle)
        (firstComplete : first.Complete) :
        (needsTerminator first = true →
          terminator.Gives middle fun rest after =>
            Round.Post place
              (fun list last => state.Reaches last ∧ ∀ statement ∈ list, statement.Complete)
              (Listing inBlock state) (.again (soFar ++ first :: rest)) after) ∧
        (¬needsTerminator first = true →
          Round.Post place
            (fun list last => state.Reaches last ∧ ∀ statement ∈ list, statement.Complete)
            (Listing inBlock state) (.again (soFar ++ [first])) middle) := by
      refine ⟨fun _ => ?_, fun _ => ?_⟩
      · refine terminator_gives.mono fun rest after restRead => ?_
        have allRead := read.trans_reaches restRead.1
        refine ⟨allRead.shorter, reached.trans allRead.toReaches, ?_⟩
        exact List.forall_mem_append.mpr
          ⟨complete, List.forall_mem_cons.mpr ⟨firstComplete, restRead.2⟩⟩
      · exact ⟨read.shorter, reached.trans read.toReaches,
          forall_mem_concat complete firstComplete⟩
    simp only [gives_bind, gives_ite, gives_remaining, gives_map, gives_bad, gives_pure]
    refine ⟨fun found => ?_, fun _ => ?_⟩
    · exact ⟨reached, complete, by simp, fun _ => ⟨found.2, found.1⟩⟩
    refine (statement_gives reads lighter).mono fun first middle firstRead => ⟨fun same => ?_, ?_⟩
    · have more : middle.token ≠ .eof := ParseState.token_ne_eof_of_remaining_eq notEof same
      exact finish (firstRead.1.trans_passes (ParseState.passes_advance more))
        (.expr (.invalid _ _))
    · intro moved
      have shorter := Nat.lt_of_le_of_ne firstRead.1.remaining_le moved
      exact finish { firstRead.1 with shorter } firstRead.2

theorem braces_gives (reads : inner.Reads bound) (light : state.weight ≤ bound)
    (more : state.token ≠ .eof) :
    inner.braces.Gives state fun block after => state.Passes after ∧ block.Complete := by
  have braceRead := ParseState.passes_advance more
  have listLight := Nat.lt_of_lt_of_le braceRead.weight_lt light
  simp only [braces, gives_bind, gives_current, gives_advance]
  refine (statements_gives reads listLight true).mono fun found after listed => ?_
  have listRead := braceRead.trans_reaches listed.reaches
  simp only [gives_ite, gives_bind, gives_advance, gives_missing, gives_spanFrom, gives_pure]
  refine ⟨fun _ => ?_, fun _ => ?_⟩
  · exact ⟨listRead.trans_reaches (ParseState.reaches_advance after), .mk listed.complete⟩
  · exact ⟨listRead, .mk (forall_mem_concat listed.complete (.expr (.invalid _ _)))⟩

end Reckon.Grammar

/-! ## Parsing always has a result

The grammar of a depth reads every state that is lighter than the depth, by induction on the depth:
the grammar one level up needs the one below only for what is nested in a construct.  So a list of
lexemes, whatever they are, is parsed to its end by the grammar that is chosen for it. -/

namespace Reckon

open Grammar Reckon.Parser

/-! ## Grammars of a depth -/

theorem Grammar.reads_bottom : bottom.Reads 0 where
  expr _ light := absurd light (Nat.not_lt_zero _)
  lambda _ light := absurd light (Nat.not_lt_zero _)
  unary _ light := absurd light (Nat.not_lt_zero _)
  markup state light less := by
    have more : state.token ≠ .eof := by simp [less]
    have heavy := (ParseState.passes_advance more).weight_lt
    omega
  block _ light := absurd light (Nat.not_lt_zero _)
  ifStatement _ light := absurd light (Nat.not_lt_zero _)
  whole _ light := absurd light (Nat.not_lt_zero _)

theorem Grammar.Reads.extend {inner : Grammar} {bound : Nat} (reads : inner.Reads bound) :
    inner.extend.Reads (bound + 1) where
  expr _ light := assignment_gives reads (Nat.le_of_lt_succ light)
  lambda _ light := function_gives reads (Nat.le_of_lt_succ light)
  unary _ light := signed_gives reads (Nat.le_of_lt_succ light)
  markup _ light less := element_gives reads light less
  block _ light brace := braces_gives reads (Nat.le_of_lt_succ light) (by simp [brace])
  ifStatement _ light key := ifThenElse_gives reads (Nat.le_of_lt_succ light) (by simp [key])
  whole _ light := entire_gives reads (Nat.le_of_lt_succ light)

theorem Grammar.reads_ofDepth (depth : Nat) : (ofDepth depth).Reads depth := by
  induction depth with
  | zero =>
      exact reads_bottom
  | succ depth inductionHypothesis =>
      exact inductionHypothesis.extend

/-! ## Where a parser stops -/

theorem ParseState.weight_start_le (lexemes : List Lexeme) (scope : Scope) :
    (start lexemes scope).weight ≤ Lexeme.weightAll lexemes :=
  Cursor.weightAll_aheadOf_le lexemes

/-- A parser that moves forward moves by single steps of the cursor. -/
theorem ParseState.Reaches.exists_iterate {before after : ParseState}
    (reached : before.Reaches after) :
    ∃ count, after.cursor = Cursor.advance^[count] before.cursor := by
  obtain ⟨skipped, split⟩ := reached.suffix
  refine ⟨skipped.length, Cursor.ext ?_ ?_⟩
  · rw [Cursor.ahead_iterate_advance, ← split, List.drop_left]
  · rw [Cursor.final_iterate_advance, reached.final]

/-- The parser has read every significant lexeme before the end of the stream and stands on the end.
The index of the stream was moved there step by step. -/
structure ParseState.Exhausts (lexemes : List Lexeme) (after : ParseState) : Prop where
  ahead : after.cursor.ahead = []
  current : after.cursor.current = Cursor.finalOf lexemes
  token : after.token = .eof
  index : ∃ count stream, Stream.walk lexemes count = some stream ∧ stream.Follows after.cursor

theorem ParseState.Reaches.exhausts {lexemes : List Lexeme} {scope : Scope} {after : ParseState}
    (reached : (start lexemes scope).Reaches after) (ended : after.cursor.ahead = []) :
    after.Exhausts lexemes where
  ahead := ended
  current := by
    rw [Cursor.current, ended, List.headD_nil, reached.final]
    rfl
  token := after.token_eq_eof_iff.mpr ended
  index := by
    obtain ⟨count, moved⟩ := reached.exists_iterate
    obtain ⟨stream, walked, follows⟩ := Stream.walk_follows lexemes count
    refine ⟨count, stream, walked, ?_⟩
    rw [moved]
    exact follows

theorem Grammar.Replaces.exhausts {inner : Grammar} {lexemes : List Lexeme} {tree : Expr}
    (replaced : inner.Replaces lexemes tree) :
    ∃ scope after, inner.whole (ParseState.start lexemes scope) = some (tree, after) ∧
      tree.Complete ∧ after.Exhausts lexemes := by
  obtain ⟨scope, after, ran, reached, ended, complete⟩ := replaced
  exact ⟨scope, after, ran, complete, reached.exhausts ended⟩

/-! ## Whole sources -/

theorem Parsed.attempt_entire (source : Nat) (lexemes : List Lexeme) :
    ∃ tree after, Parsed.attempt Grammar.entire source lexemes = some (tree, after) ∧
      tree.Complete ∧ after.Exhausts lexemes := by
  have light := ParseState.weight_start_le lexemes { source }
  obtain ⟨tree, after, ran, reached, ended, complete⟩ :=
    entire_gives (reads_ofDepth (Lexeme.weightAll lexemes + 1)) (Nat.le_succ_of_le light)
  exact ⟨tree, after, ran, complete, reached.exhausts ended⟩

theorem Parsed.attempt_statements (source : Nat) (lexemes : List Lexeme) :
    ∃ list after,
      Parsed.attempt (fun grammar => Prod.fst <$> grammar.statements false) source lexemes =
          some (list, after) ∧
        (∀ statement ∈ list, statement.Complete) ∧ after.Exhausts lexemes := by
  have light := ParseState.weight_start_le lexemes { source }
  have given := statements_gives (reads_ofDepth (Lexeme.weightAll lexemes + 1))
    (Nat.lt_succ_of_le light) false
  have mapped := (gives_map _ Prod.fst fun list after =>
      (∀ statement ∈ list, statement.Complete) ∧ after.Exhausts lexemes).mpr
    (given.mono fun found after listed => ⟨listed.complete, ?_⟩)
  · obtain ⟨list, after, ran, complete, exhausted⟩ := mapped
    exact ⟨list, after, ran, complete, exhausted⟩
  · have notClosed : found.2 = false := by
      cases closed : found.2 with
      | false => rfl
      | true => exact absurd (listed.brace closed).1 (by simp)
    exact listed.reaches.exhausts (listed.ended notClosed)

/-- Every list of lexemes is parsed, as an expression and as a list of statements, to a tree without
missing parts, and the parser then stands on the end of the stream.  The index of the stream never
leaves its range.  At a template, each of its streams is parsed in the same way. -/
theorem parse_total (source : Nat) (lexemes : List Lexeme) :
    (∃ tree after, Parsed.attempt Grammar.entire source lexemes = some (tree, after) ∧
      (Parsed.expression source lexemes).tree = tree ∧ tree.Complete ∧ after.Exhausts lexemes) ∧
    (∃ list after,
      Parsed.attempt (fun grammar => Prod.fst <$> grammar.statements false) source lexemes =
          some (list, after) ∧
        (Parsed.statements source lexemes).tree = list ∧
          (∀ statement ∈ list, statement.Complete) ∧ after.Exhausts lexemes) ∧
    (∀ count, ∃ stream, Stream.walk lexemes count = some stream ∧
      stream.Follows (Cursor.advance^[count] (.ofLexemes lexemes))) ∧
    (∀ depth (state : ParseState), state.weight < depth → state.token = .template →
      ∃ span trees after,
        (Grammar.ofDepth depth).template state =
            some (.interpolated span state.cursor.current.parts trees, after) ∧
          List.Forall₂
            (fun stream tree => ∃ scope last,
              (Grammar.ofDepth depth).whole (ParseState.start stream scope) = some (tree, last) ∧
                tree.Complete ∧ last.Exhausts stream)
            state.cursor.current.subs trees) := by
  refine ⟨?_, ?_, Stream.walk_follows lexemes, ?_⟩
  · obtain ⟨tree, after, ran, complete, exhausted⟩ := Parsed.attempt_entire source lexemes
    refine ⟨tree, after, ran, ?_, complete, exhausted⟩
    simp only [Parsed.expression, Parsed.run, ran]
  · obtain ⟨list, after, ran, complete, exhausted⟩ := Parsed.attempt_statements source lexemes
    refine ⟨list, after, ran, ?_, complete, exhausted⟩
    simp only [Parsed.statements, Parsed.run, ran]
  · intro depth state light found
    have more : state.token ≠ .eof := by simp [found]
    obtain ⟨tree, after, ran, -, span, trees, rfl, replaced⟩ :=
      template_gives_replacements (reads_ofDepth depth) (Nat.le_of_lt light) more
    exact ⟨span, trees, after, ran, replaced.imp fun _ _ given => given.exhausts⟩

end Reckon
