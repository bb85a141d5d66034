import Mathlib.Data.List.Forall2
import Reckon.Tree.Parser

/-!
# What a parser gives

`Gives parser state post` says that a parser has a result when it starts in `state`, so that none of
its bounds was too small, and that the result and the state after it satisfy `post`. The rules below
take a parser apart: one for each way of putting parsers together, one for each elementary parser,
and two for loops.

A state reaches another one by reading lexemes, and passes to it if it has read at least one. These
two relations are what most parsers have to say about the state after them.
-/

namespace Reckon

/-! ## Weights -/

namespace Lexeme

theorem weight_pos (lexeme : Lexeme) : 0 < lexeme.weight := by
  cases lexeme
  simp [weight]

@[simp]
theorem weightAll_nil : weightAll [] = 0 := by
  simp [weightAll]

@[simp]
theorem weightAll_cons (lexeme : Lexeme) (rest : List Lexeme) :
    weightAll (lexeme :: rest) = lexeme.weight + weightAll rest := by
  simp [weightAll]

@[simp]
theorem weightAll_append (left right : List Lexeme) :
    weightAll (left ++ right) = weightAll left + weightAll right := by
  induction left with
  | nil => simp
  | cons lexeme rest inductionHypothesis =>
      simp [inductionHypothesis, Nat.add_assoc]

theorem weightAll_le_of_sublist {small large : List Lexeme} (sublist : small.Sublist large) :
    weightAll small ≤ weightAll large := by
  induction sublist with
  | slnil => exact Nat.le_refl _
  | cons lexeme _ inductionHypothesis =>
      rw [weightAll_cons]
      exact Nat.le_trans inductionHypothesis (Nat.le_add_left _ _)
  | cons_cons lexeme _ inductionHypothesis =>
      rw [weightAll_cons, weightAll_cons]
      exact Nat.add_le_add_left inductionHypothesis _

/-- A replacement of a template weighs less than the template. -/
theorem weightAll_lt_weight {lexeme : Lexeme} {replacement : List Lexeme}
    (member : replacement ∈ lexeme.subs) : weightAll replacement < lexeme.weight := by
  have bounded :
      ∀ subs : List (List Lexeme), replacement ∈ subs →
        weightAll replacement < weightSubs subs + 1 := by
    intro subs replacementMember
    induction subs with
    | nil => simp at replacementMember
    | cons first rest inductionHypothesis =>
        rw [weightSubs]
        rcases List.mem_cons.mp replacementMember with rfl | later
        · omega
        · have := inductionHypothesis later
          omega
  cases lexeme with
  | mk token lit span raw parts subs => exact bounded subs member

end Lexeme

theorem Cursor.weightAll_aheadOf_le (lexemes : List Lexeme) :
    Lexeme.weightAll (Cursor.aheadOf lexemes) ≤ Lexeme.weightAll lexemes :=
  Lexeme.weightAll_le_of_sublist
    (List.filter_sublist.trans (List.takeWhile_sublist _))

/-! ## States -/

namespace ParseState

/-- The class of the current lexeme. -/
def token (state : ParseState) : Token :=
  state.cursor.current.token

/-- The number of lexemes ahead, their replacements included. -/
def weight (state : ParseState) : Nat :=
  Lexeme.weightAll state.cursor.ahead

/-- A parser has moved from one state to another by reading lexemes. -/
structure Reaches (before after : ParseState) : Prop where
  suffix : after.cursor.ahead <:+ before.cursor.ahead
  final : after.cursor.final = before.cursor.final

/-- A parser has moved from one state to another and has read at least one lexeme. -/
structure Passes (before after : ParseState) : Prop extends Reaches before after where
  shorter : after.cursor.remaining < before.cursor.remaining

variable {first second third : ParseState}

theorem Reaches.refl (state : ParseState) : state.Reaches state :=
  ⟨List.suffix_refl _, rfl⟩

theorem Reaches.of_cursor_eq (same : second.cursor = first.cursor) : first.Reaches second := by
  refine ⟨?_, ?_⟩
  · rewrite [same]
    exact List.suffix_refl _
  · rw [same]

theorem Reaches.trans (left : first.Reaches second) (right : second.Reaches third) :
    first.Reaches third :=
  ⟨right.suffix.trans left.suffix, right.final.trans left.final⟩

theorem Reaches.remaining_le (reached : first.Reaches second) :
    second.cursor.remaining ≤ first.cursor.remaining :=
  reached.suffix.length_le

theorem Reaches.weight_le (reached : first.Reaches second) : second.weight ≤ first.weight :=
  Lexeme.weightAll_le_of_sublist reached.suffix.sublist

theorem Passes.trans_reaches (left : first.Passes second) (right : second.Reaches third) :
    first.Passes third :=
  { left.toReaches.trans right with
    shorter := Nat.lt_of_le_of_lt right.remaining_le left.shorter }

theorem Reaches.trans_passes (left : first.Reaches second) (right : second.Passes third) :
    first.Passes third :=
  { left.trans right.toReaches with
    shorter := Nat.lt_of_lt_of_le right.shorter left.remaining_le }

theorem Passes.weight_lt (passed : first.Passes second) : second.weight < first.weight := by
  obtain ⟨skipped, split⟩ := passed.suffix
  have shorter := passed.shorter
  unfold weight
  unfold Cursor.remaining at shorter
  rw [← split] at shorter ⊢
  rw [Lexeme.weightAll_append]
  cases skipped with
  | nil => simp at shorter
  | cons lexeme rest =>
      have := lexeme.weight_pos
      rw [Lexeme.weightAll_cons]
      omega

/-- Only the end of the stream is an end of source. -/
theorem token_eq_eof_iff (state : ParseState) :
    state.token = .eof ↔ state.cursor.ahead = [] := by
  unfold token Cursor.current
  cases ahead : state.cursor.ahead with
  | nil => simpa using state.cursor.final_eq_eof
  | cons lexeme rest =>
      simpa using state.cursor.ahead_ne_eof lexeme (by simp [ahead])

/-- A state from which nothing was read is not at the end either. -/
theorem token_ne_eof_of_remaining_eq (more : first.token ≠ .eof)
    (same : second.cursor.remaining = first.cursor.remaining) : second.token ≠ .eof := by
  intro ended
  have nothing := second.token_eq_eof_iff.mp ended
  refine more (first.token_eq_eof_iff.mpr (List.length_eq_zero_iff.mp ?_))
  simpa [Cursor.remaining, nothing] using same.symm

theorem reaches_advance (state : ParseState) : state.Reaches state.advance :=
  ⟨List.tail_suffix _, rfl⟩

theorem passes_advance {state : ParseState} (more : state.token ≠ .eof) :
    state.Passes state.advance := by
  have nonempty : state.cursor.ahead ≠ [] := fun none => more (state.token_eq_eof_iff.mpr none)
  refine { state.reaches_advance with shorter := ?_ }
  have positive := List.length_pos_iff.mpr nonempty
  simp only [Cursor.remaining, advance, Cursor.ahead_advance, List.length_tail]
  omega

theorem passes_advance_withScope {state : ParseState} (more : state.token ≠ .eof) (scope : Scope) :
    state.Passes ({ state with scope } : ParseState).advance := by
  have reached : state.Reaches { state with scope } := .of_cursor_eq rfl
  exact reached.trans_passes (passes_advance more)

theorem current_mem_ahead {state : ParseState} (more : state.token ≠ .eof) :
    state.cursor.current ∈ state.cursor.ahead := by
  have nonempty : state.cursor.ahead ≠ [] := fun none => more (state.token_eq_eof_iff.mpr none)
  unfold Cursor.current
  cases ahead : state.cursor.ahead with
  | nil => exact absurd ahead nonempty
  | cons lexeme rest => simp

theorem weight_current_le {state : ParseState} (more : state.token ≠ .eof) :
    state.cursor.current.weight ≤ state.weight := by
  have single := List.singleton_sublist.mpr (current_mem_ahead more)
  simpa [weight] using Lexeme.weightAll_le_of_sublist single

end ParseState

/-! ## Operators -/

namespace Grammar

/-- The tables of the operators that join operands, from the loosest level to the tightest. -/
def joiningOps : List (Token → Option BinaryOp) :=
  [pipeOp?, disjunctionOp?, conjunctionOp?, equalityOp?, comparisonOp?, sumOp?, productOp?]

/-- The signs of the operators that join operands. -/
def joiningSigns : List Token :=
  [.pipe, .orOr, .andAnd, .equal, .notEqual, .less, .lessEqual, .greater, .greaterEqual, .plus,
    .minus, .star, .slash, .percent]

/-- No table has an operator for another sign. -/
theorem mem_joiningSigns {operator? : Token → Option BinaryOp} (table : operator? ∈ joiningOps)
    {token : Token} {op : BinaryOp} (found : operator? token = some op) : token ∈ joiningSigns := by
  simp only [joiningOps, List.mem_cons, List.not_mem_nil, or_false] at table
  rcases table with rfl | rfl | rfl | rfl | rfl | rfl | rfl <;>
    cases token <;> first | decide | cases found

end Grammar

/-! ## Results -/

namespace Parser

variable {α β σ : Type} {state : ParseState}

/-- The parser has a result from `state`, and the result satisfies `post`. -/
def Gives (parser : Parser α) (state : ParseState) (post : α → ParseState → Prop) : Prop :=
  ∃ result after, parser state = some (result, after) ∧ post result after

theorem Gives.mono {parser : Parser α} {weak strong : α → ParseState → Prop}
    (given : parser.Gives state strong)
    (implied : ∀ result after, strong result after → weak result after) :
    parser.Gives state weak := by
  obtain ⟨result, after, ran, satisfied⟩ := given
  exact ⟨result, after, ran, implied result after satisfied⟩

@[simp]
theorem gives_pure (value : α) (post : α → ParseState → Prop) :
    (pure value : Parser α).Gives state post ↔ post value state := by
  constructor
  · rintro ⟨result, after, ran, satisfied⟩
    cases ran
    exact satisfied
  · intro satisfied
    exact ⟨value, state, rfl, satisfied⟩

@[simp]
theorem gives_bind (parser : Parser α) (next : α → Parser β) (post : β → ParseState → Prop) :
    (parser >>= next).Gives state post ↔
      parser.Gives state fun value after => (next value).Gives after post := by
  constructor
  · rintro ⟨result, after, ran, satisfied⟩
    cases first : parser state with
    | none => simp [bind, StateT.bind, first] at ran
    | some found =>
        refine ⟨found.1, found.2, first, result, after, ?_, satisfied⟩
        simpa [bind, StateT.bind, first] using ran
  · rintro ⟨value, middle, first, result, after, second, satisfied⟩
    refine ⟨result, after, ?_, satisfied⟩
    simp [bind, StateT.bind, first, second]

@[simp]
theorem gives_map (parser : Parser α) (change : α → β) (post : β → ParseState → Prop) :
    (change <$> parser).Gives state post ↔
      parser.Gives state fun value after => post (change value) after := by
  rw [map_eq_pure_bind, gives_bind]
  simp only [gives_pure]

@[simp]
theorem gives_ite (condition : Prop) [Decidable condition] (yes no : Parser α)
    (post : α → ParseState → Prop) :
    (if condition then yes else no).Gives state post ↔
      (condition → yes.Gives state post) ∧ (¬condition → no.Gives state post) := by
  split <;> simp_all

@[simp]
theorem gives_get (post : ParseState → ParseState → Prop) :
    (get : Parser ParseState).Gives state post ↔ post state state := by
  constructor
  · rintro ⟨result, after, ran, satisfied⟩
    cases ran
    exact satisfied
  · intro satisfied
    exact ⟨state, state, rfl, satisfied⟩

@[simp]
theorem gives_set (next : ParseState) (post : PUnit → ParseState → Prop) :
    (set next : Parser PUnit).Gives state post ↔ post ⟨⟩ next := by
  constructor
  · rintro ⟨result, after, ran, satisfied⟩
    cases ran
    exact satisfied
  · intro satisfied
    exact ⟨⟨⟩, next, rfl, satisfied⟩

@[simp]
theorem gives_modifyGet (change : ParseState → α × ParseState)
    (post : α → ParseState → Prop) :
    (modifyGet change : Parser α).Gives state post ↔
      post (change state).1 (change state).2 := by
  constructor
  · rintro ⟨result, after, ran, satisfied⟩
    have same : change state = (result, after) := Option.some.inj ran
    rw [same]
    exact satisfied
  · intro satisfied
    exact ⟨_, _, rfl, satisfied⟩

@[simp]
theorem gives_modify (change : ParseState → ParseState) (post : PUnit → ParseState → Prop) :
    (modify change : Parser PUnit).Gives state post ↔ post ⟨⟩ (change state) :=
  gives_modifyGet _ _

/-! ## Elementary parsers -/

@[simp]
theorem gives_current (post : Lexeme → ParseState → Prop) :
    current.Gives state post ↔ post state.cursor.current state := by
  simp [current]

@[simp]
theorem gives_token (post : Token → ParseState → Prop) :
    token.Gives state post ↔ post state.token state := by
  simp [token, ParseState.token]

@[simp]
theorem gives_peekToken (post : Token → ParseState → Prop) :
    peekToken.Gives state post ↔ post state.cursor.peek.token state := by
  simp [peekToken]

@[simp]
theorem gives_previous (post : Position → ParseState → Prop) :
    previous.Gives state post ↔ post state.previous state := by
  simp [previous]

@[simp]
theorem gives_remaining (post : Nat → ParseState → Prop) :
    remaining.Gives state post ↔ post state.cursor.remaining state := by
  simp [remaining]

@[simp]
theorem gives_advance (post : PUnit → ParseState → Prop) :
    advance.Gives state post ↔ post ⟨⟩ state.advance := by
  simp [advance]

@[simp]
theorem gives_accept (expected : Token) (post : Bool → ParseState → Prop) :
    (accept expected).Gives state post ↔
      (state.token = expected → post true state.advance) ∧
        (state.token ≠ expected → post false state) := by
  simp [accept]

/-- The rule for `accept` where the two cases are told apart at once. -/
theorem gives_accept_cases (expected : Token) (yes no : ParseState → Prop) :
    (accept expected).Gives state
        (fun found after => (found = true → yes after) ∧ (¬found = true → no after)) ↔
      (state.token = expected → yes state.advance) ∧ (state.token ≠ expected → no state) := by
  simp

@[simp]
theorem gives_spanFrom (start : Position) (post : Span → ParseState → Prop) :
    (spanFrom start).Gives state post ↔ post ⟨start, state.previous⟩ state := by
  simp [spanFrom]

@[simp]
theorem gives_findFrame (name : String) (post : Option FrameId → ParseState → Prop) :
    (findFrame name).Gives state post ↔ post (state.scope.find? name) state := by
  simp [findFrame]

@[simp]
theorem gives_currentFrame (post : Option FrameId → ParseState → Prop) :
    currentFrame.Gives state post ↔ post state.scope.current state := by
  simp [currentFrame]

@[simp]
theorem gives_pushFrame (post : FrameId → ParseState → Prop) :
    pushFrame.Gives state post ↔
      post state.scope.push.1 { state with scope := state.scope.push.2 } := by
  simp [pushFrame]

@[simp]
theorem gives_popFrame (post : PUnit → ParseState → Prop) :
    popFrame.Gives state post ↔ post ⟨⟩ { state with scope := state.scope.pop.2 } := by
  simp [popFrame]

@[simp]
theorem gives_declare (declaration : Variable) (post : PUnit → ParseState → Prop) :
    (declare declaration).Gives state post ↔
      post ⟨⟩ { state with scope := state.scope.declare declaration.name declaration } := by
  simp [declare]

@[simp]
theorem gives_skipLexeme (post : Span → ParseState → Prop) :
    skipLexeme.Gives state post ↔ post state.cursor.current.span state.advance := by
  simp [skipLexeme]

@[simp]
theorem gives_here (post : Span → ParseState → Prop) :
    here.Gives state post ↔ post (.point state.cursor.current.span.start) state := by
  simp [here]

@[simp]
theorem gives_bad (defect : Defect) (post : Expr → ParseState → Prop) :
    (bad defect).Gives state post ↔
      post (.invalid state.cursor.current.span defect) state.advance := by
  simp [bad]

@[simp]
theorem gives_missing (defect : Defect) (post : Expr → ParseState → Prop) :
    (missing defect).Gives state post ↔
      post (.invalid (.point state.cursor.current.span.start) defect) state := by
  simp [missing]

theorem declareAll_gives (params : List Variable) :
    (params.forM declare).Gives state fun _ after => after.cursor = state.cursor := by
  induction params generalizing state with
  | nil => simp
  | cons param rest inductionHypothesis =>
      rw [List.forM, gives_bind, gives_declare]
      exact inductionHypothesis

/-! ## Loops -/

section Loops

variable {round : σ → Parser (Round σ β)} {post : β → ParseState → Prop}

/-- What a round of a loop has to say: if it goes on, it has read a lexeme and `further` holds of what
it goes on with; if it stops, `exit` holds of the result. -/
def Round.Post (before : ParseState) (further : σ → ParseState → Prop)
    (exit : β → ParseState → Prop) : Round σ β → ParseState → Prop
  | .again next, after =>
      after.cursor.remaining < before.cursor.remaining ∧ further next after
  | .done result, after => exit result after

/-- A larger bound gives the same result. -/
theorem repeatRound_mono {small large : Nat} (le : small ≤ large) {accumulated : σ}
    (given : (repeatRound round small accumulated).Gives state post) :
    (repeatRound round large accumulated).Gives state post := by
  induction small generalizing large accumulated state with
  | zero =>
      obtain ⟨result, after, ran, -⟩ := given
      cases ran
  | succ small inductionHypothesis =>
      cases large with
      | zero => omega
      | succ large =>
          simp only [repeatRound, gives_bind] at given ⊢
          refine given.mono fun outcome middle rest => ?_
          cases outcome with
          | again next => exact inductionHypothesis (by omega) rest
          | done result => exact rest

/-- A loop goes through one round; if it goes on, the rest is a loop. -/
theorem loop_gives_of_round {accumulated : σ}
    (first : (round accumulated).Gives state
      (Round.Post state (fun next after => (loop round next).Gives after post) post)) :
    (loop round accumulated).Gives state post := by
  simp only [loop, gives_bind, gives_remaining, repeatRound]
  refine first.mono fun outcome middle rest => ?_
  cases outcome with
  | again next =>
      obtain ⟨shorter, further⟩ := rest
      simp only [loop, gives_bind, gives_remaining] at further
      exact repeatRound_mono (by omega) further
  | done result =>
      rw [gives_pure]
      exact rest

/-- A loop whose rounds keep an invariant and read a lexeme whenever they go on has a result. -/
theorem loop_gives (invariant : σ → ParseState → Prop) (exit : β → ParseState → Prop)
    {accumulated : σ} (start : invariant accumulated state)
    (step : ∀ accumulated state, invariant accumulated state →
      (round accumulated).Gives state (Round.Post state invariant exit))
    (finish : ∀ result after, exit result after → post result after) :
    (loop round accumulated).Gives state post := by
  induction ahead : state.cursor.remaining using Nat.strongRecOn generalizing accumulated state with
  | ind count inductionHypothesis =>
      subst ahead
      refine loop_gives_of_round ((step accumulated state start).mono fun outcome after rest => ?_)
      cases outcome with
      | again next => exact ⟨rest.1, inductionHypothesis _ rest.1 rest.2 rfl⟩
      | done result => exact finish result after rest

end Loops

/-- Parsers run one after the other keep an invariant that each of them keeps, and each result is
related to its item. -/
theorem mapM_gives {parser : α → Parser β} (invariant : ParseState → Prop) (related : α → β → Prop)
    (items : List α) (start : invariant state)
    (step : ∀ item ∈ items, ∀ state, invariant state →
      (parser item).Gives state fun result after => invariant after ∧ related item result) :
    (items.mapM parser).Gives state fun results after =>
      invariant after ∧ List.Forall₂ related items results := by
  induction items generalizing state with
  | nil => simpa using start
  | cons item rest inductionHypothesis =>
      simp only [List.mapM_cons, gives_bind, gives_pure]
      refine (step item (by simp) state start).mono fun result after first => ?_
      have later := inductionHypothesis first.1 fun other member =>
        step other (List.mem_cons_of_mem item member)
      exact later.mono fun results last rest => ⟨rest.1, .cons first.2 rest.2⟩

end Parser

end Reckon
