import Reckon.Proofs.Parsing.Outcome

/-!
# What a parser ensures

`Ensures parser state post` says that the result of a parser from `state`, if there is one, and the
state after it satisfy `post`.  It says nothing about bounds, so its rules take a parser apart without
a measure of what is left to read.
-/

namespace Reckon

/-- The scopes after the declaration of some names. -/
def Scope.declareAll (scope : Scope) (params : List Variable) : Scope :=
  params.foldl (fun scope param => scope.declare param.name param) scope

namespace Parser

variable {α β σ : Type} {state : ParseState}

/-- If the parser has a result from `state`, the result satisfies `post`. -/
def Ensures (parser : Parser α) (state : ParseState) (post : α → ParseState → Prop) : Prop :=
  ∀ result after, parser state = some (result, after) → post result after

theorem Ensures.mono {parser : Parser α} {weak strong : α → ParseState → Prop}
    (ensured : parser.Ensures state strong)
    (implied : ∀ result after, strong result after → weak result after) :
    parser.Ensures state weak :=
  fun result after ran => implied result after (ensured result after ran)

theorem Ensures.of_gives {parser : Parser α} {post : α → ParseState → Prop}
    (given : parser.Gives state post) : parser.Ensures state post := by
  obtain ⟨result, after, ran, satisfied⟩ := given
  intro other last also
  rw [ran] at also
  cases also
  exact satisfied

/-- A parser that gives one thing ensures it. -/
theorem ensures_iff_of_gives_iff {parser : Parser α} {result : α} {after : ParseState}
    (gives : ∀ post : α → ParseState → Prop, parser.Gives state post ↔ post result after)
    (post : α → ParseState → Prop) : parser.Ensures state post ↔ post result after := by
  obtain ⟨_, _, ran, rfl, rfl⟩ := (gives fun value last => value = result ∧ last = after).mpr ⟨rfl, rfl⟩
  constructor
  · intro ensured
    exact ensured _ _ ran
  · intro satisfied
    exact .of_gives ((gives post).mpr satisfied)

theorem ensures_failure (post : α → ParseState → Prop) :
    (failure : Parser α).Ensures state post :=
  nofun

@[simp]
theorem ensures_pure (value : α) (post : α → ParseState → Prop) :
    (pure value : Parser α).Ensures state post ↔ post value state :=
  ensures_iff_of_gives_iff (gives_pure value) post

@[simp]
theorem ensures_bind (parser : Parser α) (next : α → Parser β) (post : β → ParseState → Prop) :
    (parser >>= next).Ensures state post ↔
      parser.Ensures state fun value after => (next value).Ensures after post := by
  constructor
  · intro ensured value middle first result after second
    refine ensured result after ?_
    simp [bind, StateT.bind, first, second]
  · intro ensured result after ran
    cases first : parser state with
    | none => simp [bind, StateT.bind, first] at ran
    | some found =>
        refine ensured found.1 found.2 first result after ?_
        simpa [bind, StateT.bind, first] using ran

@[simp]
theorem ensures_map (parser : Parser α) (change : α → β) (post : β → ParseState → Prop) :
    (change <$> parser).Ensures state post ↔
      parser.Ensures state fun value after => post (change value) after := by
  rw [map_eq_pure_bind, ensures_bind]
  simp only [ensures_pure]

@[simp]
theorem ensures_ite (condition : Prop) [Decidable condition] (yes no : Parser α)
    (post : α → ParseState → Prop) :
    (if condition then yes else no).Ensures state post ↔
      (condition → yes.Ensures state post) ∧ (¬condition → no.Ensures state post) := by
  split <;> simp_all

/-! ## Elementary parsers -/

@[simp]
theorem ensures_get (post : ParseState → ParseState → Prop) :
    (get : Parser ParseState).Ensures state post ↔ post state state :=
  ensures_iff_of_gives_iff gives_get post

@[simp]
theorem ensures_set (next : ParseState) (post : PUnit → ParseState → Prop) :
    (set next : Parser PUnit).Ensures state post ↔ post ⟨⟩ next :=
  ensures_iff_of_gives_iff (gives_set next) post

@[simp]
theorem ensures_modify (change : ParseState → ParseState) (post : PUnit → ParseState → Prop) :
    (modify change : Parser PUnit).Ensures state post ↔ post ⟨⟩ (change state) :=
  ensures_iff_of_gives_iff (gives_modify change) post

@[simp]
theorem ensures_current (post : Lexeme → ParseState → Prop) :
    current.Ensures state post ↔ post state.cursor.current state :=
  ensures_iff_of_gives_iff gives_current post

@[simp]
theorem ensures_token (post : Token → ParseState → Prop) :
    token.Ensures state post ↔ post state.token state :=
  ensures_iff_of_gives_iff gives_token post

@[simp]
theorem ensures_peekToken (post : Token → ParseState → Prop) :
    peekToken.Ensures state post ↔ post state.cursor.peek.token state :=
  ensures_iff_of_gives_iff gives_peekToken post

@[simp]
theorem ensures_remaining (post : Nat → ParseState → Prop) :
    remaining.Ensures state post ↔ post state.cursor.remaining state :=
  ensures_iff_of_gives_iff gives_remaining post

@[simp]
theorem ensures_advance (post : PUnit → ParseState → Prop) :
    advance.Ensures state post ↔ post ⟨⟩ state.advance :=
  ensures_iff_of_gives_iff gives_advance post

@[simp]
theorem ensures_accept (expected : Token) (post : Bool → ParseState → Prop) :
    (accept expected).Ensures state post ↔
      (state.token = expected → post true state.advance) ∧
        (state.token ≠ expected → post false state) := by
  simp [accept]

/-- A test of what `accept` returned, where it returned `true`. -/
theorem accepted_iff (yes no : Prop) : (True → yes) ∧ (¬True → no) ↔ yes := by
  simp

/-- A test of what `accept` returned, where it returned `false`. -/
theorem refused_iff (yes no : Prop) : (false = true → yes) ∧ (¬false = true → no) ↔ no := by
  simp

@[simp]
theorem ensures_spanFrom (start : Position) (post : Span → ParseState → Prop) :
    (spanFrom start).Ensures state post ↔ post ⟨start, state.previous⟩ state :=
  ensures_iff_of_gives_iff (gives_spanFrom start) post

@[simp]
theorem ensures_findFrame (name : String) (post : Option FrameId → ParseState → Prop) :
    (findFrame name).Ensures state post ↔ post (state.scope.find? name) state :=
  ensures_iff_of_gives_iff (gives_findFrame name) post

@[simp]
theorem ensures_currentFrame (post : Option FrameId → ParseState → Prop) :
    currentFrame.Ensures state post ↔ post state.scope.current state :=
  ensures_iff_of_gives_iff gives_currentFrame post

@[simp]
theorem ensures_pushFrame (post : FrameId → ParseState → Prop) :
    pushFrame.Ensures state post ↔
      post state.scope.push.1 { state with scope := state.scope.push.2 } :=
  ensures_iff_of_gives_iff gives_pushFrame post

@[simp]
theorem ensures_popFrame (post : PUnit → ParseState → Prop) :
    popFrame.Ensures state post ↔ post ⟨⟩ { state with scope := state.scope.pop.2 } :=
  ensures_iff_of_gives_iff gives_popFrame post

@[simp]
theorem ensures_declare (declaration : Variable) (post : PUnit → ParseState → Prop) :
    (declare declaration).Ensures state post ↔
      post ⟨⟩ { state with scope := state.scope.declare declaration.name declaration } :=
  ensures_iff_of_gives_iff (gives_declare declaration) post

@[simp]
theorem ensures_skipLexeme (post : Span → ParseState → Prop) :
    skipLexeme.Ensures state post ↔ post state.cursor.current.span state.advance :=
  ensures_iff_of_gives_iff gives_skipLexeme post

@[simp]
theorem ensures_here (post : Span → ParseState → Prop) :
    here.Ensures state post ↔ post (.point state.cursor.current.span.start) state :=
  ensures_iff_of_gives_iff gives_here post

@[simp]
theorem ensures_bad (defect : Defect) (post : Expr → ParseState → Prop) :
    (bad defect).Ensures state post ↔
      post (.invalid state.cursor.current.span defect) state.advance :=
  ensures_iff_of_gives_iff (gives_bad defect) post

@[simp]
theorem ensures_missing (defect : Defect) (post : Expr → ParseState → Prop) :
    (missing defect).Ensures state post ↔
      post (.invalid (.point state.cursor.current.span.start) defect) state :=
  ensures_iff_of_gives_iff (gives_missing defect) post

@[simp]
theorem ensures_declareAll (params : List Variable) (post : PUnit → ParseState → Prop) :
    (params.forM declare).Ensures state post ↔
      post ⟨⟩ { state with scope := state.scope.declareAll params } := by
  induction params generalizing state with
  | nil => exact ensures_pure _ _
  | cons param rest inductionHypothesis =>
      rw [List.forM, ensures_bind, ensures_declare, inductionHypothesis]
      rfl

/-! ## Loops -/

/-- A round that goes on keeps the invariant, and one that ends has a result as it should be. -/
def Round.Meets (invariant : σ → ParseState → Prop) (post : β → ParseState → Prop) :
    Round σ β → ParseState → Prop
  | .again next => invariant next
  | .done result => post result

/-- A loop whose rounds keep an invariant. -/
theorem loop_ensures {round : σ → Parser (Round σ β)} {post : β → ParseState → Prop}
    (invariant : σ → ParseState → Prop) {accumulated : σ} (start : invariant accumulated state)
    (step : ∀ accumulated state, invariant accumulated state →
      (round accumulated).Ensures state (Round.Meets invariant post)) :
    (loop round accumulated).Ensures state post := by
  simp only [loop, ensures_bind, ensures_remaining]
  generalize state.cursor.remaining + 1 = bound
  induction bound generalizing accumulated state with
  | zero => exact ensures_failure _
  | succ bound inductionHypothesis =>
      simp only [repeatRound, ensures_bind]
      refine (step accumulated state start).mono fun outcome after kept => ?_
      cases outcome with
      | again next => exact inductionHypothesis kept
      | done result =>
          rw [ensures_pure]
          exact kept

end Parser

end Reckon
