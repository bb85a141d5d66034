import Reckon.Proofs.Tree.Relocate
import Reckon.Tree.Parser

/-!
# Parsing moved lexemes

The parser looks at places only to see whether two of them are the same.  So if lexemes are moved without
tearing them apart or pushing them together, the parser does the same, and what it builds is moved too.

`Parser.Moves image first second` says so of two parsers: from states that were moved, the second one does
what the first one does.  There is one rule for each way of putting parsers together, and one for each
elementary parser.
-/

namespace Reckon

variable {move : Relocation}

/-! ## Lexemes -/

mutual

/-- A lexeme with its span moved, and those of its replacements. -/
def Lexeme.relocate (move : Relocation) : Lexeme → Lexeme
  | .mk token lit span raw parts subs =>
      .mk token lit (span.relocate move) raw parts (Lexeme.relocateSubs move subs)

/-- The lexemes of replacements with their spans moved. -/
def Lexeme.relocateSubs (move : Relocation) : List (List Lexeme) → List (List Lexeme)
  | [] => []
  | lexemes :: rest => Lexeme.relocateAll move lexemes :: Lexeme.relocateSubs move rest

/-- Lexemes with their spans moved. -/
def Lexeme.relocateAll (move : Relocation) : List Lexeme → List Lexeme
  | [] => []
  | lexeme :: rest => lexeme.relocate move :: Lexeme.relocateAll move rest

end

namespace Lexeme

theorem relocateAll_eq_map (lexemes : List Lexeme) :
    relocateAll move lexemes = lexemes.map (relocate move) := by
  induction lexemes with
  | nil => rfl
  | cons first rest inductionHypothesis => rw [relocateAll, inductionHypothesis, List.map_cons]

theorem relocateSubs_eq_map (subs : List (List Lexeme)) :
    relocateSubs move subs = subs.map (List.map (relocate move)) := by
  induction subs with
  | nil => rfl
  | cons lexemes rest inductionHypothesis =>
      rw [relocateSubs, inductionHypothesis, relocateAll_eq_map, List.map_cons]

variable (lexeme : Lexeme)

@[simp]
theorem token_relocate : (lexeme.relocate move).token = lexeme.token := by
  cases lexeme
  rfl

@[simp]
theorem lit_relocate : (lexeme.relocate move).lit = lexeme.lit := by
  cases lexeme
  rfl

@[simp]
theorem span_relocate : (lexeme.relocate move).span = lexeme.span.relocate move := by
  cases lexeme
  rfl

@[simp]
theorem parts_relocate : (lexeme.relocate move).parts = lexeme.parts := by
  cases lexeme
  rfl

@[simp]
theorem subs_relocate :
    (lexeme.relocate move).subs = lexeme.subs.map (List.map (relocate move)) := by
  cases lexeme
  exact relocateSubs_eq_map _

@[simp]
theorem isSignificant_relocate : (lexeme.relocate move).isSignificant = lexeme.isSignificant := by
  cases lexeme
  rfl

end Lexeme

/-- A relocation that the parser does not notice: places are side by side after it as before, and what is
nowhere stays there. -/
structure Relocation.Steady (move : Relocation) : Prop where
  isAdjacent : ∀ left right, (move left).isAdjacent (move right) = left.isAdjacent right
  nowhere : move {} = {}

/-! ## Cursors -/

namespace Cursor

theorem aheadOf_map_relocate (lexemes : List Lexeme) :
    aheadOf (lexemes.map (Lexeme.relocate move)) = (aheadOf lexemes).map (Lexeme.relocate move) := by
  simp [aheadOf, List.takeWhile_map, List.filter_map, Function.comp_def]

/-- A cursor over lexemes that were moved. -/
def relocate (move : Relocation) (cursor : Cursor) : Cursor where
  ahead := cursor.ahead.map (Lexeme.relocate move)
  final := cursor.final.relocate move
  ahead_ne_eof := by
    simpa using cursor.ahead_ne_eof
  final_eq_eof := by
    simpa using cursor.final_eq_eof

variable (cursor : Cursor)

@[simp]
theorem current_relocate : (cursor.relocate move).current = cursor.current.relocate move := by
  change (cursor.ahead.map _).headD _ = (cursor.ahead.headD cursor.final).relocate move
  cases cursor.ahead <;> rfl

@[simp]
theorem advance_relocate : (cursor.relocate move).advance = cursor.advance.relocate move := by
  apply Cursor.ext
  · simp [advance, relocate]
  · rfl

@[simp]
theorem peek_relocate : (cursor.relocate move).peek = cursor.peek.relocate move := by
  rw [peek, advance_relocate, current_relocate, peek]

@[simp]
theorem remaining_relocate : (cursor.relocate move).remaining = cursor.remaining := by
  simp [remaining, relocate]

theorem finalOf_map_relocate (steady : move.Steady) (lexemes : List Lexeme) :
    finalOf (lexemes.map (Lexeme.relocate move)) = (finalOf lexemes).relocate move := by
  have found : (lexemes.map (Lexeme.relocate move)).find? (·.token.isEof) =
      (lexemes.find? (·.token.isEof)).map (Lexeme.relocate move) := by
    have same : (·.token.isEof) ∘ Lexeme.relocate move = (·.token.isEof) :=
      funext fun lexeme => congrArg Token.isEof lexeme.token_relocate
    rw [List.find?_map, same]
  have ended (position : Position) :
      (Lexeme.endOfSource position).relocate move = .endOfSource (move position) :=
    rfl
  rw [finalOf, finalOf, found, List.getLast?_map]
  cases lexemes.find? (·.token.isEof) with
  | some lexeme => rfl
  | none =>
      cases lexemes.getLast? with
      | some last =>
          simp only [Option.map_some, Option.map_none, ended, Lexeme.span_relocate]
          rfl
      | none =>
          simp only [Option.map_none, ended, steady.nowhere]

theorem ofLexemes_map_relocate (steady : move.Steady) (lexemes : List Lexeme) :
    ofLexemes (lexemes.map (Lexeme.relocate move)) = (ofLexemes lexemes).relocate move :=
  Cursor.ext (aheadOf_map_relocate lexemes) (finalOf_map_relocate steady lexemes)

end Cursor

/-! ## Scopes -/

namespace Frame

/-- A frame with its declarations moved. -/
def relocate (move : Relocation) (frame : Frame) : Frame :=
  { frame with
    declarations := frame.declarations.map fun entry => (entry.1, entry.2.relocate move) }

variable (frame : Frame)

theorem find?_relocate (name : String) :
    (frame.relocate move).find? name = (frame.find? name).map (Variable.relocate move) := by
  simp [find?, relocate, List.find?_map, Function.comp_def]

theorem declare_relocate (name : String) (declaration : Variable) :
    (frame.relocate move).declare name (declaration.relocate move) =
      (frame.declare name declaration).relocate move := by
  simp [declare, relocate, List.filter_map, Function.comp_def]

end Frame

namespace Scope

/-- A scope with its declarations moved. -/
def relocate (move : Relocation) (scope : Scope) : Scope :=
  { scope with frames := scope.frames.map (Frame.relocate move) }

variable (scope : Scope)

@[simp]
theorem current_relocate : (scope.relocate move).current = scope.current :=
  rfl

theorem frame?_relocate (id : FrameId) :
    (scope.relocate move).frame? id = (scope.frame? id).map (Frame.relocate move) := by
  unfold frame? relocate
  split <;> simp

theorem push_relocate :
    (scope.relocate move).push = (scope.push.1, scope.push.2.relocate move) := by
  simp [push, relocate, Frame.relocate]

theorem pop_relocate :
    (scope.relocate move).pop.2 = scope.pop.2.relocate move := by
  unfold pop
  rw [current_relocate]
  cases scope.current with
  | none => rfl
  | some id =>
      simp only [frame?_relocate, Option.bind_map]
      rfl

theorem declare_relocate (name : String) (declaration : Variable) :
    (scope.relocate move).declare name (declaration.relocate move) =
      (scope.declare name declaration).relocate move := by
  unfold declare
  rw [current_relocate]
  cases scope.current with
  | none => rfl
  | some id =>
      simp only [relocate, mk.injEq, true_and, and_true]
      apply Array.ext
      · simp
      · intro index _ _
        simp only [Array.getElem_modify, Array.getElem_map]
        split
        · exact Frame.declare_relocate _ name declaration
        · rfl

theorem chainFrom_relocate (bound : Nat) (start : Option FrameId) :
    (scope.relocate move).chainFrom bound start =
      (scope.chainFrom bound start).map fun entry => (entry.1, entry.2.relocate move) := by
  induction bound generalizing start with
  | zero => rfl
  | succ bound inductionHypothesis =>
      cases start with
      | none => rfl
      | some id =>
          rw [chainFrom, chainFrom, frame?_relocate]
          cases scope.frame? id with
          | none => rfl
          | some frame =>
              simp only [Option.map_some, List.map_cons, inductionHypothesis]
              rfl

@[simp]
theorem find?_relocate (name : String) : (scope.relocate move).find? name = scope.find? name := by
  have size : (scope.relocate move).frames.size = scope.frames.size := by
    simp [relocate]
  unfold find? chain
  rw [size, chainFrom_relocate, List.find?_map, Option.map_map]
  simp only [Function.comp_def, Frame.find?_relocate, Option.isSome_map, current_relocate]

end Scope

/-! ## States -/

namespace ParseState

/-- A state with its lexemes and its declarations moved. -/
def relocate (move : Relocation) (state : ParseState) : ParseState where
  cursor := state.cursor.relocate move
  previous := move state.previous
  scope := state.scope.relocate move

theorem advance_relocate (state : ParseState) :
    (state.relocate move).advance = state.advance.relocate move := by
  simp [advance, relocate, Span.relocate]

theorem start_map_relocate (steady : move.Steady) (lexemes : List Lexeme) (scope : Scope) :
    start (lexemes.map (Lexeme.relocate move)) (scope.relocate move) =
      (start lexemes scope).relocate move := by
  simp [start, relocate, Cursor.ofLexemes_map_relocate steady, Span.relocate]

end ParseState

/-! ## Parsers -/

namespace Parser

variable {α β γ δ : Type}

/-- From states that were moved, the second parser does what the first one does. The image says what
becomes of the result. -/
def Moves (move : Relocation) (image : α → β) (first : Parser α) (second : Parser β) : Prop :=
  ∀ state, second (state.relocate move) =
    (first state).map fun found => (image found.1, found.2.relocate move)

variable {image : α → β} {first : Parser α} {second : Parser β}

theorem moves_pure {result : α} {moved : β} (same : moved = image result) :
    Moves move image (pure result) (pure moved) := by
  intro state
  rw [same]
  rfl

theorem moves_failure : Moves move image failure failure :=
  fun _ => rfl

theorem moves_bind {then' : γ → δ} {firstRest : α → Parser γ} {secondRest : β → Parser δ}
    (head : Moves move image first second)
    (rest : ∀ result, Moves move then' (firstRest result) (secondRest (image result))) :
    Moves move then' (first >>= firstRest) (second >>= secondRest) := by
  intro state
  change (second (state.relocate move)).bind (fun found => secondRest found.1 found.2) =
    ((first state).bind fun found => firstRest found.1 found.2).map _
  rw [head state]
  cases first state with
  | none => rfl
  | some found => exact rest found.1 found.2

/-- A parser whose result has no places. -/
theorem moves_bind_same {then' : γ → δ} {first second : Parser α} {firstRest : α → Parser γ}
    {secondRest : α → Parser δ} (head : Moves move id first second)
    (rest : ∀ result, Moves move then' (firstRest result) (secondRest result)) :
    Moves move then' (first >>= firstRest) (second >>= secondRest) :=
  moves_bind head rest

theorem moves_map {then' : γ → δ} {firstChange : α → γ} {secondChange : β → δ}
    (head : Moves move image first second)
    (same : ∀ result, secondChange (image result) = then' (firstChange result)) :
    Moves move then' (firstChange <$> first) (secondChange <$> second) := by
  rw [map_eq_pure_bind, map_eq_pure_bind]
  exact moves_bind head fun result => moves_pure (same result)

theorem moves_ite {condition : Prop} [Decidable condition] {firstElse : Parser α}
    {secondElse : Parser β} (whenTrue : Moves move image first second)
    (whenFalse : Moves move image firstElse secondElse) :
    Moves move image (if condition then first else firstElse)
      (if condition then second else secondElse) := by
  split
  · exact whenTrue
  · exact whenFalse

/-! ### Elementary parsers -/

theorem moves_current : Moves move (Lexeme.relocate move) current current := by
  intro state
  change some (_, _) = some (_, _)
  exact congrArg some (Prod.ext (Cursor.current_relocate _) rfl)

theorem moves_token : Moves move id token token :=
  moves_bind moves_current fun lexeme => moves_pure lexeme.token_relocate

theorem moves_peekToken : Moves move id peekToken peekToken := by
  intro state
  change some (_, _) = some (_, _)
  refine congrArg some (Prod.ext ?_ rfl)
  exact (congrArg Lexeme.token (Cursor.peek_relocate _)).trans (Lexeme.token_relocate _)

theorem moves_previous : Moves move move previous previous :=
  fun _ => rfl

theorem moves_remaining : Moves move id remaining remaining := by
  intro state
  change some (_, _) = some (_, _)
  exact congrArg some (Prod.ext (Cursor.remaining_relocate _) rfl)

theorem moves_advance : Moves move id advance advance := by
  intro state
  change some (_, _) = some (_, _)
  exact congrArg some (Prod.ext rfl (ParseState.advance_relocate state))

theorem moves_accept (expected : Token) : Moves move id (accept expected) (accept expected) := by
  refine moves_bind_same moves_token fun token => moves_ite ?_ (moves_pure rfl)
  exact moves_bind_same moves_advance fun _ => moves_pure rfl

theorem moves_spanFrom (start : Position) :
    Moves move (Span.relocate move) (spanFrom start) (spanFrom (move start)) :=
  moves_bind moves_previous fun _ => moves_pure rfl

theorem moves_findFrame (name : String) : Moves move id (findFrame name) (findFrame name) := by
  intro state
  change some (_, _) = some (_, _)
  exact congrArg some (Prod.ext (Scope.find?_relocate _ name) rfl)

theorem moves_currentFrame : Moves move id currentFrame currentFrame :=
  fun _ => rfl

theorem moves_pushFrame : Moves move id pushFrame pushFrame := by
  intro state
  change some (_, _) = some (_, _)
  have pushed : (state.scope.relocate move).push = _ := Scope.push_relocate state.scope
  exact congrArg (fun entered : FrameId × Scope =>
    some (entered.1, ParseState.mk (state.cursor.relocate move) (move state.previous) entered.2)) pushed

theorem moves_popFrame : Moves move id popFrame popFrame := by
  intro state
  change some (_, _) = some (_, _)
  refine congrArg some (Prod.ext rfl ?_)
  exact congrArg (ParseState.mk _ _) (Scope.pop_relocate state.scope)

theorem moves_declare (declaration : Variable) :
    Moves move id (declare declaration) (declare (declaration.relocate move)) := by
  intro state
  change some (_, _) = some (_, _)
  refine congrArg some (Prod.ext rfl ?_)
  exact congrArg (ParseState.mk _ _) (Scope.declare_relocate state.scope _ declaration)

theorem moves_skipLexeme : Moves move (Span.relocate move) skipLexeme skipLexeme := by
  refine moves_bind moves_current fun lexeme => ?_
  exact moves_bind_same moves_advance fun _ => moves_pure lexeme.span_relocate

theorem moves_here : Moves move (Span.relocate move) here here := by
  refine moves_bind moves_current fun lexeme => moves_pure ?_
  rw [Lexeme.span_relocate]
  rfl

theorem moves_bad (defect : Defect) : Moves move (Expr.relocate move) (bad defect) (bad defect) :=
  moves_bind moves_skipLexeme fun _ => moves_pure rfl

theorem moves_missing (defect : Defect) :
    Moves move (Expr.relocate move) (missing defect) (missing defect) :=
  moves_bind moves_here fun _ => moves_pure rfl

/-! ### Loops and lists -/

/-- What becomes of a round. -/
def Round.map {σ τ : Type} (again : σ → τ) (done : α → β) : Round σ α → Round τ β
  | .again state => .again (again state)
  | .done result => .done (done result)

theorem moves_loop {σ τ : Type} (again : σ → τ) (image : α → β)
    {firstRound : σ → Parser (Round σ α)} {secondRound : τ → Parser (Round τ β)}
    (round : ∀ state, Moves move (Round.map again image) (firstRound state)
      (secondRound (again state))) (start : σ) :
    Moves move image (loop firstRound start) (loop secondRound (again start)) := by
  have repeated (bound : Nat) (start : σ) : Moves move image (repeatRound firstRound bound start)
      (repeatRound secondRound bound (again start)) := by
    induction bound generalizing start with
    | zero => exact moves_failure
    | succ bound inductionHypothesis =>
        refine moves_bind (round start) fun found => ?_
        cases found with
        | again next => exact inductionHypothesis next
        | done result => exact moves_pure rfl
  exact moves_bind_same moves_remaining fun bound => repeated _ start

theorem moves_mapM {σ τ : Type} (change : σ → τ) (firstEach : σ → Parser α)
    (secondEach : τ → Parser β)
    (each : ∀ item, Moves move image (firstEach item) (secondEach (change item))) (items : List σ) :
    Moves move (List.map image) (items.mapM firstEach) ((items.map change).mapM secondEach) := by
  induction items with
  | nil => exact moves_pure rfl
  | cons first rest inductionHypothesis =>
      rw [List.map_cons, List.mapM_cons, List.mapM_cons]
      refine moves_bind (each first) fun result => ?_
      exact moves_bind inductionHypothesis fun others => moves_pure rfl

end Parser

end Reckon
