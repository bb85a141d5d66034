import Reckon.Proofs.Parsing.BuildsMarkup
import Reckon.Proofs.Parsing.ReadsExpression
import Reckon.Proofs.RoundTrip.Juxtaposition

/-!
# What an expression opens with

The first lexeme of an expression tells whether anything is read at all: an operand is missing exactly
before a lexeme that ends operands.  And an expression that is a name or an element and nothing else was
read from one.  Every other expression is built of more, whatever level of precedence it belongs to: a
level either leaves its operand alone, and reads nothing behind it, or builds a tree with it.
-/

namespace Reckon

/-- Whether a tree is neither a missing operand, nor a name alone, nor an element. -/
def Expr.isBuilt : Expr → Bool
  | .empty _ | .var _ | .markup .. => false
  | _ => true

/-- Whether a tree is an element. -/
def Expr.isMarkup : Expr → Bool
  | .markup .. => true
  | _ => false

theorem Expr.isBuilt_assign (target value : Expr) : (assign target value).isBuilt = true := by
  unfold assign
  split <;> rfl

namespace Grammar

open Reckon.Parser

/-- What the first lexeme says about a tree: a missing operand stands before a lexeme that ends operands,
a name alone is the first lexeme, and an element has its bracket there. -/
structure BeginsWith (before : ParseState) (tree : Expr) : Prop where
  missing : tree.isEmpty = true → before.token.endsOperand = true
  name : ∀ name, tree = .var name → before.token = .name ∧ name.name = before.cursor.current.lit
  markup : tree.isMarkup = true → before.token = .less

theorem BeginsWith.of_isBuilt {before : ParseState} {tree : Expr} (built : tree.isBuilt = true) :
    BeginsWith before tree := by
  cases tree with
  | empty | var | markup => cases built
  | _ => exact ⟨nofun, nofun, nofun⟩

theorem BeginsWith.of_isMarkup {before : ParseState} {tree : Expr} (less : before.token = .less)
    (element : tree.isMarkup = true) : BeginsWith before tree := by
  cases tree with
  | markup => exact ⟨nofun, nofun, fun _ => less⟩
  | _ => cases element

/-- The trees of a parser open with the first lexeme. -/
abbrev OpensExpr (parser : Parser Expr) (state : ParseState) : Prop :=
  parser.Ensures state fun tree _ => BeginsWith state tree

/-- The parser gives built trees only. -/
abbrev BuiltExpr (parser : Parser Expr) (state : ParseState) : Prop :=
  parser.Ensures state fun tree _ => tree.isBuilt = true

/-- The parser gives elements and built trees only. -/
abbrev ElementExpr (parser : Parser Expr) (state : ParseState) : Prop :=
  parser.Ensures state fun tree _ => tree.isMarkup = true ∨ tree.isBuilt = true

/-- The grammar has elements where it should. -/
def BuildsElements (grammar : Grammar) : Prop :=
  ∀ state, ElementExpr grammar.markup state

/-- A tree is the operand at a place, and nothing was read behind it, or it is built. -/
def OperandOrBuilt (inner : Grammar) (before : ParseState) (tree : Expr) (after : ParseState) : Prop :=
  inner.operand before = some (tree, after) ∨ tree.isBuilt = true

/-- The parser leaves the operand alone or builds a tree with it. -/
abbrev KeepsOperand (inner : Grammar) (parser : Parser Expr) (state : ParseState) : Prop :=
  parser.Ensures state (inner.OperandOrBuilt state)

/-- A round that goes on has built a tree, and one that ends has built one or does nothing. -/
def BuildsOrStays (operand : Expr) (state : ParseState) : Round Expr Expr → ParseState → Prop :=
  Round.Meets (fun tree _ => tree.isBuilt = true) fun tree after =>
    tree = operand ∧ after = state ∨ tree.isBuilt = true

variable {inner : Grammar} {first state : ParseState}

theorem OpensExpr.of_built {parser : Parser Expr} (built : BuiltExpr parser state) :
    OpensExpr parser state :=
  built.mono fun _ _ => .of_isBuilt

theorem KeepsOperand.of_built {parser : Parser Expr} (built : BuiltExpr parser state) :
    inner.KeepsOperand parser state :=
  built.mono fun _ _ => .inr

/-- Whatever was read, the tree that is made of it has a property. -/
theorem bind_built {α β : Type} {parser : Parser α} {make : α → Parser β} {post : β → Prop}
    (built : ∀ result after, (make result).Ensures after fun tree _ => post tree) :
    (parser >>= make).Ensures state fun tree _ => post tree := by
  rw [ensures_bind]
  exact fun result after _ => built result after

theorem loop_keepsOperand {round : Expr → Parser (Round Expr Expr)} {operand : Expr}
    (start : inner.OperandOrBuilt first operand state)
    (step : ∀ left place, (round left).Ensures place (BuildsOrStays left place)) :
    (loop round operand).Ensures state (inner.OperandOrBuilt first) := by
  refine loop_ensures (fun left place => inner.OperandOrBuilt first left place) start
    fun left place keeps => ?_
  refine (step left place).mono fun outcome after met => ?_
  cases outcome with
  | again tree => exact .inr met
  | done tree =>
      obtain ⟨rfl, rfl⟩ | built := met
      · exact keeps
      · exact .inr built

/-! ## Operands -/

theorem literal_built (value : Literal) : BuiltExpr (literal value) state := by
  simp only [BuiltExpr, literal, ensures_bind, ensures_skipLexeme, ensures_pure]
  rfl

theorem bad_built (defect : Defect) : BuiltExpr (bad defect) state := by
  rw [BuiltExpr, ensures_bad]
  rfl

theorem number_built : BuiltExpr number state := by
  refine bind_built fun lexeme after => ?_
  split
  · exact literal_built _
  · exact bad_built _

theorem operand_opens (elements : inner.BuildsElements) : OpensExpr inner.operand state := by
  have string : BuiltExpr (do literal (.string (← current).lit)) state :=
    bind_built fun _ _ => literal_built _
  have parenthesized : BuiltExpr (do
      let start := (← current).span.start
      advance
      let list ← inner.items .rightParen .parenExpected
      return .arguments (← spanFrom start) list) state :=
    bind_built fun _ _ => bind_built fun _ _ => bind_built fun _ _ => bind_built fun _ _ =>
      (ensures_pure _ _).mpr rfl
  have template : BuiltExpr inner.template state :=
    bind_built fun _ _ => bind_built fun _ _ => bind_built fun _ _ => (ensures_pure _ _).mpr rfl
  have matrix : BuiltExpr inner.matrix state :=
    bind_built fun _ _ => bind_built fun _ _ => bind_built fun _ _ => bind_built fun _ _ =>
      (ensures_pure _ _).mpr rfl
  have object : BuiltExpr inner.object state :=
    bind_built fun _ _ => bind_built fun _ _ => bind_built fun _ _ => bind_built fun _ _ =>
      (ensures_pure _ _).mpr rfl
  have missing (ends : state.token.endsOperand = true) :
      OpensExpr (do return .empty (← here)) state := by
    simp only [OpensExpr, ensures_bind, ensures_here, ensures_pure]
    refine ⟨fun _ => ends, ?_, ?_⟩
    · rintro name ⟨⟩
    · rintro ⟨⟩
  rw [OpensExpr, operand, ensures_bind, ensures_token]
  split
  · exact OpensExpr.of_built number_built
  · exact OpensExpr.of_built string
  · exact OpensExpr.of_built (bad_built _)
  · exact OpensExpr.of_built template
  iterate 3 exact OpensExpr.of_built (literal_built _)
  · next isName =>
    simp only [ensures_bind, ensures_variableRead, ensures_pure]
    refine ⟨?_, ?_, ?_⟩
    · rintro ⟨⟩
    · rintro name ⟨⟩
      exact ⟨isName, rfl⟩
    · rintro ⟨⟩
  · exact OpensExpr.of_built parenthesized
  · exact OpensExpr.of_built matrix
  · exact OpensExpr.of_built object
  · next less =>
    refine (elements state).mono fun tree _ made => ?_
    rcases made with element | built
    · exact .of_isMarkup less element
    · exact .of_isBuilt built
  · exact OpensExpr.of_built (bad_built _)
  iterate 7
    next ends => exact missing (by rw [ends]; rfl)
  exact OpensExpr.of_built (bad_built _)

theorem postfixRound_builds_or_stays (owner : Expr) :
    (inner.postfixRound owner).Ensures state (BuildsOrStays owner state) := by
  rw [postfixRound, ensures_bind, ensures_token]
  split
  · simp only [ensures_ite, ensures_bind, ensures_advance, ensures_spanFrom, ensures_pure]
    exact ⟨fun _ => .inl ⟨rfl, rfl⟩, fun _ _ _ _ => rfl⟩
  · simp only [ensures_ite, ensures_bind, ensures_advance, ensures_token, ensures_identifierRead,
      ensures_missing, ensures_pure]
    exact ⟨fun _ => rfl, fun _ => .inr rfl⟩
  · simp only [ensures_bind, ensures_advance, ensures_spanFrom, ensures_pure]
    rfl
  · rw [ensures_pure]
    exact .inl ⟨rfl, rfl⟩

theorem postfixed_keepsOperand (inner : Grammar) (state : ParseState) :
    inner.KeepsOperand inner.postfixed state := by
  rw [KeepsOperand, postfixed, ensures_bind]
  exact fun operand middle ran =>
    loop_keepsOperand (.inl ran) fun owner _ => postfixRound_builds_or_stays owner

theorem signed_keepsOperand (inner : Grammar) (state : ParseState) :
    inner.KeepsOperand inner.signed state := by
  rw [KeepsOperand, signed, ensures_bind, ensures_token]
  split
  · refine KeepsOperand.of_built (bind_built fun _ _ => bind_built fun _ _ => bind_built fun _ _ => ?_)
    exact (ensures_pure _ _).mpr rfl
  · exact postfixed_keepsOperand inner state

/-! ## Operators between operands -/

theorem operatorRound_builds_or_stays (op : BinaryOp) (operand : Parser Expr) (left : Expr)
    (before : ParseState) :
    (inner.operatorRound op operand left).Ensures state (BuildsOrStays left before) := by
  simp only [operatorRound, ensures_bind, ensures_current, ensures_advance]
  intro isCompound middle _
  simp only [ensures_ite, ensures_bind, ensures_pure]
  exact ⟨fun _ _ _ _ => .inr (Expr.isBuilt_assign _ _), fun _ _ _ _ => rfl⟩

/-- A base is left alone, unless an exponent follows. -/
theorem power_keepsOperand (inner : Grammar) (state : ParseState) :
    inner.KeepsOperand inner.power state := by
  rw [KeepsOperand, power, ensures_bind]
  refine (signed_keepsOperand inner state).mono fun base middle keeps => ?_
  refine loop_ensures (fun exponents place => exponents = [] → place = middle) (fun _ => rfl)
    fun exponents last stays => ?_
  simp only [powerRound, ensures_bind, ensures_token, ensures_ite, ensures_current, ensures_advance,
    ensures_pure]
  refine ⟨fun _ => fun isCompound after _ => ⟨fun _ _ _ _ => ?_, fun _ next _ _ => ?_⟩, fun _ => ?_⟩
  · exact .inr (Expr.isBuilt_assign _ _)
  · exact fun none => absurd none (List.append_ne_nil_of_right_ne_nil _ (List.cons_ne_nil _ _))
  · cases exponents with
    | nil =>
        obtain rfl := stays rfl
        exact keeps
    | cons next rest => exact .inr rfl

theorem productRound_builds_or_stays (left : Expr) :
    (inner.productRound left).Ensures state (BuildsOrStays left state) := by
  have besides : (do return .again (Expr.juxtapose left (← inner.power))
      : Parser (Round Expr Expr)).Ensures state (BuildsOrStays left state) := by
    simp only [ensures_bind, ensures_pure]
    exact fun _ _ _ => rfl
  rw [productRound, ensures_bind, ensures_token]
  split
  · exact operatorRound_builds_or_stays _ _ left _
  · split
    iterate 7 exact besides
    · rw [ensures_ite, ensures_pure]
      exact ⟨fun _ => besides, fun _ => .inl ⟨rfl, rfl⟩⟩
    · rw [ensures_pure]
      exact .inl ⟨rfl, rfl⟩

theorem product_keepsOperand (inner : Grammar) (state : ParseState) :
    inner.KeepsOperand inner.product state := by
  rw [KeepsOperand, product, ensures_bind]
  exact (power_keepsOperand inner state).mono fun _ _ keeps =>
    loop_keepsOperand keeps fun left _ => productRound_builds_or_stays left

theorem sum_keepsOperand (inner : Grammar) (state : ParseState) :
    inner.KeepsOperand inner.sum state := by
  rw [KeepsOperand, sum, ensures_bind]
  refine (product_keepsOperand inner state).mono fun _ _ keeps =>
    loop_keepsOperand keeps fun left _ => ?_
  rw [sumRound, ensures_bind, ensures_token]
  split
  · exact operatorRound_builds_or_stays _ _ left _
  · rw [ensures_pure]
    exact .inl ⟨rfl, rfl⟩

theorem leftChain_keepsOperand (operator? : Token → Option BinaryOp) {operand : Parser Expr}
    (keeps : inner.KeepsOperand operand state) :
    inner.KeepsOperand (leftChain operator? operand) state := by
  rw [KeepsOperand, leftChain, ensures_bind]
  refine keeps.mono fun _ _ keeps => loop_keepsOperand keeps fun left _ => ?_
  rw [chainRound, ensures_bind, ensures_token]
  split
  · simp only [ensures_bind, ensures_advance, ensures_pure]
    exact fun _ _ _ => rfl
  · rw [ensures_pure]
    exact .inl ⟨rfl, rfl⟩

theorem pipe_keepsOperand (inner : Grammar) (state : ParseState) :
    inner.KeepsOperand inner.pipe state := by
  have comparison : inner.KeepsOperand inner.comparison state :=
    leftChain_keepsOperand _ (sum_keepsOperand inner state)
  have conjunction : inner.KeepsOperand inner.conjunction state :=
    leftChain_keepsOperand _ (leftChain_keepsOperand _ comparison)
  exact leftChain_keepsOperand _ (leftChain_keepsOperand _ conjunction)

theorem range_keepsOperand (inner : Grammar) (state : ParseState) :
    inner.KeepsOperand inner.range state := by
  simp only [KeepsOperand, range, ensures_bind, ensures_token, ensures_ite, ensures_advance,
    ensures_pure]
  refine (pipe_keepsOperand inner state).mono fun first middle keeps => ⟨fun _ => ?_, fun _ => keeps⟩
  refine fun second after _ accepted last _ => ⟨fun _ _ _ _ => ?_, fun _ => ?_⟩
  · exact .inr rfl
  · exact .inr rfl

theorem conditional_keepsOperand (inner : Grammar) (state : ParseState) :
    inner.KeepsOperand inner.conditional state := by
  simp only [KeepsOperand, conditional, ensures_bind, ensures_token, ensures_ite, ensures_advance,
    ensures_pure]
  refine (range_keepsOperand inner state).mono fun test middle keeps => ⟨fun _ => ?_, fun _ => keeps⟩
  refine fun whenTrue after _ accepted last _ => ⟨fun _ _ _ _ => ?_, fun _ _ _ _ => ?_⟩
  · exact .inr rfl
  · exact .inr rfl

/-! ## Functions and assignments -/

theorem function_keepsOperand (inner : Grammar) (state : ParseState) :
    inner.KeepsOperand inner.function state := by
  simp only [KeepsOperand, function, ensures_bind, ensures_token, ensures_ite, ensures_pure]
  refine (conditional_keepsOperand inner state).mono fun head middle keeps =>
    ⟨fun _ => ?_, fun _ => keeps⟩
  split
  · rw [ensures_pure]
    exact keeps
  · simp only [ensures_bind, ensures_advance, ensures_pushFrame, ensures_declareAll, ensures_ite,
      ensures_popFrame, ensures_pure, ensures_token, ensures_map]
    refine ⟨fun _ _ _ _ => ⟨fun _ => ?_, fun _ => ?_⟩, fun _ _ _ _ => ⟨fun _ => ?_, fun _ => ?_⟩⟩
    all_goals exact .inr rfl

theorem assignment_keepsOperand (inner : Grammar) (state : ParseState) :
    inner.KeepsOperand inner.assignment state := by
  simp only [KeepsOperand, assignment, ensures_bind, ensures_token, ensures_ite, ensures_advance,
    ensures_pure]
  refine (function_keepsOperand inner state).mono fun target middle keeps =>
    ⟨fun _ => ?_, fun _ => keeps⟩
  exact fun value after _ => .inr (Expr.isBuilt_assign _ _)

theorem assignment_opens (elements : inner.BuildsElements) : OpensExpr inner.assignment state :=
  (assignment_keepsOperand inner state).mono fun tree after keeps => by
    rcases keeps with ran | built
    · exact operand_opens elements tree after ran
    · exact .of_isBuilt built

/-- An expression that is an element is one from its first lexeme on. -/
theorem assignment_ensures_element (elements : inner.BuildsElements) :
    inner.assignment.Ensures state fun tree after => tree.isMarkup = true →
      state.token = .less ∧ inner.markup state = some (tree, after) := by
  refine (assignment_keepsOperand inner state).mono fun tree after keeps element => ?_
  rcases keeps with ran | built
  · have less := (operand_opens elements tree after ran).markup element
    have isElement : inner.operand.Ensures state fun tree after =>
        inner.markup state = some (tree, after) := by
      rw [operand, ensures_bind, ensures_token, less]
      exact fun _ _ ran => ran
    exact ⟨less, isElement tree after ran⟩
  · cases tree with
    | markup => cases built
    | _ => cases element

/-! ## Elements -/

/-- An element is a markup tree or reported as a whole. -/
theorem element_built : ElementExpr inner.element state := by
  have reported {parser : Parser Span} {defect : Defect} {middle : ParseState} :
      ElementExpr (do return .invalid (← parser) defect) middle :=
    bind_built fun _ _ => (ensures_pure _ _).mpr (.inr rfl)
  refine bind_built fun lexeme _ => bind_built fun _ _ => bind_built fun next _ => ?_
  split
  · exact bind_built fun _ _ => reported
  · refine bind_built fun opening _ => bind_built fun entries _ => ?_
    split
    · exact reported
    · exact bind_built fun _ _ => (ensures_pure _ _).mpr (.inl rfl)
    · refine bind_built fun list _ => ?_
      split
      · exact reported
      · refine bind_built fun _ _ => bind_built fun _ _ => bind_built fun _ _ =>
          bind_built fun _ _ => ?_
        split
        · refine bind_built fun _ _ => ?_
          split
          · exact (ensures_pure _ _).mpr (.inl rfl)
          · exact (ensures_pure _ _).mpr (.inr rfl)
        · exact reported

theorem buildsElements_ofDepth (depth : Nat) : (ofDepth depth).BuildsElements := by
  intro state
  cases depth with
  | zero => exact ensures_failure _
  | succ depth => exact element_built

end Grammar

/-! ## Expressions as programs

A source can be read as one expression or as a list of statements.  Both readers pass over semicolons,
call the same parser of expressions and want to be at the end of the source then; the first one reports
what is left over as factors that do not belong there, the second one as statements.  So a source that
is an expression from its first lexeme to its last is the same tree for both. -/

/-- Whether a statement that is no expression starts with a lexeme of this class. -/
def Token.startsStatement : Token → Bool
  | .leftBrace | .kwIf | .kwWhile | .kwFor | .kwReturn | .kwBreak | .kwContinue | .kwLet => true
  | _ => false

/-- The first significant lexeme other than a semicolon. -/
def Lexeme.opening? (lexemes : List Lexeme) : Option Lexeme :=
  (Cursor.aheadOf lexemes).find? (·.token != .semicolon)

/-- The program that is one expression: no statement if nothing is written, and one otherwise. -/
def Expr.program (tree : Expr) : List Stmt :=
  if tree.isEmpty then [] else [.expr tree]

/-! ## Passing over semicolons -/

namespace ParseState

/-- The lexemes between two places are semicolons, and no semicolon is next at the second one. -/
inductive SkipsSemicolons : ParseState → ParseState → Prop
  | done {state : ParseState} (other : state.token ≠ .semicolon) : SkipsSemicolons state state
  | skip {first last : ParseState} (semicolon : first.token = .semicolon)
      (rest : SkipsSemicolons first.advance last) : SkipsSemicolons first last

namespace SkipsSemicolons

variable {first last : ParseState}

theorem token_ne (skips : SkipsSemicolons first last) : last.token ≠ .semicolon := by
  induction skips with
  | done other => exact other
  | skip _ _ inductionHypothesis => exact inductionHypothesis

theorem eq_of_ne (skips : SkipsSemicolons first last) (other : first.token ≠ .semicolon) : last = first := by
  cases skips with
  | done => rfl
  | skip semicolon => exact absurd semicolon other

theorem rest (skips : SkipsSemicolons first last) (semicolon : first.token = .semicolon) :
    SkipsSemicolons first.advance last := by
  cases skips with
  | done other => exact absurd semicolon other
  | skip _ rest => exact rest

theorem unique {other : ParseState} (skips : SkipsSemicolons first last)
    (also : SkipsSemicolons first other) : last = other := by
  induction skips with
  | done stops => exact (also.eq_of_ne stops).symm
  | skip semicolon _ inductionHypothesis => exact inductionHypothesis (also.rest semicolon)

theorem reaches (skips : SkipsSemicolons first last) : first.Reaches last := by
  induction skips with
  | done => exact .refl _
  | skip _ _ inductionHypothesis => exact (reaches_advance _).trans inductionHypothesis

theorem head?_ahead (skips : SkipsSemicolons first last) :
    last.cursor.ahead.head? = first.cursor.ahead.find? (·.token != .semicolon) := by
  induction skips with
  | @done state other =>
      rw [ParseState.token, Cursor.current] at other
      cases ahead : state.cursor.ahead with
      | nil => rfl
      | cons lexeme rest =>
          rw [ahead, List.headD_cons] at other
          rw [List.head?_cons, List.find?_cons_of_pos (by simpa using other)]
  | @skip first last semicolon _ inductionHypothesis =>
      rw [inductionHypothesis]
      rw [ParseState.token, Cursor.current] at semicolon
      change List.find? _ first.cursor.ahead.tail = _
      cases ahead : first.cursor.ahead with
      | nil => rfl
      | cons lexeme rest =>
          rw [ahead, List.headD_cons] at semicolon
          rw [List.tail_cons, List.find?_cons_of_neg (by simp [semicolon])]

end SkipsSemicolons

theorem exists_skips (state : ParseState) : ∃ last, SkipsSemicolons state last := by
  induction ahead : state.cursor.remaining using Nat.strongRecOn generalizing state with
  | ind ahead inductionHypothesis =>
      by_cases semicolon : state.token = .semicolon
      · have passed := passes_advance (by simp [semicolon] : state.token ≠ .eof)
        obtain ⟨last, skips⟩ := inductionHypothesis _ (ahead ▸ passed.shorter) state.advance rfl
        exact ⟨last, .skip semicolon skips⟩
      · exact ⟨state, .done semicolon⟩

end ParseState

namespace Grammar

open Reckon.Parser

variable {inner : Grammar} {bound : Nat} {state first middle last : ParseState} {tree : Expr}

/-- A loop whose rounds pass over semicolons goes on where the semicolons end. -/
theorem loop_gives_of_skips {σ β : Type} {round : σ → Parser (Round σ β)} {accumulated : σ}
    {post : β → ParseState → Prop}
    (passes : ∀ place, place.token = .semicolon →
      (round accumulated).Gives place fun outcome after =>
        outcome = .again accumulated ∧ after = place.advance)
    (skips : first.SkipsSemicolons last) (given : (loop round accumulated).Gives last post) :
    (loop round accumulated).Gives first post := by
  induction skips with
  | done => exact given
  | @skip first last semicolon _ inductionHypothesis =>
      refine loop_gives_of_round ((passes first semicolon).mono ?_)
      rintro _ _ ⟨rfl, rfl⟩
      exact ⟨(ParseState.passes_advance (by simp [semicolon])).shorter, inductionHypothesis given⟩

theorem skipSemicolons_gives_of_skips (skips : first.SkipsSemicolons last) :
    skipSemicolons.Gives first fun _ after => after = last := by
  refine loop_gives_of_skips (fun place semicolon => ?_) skips
    (skipSemicolons_gives_of_ne skips.token_ne rfl)
  simp only [gives_bind, gives_accept_cases, gives_ite, gives_pure]
  exact ⟨fun _ => ⟨trivial, trivial⟩, fun other => absurd semicolon other⟩

theorem skipSemicolons_ensures : skipSemicolons.Ensures state fun _ after => state.SkipsSemicolons after := by
  obtain ⟨last, skips⟩ := state.exists_skips
  refine (Ensures.of_gives (skipSemicolons_gives_of_skips skips)).mono ?_
  rintro _ _ rfl
  exact skips

/-! ## One expression from end to end -/

/-- The tree is all there is between two places, semicolons apart. -/
structure Fills (inner : Grammar) (state : ParseState) (tree : Expr) (last : ParseState) : Prop where
  read : ∃ first middle, state.SkipsSemicolons first ∧ inner.assignment first = some (tree, middle) ∧
    middle.SkipsSemicolons last
  ended : last.token = .eof

/-- An expression that is not followed by the end of the source is reported. -/
theorem entire_ensures_fills : inner.entire.Ensures state fun found last =>
    found.diagnostics = [] → inner.Fills state found last := by
  rw [entire, ensures_bind]
  refine skipSemicolons_ensures.mono fun _ first leading => ?_
  rw [ensures_bind]
  intro tree middle ran
  refine loop_ensures (fun soFar place => soFar.diagnostics ≠ [] ∨ soFar = tree ∧ place = middle)
    (.inr ⟨rfl, rfl⟩) fun soFar place before => ?_
  rw [ensures_bind]
  refine skipSemicolons_ensures.mono fun _ last trailing => ?_
  simp only [ensures_bind, ensures_token, ensures_ite, ensures_bad, ensures_pure]
  refine ⟨fun ended clean => ?_, fun _ next _ _ => .inl ?_⟩
  · obtain reported | ⟨rfl, rfl⟩ := before
    · exact absurd clean reported
    · exact ⟨⟨first, place, leading, ran, trailing⟩, ended⟩
  · have joined : (Expr.join .multiply soFar
        (.invalid last.cursor.current.span .unexpectedToken)).diagnostics ≠ [] :=
      diagnostics_join_ne_nil (.inr (diagnostics_invalid_ne_nil _ _))
    split
    · exact joined
    · exact diagnostics_join_ne_nil (.inl joined)

theorem statement_gives_of_assignment {post : Stmt → ParseState → Prop}
    (plain : state.token.startsStatement = false)
    (given : inner.assignment.Gives state fun tree after => post (.expr tree) after) :
    inner.statement.Gives state post := by
  rw [statement, gives_bind, gives_token]
  split
  iterate 8 next keyword => rw [keyword] at plain; cases plain
  simp only [gives_bind, gives_pure]
  exact given

/-- Statements go on after semicolons. -/
theorem statements_gives_of_skips {inBlock : Bool} {post : List Stmt × Bool → ParseState → Prop}
    (skips : first.SkipsSemicolons last) (given : (inner.statements inBlock).Gives last post) :
    (inner.statements inBlock).Gives first post := by
  refine loop_gives_of_skips (fun place semicolon => ?_) skips given
  simp only [gives_bind, gives_token, semicolon, gives_advance, gives_pure, and_self]

theorem terminator_gives_of_skips {post : List Stmt → ParseState → Prop}
    (skips : middle.SkipsSemicolons last) (ended : last.token = .eof)
    (given : ∀ after, middle.Reaches after → after.SkipsSemicolons last → post [] after) :
    terminator.Gives middle post := by
  rw [terminator, gives_bind, gives_token]
  by_cases semicolon : middle.token = .semicolon
  · simp only [semicolon, gives_bind, gives_advance, gives_pure]
    exact given _ (ParseState.reaches_advance middle) (skips.rest semicolon)
  · obtain rfl := skips.eq_of_ne semicolon
    simp only [ended, gives_pure]
    exact given _ (.refl _) skips

theorem statements_gives_of_fills (elements : inner.BuildsElements) (reads : inner.Reads bound)
    (light : state.weight ≤ bound)
    (plain : ∀ lexeme ∈ state.cursor.ahead.find? (·.token != .semicolon),
      lexeme.token.startsStatement = false)
    (fills : inner.Fills state tree last) :
    (inner.statements false).Gives state fun outcome after =>
      outcome = (tree.program, false) ∧ after = last := by
  obtain ⟨first, middle, leading, ran, trailing⟩ := fills.read
  have firstPlain : first.token.startsStatement = false := by
    rw [← leading.head?_ahead] at plain
    rw [ParseState.token, Cursor.current]
    cases ahead : first.cursor.ahead with
    | nil => rw [List.headD_nil, first.cursor.final_eq_eof]; rfl
    | cons lexeme rest => exact plain lexeme (by rw [ahead]; rfl)
  have firstLight : first.weight ≤ bound := Nat.le_trans leading.reaches.weight_le light
  obtain ⟨_, _, also, operand⟩ := assignment_gives reads firstLight
  rw [ran] at also
  cases also
  refine statements_gives_of_skips leading ?_
  cases ends : first.token.endsOperand with
  | true =>
      obtain ⟨empty, rfl⟩ := operand.missing ends
      obtain rfl := trailing.eq_of_ne leading.token_ne
      refine loop_gives_of_round ?_
      simp only [gives_bind, gives_token, fills.ended, gives_pure]
      exact ⟨by rw [Expr.program, if_pos empty], rfl⟩
  | false =>
      have written : tree.isEmpty ≠ true := fun empty => by
        rw [(assignment_opens elements tree middle ran).missing empty] at ends
        cases ends
      have passed := operand.passes ends
      refine loop_gives_of_round ?_
      rw [gives_bind, gives_token]
      split
      · next semicolon => exact absurd semicolon leading.token_ne
      · next ended => rw [ended] at ends; cases ends
      · simp only [gives_bind, gives_remaining, gives_ite, gives_pure]
        refine ⟨fun braced => absurd braced.2 (by decide), fun _ => ?_⟩
        refine statement_gives_of_assignment firstPlain ⟨tree, middle, ran, ?_⟩
        refine ⟨fun same => absurd same passed.shorter.ne, fun _ => ?_⟩
        refine ⟨fun _ => ?_, fun other => absurd rfl other⟩
        refine terminator_gives_of_skips trailing fills.ended fun after reached further => ?_
        refine ⟨(passed.trans_reaches reached).shorter, ?_⟩
        refine loop_gives_of_skips (fun place semicolon => ?_) further (loop_gives_of_round ?_)
        · simp only [gives_bind, gives_token, semicolon, gives_advance, gives_pure, and_self]
        · simp only [gives_bind, gives_token, fills.ended, gives_pure]
          exact ⟨by rw [Expr.program, if_neg written]; rfl, rfl⟩

end Grammar

/-! ## Whole sources -/

/-- A source that is one expression throughout is the program of that expression. -/
theorem Parsed.statements_eq_program (source : Nat) (lexemes : List Lexeme)
    (plain : ∀ first ∈ Lexeme.opening? lexemes, first.token.startsStatement = false)
    (clean : (Parsed.expression source lexemes).tree.diagnostics = []) :
    Parsed.statements source lexemes =
      { tree := (Parsed.expression source lexemes).tree.program
        scope := (Parsed.expression source lexemes).scope } := by
  obtain ⟨tree, after, ran, -⟩ := Parsed.attempt_entire source lexemes
  have expression : Parsed.expression source lexemes = ⟨tree, after.scope⟩ := by
    simp only [Parsed.expression, Parsed.run, ran]
  rw [expression] at clean ⊢
  have light := ParseState.weight_start_le lexemes { source }
  obtain ⟨_, last, given, rfl, same⟩ := Grammar.statements_gives_of_fills
    (Grammar.buildsElements_ofDepth _) (Grammar.reads_ofDepth (Lexeme.weightAll lexemes + 1))
    (Nat.le_succ_of_le light) plain (Grammar.entire_ensures_fills tree after ran clean)
  rw [same] at given
  have statements : Parsed.attempt (fun grammar => Prod.fst <$> grammar.statements false) source
      lexemes = some (tree.program, after) := by
    simp [Parsed.attempt, StateT.run, Functor.map, StateT.map, given]
  simp only [Parsed.statements, Parsed.run, statements]

end Reckon
