import Reckon.Proofs.Parsing.Outcome
import Reckon.Proofs.RoundTrip.Term

/-!
# Parsers of the levels

Each level of precedence has a parser, which calls the parser of the next tighter level and then looks
at the lexeme it stopped at.  A lexeme that may follow an operand goes on with one level, and ends the
operands of all tighter levels.  So what a tight parser gives is what a loose parser gives, if the
lexeme after it ends all levels in between.

The pieces ahead of a state are all that matters for the trees of terms.
-/

namespace Reckon

/-! ## Pieces ahead -/

/-- A lexeme without its place. -/
def Lexeme.piece (lexeme : Lexeme) : Piece :=
  ⟨lexeme.token, lexeme.lit⟩

/-- The class of the first of some pieces; after the last one the source ends. -/
def Piece.front : List Piece → Token
  | [] => .eof
  | piece :: _ => piece.token

namespace ParseState

/-- The lexemes ahead without their places. -/
def pieces (state : ParseState) : List Piece :=
  state.cursor.ahead.map Lexeme.piece

variable {state : ParseState} {piece : Piece} {rest : List Piece}

theorem pieces_advance (state : ParseState) : state.advance.pieces = state.pieces.tail := by
  simp only [pieces, advance, Cursor.ahead_advance, List.map_tail]

theorem pieces_advance_of_cons (ahead : state.pieces = piece :: rest) :
    state.advance.pieces = rest := by
  rw [pieces_advance, ahead, List.tail_cons]

@[simp]
theorem pieces_withScope (state : ParseState) (scope : Scope) :
    ({ state with scope } : ParseState).pieces = state.pieces :=
  rfl

theorem remaining_eq_length_pieces (state : ParseState) :
    state.cursor.remaining = state.pieces.length := by
  simp [pieces, Cursor.remaining]

theorem remaining_advance_lt (ahead : state.pieces = piece :: rest) :
    state.advance.cursor.remaining < state.cursor.remaining := by
  rw [remaining_eq_length_pieces, remaining_eq_length_pieces, pieces_advance_of_cons ahead, ahead,
    List.length_cons]
  omega

theorem remaining_le_of_pieces {before after : ParseState} {read : List Piece}
    (ahead : before.pieces = read ++ rest) (afterAhead : after.pieces = rest) :
    after.cursor.remaining ≤ before.cursor.remaining := by
  rw [remaining_eq_length_pieces, remaining_eq_length_pieces, ahead, afterAhead,
    List.length_append]
  omega

theorem token_eq_front (state : ParseState) : state.token = Piece.front state.pieces := by
  unfold token Cursor.current pieces
  cases state.cursor.ahead with
  | nil =>
      simpa [Piece.front] using state.cursor.final_eq_eof
  | cons lexeme later =>
      rfl

theorem token_of_pieces (ahead : state.pieces = piece :: rest) : state.token = piece.token := by
  rw [token_eq_front, ahead]
  rfl

theorem lit_of_pieces (ahead : state.pieces = piece :: rest) :
    state.cursor.current.lit = piece.lit := by
  unfold pieces at ahead
  unfold Cursor.current
  cases lexemes : state.cursor.ahead with
  | nil =>
      simp [lexemes] at ahead
  | cons lexeme later =>
      simp only [lexemes, List.map_cons, List.cons.injEq] at ahead
      rw [List.headD_cons, ← ahead.1]
      rfl

end ParseState

/-! ## Lexemes after an operand -/

/-- The level that a lexeme after an operand goes on with, if there is one. -/
def Token.continues : Token → Option Level
  | .leftParen | .dot | .bang => some .postfixed
  | .caret => some .power
  | .star | .slash | .percent | .name | .number | .kwTrue | .kwFalse | .kwNull | .leftBracket
  | .illegal => some .product
  | .plus | .minus => some .sum
  | .less | .lessEqual | .greater | .greaterEqual => some .comparison
  | .equal | .notEqual => some .equality
  | .andAnd => some .and
  | .orOr => some .or
  | .pipe => some .pipe
  | .range => some .range
  | .question => some .conditional
  | .arrow => some .lambda
  | .assign => some .assignment
  | _ => none

/-- Whether a lexeme after an operand ends the operands of a level and of all tighter ones. -/
def Token.ends (level : Level) (token : Token) : Bool :=
  token.continues.all fun other => other.rank < level.rank

theorem Token.ends_of_rank_le {loose tight : Level} {token : Token} (le : loose.rank ≤ tight.rank)
    (ended : token.ends loose = true) : token.ends tight = true := by
  unfold Token.ends at ended ⊢
  cases found : token.continues with
  | none =>
      rfl
  | some other =>
      simp only [found, Option.all_some, decide_eq_true_eq] at ended ⊢
      omega

theorem Token.ne_caret_of_ends {token : Token} (ended : token.ends .power = true) :
    token ≠ .caret := by
  rintro rfl
  exact absurd ended (by decide)

/-- Whether a lexeme after an operand does not go on with a level. A parenthesis after a number goes on
with a product. -/
def Token.leaves (level : Level) (number : Bool) (token : Token) : Bool :=
  token.continues != some level && !(number && level == .product && token == .leftParen)

theorem Token.leaves_of_ends {level : Level} {token : Token} (number : Bool)
    (ended : token.ends level = true) : token.leaves level number = true := by
  have everywhere :
      ∀ token ∈ Token.all, token.ends level = true → token.leaves level number = true := by
    cases number <;> cases level <;> decide
  exact everywhere token (Token.mem_all token) ended

/-- Whether a lexeme may follow a term in a slot of a level.  Arrows and equals signs follow only
parameters and places. -/
def Token.follows (level : Level) (token : Token) : Bool :=
  token.ends level && token != .arrow && token != .assign

theorem Token.ends_of_follows {level : Level} {token : Token}
    (follows : token.follows level = true) : token.ends level = true := by
  simp only [Token.follows, Bool.and_eq_true] at follows
  exact follows.1.1

theorem Token.follows_of_rank_le {loose tight : Level} {token : Token}
    (le : loose.rank ≤ tight.rank) (follows : token.follows loose = true) :
    token.follows tight = true := by
  simp only [Token.follows, Bool.and_eq_true] at follows ⊢
  exact ⟨⟨Token.ends_of_rank_le le follows.1.1, follows.1.2⟩, follows.2⟩

/-- What follows a conditional follows a full expression. -/
theorem Token.follows_assignment {token : Token} (follows : token.follows .conditional = true) :
    token.follows .assignment = true := by
  have everywhere : ∀ token ∈ Token.all,
      token.follows .conditional = true → token.follows .assignment = true := by
    decide
  exact everywhere token (Token.mem_all token) follows

namespace Level

theorem rank_le_rank_tighter (level : Level) : level.rank ≤ level.tighter.rank := by
  cases level <;> decide

theorem rank_tighter {level : Level} (loose : level ≠ .postfixed) :
    level.tighter.rank = level.rank + 1 := by
  cases level <;> first | rfl | exact absurd rfl loose

theorem eq_of_rank_eq {left right : Level} (same : left.rank = right.rank) : left = right := by
  cases left <;> cases right <;> first | rfl | exact absurd same (by decide)

/-- Whether the operators of a level form chains that are grouped from the left. -/
def isChain : Level → Bool
  | pipe | or | and | equality | comparison | sum | product => true
  | _ => false

end Level

theorem BinaryOp.isChain_level {op : BinaryOp} (notPower : op ≠ .power) :
    op.level.isChain = true := by
  cases op <;> first | rfl | exact absurd rfl notPower

theorem BinaryOp.follows_token (op : BinaryOp) : op.token.follows op.level.tighter = true := by
  cases op <;> decide

/-! ## Chains -/

namespace Grammar

open Reckon.Parser

variable {inner : Grammar} {state : ParseState}

/-- The parser of a level. -/
def parserOf (inner : Grammar) : Level → Parser Expr
  | .assignment => inner.assignment
  | .lambda => inner.function
  | .conditional => inner.conditional
  | .range => inner.range
  | .pipe => inner.pipe
  | .or => inner.disjunction
  | .and => inner.conjunction
  | .equality => inner.equality
  | .comparison => inner.comparison
  | .sum => inner.sum
  | .product => inner.product
  | .power => inner.power
  | .unary => inner.signed
  | .postfixed => inner.postfixed

/-- One round of the chain of a level. -/
def roundOf (inner : Grammar) : Level → Expr → Parser (Round Expr Expr)
  | .pipe => chainRound pipeOp? inner.disjunction
  | .or => chainRound disjunctionOp? inner.conjunction
  | .and => chainRound conjunctionOp? inner.equality
  | .equality => chainRound equalityOp? inner.comparison
  | .comparison => chainRound comparisonOp? inner.sum
  | .sum => inner.sumRound
  | .product => inner.productRound
  | _ => fun left => pure (.done left)

theorem parserOf_eq_bind_loop {level : Level} (chain : level.isChain = true) :
    inner.parserOf level = inner.parserOf level.tighter >>= loop (inner.roundOf level) := by
  cases level <;> first | rfl | cases chain

theorem gives_chainRound_of_operator {operator? : Token → Option BinaryOp} {operand : Parser Expr}
    {left : Expr} {op : BinaryOp} {post : Expr → ParseState → Prop}
    (found : operator? state.token = some op) (given : operand.Gives state.advance post) :
    (chainRound operator? operand left).Gives state fun outcome after =>
      ∃ right, outcome = .again (Expr.join op left right) ∧ post right after := by
  simp only [chainRound, gives_bind, gives_token, found, gives_advance, gives_pure]
  exact given.mono fun right after satisfied => ⟨right, rfl, satisfied⟩

theorem gives_chainRound_of_end {operator? : Token → Option BinaryOp} {operand : Parser Expr}
    {left : Expr} (ended : operator? state.token = none) :
    (chainRound operator? operand left).Gives state fun outcome after =>
      outcome = .done left ∧ after = state := by
  simp [chainRound, ended]

/-- No operator is joined to an equals sign that stands apart from it. -/
theorem gives_operatorRound {operand : Parser Expr} {left : Expr} {op : BinaryOp}
    {post : Expr → ParseState → Prop} (apart : state.advance.token ≠ .assign)
    (given : operand.Gives state.advance post) :
    (inner.operatorRound op operand left).Gives state fun outcome after =>
      ∃ right, outcome = .again (Expr.join op left right) ∧ post right after := by
  have apartLexeme : state.advance.cursor.current.token ≠ .assign := apart
  simp only [operatorRound, compound, gives_bind, gives_current, gives_advance, apartLexeme,
    false_and, if_false, gives_pure]
  simp only [Bool.false_eq_true, if_false, gives_bind, gives_pure]
  exact given.mono fun right after satisfied => ⟨right, rfl, satisfied⟩

theorem gives_roundOf_of_operator {left : Expr} {op : BinaryOp}
    {post : Expr → ParseState → Prop} (notPower : op ≠ .power) (found : state.token = op.token)
    (apart : state.advance.token ≠ .assign)
    (given : (inner.parserOf op.level.tighter).Gives state.advance post) :
    (inner.roundOf op.level left).Gives state fun outcome after =>
      ∃ right, outcome = .again (Expr.join op left right) ∧ post right after := by
  cases op with
  | power =>
      exact absurd rfl notPower
  | add | subtract =>
      simp only [roundOf, BinaryOp.level, sumRound, gives_bind, gives_token, found,
        BinaryOp.token, sumOp?]
      exact gives_operatorRound apart given
  | multiply | divide | remainder =>
      simp only [roundOf, BinaryOp.level, productRound, gives_bind, gives_token, found,
        BinaryOp.token, productOp?]
      exact gives_operatorRound apart given
  | _ =>
      exact gives_chainRound_of_operator (by rw [found]; rfl) given

/-- The operators of the chain of a level. -/
def operatorOf? : Level → Token → Option BinaryOp
  | .pipe => pipeOp?
  | .or => disjunctionOp?
  | .and => conjunctionOp?
  | .equality => equalityOp?
  | .comparison => comparisonOp?
  | .sum => sumOp?
  | .product => productOp?
  | _ => fun _ => none

theorem operatorOf?_eq_none_of_leaves {level : Level} {number : Bool} {token : Token}
    (left : token.leaves level number = true) : operatorOf? level token = none := by
  have everywhere :
      ∀ token ∈ Token.all, token.leaves level number = true → operatorOf? level token = none := by
    cases number <;> cases level <;> decide
  exact everywhere token (Token.mem_all token) left

theorem gives_roundOf_of_leaves {level : Level} {tree : Expr}
    (left : state.token.leaves level tree.isNumber = true) :
    (inner.roundOf level tree).Gives state fun outcome after =>
      outcome = .done tree ∧ after = state := by
  have noOperator := operatorOf?_eq_none_of_leaves left
  cases level with
  | pipe | or | and | equality | comparison =>
      exact gives_chainRound_of_end noOperator
  | sum =>
      have noSign : sumOp? state.token = none := noOperator
      simp [roundOf, sumRound, noSign]
  | product =>
      simp only [roundOf, productRound, gives_bind, gives_token]
      cases number : tree.isNumber <;> rw [number] at left <;>
        cases found : state.token <;> rw [found] at left <;>
          first
            | exact absurd left (by decide)
            | simp [productOp?]
  | _ =>
      simp [roundOf]

theorem loop_roundOf_gives_of_leaves {level : Level} {tree : Expr}
    {post : Expr → ParseState → Prop} (left : state.token.leaves level tree.isNumber = true)
    (satisfied : post tree state) : (loop (inner.roundOf level) tree).Gives state post := by
  refine loop_gives_of_round ((gives_roundOf_of_leaves left).mono fun outcome after stopped => ?_)
  obtain ⟨rfl, rfl⟩ := stopped
  exact satisfied

theorem loop_roundOf_gives_of_end {level : Level} {left : Expr} {post : Expr → ParseState → Prop}
    (ended : state.token.ends level = true) (satisfied : post left state) :
    (loop (inner.roundOf level) left).Gives state post :=
  loop_roundOf_gives_of_leaves (Token.leaves_of_ends _ ended) satisfied

theorem loop_powerRound_gives_of_ne {base : Expr} {exponents : List Expr}
    {post : Expr → ParseState → Prop} (notCaret : state.token ≠ .caret)
    (satisfied : post (Expr.powerChain base exponents) state) :
    (loop (inner.powerRound base) exponents).Gives state post := by
  refine loop_gives_of_round ?_
  simp only [powerRound, gives_bind, gives_token, notCaret, if_false, gives_pure]
  exact satisfied

theorem loop_postfixRound_gives_of_end {owner : Expr} {post : Expr → ParseState → Prop}
    (ended : state.token.ends .postfixed = true) (satisfied : post owner state) :
    (loop inner.postfixRound owner).Gives state post := by
  refine loop_gives_of_round ?_
  rw [postfixRound, gives_bind, gives_token]
  split
  · next found =>
    rw [found] at ended
    exact absurd ended (by decide)
  · next found =>
    rw [found] at ended
    exact absurd ended (by decide)
  · next found =>
    rw [found] at ended
    exact absurd ended (by decide)
  · rw [gives_pure]
    exact satisfied

/-! ## From tight to loose -/

/-- What the parser of the next tighter level gives is what the parser of a level gives, if it stops
at a lexeme that does not go on with the level. -/
theorem gives_parserOf_of_tighter {level : Level} {post : Expr → ParseState → Prop}
    (given : (inner.parserOf level.tighter).Gives state post)
    (left : ∀ tree after, post tree after → after.token.leaves level tree.isNumber = true)
    (unsigned : level = .unary → unaryOp? state.token = none) :
    (inner.parserOf level).Gives state post := by
  have notAt {tree : Expr} {after : ParseState} (satisfied : post tree after) {token : Token}
      (goesOn : token.continues = some level) : after.token ≠ token := by
    intro found
    have stopped := left tree after satisfied
    rw [found, Token.leaves, goesOn] at stopped
    simp at stopped
  cases level with
  | assignment =>
      simp only [parserOf, assignment, gives_bind, gives_token, gives_ite, gives_pure]
      refine given.mono fun tree after satisfied => ⟨fun found => ?_, fun _ => satisfied⟩
      exact absurd found (notAt satisfied rfl)
  | lambda =>
      simp only [parserOf, function, gives_bind, gives_token, gives_ite, gives_pure]
      refine given.mono fun tree after satisfied => ⟨fun found => ?_, fun _ => satisfied⟩
      exact absurd found (notAt satisfied rfl)
  | conditional =>
      simp only [parserOf, conditional, gives_bind, gives_token, gives_ite, gives_pure]
      refine given.mono fun tree after satisfied => ⟨fun found => ?_, fun _ => satisfied⟩
      exact absurd found (notAt satisfied rfl)
  | range =>
      simp only [parserOf, range, gives_bind, gives_token, gives_ite, gives_pure]
      refine given.mono fun tree after satisfied => ⟨fun found => ?_, fun _ => satisfied⟩
      exact absurd found (notAt satisfied rfl)
  | pipe | or | and | equality | comparison | sum | product =>
      rw [parserOf_eq_bind_loop rfl, gives_bind]
      refine given.mono fun tree after satisfied => ?_
      exact loop_roundOf_gives_of_leaves (left tree after satisfied) satisfied
  | power =>
      rw [parserOf, power, gives_bind]
      refine given.mono fun tree after satisfied => ?_
      exact loop_powerRound_gives_of_ne (notAt satisfied rfl) satisfied
  | unary =>
      simp only [parserOf, signed, gives_bind, gives_token, unsigned rfl]
      exact given
  | postfixed =>
      exact given

theorem gives_parserOf_of_leaves {loose tight : Level} {post : Expr → ParseState → Prop}
    (le : loose.rank ≤ tight.rank) (given : (inner.parserOf tight).Gives state post)
    (left : ∀ level, loose.rank ≤ level.rank → level.rank < tight.rank → ∀ tree after,
      post tree after → after.token.leaves level tree.isNumber = true)
    (unsigned : tight = .postfixed → loose ≠ .postfixed → unaryOp? state.token = none) :
    (inner.parserOf loose).Gives state post := by
  induction distance : tight.rank - loose.rank generalizing loose with
  | zero =>
      have same : loose = tight := Level.eq_of_rank_eq (by omega)
      rw [same]
      exact given
  | succ distance inductionHypothesis =>
      have notLast : loose ≠ .postfixed := by
        rintro rfl
        have bounded : tight.rank ≤ 13 := by cases tight <;> decide
        have last : Level.postfixed.rank = 13 := rfl
        omega
      have next := Level.rank_tighter notLast
      refine gives_parserOf_of_tighter ?_ (left loose (Nat.le_refl _) (by omega)) ?_
      · refine inductionHypothesis (by omega) ?_ ?_ (by omega)
        · intro level above
          exact left level (by omega)
        · intro tightest _
          exact unsigned tightest notLast
      · rintro rfl
        have tightest : tight = .postfixed := by
          have bounded : tight.rank ≤ 13 := by cases tight <;> decide
          have first : Level.unary.rank = 12 := rfl
          exact Level.eq_of_rank_eq (by simp only [Level.rank] at *; omega)
        exact unsigned tightest notLast

theorem gives_parserOf_of_rank_le {loose tight : Level} {post : Expr → ParseState → Prop}
    (le : loose.rank ≤ tight.rank) (given : (inner.parserOf tight).Gives state post)
    (ended : ∀ tree after, post tree after → after.token.ends loose = true)
    (unsigned : tight = .postfixed → loose ≠ .postfixed → unaryOp? state.token = none) :
    (inner.parserOf loose).Gives state post := by
  refine gives_parserOf_of_leaves le given (fun level above _ tree after satisfied => ?_) unsigned
  exact Token.leaves_of_ends _ (Token.ends_of_rank_le above (ended tree after satisfied))

/-- What an operand gives is what every level gives, if it stops at a lexeme that ends the level. -/
theorem gives_parserOf_of_operand {level : Level} {post : Expr → ParseState → Prop}
    (given : inner.operand.Gives state post)
    (ended : ∀ tree after, post tree after → after.token.ends level = true)
    (unsigned : unaryOp? state.token = none) : (inner.parserOf level).Gives state post := by
  have bounded : level.rank ≤ Level.postfixed.rank := by cases level <;> decide
  have whole : (inner.parserOf .postfixed).Gives state post := by
    rw [parserOf, postfixed, gives_bind]
    refine given.mono fun tree after satisfied => ?_
    exact loop_postfixRound_gives_of_end
      (Token.ends_of_rank_le bounded (ended tree after satisfied)) satisfied
  exact gives_parserOf_of_rank_le bounded whole ended fun _ _ => unsigned

end Grammar

end Reckon
