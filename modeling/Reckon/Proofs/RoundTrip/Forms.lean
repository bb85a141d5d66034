import Reckon.Proofs.RoundTrip.Levels
import Reckon.Proofs.RoundTrip.Numerals

/-!
# Reading the forms of terms

A parser recovers a tree from pieces if it gives the tree, up to spans and frames, and stops just
after the pieces, wherever these are followed by a lexeme that ends the level of the parser.  Below,
each form of a term is recovered if its parts are.

The parsers of chains read an operand and then go round a loop.  For them it is the state before the
loop that a left part has to reach, so that the loop can go on from there: `Heads`, `Continues` and
`Exponents` say this for calls and selectors, for chains that group from the left, and for powers.
-/

namespace Reckon

open Piece

namespace Grammar

open Reckon.Parser

variable {inner : Grammar} {pieces leftPieces rightPieces : List Piece} {tree left right : Expr}
  {stops : List Piece → Prop}

/-- The parser reads the pieces as the tree, before any lexeme that ends the level. -/
def Recovers (parser : Parser Expr) (level : Level) (pieces : List Piece) (tree : Expr) : Prop :=
  ∀ state rest, state.pieces = pieces ++ rest → (front rest).follows level = true →
    parser.Gives state fun found after => found.bare = tree ∧ after.pieces = rest

/-- The lexemes that start an operand of a term. -/
def operandStarts : List Token :=
  [.number, .name, .kwTrue, .kwFalse, .kwNull, .leftParen]

/-- The lexemes that start a term. -/
def termStarts : List Token :=
  operandStarts ++ [.minus, .plus, .bang, .kwAwait]

/-- The pieces are not empty, and their first lexeme is one of those that are allowed. -/
def StartsIn (allowed : List Token) (pieces : List Piece) : Prop :=
  ∃ piece rest, pieces = piece :: rest ∧ piece.token ∈ allowed

theorem StartsIn.token_mem {allowed : List Token} {state : ParseState} {rest : List Piece}
    (starts : StartsIn allowed pieces) (ahead : state.pieces = pieces ++ rest) :
    state.token ∈ allowed := by
  obtain ⟨piece, later, rfl, member⟩ := starts
  rw [ParseState.token_eq_front, ahead]
  exact member

theorem StartsIn.token_ne {allowed : List Token} {state : ParseState} {rest : List Piece}
    (starts : StartsIn allowed pieces) (ahead : state.pieces = pieces ++ rest) {token : Token}
    (other : token ∉ allowed) : state.token ≠ token := by
  rintro rfl
  exact other (starts.token_mem ahead)

theorem StartsIn.unaryOp?_eq_none {state : ParseState} {rest : List Piece}
    (starts : StartsIn operandStarts pieces) (ahead : state.pieces = pieces ++ rest) :
    unaryOp? state.token = none := by
  have unsigned : ∀ token ∈ operandStarts, unaryOp? token = none := by decide
  exact unsigned state.token (starts.token_mem ahead)

/-- The parser reads the pieces as the tree, before pieces of a kind. -/
def RecoversBefore (stops : List Piece → Prop) (parser : Parser Expr) (pieces : List Piece)
    (tree : Expr) : Prop :=
  ∀ state rest, state.pieces = pieces ++ rest → stops rest →
    parser.Gives state fun found after => found.bare = tree ∧ after.pieces = rest

theorem recovers_iff {parser : Parser Expr} {level : Level} :
    Recovers parser level pieces tree ↔
      RecoversBefore (fun rest => (front rest).follows level = true) parser pieces tree :=
  Iff.rfl

theorem Recovers.gives {parser : Parser Expr} {level : Level} {state : ParseState}
    {rest : List Piece} (recovers : Recovers parser level pieces tree)
    (ahead : state.pieces = pieces ++ rest) (ended : (front rest).follows level = true) :
    parser.Gives state fun found after => found.bare = tree ∧ after.pieces = rest :=
  recovers state rest ahead ended

/-! ## Chains that group from the left -/

/-- The parser of a level comes to its loop with the tree, and has read the pieces then. -/
def Continues (inner : Grammar) (level : Level) (pieces : List Piece) (tree : Expr) : Prop :=
  ∀ state rest post, state.pieces = pieces ++ rest → (front rest).follows level.tighter = true →
    (∀ found after, found.bare = tree → after.pieces = rest →
      (loop (inner.roundOf level) found).Gives after post) →
    (inner.parserOf level).Gives state post

/-- The parser of a level comes to its loop with the tree, before pieces of a kind. -/
def ContinuesBefore (stops : List Piece → Prop) (inner : Grammar) (level : Level)
    (pieces : List Piece) (tree : Expr) : Prop :=
  ∀ state rest post, state.pieces = pieces ++ rest → stops rest →
    (∀ found after, found.bare = tree → after.pieces = rest →
      (loop (inner.roundOf level) found).Gives after post) →
    (inner.parserOf level).Gives state post

theorem RecoversBefore.continues {level : Level} (chain : level.isChain = true)
    (recovers : RecoversBefore stops (inner.parserOf level.tighter) pieces tree) :
    ContinuesBefore stops inner level pieces tree := by
  intro state rest post ahead stopped further
  rw [parserOf_eq_bind_loop chain, gives_bind]
  refine (recovers state rest ahead stopped).mono fun found after read => ?_
  exact further found after read.1 read.2

theorem Recovers.continues {level : Level} (chain : level.isChain = true)
    (recovers : Recovers (inner.parserOf level.tighter) level.tighter pieces tree) :
    Continues inner level pieces tree :=
  (recovers_iff.mp recovers).continues chain

theorem Continues.recovers {level : Level} (continues : Continues inner level pieces tree) :
    Recovers (inner.parserOf level) level pieces tree := by
  intro state rest ahead ended
  refine continues state rest _ ahead (Token.follows_of_rank_le level.rank_le_rank_tighter ended) ?_
  intro found after bare afterAhead
  refine loop_roundOf_gives_of_end ?_ ⟨bare, afterAhead⟩
  rw [ParseState.token_eq_front, afterAhead]
  exact Token.ends_of_follows ended

theorem Continues.join {op : BinaryOp} (notPower : op ≠ .power)
    (continues : Continues inner op.level leftPieces left)
    (recovers : RecoversBefore stops (inner.parserOf op.level.tighter) rightPieces right)
    (starts : StartsIn termStarts rightPieces) :
    ContinuesBefore stops inner op.level (leftPieces ++ sign op.token :: rightPieces)
      (.binary {} op left right false) := by
  intro state rest post ahead stopped further
  rw [List.append_assoc] at ahead
  refine continues state _ post ahead op.follows_token fun first middle firstBare middleAhead => ?_
  have signAhead : middle.advance.pieces = rightPieces ++ rest :=
    ParseState.pieces_advance_of_cons middleAhead
  have found : middle.token = op.token := ParseState.token_of_pieces middleAhead
  have apart : middle.advance.token ≠ .assign := starts.token_ne signAhead (by decide)
  refine loop_gives_of_round ((gives_roundOf_of_operator notPower found apart
    (recovers _ rest signAhead stopped)).mono fun outcome after read => ?_)
  obtain ⟨second, rfl, secondBare, afterAhead⟩ := read
  refine ⟨?_, further _ _ ?_ afterAhead⟩
  · exact Nat.lt_of_le_of_lt (ParseState.remaining_le_of_pieces signAhead afterAhead)
      (ParseState.remaining_advance_lt middleAhead)
  · rw [Expr.join, Expr.bare, firstBare, secondBare]

/-! ## Powers -/

theorem bare_powerChain_cons (base next : Expr) (rest : List Expr) :
    (Expr.powerChain base (next :: rest)).bare =
      .binary {} .power base.bare (Expr.powerChain next rest).bare false := by
  rw [Expr.powerChain, Expr.join, Expr.bare]

/-- After a sign of a power, the parser comes to an end with the tree as the last exponents. -/
def Exponents (inner : Grammar) (pieces : List Piece) (tree : Expr) : Prop :=
  ∀ base exponents state rest post, state.pieces = pieces ++ rest →
    (front rest).follows .power = true →
    (∀ found more after, (Expr.powerChain found more).bare = tree → after.pieces = rest →
      post (Expr.powerChain base (exponents ++ found :: more)) after) →
    inner.signed.Gives state fun found after =>
      after.cursor.remaining ≤ state.cursor.remaining ∧
        (loop (inner.powerRound base) (exponents ++ [found])).Gives after post

/-- After a sign of a power, the parser comes to an end with the tree as the last exponents, before
pieces of a kind. -/
def ExponentsBefore (stops : List Piece → Prop) (inner : Grammar) (pieces : List Piece)
    (tree : Expr) : Prop :=
  ∀ base exponents state rest post, state.pieces = pieces ++ rest → stops rest →
    (∀ found more after, (Expr.powerChain found more).bare = tree → after.pieces = rest →
      post (Expr.powerChain base (exponents ++ found :: more)) after) →
    inner.signed.Gives state fun found after =>
      after.cursor.remaining ≤ state.cursor.remaining ∧
        (loop (inner.powerRound base) (exponents ++ [found])).Gives after post

theorem RecoversBefore.exponents (notCaret : ∀ rest, stops rest → front rest ≠ .caret)
    (recovers : RecoversBefore stops inner.signed pieces tree) :
    ExponentsBefore stops inner pieces tree := by
  intro base exponents state rest post ahead stopped finish
  refine (recovers state rest ahead stopped).mono fun found after read => ?_
  refine ⟨ParseState.remaining_le_of_pieces ahead read.2, loop_powerRound_gives_of_ne ?_ ?_⟩
  · rw [ParseState.token_eq_front, read.2]
    exact notCaret rest stopped
  · exact finish found [] after read.1 read.2

theorem Recovers.exponents (recovers : Recovers inner.signed .unary pieces tree) :
    Exponents inner pieces tree := by
  have before : RecoversBefore (fun rest => (front rest).follows .power = true) inner.signed
      pieces tree :=
    fun state rest ahead ended =>
      recovers.gives ahead (Token.follows_of_rank_le (by decide) ended)
  exact before.exponents fun _ ended => Token.ne_caret_of_ends (Token.ends_of_follows ended)

/-- One round of a power at its sign. -/
theorem loop_powerRound_gives_of_sign {base : Expr} {exponents : List Expr} {state : ParseState}
    {rest : List Piece} {post : Expr → ParseState → Prop}
    (later : ExponentsBefore stops inner pieces tree)
    (starts : StartsIn termStarts pieces) (ahead : state.pieces = sign .caret :: (pieces ++ rest))
    (stopped : stops rest)
    (finish : ∀ found more after, (Expr.powerChain found more).bare = tree → after.pieces = rest →
      post (Expr.powerChain base (exponents ++ found :: more)) after) :
    (loop (inner.powerRound base) exponents).Gives state post := by
  have caret : state.token = .caret := ParseState.token_of_pieces ahead
  have signAhead := ParseState.pieces_advance_of_cons ahead
  have apart : state.advance.cursor.current.token ≠ .assign :=
    starts.token_ne signAhead (by decide)
  refine loop_gives_of_round ?_
  simp only [powerRound, compound, gives_bind, gives_token, caret, if_true, gives_current,
    gives_advance, apart, false_and, if_false, gives_pure, Bool.false_eq_true]
  refine (later base exponents _ rest post signAhead stopped finish).mono fun found after read => ?_
  exact ⟨Nat.lt_of_le_of_lt read.1 (ParseState.remaining_advance_lt ahead), read.2⟩

theorem ExponentsBefore.power (recovers : Recovers inner.signed .unary leftPieces left)
    (later : ExponentsBefore stops inner rightPieces right)
    (starts : StartsIn termStarts rightPieces) :
    ExponentsBefore stops inner (leftPieces ++ sign .caret :: rightPieces)
      (.binary {} .power left right false) := by
  intro base exponents state rest post ahead stopped finish
  rw [List.append_assoc] at ahead
  have caretEnds : (front (sign .caret :: (rightPieces ++ rest))).follows .unary = true := rfl
  refine (recovers.gives ahead caretEnds).mono fun first middle read => ?_
  refine ⟨ParseState.remaining_le_of_pieces ahead read.2, ?_⟩
  refine loop_powerRound_gives_of_sign later starts read.2 stopped ?_
  intro found more after bare afterAhead
  rw [List.append_assoc, List.singleton_append]
  refine finish first (found :: more) after ?_ afterAhead
  rw [bare_powerChain_cons, bare, read.1]

theorem power_recovers (recovers : Recovers inner.signed .unary leftPieces left)
    (later : ExponentsBefore stops inner rightPieces right)
    (starts : StartsIn termStarts rightPieces) :
    RecoversBefore stops inner.power (leftPieces ++ sign .caret :: rightPieces)
      (.binary {} .power left right false) := by
  intro state rest ahead stopped
  rw [List.append_assoc] at ahead
  have caretEnds : (front (sign .caret :: (rightPieces ++ rest))).follows .unary = true := rfl
  rw [power, gives_bind]
  refine (recovers.gives ahead caretEnds).mono fun base middle read => ?_
  refine loop_powerRound_gives_of_sign later starts read.2 stopped ?_
  intro found more after bare afterAhead
  refine ⟨?_, afterAhead⟩
  rw [List.nil_append, bare_powerChain_cons, bare, read.1]

/-! ## Lists in parentheses -/

theorem isEmpty_bare (tree : Expr) : tree.bare.isEmpty = tree.isEmpty := by
  cases tree with
  | range span first step last =>
      cases step <;> rfl
  | _ =>
      rfl

/-- What a list of terms has to say about each of them, so that it can be read. -/
structure Listable (inner : Grammar) (term : Term) : Prop where
  recovers : Recovers inner.expr .assignment term.pieces term.tree
  starts : StartsIn termStarts term.pieces
  present : term.tree.isEmpty = false

theorem bareAll_append (first second : List Expr) :
    Expr.bareAll (first ++ second) = Expr.bareAll first ++ Expr.bareAll second := by
  induction first with
  | nil =>
      rfl
  | cons tree rest inductionHypothesis =>
      rw [List.cons_append, Expr.bareAll, inductionHypothesis, Expr.bareAll, List.cons_append]

/-- One item of a list. -/
theorem gives_itemsRound {term : Term} {soFar : List Expr} {state : ParseState}
    {rest : List Piece} {post : Round (List Expr) (List Expr) → ParseState → Prop}
    (listable : Listable inner term) (ahead : state.pieces = term.pieces ++ rest)
    (ended : (front rest).follows .assignment = true)
    (finish : ∀ item after, item.bare = term.tree → after.pieces = rest →
      (after.token = .comma → post (.again (soFar ++ [item])) after.advance) ∧
        (after.token ≠ .comma → post (.done (soFar ++ [item])) after)) :
    (inner.itemsRound .rightParen soFar).Gives state post := by
  have opened : state.token ≠ .rightParen := listable.starts.token_ne ahead (by decide)
  simp only [itemsRound, gives_bind, gives_token, gives_ite, gives_pure, gives_accept_cases,
    opened, false_implies, not_false_eq_true, true_implies, true_and]
  refine (listable.recovers.gives ahead ended).mono fun item after read => ?_
  have present : item.isEmpty = false := by
    rw [← isEmpty_bare, read.1, listable.present]
  simp only [present, Bool.not_false, Bool.true_or, if_true]
  exact finish item after read.1 read.2

/-- Terms with commas between them are read one by one. -/
theorem loop_itemsRound_gives {terms : List Term} {soFar : List Expr} {state : ParseState}
    {rest : List Piece} (listable : ∀ term ∈ terms, Listable inner term)
    (ahead : state.pieces = Term.listed terms ++ sign .rightParen :: rest) :
    (loop (inner.itemsRound .rightParen) soFar).Gives state fun found after =>
      Expr.bareAll found = Expr.bareAll soFar ++ Term.trees terms ∧
        after.pieces = sign .rightParen :: rest := by
  induction terms generalizing soFar state with
  | nil =>
      have closed : state.token = .rightParen := ParseState.token_of_pieces ahead
      refine loop_gives_of_round ?_
      simp only [itemsRound, gives_bind, gives_token, closed, if_true, gives_pure]
      refine ⟨?_, ahead⟩
      rw [Term.trees, List.append_nil]
  | cons term later inductionHypothesis =>
      have first := listable term (by simp)
      refine loop_gives_of_round ?_
      cases later with
      | nil =>
          rw [Term.listed] at ahead
          refine gives_itemsRound first ahead rfl fun item after bare afterAhead => ⟨?_, ?_⟩
          · intro comma
            rw [ParseState.token_of_pieces afterAhead] at comma
            cases comma
          · intro _
            refine ⟨?_, afterAhead⟩
            rw [bareAll_append, Term.trees, Term.trees, ← bare]
            rfl
      | cons second others =>
          rw [Term.listed_cons_cons, List.append_assoc] at ahead
          refine gives_itemsRound first ahead rfl fun item after bare afterAhead => ⟨?_, ?_⟩
          · intro _
            have commaAhead : after.advance.pieces =
                Term.listed (second :: others) ++ sign .rightParen :: rest :=
              ParseState.pieces_advance_of_cons afterAhead
            have othersListable : ∀ other ∈ second :: others, Listable inner other :=
              fun other member => listable other (List.mem_cons_of_mem term member)
            refine ⟨?_, ?_⟩
            · exact Nat.lt_of_lt_of_le (ParseState.remaining_advance_lt afterAhead)
                (ParseState.remaining_le_of_pieces ahead afterAhead)
            · refine (inductionHypothesis othersListable commaAhead).mono
                fun found last read => ⟨?_, read.2⟩
              rw [read.1, bareAll_append, List.append_assoc, Term.trees.eq_2 term, ← bare]
              rfl
          · intro notComma
            exact absurd (ParseState.token_of_pieces afterAhead) notComma

theorem items_gives_listed {terms : List Term} {defect : Defect} {state : ParseState}
    {rest : List Piece} (listable : ∀ term ∈ terms, Listable inner term)
    (ahead : state.pieces = Term.listed terms ++ sign .rightParen :: rest) :
    (inner.items .rightParen defect).Gives state fun trees after =>
      Expr.bareAll trees = Term.trees terms ∧ after.pieces = rest := by
  rw [items, gives_bind]
  refine (loop_itemsRound_gives listable ahead).mono fun found after read => ?_
  have closed : after.token = .rightParen := ParseState.token_of_pieces read.2
  simp only [gives_bind, gives_ite, gives_accept_cases, gives_pure]
  refine ⟨fun _ => ⟨?_, ParseState.pieces_advance_of_cons read.2⟩, fun other => absurd closed other⟩
  simpa [Expr.bareAll] using read.1

theorem operand_gives_listed {terms : List Term} {state : ParseState} {rest : List Piece}
    (listable : ∀ term ∈ terms, Listable inner term)
    (ahead : state.pieces = enclose true (Term.listed terms) ++ rest) :
    inner.operand.Gives state fun found after =>
      (∃ span trees, found = .arguments span trees ∧ Expr.bareAll trees = Term.trees terms) ∧
        after.pieces = rest := by
  have openAhead : state.pieces =
      sign .leftParen :: (Term.listed terms ++ sign .rightParen :: rest) := by
    rw [ahead]
    simp [enclose]
  have found : state.token = .leftParen := ParseState.token_of_pieces openAhead
  simp only [operand, gives_bind, gives_token, found, gives_current, gives_advance,
    gives_spanFrom, gives_pure]
  refine (items_gives_listed listable (ParseState.pieces_advance_of_cons openAhead)).mono
    fun trees after read => ⟨⟨_, trees, rfl, read.1⟩, read.2⟩

/-! ## Calls, selectors and factorials -/

/-- The parser of operands comes to its loop with the tree, and has read the pieces then. -/
def Heads (inner : Grammar) (pieces : List Piece) (tree : Expr) : Prop :=
  ∀ state rest post, state.pieces = pieces ++ rest →
    (∀ found after, found.bare = tree → after.pieces = rest →
      (loop inner.postfixRound found).Gives after post) →
    inner.postfixed.Gives state post

theorem heads_of_operand
    (given : ∀ state rest, state.pieces = pieces ++ rest →
      inner.operand.Gives state fun found after => found.bare = tree ∧ after.pieces = rest) :
    Heads inner pieces tree := by
  intro state rest post ahead further
  rw [postfixed, gives_bind]
  exact (given state rest ahead).mono fun found after read => further found after read.1 read.2

theorem Heads.recovers (heads : Heads inner pieces tree) :
    Recovers inner.postfixed .postfixed pieces tree := by
  intro state rest ahead ended
  refine heads state rest _ ahead fun found after bare afterAhead => ?_
  refine loop_postfixRound_gives_of_end ?_ ⟨bare, afterAhead⟩
  rw [ParseState.token_eq_front, afterAhead]
  exact Token.ends_of_follows ended

theorem heads_group {term : Term} (listable : Listable inner term) :
    Heads inner (enclose true term.pieces) (term.tree.enclose true) := by
  refine heads_of_operand fun state rest ahead => ?_
  have single : ∀ other ∈ [term], Listable inner other := by simpa using listable
  refine (operand_gives_listed single ahead).mono fun found after read => ⟨?_, read.2⟩
  obtain ⟨⟨span, trees, rfl, bare⟩, -⟩ := read
  rw [Expr.bare, bare]
  rfl

theorem heads_literal {piece : Piece} {value : Literal}
    (given : ∀ state rest, state.pieces = piece :: rest →
      inner.operand.Gives state fun found after =>
        found.bare = .constant {} value ∧ after = state.advance) :
    Heads inner [piece] (.constant {} value) := by
  refine heads_of_operand fun state rest ahead => ?_
  refine (given state rest ahead).mono fun found after read => ⟨read.1, ?_⟩
  rw [read.2]
  exact ParseState.pieces_advance_of_cons ahead

theorem heads_boolean (value : Bool) :
    Heads inner [sign (if value then .kwTrue else .kwFalse)] (.constant {} (.boolean value)) := by
  refine heads_literal fun state rest ahead => ?_
  have found := ParseState.token_of_pieces ahead
  cases value with
  | true =>
      have isTrue : state.token = .kwTrue := found
      simp [operand, literal, isTrue, Expr.bare]
  | false =>
      have isFalse : state.token = .kwFalse := found
      simp [operand, literal, isFalse, Expr.bare]

theorem heads_null : Heads inner [sign .kwNull] (.constant {} .null) := by
  refine heads_literal fun state rest ahead => ?_
  have found : state.token = .kwNull := ParseState.token_of_pieces ahead
  simp [operand, literal, found, Expr.bare]

theorem heads_numeral (numeral : Numeral) :
    Heads inner [ofNumeral numeral] (.constant {} (.number (Decimal.ofNat numeral.value))) := by
  refine heads_literal fun state rest ahead => ?_
  have found : state.token = .number := ParseState.token_of_pieces ahead
  have lit : state.cursor.current.lit = numeral.text := ParseState.lit_of_pieces ahead
  simp [operand, number, literal, found, lit, Decimal.readLiteral_text, Expr.bare]

theorem heads_name (name : Name) : Heads inner [ofName name] (.var (.named name.text)) := by
  refine heads_of_operand fun state rest ahead => ?_
  have found : state.token = .name := ParseState.token_of_pieces ahead
  have lit : state.cursor.current.lit = name.text := ParseState.lit_of_pieces ahead
  simp only [operand, variableRead, gives_bind, gives_token, found, gives_current,
    gives_findFrame, gives_skipLexeme, gives_pure, Expr.bare, lit]
  exact ⟨trivial, ParseState.pieces_advance_of_cons ahead⟩

theorem Heads.member (heads : Heads inner pieces tree) (selector : Name) :
    Heads inner (pieces ++ [sign .dot, ofName selector])
      (.member {} tree { span := {}, name := selector.text }) := by
  intro state rest post ahead further
  rw [List.append_assoc] at ahead
  refine heads state _ post ahead fun owner middle bare middleAhead => ?_
  have dot : middle.token = .dot := ParseState.token_of_pieces middleAhead
  have dotAhead : middle.advance.pieces = ofName selector :: rest :=
    ParseState.pieces_advance_of_cons middleAhead
  have name : middle.advance.token = .name := ParseState.token_of_pieces dotAhead
  have lit : middle.advance.cursor.current.lit = selector.text := ParseState.lit_of_pieces dotAhead
  have nameAhead := ParseState.pieces_advance_of_cons dotAhead
  refine loop_gives_of_round ?_
  simp only [postfixRound, gives_bind, gives_token, dot, gives_advance, name, if_true,
    identifierRead, gives_current, gives_skipLexeme, gives_pure]
  refine ⟨?_, further _ _ ?_ nameAhead⟩
  · exact Nat.lt_trans (ParseState.remaining_advance_lt dotAhead)
      (ParseState.remaining_advance_lt middleAhead)
  · rw [Expr.bare, bare, lit]

theorem Heads.factorial (heads : Heads inner pieces tree) :
    Heads inner (pieces ++ [sign .bang]) (.factorial {} tree) := by
  intro state rest post ahead further
  rw [List.append_assoc] at ahead
  refine heads state _ post ahead fun operand middle bare middleAhead => ?_
  have bang : middle.token = .bang := ParseState.token_of_pieces middleAhead
  have bangAhead : middle.advance.pieces = rest := ParseState.pieces_advance_of_cons middleAhead
  refine loop_gives_of_round ?_
  simp only [postfixRound, gives_bind, gives_token, bang, gives_advance, gives_spanFrom,
    gives_pure]
  refine ⟨?_, further _ _ ?_ bangAhead⟩
  · exact ParseState.remaining_advance_lt middleAhead
  · rw [Expr.bare, bare]

theorem isNumber_bare : ∀ tree : Expr, tree.bare.isNumber = tree.isNumber
  | .constant _ value => by
      cases value <;> rfl
  | .unary _ op operand => by
      have operandSame := isNumber_bare operand
      cases op <;> simp [Expr.bare, Expr.isNumber, operandSame]
  | .range _ _ none _ | .range _ _ (some _) _ | .empty _ | .invalid .. | .var _ | .identifier _
  | .binary .. | .factorial .. | .conditional .. | .call .. | .arguments .. | .matrix ..
  | .object .. | .function .. | .member .. | .assignment .. | .interpolated .. | .markup .. => rfl

/-- Anything but a number can be called. -/
theorem Heads.call {args : List Term} (heads : Heads inner pieces tree)
    (callable : tree.isNumber = false) (listable : ∀ arg ∈ args, Listable inner arg) :
    Heads inner (pieces ++ enclose true (Term.listed args))
      (.call {} tree (Term.trees args)) := by
  intro state rest post ahead further
  rw [List.append_assoc] at ahead
  refine heads state _ post ahead fun callee middle bare middleAhead => ?_
  have openAhead : middle.pieces =
      sign .leftParen :: (Term.listed args ++ sign .rightParen :: rest) := by
    rw [middleAhead]
    simp [enclose]
  have paren : middle.token = .leftParen := ParseState.token_of_pieces openAhead
  have notNumber : callee.isNumber = false := by
    rw [← isNumber_bare, bare, callable]
  refine loop_gives_of_round ?_
  simp only [postfixRound, gives_bind, gives_token, paren, notNumber, Bool.false_eq_true, if_false,
    gives_advance, gives_spanFrom, gives_pure]
  have insideAhead := ParseState.pieces_advance_of_cons openAhead
  refine (items_gives_listed listable insideAhead).mono
    fun trees after read => ⟨?_, further _ _ ?_ read.2⟩
  · have closeAhead : middle.advance.pieces =
        (Term.listed args ++ [sign .rightParen]) ++ rest := by
      rw [insideAhead, List.append_assoc, List.singleton_append]
    exact Nat.lt_of_le_of_lt (ParseState.remaining_le_of_pieces closeAhead read.2)
      (ParseState.remaining_advance_lt openAhead)
  · rw [Expr.bare, bare, read.1]

/-! ## The other forms -/

theorem signed_recovers {op : UnaryOp} (recovers : RecoversBefore stops inner.unary pieces tree) :
    RecoversBefore stops inner.signed (sign op.token :: pieces) (.unary {} op tree) := by
  intro state rest ahead stopped
  have found : unaryOp? state.token = some op := by
    rw [ParseState.token_of_pieces ahead]
    cases op <;> rfl
  simp only [signed, gives_bind, gives_token, found, gives_current, gives_advance, gives_pure]
  refine (recovers _ rest (ParseState.pieces_advance_of_cons ahead) stopped).mono
    fun operand after read => ⟨?_, read.2⟩
  rw [Expr.bare, read.1]

theorem range_recovers {firstPieces lastPieces : List Piece} {first last : Expr}
    (firstRecovers : Recovers inner.pipe .pipe firstPieces first)
    (lastRecovers : Recovers inner.pipe .pipe lastPieces last) :
    Recovers inner.range .range (firstPieces ++ sign .range :: lastPieces)
      (.range {} first none last) := by
  intro state rest ahead ended
  simp only [List.append_assoc, List.cons_append] at ahead
  simp only [range, gives_bind, gives_token, gives_ite, gives_advance, gives_accept_cases,
    gives_pure]
  refine (firstRecovers.gives ahead rfl).mono fun found middle firstRead => ?_
  have dots : middle.token = .range := ParseState.token_of_pieces firstRead.2
  have dotsAhead : middle.advance.pieces = lastPieces ++ rest :=
    ParseState.pieces_advance_of_cons firstRead.2
  have pipeEnded : (front rest).follows .pipe = true := Token.follows_of_rank_le (by decide) ended
  refine ⟨fun _ => ?_, fun other => absurd dots other⟩
  refine (lastRecovers.gives dotsAhead pipeEnded).mono fun second after lastRead => ⟨?_, ?_⟩
  · intro again
    rw [ParseState.token_eq_front, lastRead.2] at again
    rw [again] at ended
    exact absurd ended (by decide)
  · intro _
    refine ⟨?_, lastRead.2⟩
    rw [Expr.bare, firstRead.1, lastRead.1]

theorem steppedRange_recovers {firstPieces stepPieces lastPieces : List Piece}
    {first step last : Expr} (firstRecovers : Recovers inner.pipe .pipe firstPieces first)
    (stepRecovers : Recovers inner.pipe .pipe stepPieces step)
    (lastRecovers : Recovers inner.pipe .pipe lastPieces last) :
    Recovers inner.range .range
      (firstPieces ++ sign .range :: (stepPieces ++ sign .range :: lastPieces))
      (.range {} first (some step) last) := by
  intro state rest ahead ended
  simp only [List.append_assoc, List.cons_append] at ahead
  simp only [range, gives_bind, gives_token, gives_ite, gives_advance, gives_accept_cases,
    gives_pure]
  refine (firstRecovers.gives ahead rfl).mono fun found middle firstRead => ?_
  have dots : middle.token = .range := ParseState.token_of_pieces firstRead.2
  have dotsAhead := ParseState.pieces_advance_of_cons firstRead.2
  have pipeEnded : (front rest).follows .pipe = true := Token.follows_of_rank_le (by decide) ended
  refine ⟨fun _ => ?_, fun other => absurd dots other⟩
  refine (stepRecovers.gives dotsAhead rfl).mono fun second place stepRead => ⟨?_, ?_⟩
  · intro _
    have againAhead := ParseState.pieces_advance_of_cons stepRead.2
    refine (lastRecovers.gives againAhead pipeEnded).mono fun third after lastRead => ?_
    refine ⟨?_, lastRead.2⟩
    rw [Expr.bare, firstRead.1, stepRead.1, lastRead.1]
  · intro other
    exact absurd (ParseState.token_of_pieces stepRead.2) other

theorem conditional_recovers {testPieces truePieces falsePieces : List Piece}
    {test whenTrue whenFalse : Expr} (testRecovers : Recovers inner.range .range testPieces test)
    (trueRecovers : Recovers inner.lambda .lambda truePieces whenTrue)
    (falseRecovers : Recovers inner.lambda .lambda falsePieces whenFalse) :
    Recovers inner.conditional .conditional
      (testPieces ++ sign .question :: (truePieces ++ sign .colon :: falsePieces))
      (.conditional {} test whenTrue whenFalse) := by
  intro state rest ahead ended
  simp only [List.append_assoc, List.cons_append] at ahead
  simp only [conditional, gives_bind, gives_token, gives_ite, gives_advance, gives_accept_cases,
    gives_missing, gives_pure]
  refine (testRecovers.gives ahead rfl).mono fun found middle testRead => ?_
  have question : middle.token = .question := ParseState.token_of_pieces testRead.2
  refine ⟨fun _ => ?_, fun other => absurd question other⟩
  have questionAhead := ParseState.pieces_advance_of_cons testRead.2
  refine (trueRecovers.gives questionAhead rfl).mono fun second place trueRead => ⟨fun _ => ?_, ?_⟩
  · have colonAhead := ParseState.pieces_advance_of_cons trueRead.2
    have lambdaEnded : (front rest).follows .lambda = true :=
      Token.follows_of_rank_le (by decide) (Token.follows_assignment ended)
    refine (falseRecovers.gives colonAhead lambdaEnded).mono fun third after falseRead => ?_
    refine ⟨?_, falseRead.2⟩
    rw [Expr.bare, testRead.1, trueRead.1, falseRead.1]
  · intro other
    exact absurd (ParseState.token_of_pieces trueRead.2) other

/-- The names of parameters are read off the items of their list. -/
theorem map_name_parameterNames {params : List Name} {items : List Expr} (frame : FrameId)
    (read : Expr.bareAll items = Term.trees (params.map fun name => .place (.name name))) :
    (parameterNames frame items).map (·.name) = params.map (·.text) := by
  induction params generalizing items with
  | nil =>
      cases items with
      | nil => rfl
      | cons item rest => cases read
  | cons name later inductionHypothesis =>
      cases items with
      | nil => cases read
      | cons item rest =>
          rw [Expr.bareAll, List.map_cons, Term.trees, List.cons.injEq] at read
          obtain ⟨itemBare, restBare⟩ := read
          have tail := inductionHypothesis restBare
          cases item with
          | var param =>
              have sameName : param.name = name.text := by
                simpa [Expr.bare, Term.tree, Place.tree, Variable.named] using itemBare
              rw [List.map_cons, ← tail, ← sameName]
              rfl
          | range span first step last =>
              cases step <;> simp [Expr.bare, Term.tree, Place.tree] at itemBare
          | _ => simp [Expr.bare, Term.tree, Place.tree] at itemBare

theorem length_bareAll (trees : List Expr) : (Expr.bareAll trees).length = trees.length := by
  induction trees with
  | nil =>
      rfl
  | cons tree rest inductionHypothesis =>
      rw [Expr.bareAll, List.length_cons, inductionHypothesis, List.length_cons]

theorem length_trees (terms : List Term) : (Term.trees terms).length = terms.length := by
  induction terms with
  | nil =>
      rfl
  | cons term rest inductionHypothesis =>
      rw [Term.trees, List.length_cons, inductionHypothesis, List.length_cons]

theorem function_recovers {params : List Name} {bodyPieces : List Piece} {body : Expr}
    (listable : ∀ name ∈ params, Listable inner (.place (.name name)))
    (bodyRecovers : Recovers inner.expr .assignment bodyPieces body)
    (starts : StartsIn termStarts bodyPieces) :
    Recovers inner.function .lambda (enclose true (names params) ++ sign .arrow :: bodyPieces)
      (.function {} default (params.map fun name => .named name.text) (.expr body)) := by
  intro state rest ahead ended
  rw [List.append_assoc, names_eq_listed] at ahead
  have opened : state.token = .leftParen := by
    rw [ParseState.token_eq_front, ahead]
    rfl
  have allListable : ∀ term ∈ params.map (fun name => Term.place (.name name)),
      Listable inner term := by
    intro term member
    obtain ⟨name, nameMember, rfl⟩ := List.mem_map.mp member
    exact listable name nameMember
  have head : inner.conditional.Gives state fun found after =>
      (∃ span trees, found = .arguments span trees ∧
        Expr.bareAll trees = Term.trees (params.map fun name => .place (.name name))) ∧
      after.pieces = sign .arrow :: (bodyPieces ++ rest) := by
    have given := operand_gives_listed allListable ahead
    refine @gives_parserOf_of_operand _ _ .conditional _ given ?_ (by rw [opened]; rfl)
    intro tree after read
    rw [ParseState.token_of_pieces read.2]
    rfl
  rw [function, gives_bind]
  refine head.mono fun found middle read => ?_
  obtain ⟨⟨span, items, rfl, itemsBare⟩, middleAhead⟩ := read
  have arrow : middle.token = .arrow := ParseState.token_of_pieces middleAhead
  have arrowAhead := ParseState.pieces_advance_of_cons middleAhead
  simp only [gives_bind, gives_token, arrow, if_true, parameters?, gives_advance, gives_pushFrame]
  refine (declareAll_gives _).mono fun _ declared sameCursor => ?_
  have declaredAhead : declared.pieces = bodyPieces ++ rest := by
    rw [← arrowAhead, ParseState.pieces, sameCursor]
    rfl
  have notBlock : declared.token ≠ .leftBrace := starts.token_ne declaredAhead (by decide)
  have assignmentEnded : (front rest).follows .assignment = true :=
    Token.follows_assignment (Token.follows_of_rank_le (by decide) ended)
  simp only [notBlock, if_false, gives_bind, gives_map, gives_popFrame]
  refine (bodyRecovers.gives declaredAhead assignmentEnded).mono fun value after valueRead => ?_
  have sameNames := map_name_parameterNames middle.advance.scope.push.1 itemsBare
  have sameLength : (parameterNames middle.advance.scope.push.1 items).length = items.length := by
    rw [← length_bareAll items, itemsBare, length_trees, List.length_map, ← List.length_map (·.name),
      sameNames, List.length_map]
  have sameParams : (parameterNames middle.advance.scope.push.1 items).map (.named ·.name) =
      params.map fun name => Variable.named name.text := by
    have mapped := congrArg (List.map Variable.named) sameNames
    rwa [List.map_map, List.map_map] at mapped
  simp only [sameLength, if_true, gives_pure]
  refine ⟨?_, valueRead.2⟩
  rw [Expr.bare, Body.bare, valueRead.1, sameParams]

theorem isAssignable_bare (tree : Expr) : tree.bare.isAssignable = tree.isAssignable := by
  cases tree with
  | range span first step last =>
      cases step <;> rfl
  | _ =>
      rfl

theorem assignment_recovers {place : Place} {valuePieces : List Piece} {value : Expr}
    (heads : Heads inner place.pieces place.tree)
    (starts : StartsIn operandStarts place.pieces)
    (valueRecovers : Recovers inner.expr .assignment valuePieces value) :
    Recovers inner.assignment .assignment (place.pieces ++ sign .assign :: valuePieces)
      (.assignment {} place.tree value) := by
  intro state rest ahead ended
  rw [List.append_assoc] at ahead
  have target : inner.function.Gives state fun found after =>
      found.bare = place.tree ∧ after.pieces = sign .assign :: (valuePieces ++ rest) := by
    have tight : inner.postfixed.Gives state fun found after =>
        found.bare = place.tree ∧ after.pieces = sign .assign :: (valuePieces ++ rest) := by
      refine heads state _ _ ahead fun found after bare afterAhead => ?_
      refine loop_postfixRound_gives_of_end ?_ ⟨bare, afterAhead⟩
      rw [ParseState.token_of_pieces afterAhead]
      rfl
    refine @gives_parserOf_of_rank_le _ _ .lambda .postfixed _ (by decide) tight ?_ ?_
    · intro tree after read
      rw [ParseState.token_of_pieces read.2]
      rfl
    · intro _ _
      exact starts.unaryOp?_eq_none ahead
  rw [assignment, gives_bind]
  refine target.mono fun found middle read => ?_
  have equals : middle.token = .assign := ParseState.token_of_pieces read.2
  have equalsAhead := ParseState.pieces_advance_of_cons read.2
  simp only [gives_bind, gives_token, equals, if_true, gives_advance, gives_pure]
  refine (valueRecovers.gives equalsAhead ended).mono fun given after valueRead => ?_
  refine ⟨?_, valueRead.2⟩
  have assignable : found.isAssignable = true := by
    rw [← isAssignable_bare, read.1]
    cases place <;> rfl
  rw [Expr.assign, if_pos assignable, Expr.bare, read.1, valueRead.1]

end Grammar

end Reckon
