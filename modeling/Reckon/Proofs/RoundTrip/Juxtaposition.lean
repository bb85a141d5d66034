import Reckon.Proofs.Parsing.Order
import Reckon.Proofs.Parsing.ReadsStatement
import Reckon.Proofs.RoundTrip.Scanning

/-!
# Numbers before parentheses

After a number a parenthesis starts another factor, and after any other operand a call.  Both the parser
of operands and the parser of products look whether a number stands before the parenthesis: the first
one at the operand, the second one at the whole product that it has read so far.  So a number that is
all there is before the parenthesis is multiplied by what stands in it, and after a longer product that
ends with a number, nobody reads the parenthesis.
-/

namespace Reckon

open Piece Grammar

/-! ## Terms that end with a numeral -/

namespace Piece

/-- Whether the last of some pieces is a numeral. -/
def endInNumeral (pieces : List Piece) : Bool :=
  pieces.getLast?.any (·.token == .number)

theorem endInNumeral_append_cons (left right : List Piece) (piece : Piece) :
    endInNumeral (left ++ piece :: right) = endInNumeral (piece :: right) := by
  rw [endInNumeral, endInNumeral, List.getLast?_append_cons]

theorem not_endInNumeral_enclose (left pieces : List Piece) :
    endInNumeral (left ++ enclose true pieces) = false := by
  simp [endInNumeral, enclose, List.getLast?_cons, List.getLast?_append, sign]

end Piece

namespace Term

/-- The term needs no parentheses in the slot, and its text ends with a numeral. -/
structure Trails (slot : Level) (term : Term) : Prop where
  tight : term.isLoose slot = false
  ends : endInNumeral term.pieces = true

namespace Trails

variable {slot : Level} {term : Term}

theorem pieces_eq (trails : term.Trails slot) : term.inSlot slot = term.pieces :=
  (inSlot_of_tight trails.tight).1

theorem tree_eq (trails : term.Trails slot) : term.treeIn slot = term.tree :=
  (inSlot_of_tight trails.tight).2

theorem tighter (trails : term.Trails slot) (notLast : slot ≠ .postfixed)
    (other : term.level ≠ slot) : term.Trails slot.tighter := by
  refine ⟨?_, trails.ends⟩
  rw [isLoose_tighter notLast other]
  exact trails.tight

/-- A numeral at the end of an operation is the end of its last operand, which is not in parentheses. -/
theorem of_endInNumeral (left : List Piece) {token : Token}
    (ends : endInNumeral (left ++ sign token :: term.inSlot slot) = true) : term.Trails slot := by
  rw [endInNumeral_append_cons] at ends
  cases loose : term.isLoose slot with
  | true =>
      rw [(inSlot_of_loose loose).1] at ends
      have enclosed := not_endInNumeral_enclose [sign token] term.pieces
      rw [List.singleton_append, ends] at enclosed
      cases enclosed
  | false =>
      refine ⟨loose, ?_⟩
      rw [(inSlot_of_tight loose).1] at ends
      obtain ⟨piece, rest, same, -⟩ := term.startsIn_termStarts
      rw [same] at ends ⊢
      rwa [← endInNumeral_append_cons [sign token]]

end Trails

theorem eq_number_of_endInNumeral {term : Term} (tight : term.level = .postfixed)
    (ends : endInNumeral term.pieces = true) : ∃ numeral, term = .number numeral := by
  cases term with
  | number numeral =>
      exact ⟨numeral, rfl⟩
  | boolean value =>
      cases value <;> cases ends
  | null =>
      cases ends
  | factorial operand =>
      rw [pieces, endInNumeral_append_cons] at ends
      cases ends
  | place target =>
      cases target with
      | name name =>
          cases ends
      | member owner selector =>
          rw [pieces, Place.pieces, endInNumeral_append_cons] at ends
          cases ends
      | call callee args =>
          rw [pieces, Place.pieces, not_endInNumeral_enclose] at ends
          cases ends
  | binary op left right =>
      cases op <;> cases tight
  | _ =>
      cases tight

end Term

/-! ## Before a parenthesis -/

namespace Grammar

open Reckon.Parser

variable {inner : Grammar} {pieces : List Piece} {tree : Expr} {term : Term} {depth : Nat}

/-- A parenthesis is next. -/
def Opens (rest : List Piece) : Prop :=
  front rest = .leftParen

theorem Opens.ne_caret {rest : List Piece} (opens : Opens rest) : front rest ≠ .caret := by
  rw [opens]
  decide

/-- A number is not called. -/
theorem numeral_recoversBefore (numeral : Numeral) :
    RecoversBefore Opens inner.postfixed (Term.number numeral).pieces (Term.number numeral).tree := by
  intro state rest ahead opens
  refine heads_numeral numeral state rest _ ahead fun found after bare afterAhead => ?_
  have number : found.isNumber = true := by
    rw [← isNumber_bare, bare]
    rfl
  have paren : after.token = .leftParen := by
    rw [ParseState.token_eq_front, afterAhead]
    exact opens
  refine loop_gives_of_round ?_
  simp only [postfixRound, gives_bind, gives_token, paren, number, if_true, gives_pure]
  exact ⟨bare, afterAhead⟩

theorem RecoversBefore.signed {stops : List Piece → Prop} (starts : StartsIn operandStarts pieces)
    (recovers : RecoversBefore stops inner.postfixed pieces tree) :
    RecoversBefore stops inner.signed pieces tree := by
  intro state rest ahead stopped
  simp only [Grammar.signed, gives_bind, gives_token, starts.unaryOp?_eq_none ahead]
  exact recovers state rest ahead stopped

theorem RecoversBefore.power {stops : List Piece → Prop}
    (notCaret : ∀ rest, stops rest → front rest ≠ .caret)
    (recovers : RecoversBefore stops inner.signed pieces tree) :
    RecoversBefore stops inner.power pieces tree := by
  intro state rest ahead stopped
  rw [Grammar.power, gives_bind]
  refine (recovers state rest ahead stopped).mono fun found after read => ?_
  refine loop_powerRound_gives_of_ne ?_ read
  rw [ParseState.token_eq_front, read.2]
  exact notCaret rest stopped

theorem signed_recoversBefore (trails : term.Trails .unary) (light : term.pieces.length ≤ depth) :
    RecoversBefore Opens (ofDepth depth).signed term.pieces term.tree := by
  -- What stands behind a sign is read by the grammar one level down.
  induction depth generalizing term with
  | zero =>
      have ends := trails.ends
      rw [List.eq_nil_of_length_eq_zero (Nat.le_zero.mp light)] at ends
      cases ends
  | succ depth inductionHypothesis =>
      by_cases same : term.level = .unary
      · obtain ⟨op, operand, rfl⟩ := exists_unary_of_level same
        have operandTrails : operand.Trails .unary := .of_endInNumeral [] trails.ends
        have length : (Term.unary op operand).pieces.length =
            (operand.inSlot .unary).length + 1 := by
          simp [Term.pieces, Term.inSlot]
        rw [operandTrails.pieces_eq] at length
        have recovers : RecoversBefore Opens (ofDepth (depth + 1)).unary operand.pieces
            operand.tree := inductionHypothesis operandTrails (by omega)
        rw [← operandTrails.pieces_eq, ← operandTrails.tree_eq] at recovers
        exact signed_recovers recovers
      · have tight := (trails.tighter (by decide) same).tight
        obtain ⟨numeral, rfl⟩ :=
          Term.eq_number_of_endInNumeral (Term.level_of_not_isLoose tight) trails.ends
        exact (numeral_recoversBefore numeral).signed
          ((Term.number numeral).startsIn_operandStarts rfl)

/-- A term is read before a parenthesis as the last exponents of a power, and as a whole power. -/
theorem power_recoversBefore (trails : term.Trails .power) (light : term.pieces.length ≤ depth) :
    ExponentsBefore Opens (ofDepth depth) term.pieces term.tree ∧
      RecoversBefore Opens (ofDepth depth).power term.pieces term.tree := by
  -- The right part of a power may be a power again.
  induction size : term.pieces.length using Nat.strongRecOn generalizing term with
  | ind size inductionHypothesis =>
      by_cases same : term.level = .power
      · obtain ⟨left, right, rfl⟩ := exists_power_of_level same
        have rightTrails : right.Trails .power := .of_endInNumeral (left.inSlot .unary) trails.ends
        have length : (Term.binary .power left right).pieces.length =
            (left.inSlot .unary).length + ((right.inSlot .power).length + 1) := by
          simp [Term.pieces, Term.inSlot, BinaryOp.leftSlot, BinaryOp.rightSlot]
        rw [rightTrails.pieces_eq] at length
        have leftRecovers := ((nests_ofDepth depth).recovered left).slot .unary (by omega)
        have later :=
          (inductionHypothesis right.pieces.length (by omega) rightTrails (by omega) rfl).1
        rw [← rightTrails.pieces_eq, ← rightTrails.tree_eq] at later
        have starts := right.startsIn_inSlot .power
        exact ⟨.power leftRecovers later starts, power_recovers leftRecovers later starts⟩
      · have recovers := signed_recoversBefore (trails.tighter (by decide) same) light
        exact ⟨recovers.exponents fun _ => Opens.ne_caret, recovers.power fun _ => Opens.ne_caret⟩

theorem product_continuesBefore (trails : term.Trails .product)
    (light : term.pieces.length ≤ depth) :
    ContinuesBefore Opens (ofDepth depth) .product term.pieces term.tree := by
  by_cases same : term.level = .product
  · obtain ⟨op, left, right, rfl, notPower, level⟩ := exists_binary_of_isChain rfl same
    have ends := trails.ends
    rw [Term.pieces_binary notPower] at ends light
    have rightTrails : right.Trails op.level.tighter := .of_endInNumeral _ ends
    rw [List.length_append, List.length_cons, rightTrails.pieces_eq] at light
    have known := (nests_ofDepth depth).recovered left
    have leftContinues := known.chain op.level (BinaryOp.isChain_level notPower) (by omega)
    have rightBefore : RecoversBefore Opens ((ofDepth depth).parserOf op.level.tighter)
        (right.inSlot op.level.tighter) (right.treeIn op.level.tighter) := by
      rw [rightTrails.pieces_eq, rightTrails.tree_eq]
      rw [level] at rightTrails ⊢
      exact (power_recoversBefore rightTrails (by omega)).2
    rw [Term.pieces_binary notPower, Term.tree_binary notPower, ← level]
    exact leftContinues.join notPower rightBefore (right.startsIn_inSlot op.level.tighter)
  · have recovers := power_recoversBefore (trails.tighter (by decide) same) light
    exact RecoversBefore.continues rfl recovers.2

/-! ## At the parenthesis -/

/-- A number that is the whole product so far is multiplied by what stands in the parentheses. -/
theorem ContinuesBefore.juxtapose (continues : ContinuesBefore Opens inner .product pieces tree)
    (number : tree.isNumber = true) (listable : Listable inner term) :
    Recovers inner.product .product (pieces ++ enclose true term.pieces)
      (.binary {} .multiply tree (term.tree.enclose true) true) := by
  have grouped : Recovers (inner.parserOf .postfixed) .postfixed (enclose true term.pieces)
      (term.tree.enclose true) := (heads_group listable).recovers
  have factor : Recovers (inner.parserOf .power) .power (enclose true term.pieces)
      (term.tree.enclose true) :=
    Recovers.climb (by decide) grouped fun _ => startsIn_enclose (by decide) (by simp)
  intro state rest ahead ended
  rw [List.append_assoc] at ahead
  refine continues state _ _ ahead rfl fun first middle firstBare middleAhead => ?_
  have paren : middle.token = .leftParen := ParseState.token_of_pieces middleAhead
  have isNumber : first.isNumber = true := by rw [← isNumber_bare, firstBare, number]
  have powerEnded : (front rest).follows .power = true :=
    Token.follows_of_rank_le (by decide) ended
  refine loop_gives_of_round ?_
  simp only [roundOf, productRound, gives_bind, gives_token, paren, productOp?, isNumber, if_true,
    gives_pure]
  refine (factor.gives middleAhead powerEnded).mono fun second after read => ⟨?_, ?_⟩
  · rw [ParseState.remaining_eq_length_pieces, ParseState.remaining_eq_length_pieces, read.2,
      middleAhead, List.length_append]
    simp [enclose]
  · have stopped : after.token.ends .product = true := by
      rw [ParseState.token_eq_front, read.2]
      exact Token.ends_of_follows ended
    refine @loop_roundOf_gives_of_end inner after .product _ _ stopped ⟨?_, read.2⟩
    rw [Expr.juxtapose, Expr.bare, firstBare, read.1]

/-- A longer product leaves the parenthesis alone, and so do the parsers of all looser levels. -/
theorem ContinuesBefore.stop (continues : ContinuesBefore Opens inner .product pieces tree)
    (other : tree.isNumber = false) {level : Level} (loose : level.rank ≤ Level.product.rank) :
    RecoversBefore Opens (inner.parserOf level) pieces tree := by
  intro state rest ahead opens
  have leaves (level : Level) (below : level.rank < Level.postfixed.rank) (found : Expr)
      (after : ParseState) (read : found.bare = tree ∧ after.pieces = rest) :
      after.token.leaves level found.isNumber = true := by
    rw [ParseState.token_eq_front, read.2, opens, ← isNumber_bare, read.1, other]
    revert below
    cases level <;> decide
  refine gives_parserOf_of_leaves loose ?_ ?_ ?_
  · refine continues state rest _ ahead opens fun found after bare afterAhead => ?_
    exact loop_roundOf_gives_of_leaves (leaves .product (by decide) found after ⟨bare, afterAhead⟩)
      ⟨bare, afterAhead⟩
  · intro level _ below
    exact leaves level (Nat.lt_trans below (by decide))
  · intro same
    cases same

/-! ## What is left over -/

theorem diagnostics_join_ne_nil {op : BinaryOp} {left right : Expr}
    (reported : left.diagnostics ≠ [] ∨ right.diagnostics ≠ []) :
    (Expr.join op left right).diagnostics ≠ [] := by
  rcases reported with reported | reported
  · exact @Node.diagnostics_ne_nil_of_child (.expr (Expr.join op left right)) (.expr left)
      List.mem_cons_self reported
  · exact @Node.diagnostics_ne_nil_of_child (.expr (Expr.join op left right)) (.expr right)
      (List.mem_cons_of_mem _ List.mem_cons_self) reported

theorem diagnostics_invalid_ne_nil (span : Span) (defect : Defect) :
    (Expr.invalid span defect).diagnostics ≠ [] := by
  have own : (Expr.invalid span defect).diagnostics = (Node.expr (.invalid span defect)).diagnostics :=
    rfl
  rw [own, Node.diagnostics_eq]
  exact List.cons_ne_nil _ _

/-- What is left over after an expression is reported. -/
theorem entire_ensures_of_rest {state : ParseState} (first : state.token ≠ .semicolon)
    (given : inner.assignment.Gives state fun _ after =>
      after.token ≠ .semicolon ∧ after.token ≠ .eof) :
    inner.entire.Ensures state fun found _ => found.diagnostics ≠ [] := by
  rw [entire, ensures_bind]
  refine .of_gives (skipSemicolons_gives_of_ne first ?_)
  rw [ensures_bind]
  refine (Ensures.of_gives given).mono fun tree after more => ?_
  refine loop_ensures (fun soFar last =>
    soFar.diagnostics ≠ [] ∨ last.token ≠ .semicolon ∧ last.token ≠ .eof) (.inr more) ?_
  intro soFar last before
  -- The source goes on at the first round; from the second round on, something has been reported.
  have skipped : skipSemicolons.Ensures last fun _ next =>
      soFar.diagnostics ≠ [] ∨ next.token ≠ .eof := by
    rcases before with reported | more
    · exact fun _ _ _ => .inl reported
    · exact .of_gives (skipSemicolons_gives_of_ne more.1 (.inr more.2))
  rw [ensures_bind]
  refine skipped.mono fun _ next before => ?_
  simp only [ensures_bind, ensures_token, ensures_ite, ensures_bad, ensures_pure]
  refine ⟨fun ended => before.resolve_right fun more => more ended, fun _ => ?_⟩
  have joined : (Expr.join .multiply soFar
      (.invalid next.cursor.current.span .unexpectedToken)).diagnostics ≠ [] :=
    diagnostics_join_ne_nil (.inr (diagnostics_invalid_ne_nil _ _))
  refine fun value _ _ => .inl ?_
  split
  · exact joined
  · exact diagnostics_join_ne_nil (.inl joined)

end Grammar

/-! ## Lines -/

/-- What the parser ensures of the pieces of a line holds of the tree of the line. -/
theorem parseExpression_line (source : Nat) {pieces : List Piece} (post : Expr → Prop)
    (plain : ∀ piece ∈ pieces, piece.IsPlain)
    (ensured : ∀ depth state, pieces.length ≤ depth → state.pieces = pieces →
      (ofDepth depth).entire.Ensures state fun found _ => post found) :
    post (parseExpression source (line pieces)) := by
  have ahead := ParseState.pieces_start_line plain { source }
  have light := ParseState.length_pieces_start_le (Lexeme.scanText (line pieces)) { source }
  rw [ahead] at light
  obtain ⟨tree, after, ran, -⟩ := Parsed.attempt_entire source (Lexeme.scanText (line pieces))
  have same : parseExpression source (line pieces) = tree := by
    simp only [parseExpression, Parsed.expression, Parsed.run, ran]
  rw [same]
  exact ensured _ _ (Nat.le_succ_of_le light) ahead tree after ran

section Line

variable (source : Nat) {factor : Term} (item : Term) (trails : factor.Trails .product)

theorem isPlain_before_parentheses :
    ∀ piece ∈ factor.pieces ++ enclose true item.pieces, piece.IsPlain :=
  List.forall_mem_append.mpr ⟨factor.isPlain_of_mem, isPlain_enclose item.isPlain_of_mem⟩

include trails

/-- A number, with or without signs before it, is multiplied by what stands in the parentheses after
it. -/
theorem number_multiplies_parentheses (number : factor.tree.isNumber = true) :
    (parseExpression source (line (factor.pieces ++ enclose true item.pieces))).bare =
      .binary {} .multiply factor.tree (.arguments {} [item.tree]) true := by
  refine parseExpression_line source (fun found => found.bare = _)
    (isPlain_before_parentheses item) fun depth state light ahead => ?_
  obtain ⟨factorLight, itemLight⟩ : factor.pieces.length ≤ depth ∧ item.pieces.length < depth := by
    simp only [enclose, if_true, List.length_append, List.length_cons] at light
    omega
  have continues := product_continuesBefore trails factorLight
  have multiplied : Recovers ((ofDepth depth).parserOf .product) .product _ _ :=
    continues.juxtapose number ((nests_ofDepth depth).listable itemLight)
  have recovers : Recovers ((ofDepth depth).parserOf .assignment) .assignment _ _ :=
    multiplied.climb (by decide) fun same => by cases same
  refine .of_gives (entire_gives_of_assignment ?_ (recovers state [] ?_ rfl))
  · exact factor.startsIn_termStarts.token_ne ahead (by decide)
  · rw [ahead, List.append_nil]

/-- A longer product that ends with a number is not: nobody reads the parentheses after it. -/
theorem product_leaves_parentheses (other : factor.tree.isNumber = false) :
    (parseExpression source (line (factor.pieces ++ enclose true item.pieces))).diagnostics ≠ [] := by
  refine parseExpression_line source (fun found => found.diagnostics ≠ [])
    (isPlain_before_parentheses item) fun depth state light ahead => ?_
  have factorLight : factor.pieces.length ≤ depth := by
    rw [List.length_append] at light
    omega
  have continues := product_continuesBefore trails factorLight
  have recovers : RecoversBefore Opens ((ofDepth depth).parserOf .assignment) _ _ :=
    continues.stop other (by decide)
  refine entire_ensures_of_rest (factor.startsIn_termStarts.token_ne ahead (by decide)) ?_
  refine (recovers state _ ahead rfl).mono fun found after read => ?_
  rw [ParseState.token_of_pieces read.2]
  decide

end Line

/-- The number before these parentheses is the last factor of a product. -/
theorem product_before_parentheses_is_reported :
    (parseExpression 0 "3 (4)").diagnostics = [] ∧
      (parseExpression 0 "2 * 3 (4)").diagnostics.map (·.span.start.column) = [7, 9] := by
  decide +kernel

end Reckon
