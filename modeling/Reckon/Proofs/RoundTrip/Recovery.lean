import Reckon.Proofs.RoundTrip.Forms

/-!
# Reading terms

Every term is recovered by the parser of every level, in parentheses if it is too loose for the level.
The proof goes by the number of pieces of the term: its children have fewer, and what stands inside of
a construct that nests is read by a grammar one level down, whose depth also bounds the pieces.
-/

namespace Reckon

open Piece Grammar

/-! ## Terms in slots -/

namespace Term

/-- The pieces of a term in a slot. -/
def inSlot (slot : Level) (term : Term) : List Piece :=
  enclose (term.isLoose slot) term.pieces

/-- The tree of a term in a slot. -/
def treeIn (slot : Level) (term : Term) : Expr :=
  term.tree.enclose (term.isLoose slot)

theorem length_le_length_enclose (needed : Bool) (pieces : List Piece) :
    pieces.length ≤ (enclose needed pieces).length := by
  cases needed with
  | false =>
      exact Nat.le_refl _
  | true =>
      simp only [enclose, if_true, List.length_cons, List.length_append]
      omega

theorem length_le_length_inSlot (slot : Level) (term : Term) :
    term.pieces.length ≤ (term.inSlot slot).length :=
  length_le_length_enclose _ _

theorem inSlot_of_loose {slot : Level} {term : Term} (loose : term.isLoose slot = true) :
    term.inSlot slot = enclose true term.pieces ∧ term.treeIn slot = term.tree.enclose true := by
  rw [inSlot, treeIn, loose]
  exact ⟨rfl, rfl⟩

theorem inSlot_of_tight {slot : Level} {term : Term} (tight : term.isLoose slot = false) :
    term.inSlot slot = term.pieces ∧ term.treeIn slot = term.tree := by
  rw [inSlot, treeIn, tight]
  exact ⟨rfl, rfl⟩

theorem isLoose_tighter {slot : Level} {term : Term} (notLast : slot ≠ .postfixed)
    (other : term.level ≠ slot) : term.isLoose slot.tighter = term.isLoose slot := by
  have next := Level.rank_tighter notLast
  have different : term.level.rank ≠ slot.rank := fun same => other (Level.eq_of_rank_eq same)
  unfold isLoose
  rw [next]
  by_cases loose : term.level.rank < slot.rank
  · have looser : term.level.rank < slot.rank + 1 := by omega
    simp [loose, looser]
  · have tight : ¬term.level.rank < slot.rank + 1 := by omega
    simp [loose, tight]

theorem level_of_not_isLoose {term : Term} (tight : term.isLoose .postfixed = false) :
    term.level = .postfixed := by
  have bounded : term.level.rank ≤ Level.postfixed.rank := by
    cases term.level <;> decide
  have reached : Level.postfixed.rank ≤ term.level.rank := by
    simpa [isLoose] using tight
  exact Level.eq_of_rank_eq (Nat.le_antisymm bounded reached)

/-- The parts of an operation that groups from the left. -/
theorem pieces_binary {op : BinaryOp} (notPower : op ≠ .power) (left right : Term) :
    (Term.binary op left right).pieces =
      left.inSlot op.level ++ sign op.token :: right.inSlot op.level.tighter := by
  cases op <;> first | rfl | exact absurd rfl notPower

theorem tree_binary {op : BinaryOp} (notPower : op ≠ .power) (left right : Term) :
    (Term.binary op left right).tree =
      .binary {} op (left.treeIn op.level) (right.treeIn op.level.tighter) false := by
  cases op <;> first | rfl | exact absurd rfl notPower

theorem isEmpty_tree (term : Term) : term.tree.isEmpty = false := by
  cases term with
  | place place => cases place <;> rfl
  | _ => rfl

theorem isNumber_tree {term : Term} (tight : term.level = .postfixed)
    (other : term.isNumeral = false) : term.tree.isNumber = false := by
  cases term with
  | number numeral => cases other
  | place place => cases place <;> rfl
  | boolean value => rfl
  | null => rfl
  | factorial operand => rfl
  | binary op left right => cases op <;> cases tight
  | _ => cases tight

theorem length_le_length_listed {args : List Term} {arg : Term} (member : arg ∈ args) :
    arg.pieces.length ≤ (Term.listed args).length := by
  induction args with
  | nil =>
      cases member
  | cons first rest inductionHypothesis =>
      cases rest with
      | nil =>
          rewrite [List.mem_singleton.mp member, Term.listed]
          exact Nat.le_refl _
      | cons second others =>
          rw [Term.listed_cons_cons, List.length_append, List.length_cons]
          rcases List.mem_cons.mp member with rfl | later
          · omega
          · have bounded := inductionHypothesis later
            omega

end Term

/-! ## First lexemes -/

namespace Grammar

theorem startsIn_singleton {allowed : List Token} {piece : Piece} (member : piece.token ∈ allowed) :
    StartsIn allowed [piece] :=
  ⟨piece, [], rfl, member⟩

theorem startsIn_enclose {allowed : List Token} {needed : Bool} {pieces : List Piece}
    (paren : .leftParen ∈ allowed) (starts : needed = false → StartsIn allowed pieces) :
    StartsIn allowed (enclose needed pieces) := by
  cases needed with
  | true =>
      exact ⟨sign .leftParen, _, rfl, paren⟩
  | false =>
      exact starts rfl

theorem StartsIn.append {allowed : List Token} {pieces : List Piece}
    (starts : StartsIn allowed pieces) (rest : List Piece) : StartsIn allowed (pieces ++ rest) := by
  obtain ⟨piece, later, rfl, member⟩ := starts
  exact ⟨piece, later ++ rest, rfl, member⟩

theorem StartsIn.termStarts {pieces : List Piece} (starts : StartsIn operandStarts pieces) :
    StartsIn termStarts pieces := by
  obtain ⟨piece, rest, same, member⟩ := starts
  exact ⟨piece, rest, same, List.mem_append_left _ member⟩

end Grammar

mutual

/-- A term without operators in front starts with an operand. -/
theorem Term.startsIn_operandStarts :
    ∀ term : Term, term.level = .postfixed → StartsIn operandStarts term.pieces
  | .number _, _ => startsIn_singleton (show Token.number ∈ operandStarts by decide)
  | .boolean true, _ => startsIn_singleton (show Token.kwTrue ∈ operandStarts by decide)
  | .boolean false, _ => startsIn_singleton (show Token.kwFalse ∈ operandStarts by decide)
  | .null, _ => startsIn_singleton (show Token.kwNull ∈ operandStarts by decide)
  | .place target, _ => target.startsIn_operandStarts
  | .factorial operand, _ => by
      have operandStarts := operand.startsIn_operandStarts
      exact (startsIn_enclose (by decide) fun tight =>
        operandStarts (Term.level_of_not_isLoose tight)).append _
  | .binary op left right, tight => by
      cases op <;> cases tight

theorem Place.startsIn_operandStarts : ∀ place : Place, StartsIn operandStarts place.pieces
  | .name _ => startsIn_singleton (show Token.name ∈ operandStarts by decide)
  | .member owner selector => by
      have ownerStarts := owner.startsIn_operandStarts
      exact (startsIn_enclose (by decide) fun tight =>
        ownerStarts (Term.level_of_not_isLoose tight)).append _
  | .call callee args => by
      have calleeStarts := callee.startsIn_operandStarts
      refine (startsIn_enclose (by decide) fun callable => ?_).append _
      have tight : callee.isLoose .postfixed = false := (Bool.or_eq_false_iff.mp callable).1
      exact calleeStarts (Term.level_of_not_isLoose tight)

end

theorem Term.startsIn_termStarts : ∀ term : Term, StartsIn termStarts term.pieces
  | .number numeral => ((Term.number numeral).startsIn_operandStarts rfl).termStarts
  | .boolean value => ((Term.boolean value).startsIn_operandStarts rfl).termStarts
  | .null => (Term.null.startsIn_operandStarts rfl).termStarts
  | .place target => target.startsIn_operandStarts.termStarts
  | .factorial operand => ((Term.factorial operand).startsIn_operandStarts rfl).termStarts
  | .unary op operand => ⟨sign op.token, _, rfl, by cases op <;> decide⟩
  | .binary op left right =>
      (startsIn_enclose (by decide) fun _ => left.startsIn_termStarts).append _
  | .range first last =>
      (startsIn_enclose (by decide) fun _ => first.startsIn_termStarts).append _
  | .steppedRange first step last =>
      (startsIn_enclose (by decide) fun _ => first.startsIn_termStarts).append _
  | .conditional test whenTrue whenFalse =>
      (startsIn_enclose (by decide) fun _ => test.startsIn_termStarts).append _
  | .function params body => ⟨sign .leftParen, _, rfl, by decide⟩
  | .assignment target value => target.startsIn_operandStarts.termStarts.append _

theorem Term.startsIn_inSlot (slot : Level) (term : Term) :
    StartsIn termStarts (term.inSlot slot) :=
  startsIn_enclose (by decide) fun _ => term.startsIn_termStarts

/-! ## Recovery -/

namespace Grammar

open Reckon.Parser

variable {inner : Grammar} {depth : Nat} {pieces : List Piece} {tree : Expr} {term : Term}

/-- The parsers of what is nested recover the terms with fewer pieces than the depth. -/
structure Nests (inner : Grammar) (depth : Nat) : Prop where
  expr : ∀ term : Term, term.pieces.length < depth →
    Recovers inner.expr .assignment term.pieces term.tree
  lambda : ∀ term : Term, (term.inSlot .lambda).length < depth →
    Recovers inner.lambda .lambda (term.inSlot .lambda) (term.treeIn .lambda)
  unary : ∀ term : Term, (term.inSlot .unary).length < depth →
    Recovers inner.unary .unary (term.inSlot .unary) (term.treeIn .unary)

/-- A term is recovered by the parsers of all levels, and can be the left part of every chain. -/
structure Recovered (inner : Grammar) (depth : Nat) (term : Term) : Prop where
  slot : ∀ level, (term.inSlot level).length ≤ depth →
    Recovers (inner.parserOf level) level (term.inSlot level) (term.treeIn level)
  chain : ∀ level, level.isChain = true → (term.inSlot level).length ≤ depth →
    Continues inner level (term.inSlot level) (term.treeIn level)
  exponents : (term.inSlot .power).length ≤ depth →
    Exponents inner (term.inSlot .power) (term.treeIn .power)
  heads : term.level = .postfixed → term.pieces.length ≤ depth → Heads inner term.pieces term.tree

theorem Nests.listable (nests : Nests inner depth) (light : term.pieces.length < depth) :
    Listable inner term :=
  ⟨nests.expr term light, term.startsIn_termStarts, term.isEmpty_tree⟩

theorem Recovers.climb {loose tight : Level} (le : loose.rank ≤ tight.rank)
    (recovers : Recovers (inner.parserOf tight) tight pieces tree)
    (starts : tight = .postfixed → StartsIn operandStarts pieces) :
    Recovers (inner.parserOf loose) loose pieces tree := by
  intro state rest ahead follows
  have tightFollows := Token.follows_of_rank_le le follows
  refine gives_parserOf_of_rank_le le (recovers.gives ahead tightFollows) ?_ ?_
  · intro found after read
    rw [ParseState.token_eq_front, read.2]
    exact Token.ends_of_follows follows
  · intro tightest _
    exact (starts tightest).unaryOp?_eq_none ahead

/-- A part in parentheses, or a part that needs none. -/
theorem heads_enclose {needed : Bool} (nests : Nests inner depth)
    (bare : needed = false → Heads inner term.pieces term.tree)
    (light : (enclose needed term.pieces).length ≤ depth) :
    Heads inner (enclose needed term.pieces) (term.tree.enclose needed) := by
  cases needed with
  | false =>
      exact bare rfl
  | true =>
      have fewer : term.pieces.length < depth := by
        simp only [enclose, if_true, List.length_cons, List.length_append] at light
        omega
      exact heads_group (nests.listable fewer)

theorem Recovered.heads_inSlot (known : Recovered inner depth term) (nests : Nests inner depth)
    (light : (term.inSlot .postfixed).length ≤ depth) :
    Heads inner (term.inSlot .postfixed) (term.treeIn .postfixed) := by
  have bounded := term.length_le_length_inSlot .postfixed
  exact heads_enclose nests
    (fun fits => known.heads (Term.level_of_not_isLoose fits) (Nat.le_trans bounded light)) light

section Step

variable (nests : Nests inner depth)
  (smaller : ∀ child : Term, child.pieces.length < term.pieces.length →
    Recovered inner depth child)
  (light : term.pieces.length ≤ depth)

include smaller light

theorem slot_of_smaller {child : Term} {slot : Level}
    (shorter : (child.inSlot slot).length < term.pieces.length) :
    Recovers (inner.parserOf slot) slot (child.inSlot slot) (child.treeIn slot) := by
  have bounded := child.length_le_length_inSlot slot
  have known := smaller child (by omega)
  exact known.slot slot (by omega)

/-- A chain that groups from the left is the left part of a longer one. -/
theorem continues_of_smaller {op : BinaryOp} {left right : Term} (notPower : op ≠ .power)
    (same : term = .binary op left right) : Continues inner op.level term.pieces term.tree := by
  have pieces : term.pieces = left.inSlot op.level ++
      sign op.token :: right.inSlot op.level.tighter := by
    rw [same, Term.pieces_binary notPower]
  have length : term.pieces.length =
      (left.inSlot op.level).length + ((right.inSlot op.level.tighter).length + 1) := by
    rw [pieces, List.length_append, List.length_cons]
  have leftBounded := left.length_le_length_inSlot op.level
  have leftKnown := smaller left (by omega)
  have leftContinues := leftKnown.chain op.level (BinaryOp.isChain_level notPower) (by omega)
  have rightRecovers := slot_of_smaller smaller light
    (by omega : (right.inSlot op.level.tighter).length < term.pieces.length)
  rw [pieces, same, Term.tree_binary notPower]
  exact leftContinues.join notPower rightRecovers (right.startsIn_inSlot op.level.tighter)

/-- The parts of a power. -/
theorem power_parts_of_smaller {left right : Term} (same : term = .binary .power left right) :
    Recovers inner.signed .unary (left.inSlot .unary) (left.treeIn .unary) ∧
      Exponents inner (right.inSlot .power) (right.treeIn .power) ∧
        StartsIn termStarts (right.inSlot .power) := by
  have length : term.pieces.length =
      (left.inSlot .unary).length + ((right.inSlot .power).length + 1) := by
    rw [same]
    simp [Term.pieces, Term.inSlot, BinaryOp.leftSlot, BinaryOp.rightSlot]
  have rightBounded := right.length_le_length_inSlot .power
  have rightKnown := smaller right (by omega)
  have leftRecovers := slot_of_smaller smaller light
    (by omega : (left.inSlot .unary).length < term.pieces.length)
  exact ⟨leftRecovers, rightKnown.exponents (by omega), right.startsIn_inSlot .power⟩

include nests

theorem heads_of_smaller (tight : term.level = .postfixed) :
    Heads inner term.pieces term.tree := by
  cases term with
  | number numeral =>
      exact heads_numeral numeral
  | boolean value =>
      cases value
      · exact heads_boolean false
      · exact heads_boolean true
  | null =>
      exact heads_null
  | factorial operand =>
      have length : (Term.factorial operand).pieces.length =
          (operand.inSlot .postfixed).length + 1 := by
        simp [Term.pieces, Term.inSlot]
      have bounded := operand.length_le_length_inSlot .postfixed
      have known := smaller operand (by omega)
      exact (known.heads_inSlot nests (by omega)).factorial
  | place target =>
      cases target with
      | name name =>
          exact heads_name name
      | member owner selector =>
          have length : (Term.place (.member owner selector)).pieces.length =
              (owner.inSlot .postfixed).length + 2 := by
            simp [Term.pieces, Place.pieces, Term.inSlot]
          have bounded := owner.length_le_length_inSlot .postfixed
          have known := smaller owner (by omega)
          exact (known.heads_inSlot nests (by omega)).member selector
      | call callee args =>
          have length : (Term.place (.call callee args)).pieces.length =
              (enclose callee.isUncallable callee.pieces).length +
                ((Term.listed args).length + 2) := by
            simp [Term.pieces, Place.pieces, enclose]
          have bounded := Term.length_le_length_enclose callee.isUncallable callee.pieces
          have known := smaller callee (by omega)
          have calleeHeads : Heads inner (enclose callee.isUncallable callee.pieces)
              (callee.tree.enclose callee.isUncallable) := by
            refine heads_enclose nests (fun callable => ?_) (by omega)
            have fits : callee.isLoose .postfixed = false := (Bool.or_eq_false_iff.mp callable).1
            exact known.heads (Term.level_of_not_isLoose fits) (by omega)
          have notNumber : (callee.tree.enclose callee.isUncallable).isNumber = false := by
            cases callable : callee.isUncallable with
            | true =>
                rfl
            | false =>
                obtain ⟨fits, notNumeral⟩ := Bool.or_eq_false_iff.mp callable
                exact Term.isNumber_tree (Term.level_of_not_isLoose fits) notNumeral
          have listable : ∀ arg ∈ args, Listable inner arg := by
            intro arg member
            have argBounded := Term.length_le_length_listed member
            exact nests.listable (by omega)
          exact calleeHeads.call notNumber listable
  | binary op left right =>
      cases op <;> cases tight
  | _ =>
      cases tight

theorem own_of_smaller :
    Recovers (inner.parserOf term.level) term.level term.pieces term.tree := by
  cases term with
  | number | boolean | null | place | factorial =>
      exact (heads_of_smaller nests smaller light rfl).recovers
  | unary op operand =>
      have length : (Term.unary op operand).pieces.length = (operand.inSlot .unary).length + 1 := by
        simp [Term.pieces, Term.inSlot]
      exact signed_recovers (nests.unary operand (by omega))
  | binary op left right =>
      by_cases isPower : op = .power
      · subst isPower
        obtain ⟨leftRecovers, rightExponents, starts⟩ := power_parts_of_smaller smaller light rfl
        exact power_recovers leftRecovers rightExponents starts
      · exact (continues_of_smaller smaller light isPower rfl).recovers
  | range first last =>
      have length : (Term.range first last).pieces.length =
          (first.inSlot .pipe).length + ((last.inSlot .pipe).length + 1) := by
        simp [Term.pieces, Term.inSlot]
      exact range_recovers (slot_of_smaller smaller light (by omega))
        (slot_of_smaller smaller light (by omega))
  | steppedRange first step last =>
      have length : (Term.steppedRange first step last).pieces.length =
          (first.inSlot .pipe).length + ((step.inSlot .pipe).length +
            ((last.inSlot .pipe).length + 1) + 1) := by
        simp [Term.pieces, Term.inSlot]
      exact steppedRange_recovers (slot_of_smaller smaller light (by omega))
        (slot_of_smaller smaller light (by omega)) (slot_of_smaller smaller light (by omega))
  | conditional test whenTrue whenFalse =>
      have length : (Term.conditional test whenTrue whenFalse).pieces.length =
          (test.inSlot .range).length + ((whenTrue.inSlot .lambda).length +
            ((whenFalse.inSlot .lambda).length + 1) + 1) := by
        simp [Term.pieces, Term.inSlot]
      exact conditional_recovers (slot_of_smaller smaller light (by omega))
        (nests.lambda whenTrue (by omega)) (nests.lambda whenFalse (by omega))
  | function params body =>
      have length : (Term.function params body).pieces.length =
          (names params).length + body.pieces.length + 3 := by
        simp only [Term.pieces, enclose, if_true, List.length_append, List.length_cons,
          List.length_nil]
        omega
      have listable : ∀ name ∈ params, Listable inner (.place (.name name)) := by
        intro name _
        have single : (Term.place (.name name)).pieces.length = 1 := rfl
        exact nests.listable (by omega)
      exact function_recovers listable (nests.expr body (by omega)) body.startsIn_termStarts
  | assignment target value =>
      have length : (Term.assignment target value).pieces.length =
          (Term.place target).pieces.length + (value.pieces.length + 1) := by
        simp [Term.pieces]
      have known := smaller (.place target) (by omega)
      exact assignment_recovers (known.heads rfl (by omega)) target.startsIn_operandStarts
        (nests.expr value (by omega))

end Step

theorem recovers_slot (nests : Nests inner depth)
    (smaller : ∀ child : Term, child.pieces.length < term.pieces.length →
      Recovered inner depth child)
    {level : Level} (light : (term.inSlot level).length ≤ depth) :
    Recovers (inner.parserOf level) level (term.inSlot level) (term.treeIn level) := by
  cases loose : term.isLoose level with
  | true =>
      have bounded : level.rank ≤ Level.postfixed.rank := by cases level <;> decide
      have grouped := Term.inSlot_of_loose loose
      rw [grouped.1] at light
      rw [grouped.1, grouped.2]
      have fewer : term.pieces.length < depth := by
        simp only [enclose, if_true, List.length_cons, List.length_append] at light
        omega
      have heads := heads_group (nests.listable fewer)
      exact Recovers.climb bounded heads.recovers fun _ =>
        startsIn_enclose (by decide) fun notNeeded => by cases notNeeded
  | false =>
      have tight : level.rank ≤ term.level.rank := by simpa [Term.isLoose] using loose
      have plain := Term.inSlot_of_tight loose
      rw [plain.1] at light
      rw [plain.1, plain.2]
      exact Recovers.climb tight (own_of_smaller nests smaller light) term.startsIn_operandStarts

theorem exists_binary_of_isChain {level : Level} (chain : level.isChain = true)
    (same : term.level = level) :
    ∃ op left right, term = .binary op left right ∧ op ≠ .power ∧ op.level = level := by
  subst same
  cases term with
  | binary op left right =>
      refine ⟨op, left, right, rfl, ?_, rfl⟩
      rintro rfl
      cases chain
  | _ =>
      cases chain

theorem exists_unary_of_level (same : term.level = .unary) :
    ∃ op operand, term = .unary op operand := by
  cases term with
  | unary op operand =>
      exact ⟨op, operand, rfl⟩
  | binary op left right =>
      cases op <;> cases same
  | _ =>
      cases same

theorem exists_power_of_level (same : term.level = .power) :
    ∃ left right, term = .binary .power left right := by
  cases term with
  | binary op left right =>
      cases op <;> first | exact ⟨left, right, rfl⟩ | cases same
  | _ =>
      cases same

theorem recovered_of_smaller (nests : Nests inner depth)
    (smaller : ∀ child : Term, child.pieces.length < term.pieces.length →
      Recovered inner depth child) :
    Recovered inner depth term where
  slot _ light := recovers_slot nests smaller light
  chain level chain light := by
    have notLast : level ≠ .postfixed := by
      rintro rfl
      cases chain
    by_cases same : term.level = level
    · obtain ⟨op, left, right, isBinary, notPower, rfl⟩ := exists_binary_of_isChain chain same
      have tight : term.isLoose op.level = false := by simp [Term.isLoose, same]
      have plain := Term.inSlot_of_tight tight
      rw [plain.1] at light
      rw [plain.1, plain.2]
      exact continues_of_smaller smaller light notPower isBinary
    · have sameLoose := Term.isLoose_tighter notLast same
      have next : (term.inSlot level.tighter).length ≤ depth := by
        rwa [Term.inSlot, sameLoose]
      have recovers := recovers_slot nests smaller next
      rw [Term.inSlot, Term.treeIn, sameLoose] at recovers
      exact recovers.continues chain
  exponents light := by
    by_cases same : term.level = .power
    · obtain ⟨left, right, rfl⟩ := exists_power_of_level same
      obtain ⟨leftRecovers, rightExponents, starts⟩ := power_parts_of_smaller smaller light rfl
      exact ExponentsBefore.power leftRecovers rightExponents starts
    · have sameLoose := Term.isLoose_tighter (by decide : Level.power ≠ .postfixed) same
      have next : (term.inSlot .unary).length ≤ depth := by
        rw [Term.inSlot]
        rw [Term.inSlot, ← sameLoose] at light
        exact light
      have recovers : Recovers inner.signed .unary (term.inSlot .unary) (term.treeIn .unary) :=
        recovers_slot nests smaller next
      rw [Term.inSlot, Term.treeIn, ← sameLoose]
      exact recovers.exponents
  heads tight light := heads_of_smaller nests smaller light tight

theorem Nests.recovered (nests : Nests inner depth) (term : Term) : Recovered inner depth term := by
  induction size : term.pieces.length using Nat.strongRecOn generalizing term with
  | ind size inductionHypothesis =>
      refine recovered_of_smaller nests fun child shorter => ?_
      exact inductionHypothesis child.pieces.length (by omega) child rfl

theorem inSlot_assignment (term : Term) :
    term.inSlot .assignment = term.pieces ∧ term.treeIn .assignment = term.tree :=
  Term.inSlot_of_tight (by simp [Term.isLoose, Level.rank])

/-- What is nested in a construct is recovered by the grammar of a depth. -/
theorem nests_ofDepth (depth : Nat) : Nests (ofDepth depth) depth := by
  induction depth with
  | zero =>
      exact ⟨fun _ light => absurd light (Nat.not_lt_zero _),
        fun _ light => absurd light (Nat.not_lt_zero _),
        fun _ light => absurd light (Nat.not_lt_zero _)⟩
  | succ depth inductionHypothesis =>
      refine ⟨fun term light => ?_, fun term light => ?_, fun term light => ?_⟩
      · have plain := inSlot_assignment term
        have known := (inductionHypothesis.recovered term).slot .assignment
        rw [plain.1, plain.2] at known
        exact known (Nat.le_of_lt_succ light)
      · exact (inductionHypothesis.recovered term).slot .lambda (Nat.le_of_lt_succ light)
      · exact (inductionHypothesis.recovered term).slot .unary (Nat.le_of_lt_succ light)

theorem skipSemicolons_gives_of_ne {state : ParseState} {post : Unit → ParseState → Prop}
    (other : state.token ≠ .semicolon) (satisfied : post () state) :
    skipSemicolons.Gives state post := by
  rw [skipSemicolons]
  refine loop_gives_of_round ?_
  simp only [gives_bind, gives_ite, gives_accept_cases, gives_pure]
  exact ⟨fun found => absurd found other, fun _ => satisfied⟩

/-- An expression that is all there is ahead is read to the end of the source. -/
theorem entire_gives_of_assignment {state : ParseState} {post : Expr → Prop}
    (first : state.token ≠ .semicolon)
    (given : inner.assignment.Gives state fun found after => post found ∧ after.pieces = []) :
    inner.entire.Gives state fun found _ => post found := by
  rw [entire, gives_bind]
  refine skipSemicolons_gives_of_ne first ?_
  rw [gives_bind]
  refine given.mono fun found after read => ?_
  have ended : after.token = .eof := by
    rw [ParseState.token_eq_front, read.2]
    rfl
  refine loop_gives_of_round ?_
  rw [gives_bind]
  refine skipSemicolons_gives_of_ne (by rw [ended]; decide) ?_
  simp only [gives_bind, gives_token, ended, if_true, gives_pure]
  exact read.1

theorem entire_gives_term {state : ParseState} (light : term.pieces.length ≤ depth)
    (ahead : state.pieces = term.pieces) :
    (ofDepth depth).entire.Gives state fun found _ => found.bare = term.tree := by
  have wholeAhead : state.pieces = term.pieces ++ [] := by rw [ahead, List.append_nil]
  have known := ((nests_ofDepth depth).recovered term).slot .assignment
  rw [(inSlot_assignment term).1, (inSlot_assignment term).2] at known
  refine entire_gives_of_assignment ?_ ((known light).gives wholeAhead rfl)
  exact term.startsIn_termStarts.token_ne wholeAhead (by decide)

end Grammar

end Reckon
