import Mathlib.Data.List.Induction
import Reckon.Proofs.Lexeme.Placing
import Reckon.Proofs.Parsing.Relocating

/-!
# Scanning from another place

The same runes at another place are the same lexemes, moved.  A relocation that breaks a line moves what
follows the break to the start of the next line; it tears no two places apart and pushes none together.
-/

namespace Reckon

open Text (Rune)

/-! ## Scanning -/

/-- A relocation goes along with the places that are reached by reading some runes, even if a reader goes
past the end of them. -/
def Relocation.Follows (move : Relocation) (position : Position) (runes : List Rune) : Prop :=
  ∀ count columns, columns ≤ 2 →
    move ((position.advanceAll (runes.take count)).overrun columns) =
      ((move position).advanceAll (runes.take count)).overrun columns

namespace Relocation.Follows

variable {move : Relocation} {position : Position} {runes : List Rune}

theorem advanceAll_take (follows : move.Follows position runes) (count : Nat) :
    move (position.advanceAll (runes.take count)) = (move position).advanceAll (runes.take count) :=
  follows count 0 (Nat.zero_le _)

theorem drop (follows : move.Follows position runes) (count : Nat) :
    move.Follows (position.advanceAll (runes.take count)) (runes.drop count) := by
  intro more columns few
  have whole := follows (count + more) columns few
  rwa [List.take_add, Position.advanceAll_append, Position.advanceAll_append,
    ← follows.advanceAll_take] at whole

theorem take (follows : move.Follows position runes) (count : Nat) :
    move.Follows position (runes.take count) := by
  intro fewer columns few
  rw [List.take_take]
  exact follows _ columns few

end Relocation.Follows

namespace Lexeme

open Recognized

variable {move : Relocation} {state : ScanState} {position : Position} {runes : List Rune}

theorem relocate_endOfSource (position : Position) :
    (endOfSource position).relocate move = endOfSource (move position) :=
  rfl

/-- Runes at a place that was moved are lexemes that were moved. -/
theorem scanned_relocate (follows : move.Follows position runes) :
    scanned state (move position) runes = (scanned state position runes).map (relocate move) := by
  induction size : runes.length using Nat.strongRecOn generalizing state position runes with
  | ind size inductionHypothesis =>
      subst size
      cases runes with
      | nil => simp [relocate_endOfSource]
      | cons first rest =>
          let found := next state.newlineEnds first rest
          have read : IsReadFrom (first :: rest) found := isReadFrom_next state.newlineEnds first rest
          have few : found.overrun ≤ 2 := by
            rcases read.overrun with none | ⟨-, -, -, few⟩
            · rw [none]
              exact Nat.zero_le _
            · exact few
          have stop : move (stopAt state.newlineEnds position first rest) =
              stopAt state.newlineEnds (move position) first rest :=
            follows found.length found.overrun few
          have subs : (lexemeAt state.newlineEnds (move position) first rest).subs =
              (lexemeAt state.newlineEnds position first rest).subs.map (List.map (relocate move)) := by
            simp only [lexemeAt, List.map_map]
            refine List.map_congr_left fun replacement member => ?_
            have braced := read.braced.isBraced_of_mem member
            have inside := (follows.drop replacement.start).take replacement.body.length
            rw [← braced.body_eq] at inside
            rw [← follows.advanceAll_take]
            exact inductionHypothesis _ braced.length_body_lt inside rfl
          have here : lexemeAt state.newlineEnds (move position) first rest =
              (lexemeAt state.newlineEnds position first rest).relocate move := by
            simp only [lexemeAt] at subs
            simp only [lexemeAt, relocate, relocateSubs_eq_map, Span.relocate, stop, subs]
          have later : scanned (state.after found.token)
              (stopAt state.newlineEnds (move position) first rest) ((first :: rest).drop found.length) =
              (scanned (state.after found.token) (stopAt state.newlineEnds position first rest)
                ((first :: rest).drop found.length)).map (relocate move) := by
            rw [← stop]
            rcases read.overrun with none | ⟨-, -, whole, -⟩
            · have inside : stopAt state.newlineEnds position first rest =
                  position.advanceAll ((first :: rest).take found.length) := by
                change (position.advanceAll ((first :: rest).take found.length)).overrun found.overrun = _
                rw [none, Position.overrun_zero]
              rw [inside]
              exact inductionHypothesis _ (length_drop_next_lt _ _ _) (follows.drop _) rfl
            · rw [whole, List.drop_length]
              simp [relocate_endOfSource]
          rw [scanned_cons, scanned_cons, List.map_cons, here]
          exact congrArg _ later

mutual

/-- A lexeme that was moved has the same lexemes in it. -/
theorem weight_relocate : ∀ lexeme : Lexeme, (lexeme.relocate move).weight = lexeme.weight
  | .mk _ _ _ _ _ subs => congrArg (· + 1) (weightSubs_relocateSubs subs)

theorem weightSubs_relocateSubs : ∀ subs : List (List Lexeme),
    weightSubs (relocateSubs move subs) = weightSubs subs
  | [] => rfl
  | lexemes :: rest => by
      rw [relocateSubs, weightSubs, weightAll_relocateAll lexemes, weightSubs_relocateSubs rest,
        weightSubs]

theorem weightAll_relocateAll : ∀ lexemes : List Lexeme,
    weightAll (relocateAll move lexemes) = weightAll lexemes
  | [] => rfl
  | lexeme :: rest => by
      rw [relocateAll, weightAll, weight_relocate lexeme, weightAll_relocateAll rest, weightAll]

end

end Lexeme

/-! ## Order -/

namespace Position

variable {first second third : Position}

/-- A place is not after another one. -/
def Before (first second : Position) : Prop :=
  first.line < second.line ∨ first.line = second.line ∧ first.column ≤ second.column

instance (first second : Position) : Decidable (first.Before second) :=
  inferInstanceAs (Decidable (_ ∨ _))

theorem Before.refl (position : Position) : position.Before position :=
  .inr ⟨rfl, Nat.le_refl _⟩

theorem Before.trans (left : first.Before second) (right : second.Before third) :
    first.Before third := by
  unfold Before at *
  omega

theorem Before.overrun (before : first.Before second) {few many : Nat} (le : few ≤ many) :
    (first.overrun few).Before (second.overrun many) := by
  unfold Before Position.overrun at *
  simp only
  omega

theorem before_advanceAll (position : Position) (runes : List Rune) :
    position.Before (position.advanceAll runes) := by
  induction runes generalizing position with
  | nil => exact .refl position
  | cons rune rest inductionHypothesis =>
      refine Before.trans ?_ (inductionHypothesis (position.advance rune))
      unfold Before advance
      split
      · exact .inl (Nat.lt_succ_self _)
      · exact .inr ⟨rfl, Nat.le_add_right _ _⟩

/-- Each rune takes a column or ends a line. -/
theorem before_overrun_advanceAll (position : Position) {runes : List Rune}
    (wide : ∀ rune ∈ runes, 0 < rune.width) {columns : Nat} (few : columns ≤ runes.length) :
    (position.overrun columns).Before (position.advanceAll runes) := by
  induction runes generalizing position columns with
  | nil =>
      obtain rfl := Nat.le_zero.mp few
      exact .refl _
  | cons rune rest inductionHypothesis =>
      obtain ⟨some, others⟩ := List.forall_mem_cons.mp wide
      have step : (position.overrun columns).Before ((position.advance rune).overrun (columns - 1)) := by
        by_cases newline : rune.char = '\n'
        · exact .inl (by simp [overrun, advance, newline])
        · refine .inr ⟨by simp [overrun, advance, newline], ?_⟩
          simp only [overrun, advance, beq_iff_eq, newline, if_false]
          omega
      exact step.trans (inductionHypothesis _ others (Nat.sub_le_of_le_add few))

end Position

/-- A relocation that keeps all places up to the end of a text goes along with a part of it that ends two
runes before. -/
theorem Relocation.follows_of_keeps {move : Relocation} {position : Position} {runes more : List Rune}
    (wide : ∀ rune ∈ more, 0 < rune.width) (room : 2 ≤ more.length)
    (keeps : ∀ other : Position, other.Before (position.advanceAll (runes ++ more)) → move other = other) :
    move.Follows position runes := by
  have start : move position = position := keeps _ (Position.before_advanceAll _ _)
  intro count columns few
  rw [start]
  refine keeps _ ?_
  have reached := Position.before_advanceAll (position.advanceAll (runes.take count)) (runes.drop count)
  rw [← Position.advanceAll_append, List.take_append_drop] at reached
  have behind := Position.before_overrun_advanceAll (position.advanceAll runes) wide
    (Nat.le_trans few room)
  rw [Position.advanceAll_append]
  exact (reached.overrun (Nat.le_refl columns)).trans behind

/-! ## Breaking a line -/

namespace Relocation

/-- Break a line behind the character at a place: what follows it on its line goes to the next line, and
all later lines go one line down. -/
def breakAt (place : Position) : Relocation := fun position =>
  if position.Before place then position
  else if position.line = place.line then
    { position with line := position.line + 1, column := position.column - place.column }
  else { position with line := position.line + 1 }

theorem breakAt_of_before {position place : Position} (before : position.Before place) :
    breakAt place position = position :=
  if_pos before

/-- A place behind a break is on its line or below. -/
theorem not_before_iff {position place : Position} :
    ¬position.Before place ↔
      position.line = place.line ∧ place.column < position.column ∨ place.line < position.line := by
  unfold Position.Before
  omega

theorem breakAt_of_line {position place : Position} (line : position.line = place.line)
    (column : place.column < position.column) :
    breakAt place position =
      { position with line := position.line + 1, column := position.column - place.column } :=
  (if_neg (not_before_iff.mpr (.inl ⟨line, column⟩))).trans (if_pos line)

theorem breakAt_of_below {position place : Position} (below : place.line < position.line) :
    breakAt place position = { position with line := position.line + 1 } :=
  (if_neg (not_before_iff.mpr (.inr below))).trans (if_neg (Nat.ne_of_gt below))

/-- Where a break leads to, and from where. -/
theorem breakAt_cases (place position : Position) :
    position.Before place ∧ breakAt place position = position ∨
      (position.line = place.line ∧ place.column < position.column) ∧ breakAt place position =
        { position with line := position.line + 1, column := position.column - place.column } ∨
      place.line < position.line ∧
        breakAt place position = { position with line := position.line + 1 } := by
  by_cases before : position.Before place
  · exact .inl ⟨before, breakAt_of_before before⟩
  · rcases not_before_iff.mp before with ⟨line, column⟩ | below
    · exact .inr (.inl ⟨⟨line, column⟩, breakAt_of_line line column⟩)
    · exact .inr (.inr ⟨below, breakAt_of_below below⟩)

theorem steady_breakAt (place : Position) : (breakAt place).Steady where
  isAdjacent left right := by
    rw [Bool.eq_iff_iff]
    simp only [Position.isAdjacent, Bool.and_eq_true, beq_iff_eq]
    rcases breakAt_cases place left with ⟨here, same⟩ | ⟨here, same⟩ | ⟨here, same⟩ <;>
    rcases breakAt_cases place right with ⟨there, same'⟩ | ⟨there, same'⟩ | ⟨there, same'⟩ <;>
    simp only [same, same', Position.Before] at here there ⊢ <;>
    omega
  nowhere := by
    refine breakAt_of_before ?_
    unfold Position.Before
    simp only
    omega

theorem breakAt_overrun {position place : Position} (after : ¬position.Before place) (columns : Nat) :
    breakAt place (position.overrun columns) = (breakAt place position).overrun columns := by
  rcases not_before_iff.mp after with ⟨line, column⟩ | below
  · have right : (position.overrun columns).column = position.column + columns := rfl
    have further : place.column < (position.overrun columns).column := by omega
    have same : (position.overrun columns).line = place.line := line
    rw [breakAt_of_line line column, breakAt_of_line same further]
    simp only [Position.overrun, Position.mk.injEq, true_and, and_true]
    omega
  · rw [breakAt_of_below below, breakAt_of_below (by exact below)]
    rfl

theorem breakAt_advance {position place : Position} (after : ¬position.Before place) (rune : Rune) :
    ¬(position.advance rune).Before place ∧
      breakAt place (position.advance rune) = (breakAt place position).advance rune := by
  rw [not_before_iff]
  by_cases newline : rune.char = '\n'
  · rcases not_before_iff.mp after with ⟨line, column⟩ | below
    · have next : place.line < (position.advance rune).line := by simp [Position.advance, newline, line]
      rw [breakAt_of_line line column, breakAt_of_below next]
      exact ⟨.inr next, by simp [Position.advance, newline]⟩
    · have next : place.line < (position.advance rune).line := by
        simp [Position.advance, newline]
        omega
      rw [breakAt_of_below below, breakAt_of_below next]
      exact ⟨.inr next, by simp [Position.advance, newline]⟩
  · rcases not_before_iff.mp after with ⟨line, column⟩ | below
    · have same : (position.advance rune).line = place.line := by simp [Position.advance, newline, line]
      have further : place.column < (position.advance rune).column := by
        simp [Position.advance, newline]
        omega
      rw [breakAt_of_line line column, breakAt_of_line same further]
      refine ⟨.inl ⟨same, further⟩, ?_⟩
      simp only [Position.advance, beq_iff_eq, newline, if_false, Position.mk.injEq, true_and, and_true]
      omega
    · have same : place.line < (position.advance rune).line := by
        simpa [Position.advance, newline] using below
      rw [breakAt_of_below below, breakAt_of_below same]
      exact ⟨.inr same, by simp [Position.advance, newline]⟩

/-- Behind a break all that is read goes along. -/
theorem follows_breakAt {position place : Position} (after : ¬position.Before place)
    (runes : List Rune) : (breakAt place).Follows position runes := by
  have all (runes : List Rune) : ¬(position.advanceAll runes).Before place ∧
      breakAt place (position.advanceAll runes) = (breakAt place position).advanceAll runes := by
    induction runes using List.reverseRecOn with
    | nil => exact ⟨after, rfl⟩
    | append_singleton runes last inductionHypothesis =>
        obtain ⟨behind, same⟩ := inductionHypothesis
        obtain ⟨later, step⟩ := breakAt_advance behind last
        rw [Position.advanceAll_append, Position.advanceAll_append, ← same]
        exact ⟨later, step⟩
  intro count columns _
  obtain ⟨behind, same⟩ := all (runes.take count)
  rw [breakAt_overrun behind, same]

end Relocation

end Reckon
