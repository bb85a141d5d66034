import Reckon.Proofs.Lexeme.Branches
import Reckon.Proofs.Lexeme.Extending
import Reckon.Proofs.Lexeme.Moving

/-!
# An operator at the end of a line

After the operator between two operands stands a gap: a space or a newline.  A text that leaves no string
and no line comment open is scanned up to the gap in the same way, whatever the gap is.  If newlines do
not end the statement there, what follows the gap is scanned in the same way too, from another place.
-/

namespace Reckon

open Text (Rune)
open Text.Rune

namespace Recognized

/-- Whether a character belongs to a run of blanks. -/
def separates (newlineEnds : Bool) (c : Char) : Bool :=
  isBlank c || (c == '\n' && !newlineEnds)

variable {newlineEnds : Bool} {first : Rune} {rest more : List Rune}

/-- Only blanks and newlines are blanks, and only two signs start a comment. -/
theorem starts_of_token_next (newlineEnds : Bool) (first : Rune) (rest : List Rune) :
    ((next newlineEnds first rest).token = .space → separates newlineEnds first.char = true) ∧
      ((next newlineEnds first rest).token = .comment →
        first.char = '/' ∧ (front? rest = some '/' ∨ front? rest = some '*')) := by
  have branch := branch_next newlineEnds first rest
  generalize next newlineEnds first rest = found at branch ⊢
  cases branch with
  | newline | number => exact ⟨nofun, nofun⟩
  | blanks layout continues =>
      refine ⟨fun _ => ?_, nofun⟩
      simp only [separates, Bool.or_eq_true, Bool.and_eq_true, beq_iff_eq, Bool.not_eq_true']
      exact (Bool.or_eq_true_iff.mp layout).imp_right fun newline =>
        ⟨beq_iff_eq.mp newline, continues (beq_iff_eq.mp newline)⟩
  | comment slash second => exact ⟨nofun, fun _ => ⟨slash, second⟩⟩
  | word =>
      exact ⟨fun isSpace => absurd isSpace (ofWord_ne (by decide) (by decide) _),
        fun isComment => absurd isComment (ofWord_ne (by decide) (by decide) _)⟩
  | string =>
      rcases token_string first.char (first :: rest) with closed | opened
      · rw [closed]
        exact ⟨nofun, nofun⟩
      · rw [opened]
        exact ⟨nofun, nofun⟩
  | template =>
      rcases token_templateFrom 0 {} ((first :: rest).drop 1) with closed | opened
      · rw [template, closed]
        exact ⟨nofun, nofun⟩
      · rw [template, opened]
        exact ⟨nofun, nofun⟩
  | symbol =>
      unfold symbol
      split
      · next found =>
        obtain ⟨-, isSign⟩ := operator?_spec found
        exact ⟨fun isSpace => absurd isSpace (isSign .space (by decide)),
          fun isComment => absurd isComment (isSign .comment (by decide))⟩
      · exact ⟨nofun, nofun⟩

theorem separates_of_visible {c : Char} (visible : isLayout c = false) :
    separates newlineEnds c = false := by
  obtain ⟨noBlank, noNewline⟩ := Bool.or_eq_false_iff.mp visible
  rw [separates, noBlank, noNewline]
  rfl

theorem blanks_eq (runes : List Rune) :
    blanks newlineEnds runes =
      { token := .space
        lit := Rune.text (leading (separates newlineEnds) runes)
        length := (leading (separates newlineEnds) runes).length } :=
  rfl

theorem next_of_separates (separated : separates newlineEnds first.char = true) :
    next newlineEnds first rest = blanks newlineEnds (first :: rest) := by
  simp only [separates, Bool.or_eq_true, Bool.and_eq_true, beq_iff_eq, Bool.not_eq_true'] at separated
  refine next_of_layout ?_ fun newline => ?_
  · simp only [isLayout, Bool.or_eq_true, beq_iff_eq]
    exact separated.imp_right And.left
  · refine separated.resolve_left (fun blank => ?_) |>.2
    simp [newline, isBlank] at blank

theorem comment_of_block {second : Rune} (star : second.char = '*') (rest : List Rune) :
    comment (first :: second :: rest) =
      { token := .comment
        lit := Rune.text ((first :: second :: rest).take (2 + blockCommentLength rest))
        length := 2 + blockCommentLength rest } := by
  simp [comment, front?, star]

/-- A block comment that is not closed takes all there is. -/
theorem blockCommentLength_of_open {runes : List Rune} (opened : closesBlock runes = false) :
    blockCommentLength runes = runes.length := by
  induction runes with
  | nil => rfl
  | cons first rest inductionHypothesis =>
      obtain ⟨here, later⟩ := Bool.or_eq_false_iff.mp opened
      rw [blockCommentLength, here, inductionHypothesis later]
      rfl

/-- What keeps the last lexeme of a text unfinished. -/
inductive Pending (newlineEnds : Bool) (first : Rune) (rest : List Rune) : Token → Prop
  | blanks : (∀ rune ∈ first :: rest, separates newlineEnds rune.char = true) →
      Pending newlineEnds first rest .space
  | quoted : Pending newlineEnds first rest .badString
  | line : first.char = '/' → front? rest = some '/' → Pending newlineEnds first rest .comment
  | block : first.char = '/' → front? rest = some '*' → closesBlock (rest.drop 1) = false →
      Pending newlineEnds first rest .comment

/-- A lexeme that is not finished takes all there is. -/
theorem pending_of_unfinished (unfinished : ¬ IsFinished newlineEnds first rest) :
    (next newlineEnds first rest).length = rest.length + 1 ∧
      Pending newlineEnds first rest (next newlineEnds first rest).token := by
  have within := length_next_le newlineEnds first rest
  obtain ⟨blank, comment⟩ := starts_of_token_next newlineEnds first rest
  by_cases isSpace : (next newlineEnds first rest).token = .space
  · have length : (next newlineEnds first rest).length = rest.length + 1 := by
      by_contra shorter
      exact unfinished ⟨fun _ => by omega, by simp [isSpace], by simp [isSpace]⟩
    refine ⟨length, isSpace ▸ .blanks ?_⟩
    rw [next_of_separates (blank isSpace)] at length
    have whole : (leading (separates newlineEnds) (first :: rest)).length =
        (first :: rest).length := length
    exact List.takeWhile_eq_self_iff.mp ((List.takeWhile_prefix _).eq_of_length whole)
  by_cases isString : (next newlineEnds first rest).token = .badString
  · refine ⟨?_, isString ▸ .quoted⟩
    by_contra shorter
    exact unfinished ⟨by simp [isString], fun _ => by omega, by simp [isString]⟩
  by_cases isComment : (next newlineEnds first rest).token = .comment
  · obtain ⟨slash, line | star⟩ := comment isComment
    · refine ⟨?_, isComment ▸ .line slash line⟩
      by_contra shorter
      exact unfinished ⟨by simp [isComment], by simp [isComment],
        fun _ => by rw [if_pos line]; omega⟩
    · have opened : closesBlock (rest.drop 1) = false := by
        by_contra closed
        exact unfinished ⟨by simp [isComment], by simp [isComment],
          fun _ => by rw [if_neg (by simp [star])]; simpa using closed⟩
      refine ⟨?_, isComment ▸ .block slash star opened⟩
      rw [next_of_comment slash (.inr star)]
      cases rest with
      | nil => cases star
      | cons second body =>
          have length : blockCommentLength body = body.length := blockCommentLength_of_open opened
          rw [comment_of_block (by simpa [front?] using star), length]
          exact Nat.add_comm 2 _
  · exact absurd ⟨fun found => absurd found isSpace, fun found => absurd found isString,
      fun found => absurd found isComment⟩ unfinished

end Recognized

namespace Lexeme

open Recognized

variable {state : ScanState} {position : Position} {first second : Rune} {rest more : List Rune}

/-- A lexeme without replacements that takes some runes. -/
def plainAt (position : Position) (token : Token) (lit : String) (runes : List Rune) : Lexeme where
  token := token
  lit := lit
  span := ⟨position, position.advanceAll runes⟩
  raw := Rune.source runes

theorem scanned_of_next {token : Token} {lit : String}
    (found : next state.newlineEnds first (rest ++ more) =
      { token, lit, length := rest.length + 1 }) :
    scanned state position (first :: rest ++ more) =
      plainAt position token lit (first :: rest) ::
        scanned (state.after token) (position.advanceAll (first :: rest)) more := by
  have front : (first :: rest ++ more).take (rest.length + 1) = first :: rest :=
    List.take_left' rfl
  have back : (first :: rest ++ more).drop (rest.length + 1) = more :=
    List.drop_left' rfl
  rw [List.cons_append] at front back
  rw [List.cons_append, scanned_cons, lexemeAt, stopAt]
  simp only [found, front, back]
  rfl

/-! ## Blanks -/

theorem scanned_blanks {blank : List Rune} (some : blank ≠ [])
    (passes : ∀ rune ∈ blank, separates state.newlineEnds rune.char = true)
    (stops : ∀ rune ∈ more.head?, separates state.newlineEnds rune.char = false) :
    scanned state position (blank ++ more) =
      plainAt position .space (Rune.text blank) blank ::
        scanned state (position.advanceAll blank) more := by
  obtain ⟨first, rest, rfl⟩ := List.exists_cons_of_ne_nil some
  have taken : leading (separates state.newlineEnds) (first :: (rest ++ more)) = first :: rest := by
    rw [leading, ← List.cons_append, List.takeWhile_append_of_pos passes]
    cases more with
    | nil => simp
    | cons next others => rw [List.takeWhile_cons_of_neg (by simpa using stops), List.append_nil]
  refine scanned_of_next ?_
  rw [next_of_separates (passes first List.mem_cons_self), blanks_eq, taken]
  rfl

/-- A gap goes on as long as there are blanks, and newlines if they do not end the statement. -/
theorem scanned_gap_of_joins (joins : state.newlineEnds = false) {c : Char}
    (separated : separates false c = true) (rest : List Rune) :
    scanned state position (.ofChar c :: rest) =
      plainAt position .space (Rune.text (.ofChar c :: leading (separates false) rest))
          (.ofChar c :: leading (separates false) rest) ::
        scanned state
          ((position.advance (.ofChar c)).advanceAll
            (rest.take (leading (separates false) rest).length))
          (rest.drop (leading (separates false) rest).length) := by
  have stops : ∀ rune ∈ (rest.drop (leading (separates false) rest).length).head?,
      separates state.newlineEnds rune.char = false := by
    rw [drop_length_leading, joins]
    intro rune isFirst
    have fails := List.head?_dropWhile_not (fun rune => separates false rune.char) rest
    rwa [Option.mem_def.mp isFirst] at fails
  have passes : ∀ rune ∈ Rune.ofChar c :: leading (separates false) rest,
      separates state.newlineEnds rune.char = true := by
    rw [joins]
    exact List.forall_mem_cons.mpr ⟨separated, fun _ => List.mem_takeWhile_imp⟩
  have parts : leading (separates false) rest ++ rest.drop (leading (separates false) rest).length =
      rest := by
    rw [drop_length_leading]
    exact List.takeWhile_append_dropWhile
  have whole : scanned state position (_ ++ _) = _ :=
    scanned_blanks (List.cons_ne_nil _ _) passes stops
  rw [List.cons_append, parts] at whole
  rw [take_length_leading]
  exact whole

/-! ## Operators -/

/-- The operators between two operands. -/
def binarySigns : List Token :=
  [.caret, .star, .slash, .percent, .plus, .minus, .less, .lessEqual, .greater, .greaterEqual, .equal,
    .notEqual, .andAnd, .orOr, .pipe, .range]

/-- What may separate an operator from its second operand. -/
def gaps : List Char :=
  [' ', '\n']

/-- The runes of an operator. -/
def signRunes (sign : Token) : List Rune :=
  sign.spelling.toList.map .ofChar

variable {sign : Token} {gap : Char}

/-- An operator is recognized before a gap, and it is visible. -/
theorem next_signRunes (isSign : sign ∈ binarySigns) (isGap : gap ∈ gaps) (newlineEnds : Bool)
    (more : List Rune) :
    ∃ first rest, signRunes sign = .ofChar first :: rest ∧ isLayout first = false ∧
      next newlineEnds (.ofChar first) (rest ++ .ofChar gap :: more) =
        { token := sign, lit := sign.spelling, length := rest.length + 1 } := by
  simp only [binarySigns, gaps, List.mem_cons, List.not_mem_nil, or_false] at isSign isGap
  rcases isSign with rfl | rfl | rfl | rfl | rfl | rfl | rfl | rfl | rfl | rfl | rfl | rfl | rfl |
    rfl | rfl | rfl <;>
  rcases isGap with rfl | rfl <;>
  exact ⟨_, _, rfl, rfl, rfl⟩

theorem scanned_signRunes (isSign : sign ∈ binarySigns) (isGap : gap ∈ gaps) :
    scanned state position (signRunes sign ++ .ofChar gap :: more) =
      plainAt position sign sign.spelling (signRunes sign) ::
        scanned (state.after sign) (position.advanceAll (signRunes sign)) (.ofChar gap :: more) := by
  obtain ⟨first, rest, spelled, -, found⟩ := next_signRunes isSign isGap state.newlineEnds more
  rw [spelled]
  exact scanned_of_next found

/-! ## Comments -/

theorem closesBlock_append (runes more : List Rune) :
    closesBlock (runes ++ .ofChar ' ' :: more) = (closesBlock runes || closesBlock more) := by
  induction runes with
  | nil => rfl
  | cons first rest inductionHypothesis =>
      have isGap : IsGap (.ofChar ' ') := .inl rfl
      have slash := front?_append isGap (by decide : '/' ≠ ' ' ∧ '/' ≠ '\n') rest more
      rw [List.cons_append, closesBlock, closesBlock, slash, inductionHypothesis, Bool.or_assoc]

/-- No operator closes a comment. -/
theorem closesBlock_signRunes (isSign : sign ∈ binarySigns) : closesBlock (signRunes sign) = false := by
  have all : ∀ sign ∈ binarySigns, closesBlock (signRunes sign) = false := by decide
  exact all sign isSign

/-- A comment that is open before a gap goes on behind it. -/
theorem scanned_open_comment (state : ScanState) (position : Position) (more : List Rune)
    (slash : first.char = '/') (star : second.char = '*') {body : List Rune}
    (opened : closesBlock body = false) (isGap : gap ∈ gaps) :
    ∃ lit runes, scanned state position (first :: second :: body ++ .ofChar gap :: more) =
      plainAt position .comment lit runes ::
        scanned state (position.advanceAll
            (first :: second :: body ++ .ofChar gap :: more.take (blockCommentLength more)))
          (more.drop (blockCommentLength more)) := by
  let count := blockCommentLength more
  have notSigns : ∀ gap ∈ gaps, gap ≠ '/' ∧ gap ≠ '*' := by simp [gaps]
  obtain ⟨notSlash, notStar⟩ := notSigns gap isGap
  have open' : (Rune.ofChar gap).char ≠ '/' := notSlash
  have length : blockCommentLength (body ++ .ofChar gap :: more) = body.length + (count + 1) := by
    rw [blockCommentLength_append_of_open opened open', blockCommentLength,
      if_neg (by simp [Rune.ofChar, notStar])]
  let rest := second :: body ++ .ofChar gap :: more.take count
  have within : count ≤ more.length := blockCommentLength_le more
  have size : rest.length = 1 + (body.length + (count + 1)) := by
    simp only [rest, List.length_append, List.length_cons, List.length_take, Nat.min_eq_left within]
    omega
  have whole : first :: second :: body ++ .ofChar gap :: more = first :: rest ++ more.drop count := by
    simp [rest, List.append_assoc, List.take_append_drop]
  refine ⟨Rune.text (first :: rest), first :: rest, ?_⟩
  rw [whole]
  refine scanned_of_next ?_
  have ahead : rest ++ more.drop count = second :: (body ++ .ofChar gap :: more) := by
    simp [rest, List.append_assoc, List.take_append_drop]
  have taken : (first :: rest ++ more.drop count).take (first :: rest).length = first :: rest :=
    List.take_left' rfl
  rw [List.cons_append, ahead] at taken
  have total : 2 + (body.length + (count + 1)) = (first :: rest).length := by
    rw [List.length_cons, size]
    omega
  rw [ahead, next_of_comment slash (.inr (by simp [front?, star])), comment_of_block star, length,
    total, taken]
  rfl

/-! ## What can be resumed -/

/-- What a text may end with so that a space and an operator can follow: blanks, or an open comment, to
which the operator then belongs. -/
inductive Resumable (newlineEnds : Bool) : List Rune → Prop
  | blanks {tail : List Rune} : (∀ rune ∈ tail, separates newlineEnds rune.char = true) →
      Resumable newlineEnds tail
  | comment {first second : Rune} {body : List Rune} : first.char = '/' → second.char = '*' →
      closesBlock body = false → Resumable newlineEnds (first :: second :: body)

/-! ## Places before a gap -/

variable {move : Relocation} {runes tail : List Rune} {front : List Lexeme} {place : Position}

theorem width_ofChar_pos (c : Char) : 0 < (Rune.ofChar c).width := by
  rw [Rune.width, Rune.ofChar, String.length_utf8EncodeChar]
  exact c.utf8Size_pos

/-- A visible rune takes a column. -/
theorem before_advance_ofChar {first second : Position} (before : first.Before second) {c : Char}
    (visible : c ≠ '\n') : (first.overrun 1).Before (second.advance (.ofChar c)) := by
  have wide := width_ofChar_pos c
  have notNewline : ((Rune.ofChar c).char == '\n') = false := by simpa [Rune.ofChar] using visible
  unfold Position.Before Position.overrun Position.advance at *
  simp only [notNewline]
  simp only [Bool.false_eq_true, if_false]
  omega

/-- An operator after a text ends more than two columns behind it. -/
theorem before_signRunes (isSign : sign ∈ binarySigns) (position : Position) :
    (position.overrun 2).Before
      ((position.advance (.ofChar ' ')).advanceAll (signRunes sign)) := by
  obtain ⟨first, rest, spelled, visible, -⟩ :=
    next_signRunes isSign (List.mem_cons_self : ' ' ∈ gaps) false []
  have notNewline : first ≠ '\n' := by
    rintro rfl
    cases visible
  have space := before_advance_ofChar (Position.Before.refl position) (by decide : ' ' ≠ '\n')
  have operator := before_advance_ofChar space notNewline
  rw [spelled, Position.advanceAll_cons]
  exact operator.trans (Position.before_advanceAll _ rest)

/-- A relocation that keeps all places up to the end of a text keeps its lexemes. -/
theorem map_relocate_of_leaves (leaves : Leaves state position runes front place tail)
    (keeps : ∀ other : Position, other.Before ((position.advanceAll runes).overrun 2) →
      move other = other) :
    front.map (relocate move) = front := by
  have follows : move.Follows position runes := by
    intro count columns few
    have reached := Position.before_advanceAll (position.advanceAll (runes.take count))
      (runes.drop count)
    rw [← Position.advanceAll_append, List.take_append_drop] at reached
    have start := Position.before_advanceAll position runes
    have kept := keeps position (start.overrun (Nat.zero_le 2))
    rw [keeps _ (reached.overrun few), kept]
  have kept := keeps position ((Position.before_advanceAll position runes).overrun (Nat.zero_le 2))
  have moved : scanned state _ _ = _ := scanned_relocate follows
  rw [kept, leaves.scanned_eq, List.map_append] at moved
  exact (List.append_inj_left moved (List.length_map _).symm).symm

theorem place_before (leaves : Leaves state position runes front place tail) :
    place.Before (position.advanceAll runes) :=
  leaves.place_eq ▸ Position.before_advanceAll place tail

theorem relocate_plainAt {token : Token} {lit : String} (start : move position = position)
    (stop : move (position.advanceAll runes) = position.advanceAll runes) :
    (plainAt position token lit runes).relocate move = plainAt position token lit runes := by
  simp [plainAt, relocate, relocateSubs, Span.relocate, start, stop]

/-! ## Breaking a line -/

/-- The place after an operator that follows a text. -/
def operatorEnd (position : Position) (runes : List Rune) (sign : Token) : Position :=
  ((position.advanceAll runes).advance (.ofChar ' ')).advanceAll (signRunes sign)

/-- Up to the gap behind an operator nothing depends on the gap: the lexemes before the blank with the
gap keep their places, and behind it the scanner goes on in the same state. -/
def SplitsAtGap (position : Position) (runes : List Rune) (sign : Token) (rest : List Rune) : Prop :=
  ∃ before state count,
    before.map (relocate (.breakAt (operatorEnd position runes sign))) = before ∧
    ∀ gap ∈ gaps, ∃ token lit place blank,
      (plainAt place token lit blank).isSignificant = false ∧
      scanned {} position (runes ++ .ofChar ' ' :: (signRunes sign ++ .ofChar gap :: rest)) =
        before ++ plainAt place token lit blank ::
          scanned state
            (((operatorEnd position runes sign).advance (.ofChar gap)).advanceAll
              (rest.take count)) (rest.drop count)

/-- The lexemes before an operator keep their places, and so do all places up to its end. -/
theorem keeps_before_operator (leaves : Leaves {} position runes front place tail)
    (isSign : sign ∈ binarySigns) :
    front.map (relocate (.breakAt (operatorEnd position runes sign))) = front ∧
      ∀ other : Position, other.Before (position.advanceAll runes) →
        Relocation.breakAt (operatorEnd position runes sign) other = other := by
  have later := before_signRunes isSign (position.advanceAll runes)
  refine ⟨map_relocate_of_leaves leaves fun other before =>
    Relocation.breakAt_of_before (before.trans later), fun other before => ?_⟩
  have start := Position.Before.overrun (.refl (position.advanceAll runes)) (Nat.zero_le 2)
  exact Relocation.breakAt_of_before (before.trans (start.trans later))

/-- An operator behind an open comment belongs to the comment. -/
theorem splitsAtGap_of_comment {first second : Rune} {body : List Rune}
    (leaves : Leaves {} position runes front place (first :: second :: body))
    (slash : first.char = '/') (star : second.char = '*') (opened : closesBlock body = false)
    (isSign : sign ∈ binarySigns) (rest : List Rune) : SplitsAtGap position runes sign rest := by
  have still : closesBlock (body ++ .ofChar ' ' :: signRunes sign) = false := by
    rw [closesBlock_append, opened, closesBlock_signRunes isSign]
    rfl
  have kept := (keeps_before_operator leaves isSign).1
  refine ⟨front, ScanState.afterAll {} front, blockCommentLength rest, kept, fun gap isGap => ?_⟩
  obtain ⟨lit, blank, found⟩ :=
    scanned_open_comment (ScanState.afterAll {} front) place rest slash star still isGap
  refine ⟨.comment, lit, place, blank, rfl, ?_⟩
  have reached : operatorEnd position runes sign =
      place.advanceAll (first :: second :: (body ++ .ofChar ' ' :: signRunes sign)) := by
    rw [operatorEnd, ← leaves.place_eq, ← Position.advanceAll_cons, ← Position.advanceAll_append]
    rfl
  rw [leaves.scanned_append (.ofChar ' ') (signRunes sign ++ .ofChar gap :: rest) (.inl rfl), reached]
  simpa [Position.advanceAll_append] using congrArg (front ++ ·) found

/-- An operator behind blanks is a lexeme, and the gap starts the blanks behind it. -/
theorem splitsAtGap_of_blanks (leaves : Leaves {} position runes front place tail)
    (passes : ∀ rune ∈ tail, separates (ScanState.afterAll {} front).newlineEnds rune.char = true)
    (isSign : sign ∈ binarySigns)
    (joins : ((ScanState.afterAll {} front).after sign).newlineEnds = false) (rest : List Rune) :
    SplitsAtGap position runes sign rest := by
  have operator : place.advanceAll (tail ++ [.ofChar ' ']) =
      (position.advanceAll runes).advance (.ofChar ' ') := by
    rw [Position.advanceAll_append, leaves.place_eq]
    rfl
  let space := plainAt place .space (Rune.text (tail ++ [.ofChar ' '])) (tail ++ [.ofChar ' '])
  let written := plainAt ((position.advanceAll runes).advance (.ofChar ' ')) sign sign.spelling
    (signRunes sign)
  obtain ⟨kept, keeps⟩ := keeps_before_operator leaves isSign
  refine ⟨front ++ [space, written], (ScanState.afterAll {} front).after sign,
    (leading (separates false) rest).length, ?_, fun gap isGap => ?_⟩
  · have start := keeps place (place_before leaves)
    have middle : Relocation.breakAt (operatorEnd position runes sign)
        ((position.advanceAll runes).advance (.ofChar ' ')) =
          (position.advanceAll runes).advance (.ofChar ' ') :=
      Relocation.breakAt_of_before (Position.before_advanceAll _ (signRunes sign))
    have stop : Relocation.breakAt (operatorEnd position runes sign)
        (operatorEnd position runes sign) = operatorEnd position runes sign :=
      Relocation.breakAt_of_before (.refl _)
    rw [List.map_append, kept, List.map_cons, List.map_cons, List.map_nil,
      relocate_plainAt start (by rw [operator]; exact middle), relocate_plainAt middle stop]
  · obtain ⟨first, others, spelled, visible, -⟩ := next_signRunes isSign isGap false rest
    have stops : ∀ rune ∈ (signRunes sign ++ .ofChar gap :: rest).head?,
        separates (ScanState.afterAll {} front).newlineEnds rune.char = false := by
      rw [spelled]
      rintro _ ⟨⟩
      exact separates_of_visible visible
    have all : ∀ rune ∈ tail ++ [.ofChar ' '],
        separates (ScanState.afterAll {} front).newlineEnds rune.char = true :=
      List.forall_mem_append.mpr ⟨passes, List.forall_mem_singleton.mpr rfl⟩
    have separated : ∀ gap ∈ gaps, separates false gap = true := by simp [gaps, separates, isBlank]
    let blank := .ofChar gap :: leading (separates false) rest
    refine ⟨.space, Rune.text blank, operatorEnd position runes sign, blank, rfl, ?_⟩
    rw [leaves.scanned_append (.ofChar ' ') (signRunes sign ++ .ofChar gap :: rest) (.inl rfl),
      List.append_cons, scanned_blanks (by simp) all stops, scanned_signRunes isSign isGap, operator,
      scanned_gap_of_joins joins (separated gap isGap)]
    simp [space, written, blank, operatorEnd]

/-- Two streams of lexemes that are the same but for one blank: behind it the lexemes of the second
stream are those of the first one, moved, and before it no lexeme moves. -/
inductive Breaks (move : Relocation) : List Lexeme → List Lexeme → Prop
  | intro {before after : List Lexeme} {blank newline : Lexeme} :
      before.map (relocate move) = before → blank.isSignificant = false →
      newline.isSignificant = false → blank.weight = newline.weight →
      (after.find? (·.token.isEof)).isSome →
      Breaks move (before ++ blank :: after) (before ++ newline :: after.map (relocate move))

/-- A newline instead of a space behind an operator moves what follows to the next line. -/
theorem breakAt_gap (place : Position) :
    ¬(place.advance (.ofChar ' ')).Before place ∧
      Relocation.breakAt place (place.advance (.ofChar ' ')) = place.advance (.ofChar '\n') := by
  have line : (place.advance (.ofChar ' ')).line = place.line := rfl
  have column : (place.advance (.ofChar ' ')).column = place.column + 1 := rfl
  have further : place.column < (place.advance (.ofChar ' ')).column := by omega
  refine ⟨Relocation.not_before_iff.mpr (.inl ⟨line, further⟩), ?_⟩
  rw [Relocation.breakAt_of_line line further, column, Nat.add_sub_cancel_left]
  rfl

theorem breaks_of_leaves (leaves : Leaves {} position runes front place tail)
    (resumable : Resumable (ScanState.afterAll {} front).newlineEnds tail)
    (isSign : sign ∈ binarySigns)
    (joins : ((ScanState.afterAll {} front).after sign).newlineEnds = false) (rest : List Rune) :
    Breaks (.breakAt (operatorEnd position runes sign))
      (scanned {} position (runes ++ .ofChar ' ' :: (signRunes sign ++ .ofChar ' ' :: rest)))
      (scanned {} position (runes ++ .ofChar ' ' :: (signRunes sign ++ .ofChar '\n' :: rest))) := by
  have splits : SplitsAtGap position runes sign rest := by
    cases resumable with
    | comment slash star opened => exact splitsAtGap_of_comment leaves slash star opened isSign rest
    | blanks passes => exact splitsAtGap_of_blanks leaves passes isSign joins rest
  obtain ⟨before, state, count, fixed, gapped⟩ := splits
  obtain ⟨_, _, _, _, isBlank, spaced⟩ := gapped ' ' (by decide)
  obtain ⟨_, _, _, _, isBlank', broken⟩ := gapped '\n' (by decide)
  obtain ⟨behind, gap⟩ := breakAt_gap (operatorEnd position runes sign)
  have follows := Relocation.follows_breakAt behind rest
  have moved : scanned state _ _ = _ := scanned_relocate (follows.drop count)
  rw [follows.advanceAll_take, gap] at moved
  rw [spaced, broken, moved]
  exact .intro fixed isBlank isBlank' rfl (isSome_find?_scanFrom _ _ _ _)

end Lexeme

end Reckon
