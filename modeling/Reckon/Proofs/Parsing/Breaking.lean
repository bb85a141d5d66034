import Reckon.Proofs.Parsing.Continuation
import Reckon.Proofs.Parsing.Layout

/-!
# Newlines in place of blanks

A newline in place of a blank is a blank too, or it is a semicolon.  In both cases all that is behind it is
scanned as it was behind the blank, from another place.  So the tree of a source does not change where no
newline ends a statement, nor in the content of an element.
-/

namespace Reckon

open Text (Rune)

/-! ## Lexemes and cursors -/

namespace Lexeme

theorem significant_map_relocate {move : Relocation} {lexemes : List Lexeme} :
    significant (lexemes.map (relocate move)) = (significant lexemes).map (relocate move) := by
  simp [significant, List.filter_map, Function.comp_def]

end Lexeme

namespace Cursor

theorem aheadOf_append {front : List Lexeme} (more : ∀ lexeme ∈ front, lexeme.token ≠ .eof)
    (later : List Lexeme) : aheadOf (front ++ later) = Lexeme.significant front ++ aheadOf later := by
  have passes : ∀ lexeme ∈ front, (!lexeme.token.isEof) = true := fun lexeme member => by
    simpa [Token.isEof] using more lexeme member
  rw [aheadOf, List.takeWhile_append_of_pos passes, List.filter_append]
  rfl

/-- A semicolon among the lexemes of a source fills a gap. -/
theorem ofLexemes_insert {gap : Gap} {front later : List Lexeme}
    (more : ∀ lexeme ∈ front, lexeme.token ≠ .eof) (ended : (later.find? (·.token.isEof)).isSome)
    (behind : gap.behind = (aheadOf later).length) :
    ofLexemes (front ++ gap.filler :: later) = (ofLexemes (front ++ later)).insert gap := by
  have isSemicolon := gap.isSemicolon
  have notEof : gap.filler.token.isEof = false := by simp [Token.isEof, isSemicolon]
  have significant : gap.filler.isSignificant = true := by
    simp [Lexeme.isSignificant, isSemicolon, Token.isSignificant]
  refine Cursor.ext ?_ ?_
  · change aheadOf (front ++ gap.filler :: later) = gap.fill (aheadOf (front ++ later))
    rw [aheadOf_append more, aheadOf_append more, gap.fill_append _ behind.symm,
      aheadOf_cons_of_significant _ notEof significant]
  · obtain ⟨final, found⟩ := Option.isSome_iff_exists.mp ended
    have found' : (gap.filler :: later).find? (·.token.isEof) = some final := by
      rw [List.find?_cons_of_neg (by simp [notEof]), found]
    have none : front.find? (·.token.isEof) = none :=
      List.find?_eq_none.mpr fun lexeme member => by simpa [Token.isEof] using more lexeme member
    change finalOf (front ++ gap.filler :: later) = finalOf (front ++ later)
    rw [finalOf, finalOf, List.find?_append, List.find?_append, none, Option.none_or, Option.none_or,
      found, found']

end Cursor

/-! ## Scanning on -/

namespace Lexeme

open Recognized

variable {state : ScanState} {position : Position} {first : Rune} {rest runes blank : List Rune}

/-- Blanks in front of a text make no significant lexemes. -/
theorem significant_scanned_cons (passes : separates state.newlineEnds first.char = true) :
    significant (scanned state position (first :: rest)) =
      significant (scanned state (position.advance first) rest) := by
  obtain ⟨taken, more, split, all, stops⟩ : ∃ taken more, rest = taken ++ more ∧
      (∀ rune ∈ taken, separates state.newlineEnds rune.char = true) ∧
      ∀ rune ∈ more.head?, separates state.newlineEnds rune.char = false := by
    refine ⟨leading (separates state.newlineEnds) rest,
      rest.dropWhile fun rune => separates state.newlineEnds rune.char,
      List.takeWhile_append_dropWhile.symm, fun _ => List.mem_takeWhile_imp, fun rune isFirst => ?_⟩
    have fails := List.head?_dropWhile_not (fun rune => separates state.newlineEnds rune.char) rest
    rwa [Option.mem_def.mp isFirst] at fails
  have whole : scanned state position (first :: taken ++ more) = _ :=
    scanned_blanks (List.cons_ne_nil _ _) (List.forall_mem_cons.mpr ⟨passes, all⟩) stops
  rw [split, ← List.cons_append, whole, significant_cons_of_blank rfl, Position.advanceAll_cons]
  by_cases none : taken = []
  · rw [none]
    rfl
  · rw [scanned_blanks none all stops, significant_cons_of_blank rfl]

theorem significant_scanned_append
    (passes : ∀ rune ∈ blank, separates state.newlineEnds rune.char = true) :
    significant (scanned state position (blank ++ rest)) =
      significant (scanned state (position.advanceAll blank) rest) := by
  induction blank generalizing position with
  | nil => rfl
  | cons first blank inductionHypothesis =>
      obtain ⟨here, later⟩ := List.forall_mem_cons.mp passes
      rw [List.cons_append, significant_scanned_cons here, inductionHypothesis later]
      rfl

/-- What starts with neither a blank nor a newline is the same lexeme in every state. -/
theorem scanned_of_visible (visible : isLayout first.char = false) :
    scanned state position (first :: rest) =
      lexemeAt false position first rest ::
        scanned (state.after (next false first rest).token) (stopAt false position first rest)
          ((first :: rest).drop (next false first rest).length) := by
  have same : next state.newlineEnds first rest = next false first rest := next_of_visible visible
  rw [scanned_cons, lexemeAt, stopAt, same]
  rfl

theorem significant_scanned_word (visible : isLayout first.char = false)
    (isWord : (next false first rest).token.isSignificant = true) :
    significant (scanned state position (first :: rest)) =
      lexemeAt false position first rest ::
        significant (scanned (state.after (next false first rest).token)
          (stopAt false position first rest)
          ((first :: rest).drop (next false first rest).length)) := by
  rw [scanned_of_visible visible]
  exact significant_cons_of_significant isWord

/-- A comment leaves the state as it is. -/
theorem significant_scanned_comment (visible : isLayout first.char = false)
    (isComment : (next false first rest).token.isSignificant = false) :
    significant (scanned state position (first :: rest)) =
      significant (scanned state (stopAt false position first rest)
        ((first :: rest).drop (next false first rest).length)) := by
  have unchanged : state.after (next false first rest).token = state := if_neg (by simp [isComment])
  rw [scanned_of_visible visible, unchanged]
  exact significant_cons_of_blank isComment

theorem separates_of_layout {newlineEnds : Bool} {c : Char} (layout : isLayout c = true)
    (goesOn : c = '\n' → newlineEnds = false) : separates newlineEnds c = true := by
  rcases Bool.or_eq_true_iff.mp layout with isBlank | newline
  · rw [separates, isBlank, Bool.true_or]
  · have char : c = '\n' := beq_iff_eq.mp newline
    simp [separates, char, goesOn char]

/-- A newline that ends a statement. -/
def newlineAt (place : Position) : Lexeme :=
  plainAt place .semicolon "newline" [.ofChar '\n']

theorem significant_newline (ends : state.newlineEnds = true) (newline : first.char = '\n') :
    significant (scanned state position (first :: rest)) =
      plainAt position .semicolon "newline" [first] ::
        significant (scanned (state.after .semicolon) (position.advance first) rest) := by
  have found : scanned state position ([first] ++ rest) = _ :=
    scanned_of_next (ends ▸ next_of_newline newline)
  rw [List.singleton_append] at found
  rw [found, significant_cons_of_significant rfl]
  rfl

/-- The next lexeme that the parser sees makes the state forget the one before. -/
theorem after_semicolon_after {token : Token} (isWord : token.isSignificant = true) :
    (state.after .semicolon).after token = state.after token := by
  simp only [ScanState.after, isWord, if_true]
  rfl

/-- Behind a semicolon a newline ends nothing, so a text is scanned as if the semicolon were not there,
unless it starts with another newline. -/
theorem significant_scanned_after_semicolon
    (visible : ∀ next ∈ (significant (scanned state position runes)).head?, next.isNewline = false) :
    significant (scanned (state.after .semicolon) position runes) =
      significant (scanned state position runes) := by
  have joins : (state.after .semicolon).newlineEnds = false := by
    simp [ScanState.after, ScanState.newlineEnds, Token.isSignificant, Token.mayEndStatement]
  induction size : runes.length using Nat.strongRecOn generalizing position runes with
  | ind size inductionHypothesis =>
      subst size
      cases runes with
      | nil => rfl
      | cons first rest =>
          cases layout : isLayout first.char with
          | true =>
              have goesOn : first.char = '\n' → state.newlineEnds = false := by
                intro newline
                by_contra ends
                rw [significant_newline (Bool.not_eq_false _ ▸ ends) newline] at visible
                exact absurd (visible _ rfl) (by simp [isNewline, plainAt])
              rw [significant_scanned_cons (separates_of_layout layout goesOn)] at visible ⊢
              rw [significant_scanned_cons (separates_of_layout layout fun _ => joins)]
              exact inductionHypothesis _ (Nat.lt_succ_self _) visible rfl
          | false =>
              cases isWord : (next false first rest).token.isSignificant with
              | true =>
                  rw [significant_scanned_word layout isWord, significant_scanned_word layout isWord,
                    after_semicolon_after isWord]
              | false =>
                  rw [significant_scanned_comment layout isWord] at visible ⊢
                  rw [significant_scanned_comment layout isWord]
                  exact inductionHypothesis _ (length_drop_next_lt _ _ _) visible rfl

/-! ## Behind a gap -/

variable {front : List Lexeme} {place : Position} {tail : List Rune}

/-- What is behind a newline is what is behind a space, one line further down. -/
theorem significant_breakAt (state : ScanState) (stop : Position) (more : List Rune) (count : Nat) :
    significant (scanned state ((stop.advance (.ofChar '\n')).advanceAll (more.take count))
        (more.drop count)) =
      (significant (scanned state ((stop.advance (.ofChar ' ')).advanceAll (more.take count))
        (more.drop count))).map (relocate (.breakAt stop)) := by
  obtain ⟨behind, gap⟩ := breakAt_gap stop
  have follows := Relocation.follows_breakAt behind more
  have moved : scanned state _ _ = _ := scanned_relocate (follows.drop count)
  rw [follows.advanceAll_take, gap] at moved
  rw [moved, significant_map_relocate]

/-- A comment that is open before a gap takes the gap. -/
theorem significant_open_comment {second : Rune} {body : List Rune} (slash : first.char = '/')
    (star : second.char = '*') (opened : closesBlock body = false) {gap : Char} (isGap : gap ∈ gaps)
    (more : List Rune) :
    significant (scanned state position (first :: second :: body ++ .ofChar gap :: more)) =
      significant (scanned state
        (((position.advanceAll (first :: second :: body)).advance (.ofChar gap)).advanceAll
          (more.take (blockCommentLength more)))
        (more.drop (blockCommentLength more))) := by
  obtain ⟨lit, taken, found⟩ := scanned_open_comment state position more slash star opened isGap
  rw [found, significant_cons_of_blank rfl, Position.advanceAll_append]
  rfl

/-- A text that can be resumed is scanned up to a gap in the same way whatever the gap is.  What is behind
it stays the same but for places, if it starts on the same line; a newline that ends a statement comes
before it. -/
theorem exists_significant_of_leaves (leaves : Leaves {} position runes front place tail)
    (resumable : Resumable (ScanState.afterAll {} front).newlineEnds tail) (more : List Rune) :
    let ends := (ScanState.afterAll {} front).newlineEnds
    let stop := position.advanceAll runes
    ∃ later, significant (scanned {} position (runes ++ .ofChar ' ' :: more)) =
        significant front ++ later ∧
      ((ends = true → ∀ next ∈ later.head?, next.isNewline = false) →
        ∃ newlines, (newlines = [] ∨ ends = true ∧ newlines = [newlineAt stop]) ∧
          significant (scanned {} position (runes ++ .ofChar '\n' :: more)) =
            significant front ++ newlines ++ later.map (relocate (.breakAt stop))) := by
  intro ends stop
  let state := ScanState.afterAll {} front
  rw [leaves.scanned_append (.ofChar ' ') more (.inl rfl),
    leaves.scanned_append (.ofChar '\n') more (.inr rfl), significant_append, significant_append]
  cases resumable with
  | @comment first second body slash star opened =>
      -- The gap belongs to a comment, so what is behind it is behind the comment.
      refine ⟨_, congrArg (_ ++ ·) (significant_open_comment slash star opened (by decide) more),
        fun _ => ⟨[], .inl rfl, ?_⟩⟩
      rw [significant_open_comment slash star opened (by decide), leaves.place_eq, significant_breakAt,
        List.append_nil]
  | blanks passes =>
      have skipped (gap : Rune) : significant (scanned state place (tail ++ gap :: more)) =
          significant (scanned state stop (gap :: more)) := by
        rw [significant_scanned_append passes, leaves.place_eq]
      refine ⟨significant (scanned state (stop.advance (.ofChar ' ')) more), ?_, fun visible => ?_⟩
      · rw [skipped, significant_scanned_cons rfl]
      · rw [skipped]
        cases isEnd : state.newlineEnds with
        | false =>
            refine ⟨[], .inl rfl, ?_⟩
            have passes : separates state.newlineEnds (Rune.ofChar '\n').char = true := by
              rw [isEnd]
              rfl
            rw [significant_scanned_cons passes, List.append_nil]
            exact congrArg _ (significant_breakAt state stop more 0)
        | true =>
            refine ⟨[newlineAt stop], .inr ⟨isEnd, rfl⟩, ?_⟩
            have moved : significant (scanned _ (stop.advance (.ofChar '\n')) more) =
                (significant (scanned _ (stop.advance (.ofChar ' ')) more)).map _ :=
              significant_breakAt (state.after .semicolon) stop more 0
            rw [significant_newline isEnd rfl, moved, significant_scanned_after_semicolon (visible isEnd),
              List.append_assoc]
            rfl

/-! ## The text before a gap -/

/-- Behind its finished lexemes a text that can be resumed has nothing that the parser sees. -/
theorem scanned_of_resumable (leaves : Leaves {} position runes front place tail)
    (resumable : Resumable (ScanState.afterAll {} front).newlineEnds tail) :
    ∃ blanks, scanned {} position runes = front ++ blanks ++ [endOfSource (position.advanceAll runes)] ∧
      ∀ lexeme ∈ blanks, lexeme.isSignificant = false := by
  rw [leaves.scanned_eq, ← leaves.place_eq]
  cases resumable with
  | @comment first second body slash star opened =>
      have found : next (ScanState.afterAll {} front).newlineEnds first (second :: body ++ []) =
          { token := .comment, lit := Rune.text (first :: second :: body)
            length := (second :: body).length + 1 } := by
        have taken : (first :: second :: body).take (2 + body.length) = first :: second :: body :=
          List.take_of_length_le (by simp only [List.length_cons]; omega)
        rw [List.append_nil, next_of_comment slash (.inr (by simp [front?, star])), comment_of_block star,
          blockCommentLength_of_open opened, taken, List.length_cons, Nat.add_comm 2]
      have rest : scanned (ScanState.afterAll {} front) place (first :: second :: body ++ []) = _ :=
        scanned_of_next found
      rw [List.append_nil] at rest
      exact ⟨[_], by rw [rest, scanned_nil, List.append_assoc]; rfl,
        List.forall_mem_singleton.mpr rfl⟩
  | blanks passes =>
      by_cases none : tail = []
      · exact ⟨[], by simp [none], List.forall_mem_nil _⟩
      · have found : scanned (ScanState.afterAll {} front) place (tail ++ []) = _ :=
          scanned_blanks none passes (by simp)
        rw [List.append_nil] at found
        exact ⟨[_], by rw [found, scanned_nil, List.append_assoc]; rfl,
          List.forall_mem_singleton.mpr rfl⟩

theorem ScanState.afterAll_of_blanks (state : ScanState) {blanks : List Lexeme}
    (insignificant : ∀ lexeme ∈ blanks, lexeme.isSignificant = false) : state.afterAll blanks = state := by
  induction blanks with
  | nil => rfl
  | cons first rest inductionHypothesis =>
      obtain ⟨here, others⟩ := List.forall_mem_cons.mp insignificant
      have unchanged : state.after first.token = state := if_neg (by simpa [isSignificant] using here)
      rw [afterAll, List.foldl_cons, unchanged]
      exact inductionHypothesis others

/-- What the lexemes of a text that can be resumed say of it. -/
structure Resumes (position : Position) (runes : List Rune) (front : List Lexeme) : Prop where
  /-- No finished lexeme ends the source. -/
  more : ∀ lexeme ∈ front, lexeme.token ≠ .eof
  /-- The parser sees the finished lexemes. -/
  ahead : Cursor.aheadOf (scanned {} position runes) = significant front
  /-- Where a newline ends a statement. -/
  ends : EndsLine (scanned {} position runes).dropLast ↔
    (ScanState.afterAll {} front).newlineEnds = true

theorem resumes_of_leaves (leaves : Leaves {} position runes front place tail)
    (resumable : Resumable (ScanState.afterAll {} front).newlineEnds tail) :
    Resumes position runes front := by
  obtain ⟨blanks, whole, insignificant⟩ := scanned_of_resumable leaves resumable
  obtain ⟨body, stop, split, others⟩ := exists_scanned_eq_concat {} position runes
  have same : body = front ++ blanks := (List.append_inj' (split.symm.trans whole) rfl).1
  rw [same] at others
  have none : significant blanks = [] := List.filter_eq_nil_iff.mpr fun lexeme member => by
    simp [insignificant lexeme member]
  constructor
  · exact fun lexeme member => others lexeme (List.mem_append_left _ member)
  · have all := Cursor.aheadOf_append others []
    rw [List.append_nil, significant_append, none] at all
    rw [whole, Cursor.aheadOf_concat_endOfSource, all]
    simp [Cursor.aheadOf]
  · have unchanged : ScanState.afterAll {} (front ++ blanks) = ScanState.afterAll {} front := by
      rw [ScanState.afterAll, List.foldl_append]
      exact ScanState.afterAll_of_blanks _ insignificant
    rw [whole, List.dropLast_concat, ← newlineEnds_afterAll, unchanged]

/-- The semicolon that a newline at a place stands for, before what is behind it is moved to the next
line. -/
def fillerAt (place : Position) : Lexeme :=
  { newlineAt place with span := ⟨place, place.advance (.ofChar ' ')⟩ }

theorem relocate_fillerAt (place : Position) :
    (fillerAt place).relocate (.breakAt place) = newlineAt place := by
  have start : Relocation.breakAt place place = place := Relocation.breakAt_of_before (.refl place)
  have stop := (breakAt_gap place).2
  simp [fillerAt, newlineAt, plainAt, relocate, relocateSubs, Span.relocate, start, stop]

/-- A newline in place of a space is a blank, or it fills a gap. -/
theorem ofLexemes_of_leaves (leaves : Leaves {} position runes front place tail)
    (resumable : Resumable (ScanState.afterAll {} front).newlineEnds tail)
    (wide : ∀ rune ∈ runes, 0 < rune.width) (more : List Rune) :
    let stop := position.advanceAll runes
    let spaced := scanned {} position (runes ++ .ofChar ' ' :: more)
    let broken := scanned {} position (runes ++ .ofChar '\n' :: more)
    ∃ later, Cursor.aheadOf spaced = Cursor.aheadOf (scanned {} position runes) ++ later ∧
      ((EndsLine (scanned {} position runes).dropLast → ∀ next ∈ later.head?, next.isNewline = false) →
        Cursor.ofLexemes broken = (Cursor.ofLexemes spaced).relocate (.breakAt stop) ∨
          EndsLine (scanned {} position runes).dropLast ∧ ∀ gap : Gap, gap.filler = fillerAt stop →
            gap.behind = later.length →
            Cursor.ofLexemes broken =
              ((Cursor.ofLexemes spaced).insert gap).relocate (.breakAt stop)) := by
  intro stop spaced broken
  obtain ⟨noEnd, ahead, ends⟩ := resumes_of_leaves leaves resumable
  obtain ⟨later, whole, continues⟩ := exists_significant_of_leaves leaves resumable more
  have steady := Relocation.steady_breakAt stop
  have fixed : (significant front).map (relocate (.breakAt stop)) = significant front := by
    rw [← significant_map_relocate]
    exact congrArg significant
      (leaves.map_relocate _ wide fun _ before => Relocation.breakAt_of_before before)
  have noEnd' : ∀ lexeme ∈ significant front, lexeme.token ≠ .eof := fun lexeme member =>
    noEnd lexeme (List.mem_of_mem_filter member)
  have endedSpaced : (spaced.find? (·.token.isEof)).isSome := isSome_find?_scanFrom _ _ _ _
  have endedBroken : (broken.find? (·.token.isEof)).isSome := isSome_find?_scanFrom _ _ _ _
  have cursor : Cursor.ofLexemes spaced = Cursor.ofLexemes (significant front ++ later) := by
    rw [← Cursor.ofLexemes_significant endedSpaced, whole]
  have twice : significant (significant front) = significant front := by
    simp [significant, List.filter_filter]
  refine ⟨Cursor.aheadOf later, ?_, fun visible => ?_⟩
  · rw [← Cursor.aheadOf_significant spaced, whole, Cursor.aheadOf_append noEnd', ahead,
      twice]
  · have visible' : (ScanState.afterAll {} front).newlineEnds = true →
        ∀ next ∈ later.head?, next.isNewline = false := by
      intro isEnd next isNext
      obtain ⟨rest, rfl⟩ := List.head?_eq_some_iff.mp isNext
      have seen : next ∈ significant spaced := by
        rw [whole]
        exact List.mem_append_right _ List.mem_cons_self
      cases isEof : next.token.isEof with
      | true =>
          have token : next.token = .eof := by simpa [Token.isEof] using isEof
          simp [isNewline, token]
      | false =>
          refine visible (ends.mpr isEnd) next ?_
          rw [Cursor.aheadOf_cons_of_significant _ isEof (List.mem_filter.mp seen).2]
          rfl
    obtain ⟨newlines, isNewline, wholeBroken⟩ := continues visible'
    have cursorBroken : Cursor.ofLexemes broken =
        Cursor.ofLexemes (significant front ++ newlines ++ later.map (relocate (.breakAt stop))) := by
      rw [← Cursor.ofLexemes_significant endedBroken, wholeBroken]
    rcases isNewline with rfl | ⟨isEnd, rfl⟩
    · refine .inl ?_
      rw [cursorBroken, cursor, List.append_nil, ← Cursor.ofLexemes_map_relocate steady, List.map_append,
        fixed]
    · refine .inr ⟨ends.mpr isEnd, fun gap filler behind => ?_⟩
      have none : (significant front).find? (·.token.isEof) = none :=
        List.find?_eq_none.mpr fun lexeme member => by simpa [Token.isEof] using noEnd' lexeme member
      have endedLater : (later.find? (·.token.isEof)).isSome := by
        rwa [← Cursor.find?_significant, whole, List.find?_append, none, Option.none_or] at endedSpaced
      rw [cursorBroken, cursor, ← Cursor.ofLexemes_insert noEnd' endedLater behind,
        ← Cursor.ofLexemes_map_relocate steady, List.map_append, fixed, filler, List.map_cons,
        relocate_fillerAt, List.append_assoc, List.singleton_append]

end Lexeme

/-! ## Sources -/

/-- Two texts with a space or a newline between them. -/
def gapped (left : List UInt8) (gap : Char) (right : List UInt8) : List UInt8 :=
  left ++ Rune.encode [gap] ++ right

theorem decode_gapped (left right : List UInt8) {gap : Char} (isGap : gap ∈ Lexeme.gaps) :
    Rune.decode (gapped left gap right) = Rune.decode left ++ .ofChar gap :: Rune.decode right := by
  have rest (c : Char) : Rune.decode (Rune.encode [c] ++ right) = .ofChar c :: Rune.decode right :=
    Text.Rune.decode_encode_append [c] right
  rw [gapped, List.append_assoc]
  simp only [Lexeme.gaps, List.mem_cons, List.not_mem_nil, or_false] at isGap
  rcases isGap with rfl | rfl
  · rw [← rest]
    exact Text.Rune.decode_append_of_ascii (by decide) left right
  · rw [← rest]
    exact Text.Rune.decode_append_of_ascii (by decide) left right

section

variable (source : Nat) (left right : List UInt8)

open Lexeme

/-- A newline in place of a space between two texts is a blank, or it fills a gap. -/
theorem ofLexemes_gapped (closed : endsInString (scan "" left) = false)
    (ends : endsInLineComment (scan "" left) = false) :
    let spaced := scan "" (gapped left ' ' right)
    let broken := scan "" (gapped left '\n' right)
    ∃ stop later, Cursor.aheadOf spaced = Cursor.aheadOf (scan "" left) ++ later ∧
      ((EndsLine (scan "" left).dropLast → ∀ next ∈ later.head?, next.isNewline = false) →
        Cursor.ofLexemes broken = (Cursor.ofLexemes spaced).relocate (.breakAt stop) ∨
          EndsLine (scan "" left).dropLast ∧ ∀ gap : Gap, gap.filler = fillerAt stop →
            gap.behind = later.length →
            Cursor.ofLexemes broken =
              ((Cursor.ofLexemes spaced).insert gap).relocate (.breakAt stop)) := by
  intro spaced broken
  obtain ⟨front, place, tail, leaves⟩ := exists_leaves {} (.first "") (Rune.decode left)
  obtain ⟨resumable, -⟩ := resumable_of_endsInString leaves closed ends
  have wide : ∀ rune ∈ Rune.decode left, 0 < rune.width := fun rune member =>
    (Rune.isSpelled_of_mem_decode left rune member).width_pos
  have whole := ofLexemes_of_leaves leaves resumable wide (Rune.decode right)
  rw [← decode_gapped left right (by decide), ← decode_gapped left right (by decide)] at whole
  exact ⟨_, whole⟩

/-- Where no newline ends a statement, a line may be broken: the tree stays the same, but for places. -/
theorem lines_break_where_nothing_ends (closed : endsInString (scan "" left) = false)
    (ends : endsInLineComment (scan "" left) = false) (goesOn : ¬EndsLine (scan "" left).dropLast) :
    (Parsed.expression source (scan "" (gapped left '\n' right))).tree.unplaced =
      (Parsed.expression source (scan "" (gapped left ' ' right))).tree.unplaced := by
  obtain ⟨stop, later, -, continues⟩ := ofLexemes_gapped left right closed ends
  obtain moved | ⟨isEnd, -⟩ := continues fun isEnd => absurd isEnd goesOn
  · rw [Parsed.expression_relocate (Relocation.steady_breakAt stop) source moved,
      Expr.unplaced_relocate]
  · exact absurd isEnd goesOn

open Grammar in
/-- In the content of an element a line may be broken between any two lexemes, unless another newline
follows: the tree of the element stays the same, but for places.  At the place in the content as many
lexemes are left as there are behind the gap. -/
theorem lines_break_in_content (closed : endsInString (scan "" left) = false)
    (ends : endsInLineComment (scan "" left) = false)
    (element : (Parsed.expression source (scan "" (gapped left ' ' right))).tree.isMarkup = true)
    (sound : (Parsed.expression source (scan "" (gapped left ' ' right))).tree.diagnostics = [])
    {depth : Nat} {first place : ParseState}
    (leading : (ParseState.start (scan "" (gapped left ' ' right)) { source }).SkipsSemicolons first)
    (content : InContent depth first place)
    (here : (Cursor.aheadOf (scan "" (gapped left ' ' right))).length =
      (Cursor.aheadOf (scan "" left)).length + place.cursor.remaining)
    (behind : ∃ next, (Cursor.aheadOf (scan "" (gapped left ' ' right)))[
      (Cursor.aheadOf (scan "" left)).length]? = some next ∧ next.isNewline = false) :
    (Parsed.expression source (scan "" (gapped left '\n' right))).tree.unplaced =
      (Parsed.expression source (scan "" (gapped left ' ' right))).tree.unplaced := by
  obtain ⟨stop, later, ahead, continues⟩ := ofLexemes_gapped left right closed ends
  obtain ⟨next, isNext, visible⟩ := behind
  rw [ahead, List.length_append] at here
  have remaining : place.cursor.remaining = later.length := (Nat.add_left_cancel here).symm
  rw [ahead, List.getElem?_append_right (Nat.le_refl _), Nat.sub_self, ← List.head?_eq_getElem?] at isNext
  have steady := Relocation.steady_breakAt stop
  obtain moved | ⟨-, filled⟩ := continues fun _ other isOther => by
    obtain rfl : next = other := Option.some.inj (isNext.symm.trans isOther)
    exact visible
  · rw [Parsed.expression_relocate steady source moved, Expr.unplaced_relocate]
  · have some : 0 < later.length := List.length_pos_of_ne_nil fun none => by simp [none] at isNext
    let gap : Gap := ⟨fillerAt stop, rfl, later.length, some⟩
    rw [Parsed.expression_insert steady source (filled gap rfl rfl) element sound leading content
      remaining, Expr.unplaced_relocate]

end

open Grammar Lexeme in
/-- A gap among the words of an element in an element, where a newline becomes a semicolon. -/
theorem line_breaks_in_nested_element :
    let left := "<a>x <b>y".toUTF8.toList
    let right := "z</b></a>".toUTF8.toList
    let tree (gap : Char) := (Parsed.expression 0 (scan "" (gapped left gap right))).tree
    EndsLine (scan "" left).dropLast ∧ (tree ' ').isMarkup = true ∧ (tree ' ').diagnostics = [] ∧
      (tree '\n').unplaced = (tree ' ').unplaced := by
  intro left right tree
  let start := ParseState.start (scan "" (gapped left ' ' right)) { source := 0 }
  have leading : start.SkipsSemicolons start := .done (by decide +kernel)
  have found : (placeIn 1 [1, 1] start).any (fun place =>
      (Cursor.aheadOf (scan "" (gapped left ' ' right))).length ==
        (Cursor.aheadOf (scan "" left)).length + place.cursor.remaining) = true := by
    decide +kernel
  obtain ⟨place, inside, here⟩ := (Option.any_eq_true ..).mp found
  have element : (tree ' ').isMarkup = true := by decide +kernel
  have sound : (tree ' ').diagnostics = [] := by
    rw [← List.isEmpty_iff]
    decide +kernel
  have behind : ((Cursor.aheadOf (scan "" (gapped left ' ' right)))[
      (Cursor.aheadOf (scan "" left)).length]?).any (fun next => !next.isNewline) = true := by
    decide +kernel
  obtain ⟨next, isNext, visible⟩ := (Option.any_eq_true ..).mp behind
  have line : EndsLine (scan "" left).dropLast := by
    rw [← newlineEnds_afterAll]
    decide +kernel
  exact ⟨line, element, sound, lines_break_in_content 0 left right (by decide +kernel)
    (by decide +kernel) element sound leading (inContent_of_placeIn inside) (beq_iff_eq.mp here)
    ⟨next, isNext, by simpa using visible⟩⟩

end Reckon
