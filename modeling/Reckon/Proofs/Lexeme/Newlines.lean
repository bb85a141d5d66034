import Mathlib.Data.List.Induction
import Mathlib.Data.List.TakeWhile
import Reckon.Proofs.Lexeme.Tiling
import Reckon.Proofs.Lexeme.Placing

/-!
# Newlines that end statements

A newline may end a statement if the last significant lexeme before it can be the last one of an
operand, a jump or an element, and the innermost open bracket is no parenthesis.  The scanner makes
a semicolon of the first such newline and of no other one, and it never hides one among blanks.
-/

namespace Reckon

open Text (Rune)
open Text.Rune

/-! ## Blanks and newlines among the runes -/

namespace Recognized

/-- A blank or a newline. -/
def isLayout (c : Char) : Bool :=
  isBlank c || c == '\n'

variable {newlineEnds : Bool} {first : Rune} {rest : List Rune}

theorem next_of_newline (newline : first.char = '\n') :
    next true first rest = { token := .semicolon, lit := "newline", length := 1 } := by
  simp [next, newline]

theorem next_of_layout (layout : isLayout first.char = true)
    (continues : first.char = '\n' → newlineEnds = false) :
    next newlineEnds first rest = blanks newlineEnds (first :: rest) := by
  have passes : (first.char == '\n' && newlineEnds) = false := by
    by_cases newline : first.char = '\n'
    · simp [continues newline]
    · simp [newline]
  unfold next
  rw [if_neg (by simp [passes]), if_pos (by exact layout)]

/-- What starts with neither a blank nor a newline does not depend on what newlines do. -/
theorem next_of_visible (visible : isLayout first.char = false) :
    next newlineEnds first rest = next false first rest := by
  obtain ⟨noBlank, noNewline⟩ : isBlank first.char = false ∧ first.char ≠ '\n' := by
    simpa [isLayout] using visible
  simp [next, noBlank, noNewline]

theorem token_templateFrom (used : Nat) (state : TemplateState) (runes : List Rune) :
    (templateFrom used state runes).token = .template ∨
      (templateFrom used state runes).token = .badString := by
  fun_induction templateFrom used state runes with
  | case1 | case6 => exact .inr rfl
  | case3 => exact .inl rfl
  | case2 => assumption
  | case4 => assumption
  | case5 => assumption
  | case7 => assumption

/-- What starts with neither a blank nor a newline is neither blank nor the end of a line. -/
theorem token_next_of_visible (visible : isLayout first.char = false) :
    (next newlineEnds first rest).token ≠ .space ∧
      ((next newlineEnds first rest).token = .semicolon →
        (next newlineEnds first rest).lit ≠ "newline") := by
  obtain ⟨noBlank, noNewline⟩ : isBlank first.char = false ∧ first.char ≠ '\n' := by
    simpa [isLayout] using visible
  simp only [next]
  rw [if_neg (by simp [noNewline]), if_neg (by simp [noBlank, noNewline])]
  split
  · exact ⟨by rintro ⟨⟩, by rintro ⟨⟩⟩
  split
  · exact ⟨ofWord_ne (by decide) (by decide) _,
      fun isSemicolon => absurd isSemicolon (ofWord_ne (by decide) (by decide) _)⟩
  split
  · exact ⟨by rintro ⟨⟩, by rintro ⟨⟩⟩
  split
  · rcases token_string first.char (first :: rest) with closed | opened
    · exact ⟨ne_of_eq_of_ne closed (by decide),
        fun token => absurd (closed.symm.trans token) (by decide)⟩
    · exact ⟨ne_of_eq_of_ne opened (by decide),
        fun token => absurd (opened.symm.trans token) (by decide)⟩
  split
  · rcases token_templateFrom 0 {} ((first :: rest).drop 1) with closed | opened
    · exact ⟨ne_of_eq_of_ne closed (by decide),
        fun token => absurd (closed.symm.trans token) (by decide)⟩
    · exact ⟨ne_of_eq_of_ne opened (by decide),
        fun token => absurd (opened.symm.trans token) (by decide)⟩
  · unfold symbol
    split
    · next token length found =>
      refine ⟨(operator?_spec found).2 .space (by decide), fun isSemicolon => ?_⟩
      change token = .semicolon at isSemicolon
      change token.spelling ≠ "newline"
      rw [isSemicolon]
      decide
    · exact ⟨by rintro ⟨⟩, by rintro ⟨⟩⟩

theorem take_length_leading (test : Char → Bool) (runes : List Rune) :
    runes.take (leading test runes).length = leading test runes :=
  (List.prefix_iff_eq_take.mp (List.takeWhile_prefix _)).symm

theorem drop_length_leading (test : Char → Bool) (runes : List Rune) :
    runes.drop (leading test runes).length = runes.dropWhile fun rune => test rune.char := by
  have parts := List.takeWhile_append_dropWhile (p := fun rune : Rune => test rune.char) (l := runes)
  exact (congrArg _ parts).symm.trans (List.drop_left' rfl)

/-- A run of blanks has no newline if newlines end statements. -/
theorem char_ne_newline_of_mem_take_blanks {runes : List Rune} {rune : Rune}
    (member : rune ∈ runes.take (blanks true runes).length) : rune.char ≠ '\n' := by
  rw [blanks, take_length_leading] at member
  have passes := List.mem_takeWhile_imp member
  rintro newline
  simp [newline, isBlank] at passes

end Recognized

/-! ## Where a newline may end a statement -/

namespace Lexeme

/-- Whether the lexeme is a semicolon that stands for a newline. -/
def isNewline (lexeme : Lexeme) : Bool :=
  lexeme.token == .semicolon && lexeme.lit == "newline"

/-- The classes of the lexemes that can be the last one of a line: operands, jumps, closing brackets
and the end of a markup element. -/
def lineEnds : List Token :=
  [.name, .number, .string, .template, .badString, .kwBreak, .kwContinue, .kwReturn, .kwTrue,
    .kwFalse, .kwNull, .rightParen, .rightBracket, .rightBrace, .greater]

/-- The open brackets after a token, innermost first. Any closing bracket ends the innermost one. -/
def nest (nested : List Token) (token : Token) : List Token :=
  match token with
  | .leftParen | .leftBracket | .leftBrace => token :: nested
  | .rightParen | .rightBracket | .rightBrace => nested.tail
  | _ => nested

/-- The brackets that are open after some lexemes, innermost first. -/
def openBrackets (lexemes : List Lexeme) : List Token :=
  lexemes.foldl (fun nested lexeme => nest nested lexeme.token) []

/-- The last significant lexeme among some lexemes. -/
def lastSignificant? (lexemes : List Lexeme) : Option Lexeme :=
  (lexemes.filter (·.isSignificant)).getLast?

/-- A newline after some lexemes may end a statement. -/
structure EndsLine (before : List Lexeme) : Prop where
  /-- The last significant lexeme can be the last one of a line. -/
  last : ∃ lexeme, lastSignificant? before = some lexeme ∧ lexeme.token ∈ lineEnds
  /-- The innermost open bracket is no parenthesis. -/
  bracket : (openBrackets before).head? ≠ some .leftParen

/-- The offset is one of those from the first byte of the lexeme to its last. -/
def Covers (lexeme : Lexeme) (offset : Nat) : Prop :=
  lexeme.span.start.offset ≤ offset ∧ offset < lexeme.span.stop.offset

/-- There is a newline at an offset of a source, and after the lexemes before it a newline may end a
statement. -/
def Eligible (source : List UInt8) (stream : List Lexeme) (offset : Nat) : Prop :=
  source[offset]? = some newlineByte ∧
    ∃ before lexeme after, stream = before ++ lexeme :: after ∧ lexeme.Covers offset ∧
      EndsLine before

/-! ## What the scanner remembers -/

/-- The state of the scanner after some lexemes. -/
def ScanState.afterAll (state : ScanState) (lexemes : List Lexeme) : ScanState :=
  lexemes.foldl (fun state lexeme => state.after lexeme.token) state

theorem ScanState.afterAll_concat (state : ScanState) (lexemes : List Lexeme) (last : Lexeme) :
    state.afterAll (lexemes ++ [last]) = (state.afterAll lexemes).after last.token :=
  List.foldl_concat ..

theorem mem_lineEnds_iff (token : Token) : token ∈ lineEnds ↔ token.mayEndStatement = true := by
  cases token <;> decide

theorem openBrackets_concat (lexemes : List Lexeme) (last : Lexeme) :
    openBrackets (lexemes ++ [last]) = nest (openBrackets lexemes) last.token :=
  List.foldl_concat ..

theorem lastSignificant?_concat (lexemes : List Lexeme) (last : Lexeme) :
    lastSignificant? (lexemes ++ [last]) =
      if last.isSignificant then some last else lastSignificant? lexemes := by
  unfold lastSignificant?
  rw [List.filter_append]
  cases significant : last.isSignificant <;> simp [significant]

/-- The state of the scanner says of the lexemes so far what newlines depend on. -/
theorem ScanState.afterAll_eq (lexemes : List Lexeme) :
    ScanState.afterAll {} lexemes =
      { mayEnd := (lastSignificant? lexemes).any (·.token.mayEndStatement)
        brackets := openBrackets lexemes } := by
  induction lexemes using List.reverseRecOn with
  | nil => rfl
  | append_singleton before last inductionHypothesis =>
      rw [afterAll_concat, inductionHypothesis, openBrackets_concat, lastSignificant?_concat]
      cases significant : last.isSignificant with
      | true => exact if_pos significant
      | false =>
          have token : last.token = .space ∨ last.token = .comment := by
            simpa [isSignificant, Token.isSignificant, Classical.or_iff_not_imp_left] using significant
          refine (if_neg (ne_true_of_eq_false significant)).trans ?_
          rcases token with isSpace | isComment
          · rw [isSpace]
            rfl
          · rw [isComment]
            rfl

theorem newlineEnds_afterAll (lexemes : List Lexeme) :
    (ScanState.afterAll {} lexemes).newlineEnds = true ↔ EndsLine lexemes := by
  rw [ScanState.afterAll_eq]
  simp only [ScanState.newlineEnds, Bool.true_and, Bool.and_eq_true, bne_iff_ne, Option.any_eq_true]
  constructor
  · rintro ⟨⟨last, isLast, ends⟩, bracket⟩
    exact ⟨⟨last, isLast, (mem_lineEnds_iff _).mpr ends⟩, bracket⟩
  · rintro ⟨⟨last, isLast, ends⟩, bracket⟩
    exact ⟨⟨last, isLast, (mem_lineEnds_iff _).mp ends⟩, bracket⟩

/-! ## Where lexemes are recognized -/

open Recognized

variable {source : List UInt8} {position : Position} {runes : List Rune} {stream : List Lexeme}
  {lexeme : Lexeme}

/-- A lexeme is what is recognized at the front of the runes that the source has at its start. -/
structure RecognizedAt (source : List UInt8) (newlineEnds : Bool) (lexeme : Lexeme) (first : Rune)
    (rest : List Rune) : Prop where
  /-- The runes stand at the start of the lexeme. -/
  holds : lexeme.span.start.Holds source (first :: rest)
  /-- The lexeme has the class that is recognized. -/
  token_eq : lexeme.token = (next newlineEnds first rest).token
  /-- The lexeme says what is recognized. -/
  lit_eq : lexeme.lit = (next newlineEnds first rest).lit
  /-- The lexeme takes the runes that are recognized. -/
  stop_eq : lexeme.span.stop.offset =
    lexeme.span.start.offset +
      widthAll ((first :: rest).take (next newlineEnds first rest).length)

/-- What newlines do at a lexeme of a scan depends on the lexemes before it. -/
theorem exists_recognizedAt {bound : Nat} {state : ScanState} {before after : List Lexeme}
    (holds : position.Holds source runes)
    (split : scanFrom bound state position runes = before ++ lexeme :: after)
    (more : lexeme.token ≠ .eof) :
    ∃ first rest, RecognizedAt source (state.afterAll before).newlineEnds lexeme first rest := by
  have ended (position : Position) (before : List Lexeme) :
      [endOfSource position] ≠ before ++ lexeme :: after := by
    intro split
    have last : endOfSource position = lexeme := by
      have member : lexeme ∈ [endOfSource position] := split ▸ List.mem_append_right _ List.mem_cons_self
      exact (List.mem_singleton.mp member).symm
    exact more (last ▸ rfl)
  induction bound generalizing state position runes before with
  | zero => exact absurd split (ended position before)
  | succ bound inductionHypothesis =>
      cases runes with
      | nil => exact absurd split (ended position before)
      | cons first rest =>
          rw [scanFrom] at split
          cases before with
          | nil =>
              obtain ⟨rfl, -⟩ := List.cons.inj split
              exact ⟨first, rest, holds, rfl, rfl, Position.offset_advanceAll _ _⟩
          | cons head tail =>
              obtain ⟨rfl, others⟩ := List.cons.inj split
              have parts := List.take_append_drop (next state.newlineEnds first rest).length (first :: rest)
              have later := inductionHypothesis
                ((parts.symm ▸ holds).after (Position.offset_advanceAll _ _)) others
              exact later

namespace RecognizedAt

variable {newlineEnds : Bool} {first : Rune} {rest : List Rune}

/-- A semicolon that stands for a newline is a newline at which newlines end statements. -/
theorem of_isNewline (recognized : RecognizedAt source newlineEnds lexeme first rest)
    (newline : lexeme.isNewline = true) :
    newlineEnds = true ∧ source[lexeme.span.start.offset]? = some newlineByte ∧
      lexeme.span.stop.offset = lexeme.span.start.offset + 1 := by
  obtain ⟨token, lit⟩ : lexeme.token = .semicolon ∧ lexeme.lit = "newline" := by
    simpa [isNewline] using newline
  rw [recognized.token_eq] at token
  rw [recognized.lit_eq] at lit
  cases layout : isLayout first.char with
  | false => exact absurd lit ((token_next_of_visible layout).2 token)
  | true =>
      by_cases ends : first.char = '\n' ∧ newlineEnds = true
      · obtain ⟨char, rfl⟩ := ends
        have bytes := (recognized.holds.spelled first List.mem_cons_self).bytes_eq char (by decide)
        obtain ⟨before, after, split, length⟩ := recognized.holds.split
        have stop := recognized.stop_eq
        rw [next_of_newline char] at stop
        refine ⟨rfl, ?_, ?_⟩
        · rw [split, source_cons, bytes, ← length]
          simp [newlineByte]
        · simpa [widthAll, width, bytes] using stop
      · rw [next_of_layout layout fun char => by simpa [char] using ends] at token
        cases token

/-- Where newlines end statements there is none among blanks. -/
theorem getElem?_ne_newlineByte (recognized : RecognizedAt source true lexeme first rest)
    (space : lexeme.token = .space) {offset : Nat} (covers : lexeme.Covers offset) :
    source[offset]? ≠ some newlineByte := by
  have noNewline : first.char ≠ '\n' := by
    intro char
    have token := recognized.token_eq
    rw [space, next_of_newline char] at token
    cases token
  have layout : isLayout first.char = true := by
    by_contra visible
    exact (token_next_of_visible (by simpa using visible)).1 (recognized.token_eq.symm.trans space)
  have stop := recognized.stop_eq
  rw [next_of_layout layout (absurd · noNewline)] at stop
  -- The bytes of the lexeme are those of its runes, and none of these is a newline.
  let taken := (first :: rest).take (blanks true (first :: rest)).length
  obtain ⟨before, after, split, length⟩ := recognized.holds.split
  have none : newlineByte ∉ Rune.source taken := by
    intro member
    obtain ⟨rune, isTaken, byte⟩ := List.mem_flatMap.mp member
    exact (recognized.holds.spelled rune (List.mem_of_mem_take isTaken)).newlineByte_not_mem
      (char_ne_newline_of_mem_take_blanks isTaken) byte
  have whole : source = before ++ (Rune.source taken ++
      (Rune.source ((first :: rest).drop (blanks true (first :: rest)).length) ++ after)) := by
    rw [← List.append_assoc (Rune.source taken), ← source_append, List.take_append_drop]
    exact split
  have size : (Rune.source taken).length = lexeme.span.stop.offset - lexeme.span.start.offset := by
    rw [length_source, stop]
    exact (Nat.add_sub_cancel_left _ _).symm
  obtain ⟨low, high⟩ := covers
  intro newline
  rw [whole, List.getElem?_append_right (by omega), List.getElem?_append_left (by omega)] at newline
  exact none (List.mem_of_getElem? newline)

end RecognizedAt

/-! ## The lexeme at an offset -/

/-- Lexemes that tile a source stand one after the other. -/
theorem Tiles.pairwise {high : Nat} (tiles : Tiles source position stream high) :
    (∀ lexeme ∈ stream, position.offset ≤ lexeme.span.start.offset) ∧
      stream.Pairwise fun left right => left.span.stop.offset ≤ right.span.start.offset := by
  induction stream generalizing position with
  | nil => exact ⟨nofun, .nil⟩
  | cons first rest inductionHypothesis =>
      cases tiles with
      | last _ point => simp [point, Span.point]
      | cons _ start wide _ _ others =>
          obtain ⟨follow, pairwise⟩ := inductionHypothesis others
          refine ⟨?_, .cons follow pairwise⟩
          intro lexeme member
          rcases List.mem_cons.mp member with rfl | later
          · rw [start]
          · have following := follow lexeme later
            rw [← start]
            omega

/-- No lexeme that tiles a source stops before it starts. -/
theorem Tiles.start_le_stop {high : Nat} (tiles : Tiles source position stream high)
    (member : lexeme ∈ stream) : lexeme.span.start.offset ≤ lexeme.span.stop.offset := by
  induction stream generalizing position with
  | nil => cases member
  | cons first rest inductionHypothesis =>
      cases tiles with
      | last _ point =>
          rw [List.mem_singleton.mp member, point]
          exact Nat.le_refl _
      | cons _ _ wide _ _ others =>
          rcases List.mem_cons.mp member with rfl | later
          · exact Nat.le_of_lt wide
          · exact inductionHypothesis others later

/-- Only one lexeme covers an offset. -/
theorem eq_of_covers
    (pairwise : stream.Pairwise fun left right => left.span.stop.offset ≤ right.span.start.offset)
    {offset : Nat} {left right : Lexeme} {before after before' after' : List Lexeme}
    (split : stream = before ++ left :: after) (split' : stream = before' ++ right :: after')
    (covers : left.Covers offset) (covers' : right.Covers offset) :
    before = before' ∧ left = right ∧ after = after' := by
  induction before generalizing stream before' with
  | nil =>
      cases before' with
      | nil =>
          obtain ⟨rfl, rfl⟩ := List.cons.inj (split.symm.trans split')
          exact ⟨rfl, rfl, rfl⟩
      | cons head tail =>
          obtain ⟨rfl, rfl⟩ := List.cons.inj (split.symm.trans split')
          have follows := (List.pairwise_cons.mp (split ▸ pairwise)).1 right (by simp)
          have apart := covers.2
          have apart' := covers'.1
          omega
  | cons first rest inductionHypothesis =>
      cases before' with
      | nil =>
          obtain ⟨rfl, rfl⟩ := List.cons.inj (split.symm.trans split')
          have follows := (List.pairwise_cons.mp (split' ▸ pairwise)).1 left (by simp)
          have apart := covers.1
          have apart' := covers'.2
          omega
      | cons head tail =>
          obtain ⟨rfl, others⟩ := List.cons.inj (split.symm.trans split')
          obtain ⟨rfl, same⟩ := inductionHypothesis (List.pairwise_cons.mp (split ▸ pairwise)).2 rfl others
          exact ⟨rfl, same⟩

end Lexeme

/-! ## Scanning without automatic semicolons

Without automatic semicolons a source has the same words.  The two runs of the scanner cut blanks and
newlines in different ways, so they are compared where a word starts: what is before it has been skipped
by both, and the word is the same whatever newlines do. -/

namespace Lexeme

open Recognized

variable {state : ScanState} {position : Position} {first : Rune} {rest runes : List Rune}

/-! ## Scanning where newlines end no statement -/

/-- The significant lexemes of some runes if newlines end no statement. -/
def words (position : Position) (runes : List Rune) : List Lexeme :=
  (scanned { automaticSemicolons := false } position runes).filter (·.isSignificant)

/-- What else the scanner remembers plays no part if newlines end no statement. -/
theorem scanned_eq_of_off (off : state.automaticSemicolons = false) :
    scanned state position runes = scanned { automaticSemicolons := false } position runes := by
  have newlineEnds {state : ScanState} (off : state.automaticSemicolons = false) :
      state.newlineEnds = false := by
    simp [ScanState.newlineEnds, off]
  have after {state : ScanState} (off : state.automaticSemicolons = false) (token : Token) :
      (state.after token).automaticSemicolons = false := by
    unfold ScanState.after
    split <;> exact off
  induction runes using scanned_induction generalizing state position with
  | nil => rfl
  | cons first rest inductionHypothesis =>
      rw [scanned_cons, scanned_cons, newlineEnds off, newlineEnds rfl]
      exact congrArg _ ((inductionHypothesis false (after off _)).trans
        (inductionHypothesis false (after rfl _)).symm)

theorem words_cons :
    words position (first :: rest) =
      [lexemeAt false position first rest].filter (·.isSignificant) ++
        words (stopAt false position first rest)
          ((first :: rest).drop (next false first rest).length) := by
  have off : (ScanState.after { automaticSemicolons := false }
      (next false first rest).token).automaticSemicolons =
      false := by
    unfold ScanState.after
    split <;> rfl
  rw [words, scanned_cons, ← List.singleton_append, List.filter_append]
  exact congrArg _ (congrArg _ (scanned_eq_of_off off))

/-- The blanks and newlines at the front are no words. -/
theorem words_eq_words_dropWhile (position : Position) (runes : List Rune) :
    words position runes =
      words (position.advanceAll (leading isLayout runes))
        (runes.dropWhile fun rune => isLayout rune.char) := by
  cases runes with
  | nil => rfl
  | cons first rest =>
      cases layout : isLayout first.char with
      | false => simp [leading, layout]
      | true =>
          have found : next false first rest = blanks false (first :: rest) :=
            next_of_layout layout fun _ => rfl
          have taken : leading (fun c => isBlank c || (c == '\n' && !false)) (first :: rest) =
              leading isLayout (first :: rest) := by
            simp only [Bool.not_false, Bool.and_true]
            rfl
          rw [words_cons, lexemeAt, stopAt, found, blanks, taken, take_length_leading, drop_length_leading]
          rfl

/-- Blanks and newlines before a text are no words. -/
theorem words_append {layout : List Rune} (isLayout : ∀ rune ∈ layout, isLayout rune.char = true)
    (position : Position) (runes : List Rune) :
    words position (layout ++ runes) = words (position.advanceAll layout) runes := by
  rw [words_eq_words_dropWhile, words_eq_words_dropWhile (position.advanceAll layout), leading, leading,
    List.takeWhile_append_of_pos isLayout, List.dropWhile_append_of_pos isLayout,
    Position.advanceAll_append]

/-! ## Both runs -/

/-- A lexeme that starts with a blank or a newline takes nothing else, and is no word. -/
theorem lexemeAt_of_layout (newlineEnds : Bool) (position : Position) (rest : List Rune)
    (layout : isLayout first.char = true) :
    ([lexemeAt newlineEnds position first rest].filter (·.isSignificant)).filter (!·.isNewline) = [] ∧
      (∀ rune ∈ (first :: rest).take (next newlineEnds first rest).length,
        isLayout rune.char = true) ∧
      (next newlineEnds first rest).overrun = 0 := by
  by_cases ends : first.char = '\n' ∧ newlineEnds = true
  · obtain ⟨char, rfl⟩ := ends
    rw [lexemeAt, next_of_newline char]
    exact ⟨rfl, by simpa using layout, rfl⟩
  · have found : next newlineEnds first rest = blanks newlineEnds (first :: rest) :=
      next_of_layout layout fun char => by simpa [char] using ends
    rw [lexemeAt, found]
    refine ⟨rfl, fun rune member => ?_, rfl⟩
    rw [blanks, take_length_leading] at member
    have passes := List.mem_takeWhile_imp member
    simp only [isLayout, Bool.or_eq_true, Bool.and_eq_true] at passes ⊢
    exact passes.imp_right And.left

/-- The words of a text are its significant lexemes but for the newlines that end statements. -/
theorem filter_scanned (state : ScanState) (position : Position) (runes : List Rune) :
    ((scanned state position runes).filter (·.isSignificant)).filter (!·.isNewline) =
      words position runes := by
  induction runes using scanned_induction generalizing state position with
  | nil => rfl
  | cons first rest inductionHypothesis =>
      rw [scanned_cons, ← List.singleton_append, List.filter_append, List.filter_append,
        inductionHypothesis]
      cases layout : isLayout first.char with
      | false =>
          have same : next state.newlineEnds first rest = next false first rest :=
            next_of_visible layout
          have visible : (next false first rest).token = .semicolon →
              (next false first rest).lit ≠ "newline" :=
            (token_next_of_visible layout).2
          have kept : (lexemeAt false position first rest).isNewline = false := by
            simpa [lexemeAt, isNewline] using visible
          rw [words_cons, lexemeAt, stopAt, same]
          refine congrArg (· ++ _) ?_
          change ([lexemeAt false position first rest].filter (·.isSignificant)).filter _ =
            [lexemeAt false position first rest].filter _
          refine List.filter_eq_self.mpr fun lexeme member => ?_
          rw [List.mem_singleton.mp (List.mem_of_mem_filter member), kept]
          rfl
      | true =>
          obtain ⟨dropped, taken, inside⟩ := lexemeAt_of_layout state.newlineEnds position rest layout
          have parts := List.take_append_drop (next state.newlineEnds first rest).length (first :: rest)
          have skipped := words_append taken position
            ((first :: rest).drop (next state.newlineEnds first rest).length)
          rw [dropped, List.nil_append, stopAt, inside, Position.overrun_zero, ← skipped, parts]

/-- Newlines that end statements only add semicolons: without them a source has the same significant
lexemes otherwise. -/
theorem significant_scanWith_off (file : String) (source : List UInt8) :
    (scanWith { automaticSemicolons := false } file source).filter (·.isSignificant) =
      ((scan file source).filter (·.isSignificant)).filter (!·.isNewline) :=
  (filter_scanned {} _ _).symm

end Lexeme

end Reckon
