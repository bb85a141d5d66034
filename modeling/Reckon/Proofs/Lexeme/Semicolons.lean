import Reckon.Proofs.Lexeme.Newlines

/-!
# Automatic semicolons

A newline of a source becomes a semicolon if a statement may end there, and it is the first such newline
between two lexemes.  This holds of the whole source and of every replacement in its templates, where
nothing is open at the start.
-/

namespace Reckon

open Text (Rune)
open Text.Rune

namespace Lexeme

open Recognized

variable {source : List UInt8} {position : Position} {runes : List Rune} {stream : List Lexeme}
  {lexeme : Lexeme}

/-! ## The streams of a source -/

/-- A stream of a list of lexemes is the list itself or that of a replacement in one of its streams. -/
inductive StreamOf (lexemes : List Lexeme) : List Lexeme → Prop
  | whole : StreamOf lexemes lexemes
  | inside {outer stream : List Lexeme} {lexeme : Lexeme} : StreamOf lexemes outer →
      lexeme ∈ outer → stream ∈ lexeme.subs → StreamOf lexemes stream

/-- The lexemes of a replacement are scanned like those of a source, where its text stands. -/
theorem exists_scanFrom_of_mem_subs {bound : Nat} {state : ScanState}
    (holds : position.Holds source runes) (enough : runes.length < bound)
    (member : lexeme ∈ scanFrom bound state position runes) (isSub : stream ∈ lexeme.subs) :
    ∃ bound position runes, position.Holds source runes ∧ runes.length < bound ∧
      stream = scanFrom bound {} position runes := by
  induction bound generalizing state position runes with
  | zero => cases enough
  | succ bound inductionHypothesis =>
      cases runes with
      | nil =>
          rw [List.mem_singleton.mp member] at isSub
          cases isSub
      | cons first rest =>
          have read := isReadFrom_next state.newlineEnds first rest
          have positive := read.length_pos
          rw [scanFrom] at member
          rcases List.mem_cons.mp member with rfl | later
          · obtain ⟨replacement, chosen, rfl⟩ := List.mem_map.mp isSub
            have braced := read.braced.isBraced_of_mem chosen
            obtain ⟨_, _, encloses⟩ := holds.exists_encloses braced
            have shorter := braced.length_body_lt
            exact ⟨bound, _, _, encloses.body, by omega, rfl⟩
          · have parts := List.take_append_drop (next state.newlineEnds first rest).length (first :: rest)
            refine inductionHypothesis ((parts.symm ▸ holds).after (Position.offset_advanceAll _ _)) ?_ later
            simp only [List.length_drop, List.length_cons] at enough ⊢
            omega

theorem StreamOf.exists_scanFrom {file : String} (isStream : StreamOf (scan file source) stream) :
    ∃ bound position runes, position.Holds source runes ∧ runes.length < bound ∧
      stream = scanFrom bound {} position runes := by
  induction isStream with
  | whole => exact ⟨_, _, _, Position.Holds.decode file source, Nat.lt_succ_self _, rfl⟩
  | inside _ member isSub inductionHypothesis =>
      obtain ⟨bound, position, runes, holds, enough, rfl⟩ := inductionHypothesis
      exact exists_scanFrom_of_mem_subs holds enough member isSub

/-! ## Newlines between lexemes -/

/-- After a newline that ended a statement another one does not, unless something stands between. -/
theorem not_endsLine_of_newline {before inner : List Lexeme} {newline : Lexeme}
    (newlines : ∀ lexeme ∈ inner, lexeme.isSignificant = true → lexeme.isNewline = true)
    (member : newline ∈ inner) (isNewline : newline.isNewline = true) :
    ¬ EndsLine (before ++ inner) := by
  rintro ⟨⟨last, isLast, ends⟩, -⟩
  have significant : newline.isSignificant = true := by
    obtain ⟨token, -⟩ : newline.token = .semicolon ∧ newline.lit = "newline" := by
      simpa [Lexeme.isNewline] using isNewline
    rw [isSignificant, token]
    rfl
  have some : inner.filter (·.isSignificant) ≠ [] :=
    List.ne_nil_of_mem (List.mem_filter.mpr ⟨member, significant⟩)
  rw [lastSignificant?, List.filter_append, List.getLast?_append_of_ne_nil _ some] at isLast
  obtain ⟨isInner, seen⟩ := List.mem_filter.mp (List.mem_of_getLast? isLast)
  obtain ⟨token, -⟩ : last.token = .semicolon ∧ last.lit = "newline" := by
    simpa [Lexeme.isNewline] using newlines last isInner seen
  rw [token] at ends
  exact absurd ends (by decide)

/-- What is said of the newlines of a stream. -/
structure SemicolonsEndLines (source : List UInt8) (stream : List Lexeme) : Prop where
  /-- A semicolon that stands for a newline is a single newline at which a statement may end. -/
  newline : ∀ lexeme ∈ stream, lexeme.isNewline = true →
    lexeme.span.stop.offset = lexeme.span.start.offset + 1 ∧
      Eligible source stream lexeme.span.start.offset
  /-- No blanks hide a newline at which a statement may end. -/
  blank : ∀ lexeme ∈ stream, lexeme.token = .space → ∀ offset, lexeme.Covers offset →
    ¬ Eligible source stream offset
  /-- Between two lexemes with nothing but blanks, comments and newlines between them there is at most
  one semicolon, and there is one if a statement may end at a newline that is in no comment. -/
  between : ∀ {before inner after : List Lexeme} {left right : Lexeme},
    stream = before ++ left :: (inner ++ right :: after) →
    left.isSignificant = true → left.isNewline = false →
    right.isSignificant = true → right.isNewline = false →
    (∀ lexeme ∈ inner, lexeme.isSignificant = true → lexeme.isNewline = true) →
    inner.countP isNewline ≤ 1 ∧
      (inner.countP isNewline = 1 ↔
        ∃ offset, left.span.stop.offset ≤ offset ∧ offset < right.span.start.offset ∧
          Eligible source stream offset ∧
          ∀ lexeme ∈ stream, lexeme.token = .comment → ¬ lexeme.Covers offset)

/-- What the laws of newlines follow from: lexemes stand one after the other, and each is recognized with
newlines ending statements if they may after the lexemes before it. -/
structure Recognizes (source : List UInt8) (stream : List Lexeme) : Prop where
  /-- Each lexeme stops before the next one starts. -/
  pairwise : stream.Pairwise fun left right => left.span.stop.offset ≤ right.span.start.offset
  /-- No lexeme stops before it starts. -/
  start_le_stop : ∀ lexeme ∈ stream, lexeme.span.start.offset ≤ lexeme.span.stop.offset
  /-- Each lexeme is recognized where it starts. -/
  recognized : ∀ {before after : List Lexeme} {lexeme : Lexeme}, stream = before ++ lexeme :: after →
    lexeme.token ≠ .eof →
    ∃ first rest, RecognizedAt source (ScanState.afterAll {} before).newlineEnds lexeme first rest

theorem recognizes_scanFrom {bound : Nat} (holds : position.Holds source runes)
    (enough : runes.length < bound) : Recognizes source (scanFrom bound {} position runes) where
  pairwise := (tiles_scanFrom {} holds enough).pairwise.2
  start_le_stop _ member := (tiles_scanFrom {} holds enough).start_le_stop member
  recognized split more := exists_recognizedAt holds split more

namespace Recognizes

variable {before after inner : List Lexeme} {left right : Lexeme}

theorem newline (recognizes : Recognizes source stream) (split : stream = before ++ lexeme :: after)
    (isNewline : lexeme.isNewline = true) :
    EndsLine before ∧ lexeme.Covers lexeme.span.start.offset ∧
      source[lexeme.span.start.offset]? = some newlineByte ∧
      lexeme.span.stop.offset = lexeme.span.start.offset + 1 := by
  have more : lexeme.token ≠ .eof := by
    intro isEnd
    simp [Lexeme.isNewline, isEnd] at isNewline
  obtain ⟨first, rest, recognized⟩ := recognizes.recognized split more
  obtain ⟨ends, byte, stop⟩ := recognized.of_isNewline isNewline
  exact ⟨(newlineEnds_afterAll before).mp ends, ⟨Nat.le_refl _, by omega⟩, byte, stop⟩

theorem not_eligible_of_space (recognizes : Recognizes source stream) (member : lexeme ∈ stream)
    (space : lexeme.token = .space) {offset : Nat} (covers : lexeme.Covers offset) :
    ¬ Eligible source stream offset := by
  rintro ⟨byte, before, other, after, split, covers', ends⟩
  obtain ⟨before', after', split'⟩ := List.append_of_mem member
  obtain ⟨rfl, rfl, rfl⟩ := eq_of_covers recognizes.pairwise split' split covers covers'
  obtain ⟨first, rest, recognized⟩ := recognizes.recognized split (space ▸ nofun)
  rw [(newlineEnds_afterAll before').mpr ends] at recognized
  exact recognized.getElem?_ne_newlineByte space covers byte

/-- There is at most one semicolon where nothing else stands. -/
theorem countP_le (recognizes : Recognizes source stream)
    (split : stream = before ++ left :: (inner ++ after))
    (newlines : ∀ lexeme ∈ inner, lexeme.isSignificant = true → lexeme.isNewline = true) :
    inner.countP isNewline ≤ 1 := by
  induction inner using List.reverseRecOn generalizing after with
  | nil => exact Nat.zero_le _
  | append_singleton inner last inductionHypothesis =>
      have fewer : ∀ lexeme ∈ inner, lexeme.isSignificant = true → lexeme.isNewline = true :=
        fun lexeme member => newlines lexeme (List.mem_append_left _ member)
      rw [List.append_assoc] at split
      have few := inductionHypothesis split fewer
      rw [List.countP_append, List.countP_singleton]
      cases isNewline : last.isNewline with
      | false => simpa using few
      | true =>
          have split' : stream = (before ++ left :: inner) ++ last :: after := split.trans (by simp)
          have ends := (recognizes.newline split' isNewline).1
          have none : inner.countP Lexeme.isNewline = 0 := by
            rw [List.countP_eq_zero]
            intro newline member isNewline
            have ends' : EndsLine ((before ++ [left]) ++ inner) := by simpa using ends
            exact not_endsLine_of_newline fewer member isNewline ends'
          simp [none]

/-- The lexeme at an offset between two lexemes is one of those between them. -/
theorem mem_of_covers (recognizes : Recognizes source stream)
    (split : stream = before ++ left :: (inner ++ right :: after)) (member : lexeme ∈ stream)
    {offset : Nat} (covers : lexeme.Covers offset) (low : left.span.stop.offset ≤ offset)
    (high : offset < right.span.start.offset) : lexeme ∈ inner := by
  have pairwise := recognizes.pairwise
  have leftWide := recognizes.start_le_stop left (by simp [split])
  have rightWide := recognizes.start_le_stop right (by simp [split])
  obtain ⟨start, stop⟩ := covers
  rw [split] at pairwise member
  obtain ⟨-, later, earlier⟩ := List.pairwise_append.mp pairwise
  have afterRight := (List.pairwise_append.mp (List.pairwise_cons.mp later).2).2.1
  rcases List.mem_append.mp member with before | member
  · have apart := earlier lexeme before left List.mem_cons_self
    omega
  rcases List.mem_cons.mp member with rfl | member
  · omega
  rcases List.mem_append.mp member with inner | member
  · exact inner
  rcases List.mem_cons.mp member with rfl | after
  · omega
  · have apart := (List.pairwise_cons.mp afterRight).1 lexeme after
    omega

/-- There is a semicolon where nothing else stands if a statement may end there. -/
theorem countP_pos_iff (recognizes : Recognizes source stream)
    (split : stream = before ++ left :: (inner ++ right :: after))
    (newlines : ∀ lexeme ∈ inner, lexeme.isSignificant = true → lexeme.isNewline = true) :
    0 < inner.countP isNewline ↔
      ∃ offset, left.span.stop.offset ≤ offset ∧ offset < right.span.start.offset ∧
        Eligible source stream offset ∧
        ∀ lexeme ∈ stream, lexeme.token = .comment → ¬ lexeme.Covers offset := by
  rw [List.countP_pos_iff]
  constructor
  · rintro ⟨newline, member, isNewline⟩
    obtain ⟨front, back, rfl⟩ := List.append_of_mem member
    have split' : stream = (before ++ left :: front) ++ newline :: (back ++ right :: after) :=
      split.trans (by simp)
    obtain ⟨ends, covers, byte, stop⟩ := recognizes.newline split' isNewline
    obtain ⟨-, later, earlier⟩ := List.pairwise_append.mp (split' ▸ recognizes.pairwise)
    have low := earlier left (by simp) newline List.mem_cons_self
    have high := (List.pairwise_cons.mp later).1 right (by simp)
    refine ⟨_, low, by omega, ⟨byte, _, _, _, split', covers, ends⟩, ?_⟩
    intro comment isThere token covers'
    obtain ⟨before', after', split''⟩ := List.append_of_mem isThere
    obtain ⟨-, rfl, -⟩ := eq_of_covers recognizes.pairwise split' split'' covers covers'
    simp [Lexeme.isNewline, token] at isNewline
  · rintro ⟨offset, low, high, eligible, noComment⟩
    obtain ⟨-, before', lexeme, after', split', covers, -⟩ := id eligible
    have isThere : lexeme ∈ stream := by simp [split']
    have member := recognizes.mem_of_covers split isThere covers low high
    refine ⟨lexeme, member, newlines lexeme member ?_⟩
    have noSpace : lexeme.token ≠ .space := fun space =>
      recognizes.not_eligible_of_space isThere space covers eligible
    have noComment : lexeme.token ≠ .comment := fun comment => noComment lexeme isThere comment covers
    simp [isSignificant, Token.isSignificant, noSpace, noComment]

theorem semicolonsEndLines (recognizes : Recognizes source stream) :
    SemicolonsEndLines source stream where
  newline lexeme member isNewline := by
    obtain ⟨before, after, split⟩ := List.append_of_mem member
    obtain ⟨ends, covers, byte, stop⟩ := recognizes.newline split isNewline
    exact ⟨stop, byte, before, lexeme, after, split, covers, ends⟩
  blank _ member space _ covers := recognizes.not_eligible_of_space member space covers
  between split _ _ _ _ newlines := by
    have most := recognizes.countP_le split newlines
    refine ⟨most, Iff.trans ?_ (recognizes.countP_pos_iff split newlines)⟩
    omega

end Recognizes

/-- Newlines become semicolons where statements may end, in every stream of every source. -/
theorem scanned_semicolons_end_lines {file : String} (isStream : StreamOf (scan file source) stream) :
    SemicolonsEndLines source stream := by
  obtain ⟨bound, position, runes, holds, enough, rfl⟩ := isStream.exists_scanFrom
  exact (recognizes_scanFrom holds enough).semicolonsEndLines

/-- Newlines end statements in a replacement too, also where the template is an argument. -/
theorem semicolon_in_replacement :
    ∃ stream, StreamOf (scan "" "f(\x60$\x7ba\nb\x7d\x60)".toUTF8.toList) stream ∧
      stream.countP isNewline = 1 ∧
      SemicolonsEndLines "f(\x60$\x7ba\nb\x7d\x60)".toUTF8.toList stream := by
  have found : ∃ lexeme ∈ scan "" "f(\x60$\x7ba\nb\x7d\x60)".toUTF8.toList,
      ∃ stream ∈ lexeme.subs, stream.countP isNewline = 1 := by
    decide +kernel
  obtain ⟨lexeme, member, stream, isSub, one⟩ := found
  have isStream := StreamOf.inside .whole member isSub
  exact ⟨stream, isStream, one, scanned_semicolons_end_lines isStream⟩

end Lexeme

end Reckon
