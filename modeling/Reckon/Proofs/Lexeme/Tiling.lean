import Reckon.Proofs.Lexeme.Layout
import Reckon.Proofs.Text.Spelling

/-!
# Lexemes tile their source

The lexemes of a source lie side by side: each ends at the place where the next one starts, with the same
line and column, every lexeme but the last has a width, and the last is the end of the source. The
streams of a template tile the texts between its braces in the same way.

The bytes of a source need not be UTF-8. What carries the law down into a template is that a brace among
the runes is a brace among the bytes, so the law is about the bytes.

A source has the lexemes that it was scanned into and, within a template, those of its replacements.
All of them but the ends of sources have a width, and stop before the source does.
-/

namespace Reckon

open Text (Rune)

/-! ## The law -/

namespace Lexeme

mutual

/-- Lexemes tile the bytes from a position up to an offset. -/
inductive Tiles (source : List UInt8) : Position → List Lexeme → Nat → Prop
  | last {position : Position} {lexeme : Lexeme} :
      lexeme.token = .eof → lexeme.span = .point position →
      Tiles source position [lexeme] position.offset
  | cons {position : Position} {lexeme : Lexeme} {rest : List Lexeme} {high : Nat} :
      lexeme.token ≠ .eof → lexeme.span.start = position →
      lexeme.span.start.offset < lexeme.span.stop.offset →
      (lexeme.token = .template → lexeme.parts.length = lexeme.subs.length + 1) →
      TilesBraces source (lexeme.span.start.offset + 1) lexeme.subs lexeme.span.stop.offset →
      Tiles source lexeme.span.stop rest high → Tiles source position (lexeme :: rest) high

/-- Streams of lexemes tile texts in braces that stand one after the other between two offsets. -/
inductive TilesBraces (source : List UInt8) : Nat → List (List Lexeme) → Nat → Prop
  | nil {low high : Nat} : low ≤ high → TilesBraces source low [] high
  | cons {low high : Nat} {lexemes : List Lexeme} {rest : List (List Lexeme)} {start : Position}
      {before body after : List UInt8} :
      source = before ++ '$'.toUInt8 :: '\x7b'.toUInt8 :: (body ++ '\x7d'.toUInt8 :: after) →
      low ≤ before.length → start.offset = before.length + 2 →
      Tiles source start lexemes (start.offset + body.length) →
      TilesBraces source (start.offset + body.length + 1) rest high →
      TilesBraces source low (lexemes :: rest) high

end

theorem TilesBraces.of_le {source : List UInt8} {lower low high : Nat} {streams : List (List Lexeme)}
    (tiles : TilesBraces source low streams high) (le : lower ≤ low) :
    TilesBraces source lower streams high := by
  cases tiles with
  | nil within => exact .nil (Nat.le_trans le within)
  | cons split before start first rest =>
      exact .cons split (Nat.le_trans le before) start first rest

end Lexeme

/-! ## Bytes and runes -/

namespace Text.Rune

theorem source_append (left right : List Rune) :
    source (left ++ right) = source left ++ source right :=
  List.flatMap_append

theorem source_cons (first : Rune) (rest : List Rune) :
    source (first :: rest) = first.bytes ++ source rest :=
  List.flatMap_cons

theorem length_source (runes : List Rune) : (source runes).length = widthAll runes := by
  induction runes with
  | nil => rfl
  | cons first rest inductionHypothesis =>
      rw [source_cons, List.length_append, inductionHypothesis]
      rfl

/-- A character below 128 is one byte. -/
theorem IsSpelled.bytes_eq {rune : Rune} {c : Char} (spelled : rune.IsSpelled) (same : rune.char = c)
    (small : c.toNat < 128) : rune.bytes = [c.toUInt8] := by
  subst same
  exact spelled.ascii small

end Text.Rune

open Text.Rune

/-- The source has the bytes of some runes at a position. -/
structure Position.Holds (source : List UInt8) (position : Position) (runes : List Rune) : Prop where
  /-- The bytes of the runes follow as many bytes as the offset says. -/
  split : ∃ before after, source = before ++ (Rune.source runes ++ after) ∧
    before.length = position.offset
  /-- The runes are spelled by their bytes. -/
  spelled : ∀ rune ∈ runes, rune.IsSpelled

namespace Position.Holds

variable {source : List UInt8} {position : Position} {runes : List Rune}

theorem before {left right : List Rune} (holds : Holds source position (left ++ right)) :
    Holds source position left := by
  obtain ⟨before, after, split, length⟩ := holds.split
  refine ⟨⟨before, Rune.source right ++ after, ?_, length⟩, fun rune member =>
    holds.spelled rune (List.mem_append_left _ member)⟩
  rw [split, source_append, List.append_assoc]

theorem after {left right : List Rune} {stop : Position} (holds : Holds source position (left ++ right))
    (offset : stop.offset = position.offset + widthAll left) : Holds source stop right := by
  obtain ⟨before, after, split, length⟩ := holds.split
  refine ⟨⟨before ++ Rune.source left, after, ?_, ?_⟩, fun rune member =>
    holds.spelled rune (List.mem_append_right _ member)⟩
  · rw [split, source_append, List.append_assoc, List.append_assoc]
  · rw [List.length_append, length, length_source, offset]

/-- A whole source stands at its first position. -/
theorem decode (file : String) (source : List UInt8) :
    Holds source (.first file) (Rune.decode source) := by
  refine ⟨⟨[], [], ?_, rfl⟩, isSpelled_of_mem_decode source⟩
  rw [source_decode, List.nil_append, List.append_nil]

theorem widthAll_take_pos {count : Nat} {first : Rune} {rest : List Rune}
    (holds : Holds source position (first :: rest)) (positive : 0 < count) :
    0 < widthAll ((first :: rest).take count) := by
  obtain ⟨more, rfl⟩ := Nat.exists_eq_add_one_of_ne_zero (Nat.ne_of_gt positive)
  have wide := (holds.spelled first List.mem_cons_self).width_pos
  rw [List.take_succ_cons, widthAll]
  exact Nat.add_pos_left wide _

end Position.Holds

/-! ## Replacements -/

/-- A replacement of some runes and the places around it in their source. -/
structure Replacement.Encloses (source : List UInt8) (position : Position) (runes : List Rune)
    (replacement : Replacement) (before after : List UInt8) : Prop where
  /-- The braces stand around the text. -/
  split : source = before ++ '$'.toUInt8 :: '\x7b'.toUInt8 ::
    (Rune.source replacement.body ++ '\x7d'.toUInt8 :: after)
  /-- The dollar sign stands two runes before the text. -/
  before_eq : before.length = position.offset + widthAll (runes.take (replacement.start - 2))
  /-- The text stands after the opening brace. -/
  start_eq : position.offset + widthAll (runes.take replacement.start) = before.length + 2
  /-- The closing brace stands after the text. -/
  stop_eq : position.offset +
      widthAll (runes.take (replacement.start + replacement.body.length + 1)) =
    before.length + 2 + widthAll replacement.body + 1
  /-- The source has the text there. -/
  body : (position.advanceAll (runes.take replacement.start)).Holds source replacement.body

/-- Braces among the runes are braces among the bytes. -/
theorem Position.Holds.exists_encloses {source : List UInt8} {position : Position} {runes : List Rune}
    {replacement : Replacement} (holds : position.Holds source runes)
    (braced : replacement.IsBraced runes) :
    ∃ before after, replacement.Encloses source position runes before after := by
  obtain ⟨left, dollar, opening, closing, right, split, start, isDollar, opens, closes⟩ := braced
  have dollarBytes : dollar.bytes = ['$'.toUInt8] :=
    (holds.spelled dollar (by simp [split])).bytes_eq isDollar (by decide)
  have openingBytes : opening.bytes = ['\x7b'.toUInt8] :=
    (holds.spelled opening (by simp [split])).bytes_eq opens (by decide)
  have closingBytes : closing.bytes = ['\x7d'.toUInt8] :=
    (holds.spelled closing (by simp [split])).bytes_eq closes (by decide)
  have parts : runes = left ++ ([dollar, opening] ++ (replacement.body ++ ([closing] ++ right))) :=
    split
  have atDollar : runes.take (replacement.start - 2) = left := by
    rw [parts, start, Nat.add_sub_cancel, List.take_left]
  have atText : runes.take replacement.start = left ++ [dollar, opening] := by
    rw [parts, ← List.append_assoc]
    exact List.take_left' (by rw [start, List.length_append]; rfl)
  have atEnd : runes.take (replacement.start + replacement.body.length + 1) =
      left ++ [dollar, opening] ++ replacement.body ++ [closing] := by
    rw [parts, ← List.append_assoc, ← List.append_assoc, ← List.append_assoc]
    refine List.take_left' ?_
    simp only [List.length_append, start]
    rfl
  have marks : widthAll [dollar, opening] = 2 := by
    simp [widthAll, width, dollarBytes, openingBytes]
  have mark : widthAll [closing] = 1 := by
    simp [widthAll, width, closingBytes]
  obtain ⟨before, after, whole, length⟩ := holds.split
  refine ⟨before ++ Rune.source left, Rune.source right ++ after, ?_, ?_, ?_, ?_, ?_⟩
  · rw [whole, split]
    simp [source_append, source_cons, dollarBytes, openingBytes, closingBytes]
  · rw [List.length_append, length, length_source, atDollar]
  · rw [List.length_append, length, length_source, atText, widthAll_append, marks]
    omega
  · rw [List.length_append, length, length_source, atEnd, widthAll_append, widthAll_append,
      widthAll_append, marks, mark]
    omega
  · rw [parts, ← List.append_assoc] at holds
    rw [atText]
    exact (holds.after (Position.offset_advanceAll _ _)).before

/-! ## Scanning -/

namespace Lexeme

open Recognized

variable {source : List UInt8} {position : Position} {runes : List Rune}

/-- The streams of the replacements tile the texts in braces. -/
theorem tilesBraces_of_braced {low high : Nat} {replacements : List Replacement}
    {scanned : Position → List Rune → List Lexeme} (holds : position.Holds source runes)
    (tiles : ∀ position body, position.Holds source body → body.length < runes.length →
      Tiles source position (scanned position body) (position.offset + widthAll body))
    (braced : Braced runes low replacements high) :
    TilesBraces source (position.offset + widthAll (runes.take low))
      (replacements.map fun replacement =>
        scanned (position.advanceAll (runes.take replacement.start)) replacement.body)
      (position.offset + widthAll (runes.take high)) := by
  induction replacements generalizing low with
  | nil => exact .nil (Nat.add_le_add_left (widthAll_take_le _ braced) _)
  | cons first rest inductionHypothesis =>
      obtain ⟨starts, own, others⟩ := braced
      obtain ⟨before, after, encloses⟩ := holds.exists_encloses own
      have shorter := Replacement.IsBraced.length_body_lt own
      have start := Position.offset_advanceAll position (runes.take first.start)
      have inside := tiles _ first.body encloses.body shorter
      have following := inductionHypothesis others
      rw [← length_source] at inside
      rw [encloses.stop_eq, ← encloses.start_eq, ← start, ← length_source] at following
      refine .cons encloses.split ?_ (start.trans encloses.start_eq) inside following
      rw [encloses.before_eq]
      exact Nat.add_le_add_left (widthAll_take_le _ (Nat.le_sub_of_add_le starts)) _

/-- The scanner tiles its input. -/
theorem tiles_scanFrom {bound : Nat} (state : ScanState) (holds : position.Holds source runes)
    (enough : runes.length < bound) :
    Tiles source position (scanFrom bound state position runes) (position.offset + widthAll runes) := by
  induction bound generalizing state position runes with
  | zero => exact absurd enough (Nat.not_lt_zero _)
  | succ bound inductionHypothesis =>
      cases runes with
      | nil => exact .last rfl rfl
      | cons first rest =>
          let found := next state.newlineEnds first rest
          let stop := (position.advanceAll ((first :: rest).take found.length)).overrun found.overrun
          have read : IsReadFrom (first :: rest) found := isReadFrom_next state.newlineEnds first rest
          have stopOffset : stop.offset =
              position.offset + widthAll ((first :: rest).take found.length) :=
            Position.offset_advanceAll position _
          have parts := List.take_append_drop found.length (first :: rest)
          have fewer : ((first :: rest).drop found.length).length < bound := by
            have positive := read.length_pos
            simp only [List.length_drop, List.length_cons] at enough ⊢
            omega
          have inside := tilesBraces_of_braced holds
            (fun position body held shorter => inductionHypothesis {} held (by omega)) read.braced
          have others := inductionHypothesis (state.after found.token)
            ((parts.symm ▸ holds).after stopOffset) fewer
          have whole : stop.offset + widthAll ((first :: rest).drop found.length) =
              position.offset + widthAll (first :: rest) := by
            rw [stopOffset, Nat.add_assoc, ← widthAll_append, parts]
          rw [whole] at others
          refine .cons read.token_ne_eof rfl ?_ ?_ ?_ others
          · change position.offset < stop.offset
            rw [stopOffset]
            exact Nat.lt_add_of_pos_right (holds.widthAll_take_pos read.length_pos)
          · intro isTemplate
            change _ = (List.map _ _).length + 1
            rw [List.length_map]
            exact read.length_parts isTemplate
          · change TilesBraces source (position.offset + 1) _ stop.offset
            rw [stopOffset]
            exact inside.of_le (Nat.add_le_add_left (holds.widthAll_take_pos Nat.one_pos) _)

/-- The lexemes of any bytes tile them, whatever the scanner does with newlines. -/
theorem scanned_lexemes_tile (automaticSemicolons : Bool) (file : String) (source : List UInt8) :
    Tiles source (.first file) (scanWith { automaticSemicolons } file source) source.length := by
  have whole := tiles_scanFrom { automaticSemicolons } (Position.Holds.decode file source)
    (Nat.lt_succ_self _)
  rw [← length_source, source_decode] at whole
  simpa [scanWith, Position.first] using whole

end Lexeme

/-! ## Lexemes within a source -/

namespace Lexeme

/-- A lexeme is one of a list, or one of a replacement in a template that is. -/
inductive Occurs (lexeme : Lexeme) : List Lexeme → Prop
  | here {lexemes : List Lexeme} : lexeme ∈ lexemes → Occurs lexeme lexemes
  | inside {lexemes stream : List Lexeme} {outer : Lexeme} : outer ∈ lexemes →
      outer.token = .template → stream ∈ outer.subs → Occurs lexeme stream → Occurs lexeme lexemes

/-- What a replacement is made of occurs where its template does. -/
theorem Occurs.sub {lexemes stream : List Lexeme} {outer lexeme : Lexeme}
    (occurs : outer.Occurs lexemes) (isTemplate : outer.token = .template)
    (isSub : stream ∈ outer.subs) (member : lexeme ∈ stream) : lexeme.Occurs lexemes := by
  induction occurs with
  | here isOuter => exact .inside isOuter isTemplate isSub (.here member)
  | inside isOuter hasSubs isStream _ inductionHypothesis =>
      exact .inside isOuter hasSubs isStream inductionHypothesis

variable {source : List UInt8} {position : Position} {low high : Nat} {lexemes : List Lexeme}

theorem TilesBraces.le {streams : List (List Lexeme)} (tiles : TilesBraces source low streams high) :
    low ≤ high := by
  induction streams generalizing low with
  | nil =>
      cases tiles with
      | nil le => exact le
  | cons stream rest inductionHypothesis =>
      cases tiles with
      | cons _ before start _ others =>
          have after := inductionHypothesis others
          omega

/-- The text of a replacement is tiled, and stands before the end of its template. -/
theorem TilesBraces.stream {streams : List (List Lexeme)} (tiles : TilesBraces source low streams high)
    {stream : List Lexeme} (member : stream ∈ streams) :
    ∃ start stop, Tiles source start stream stop ∧ stop ≤ high := by
  induction streams generalizing low with
  | nil => cases member
  | cons first rest inductionHypothesis =>
      cases tiles with
      | cons _ _ _ own others =>
          rcases List.mem_cons.mp member with rfl | later
          · exact ⟨_, _, own, Nat.le_trans (Nat.le_succ _) others.le⟩
          · exact inductionHypothesis others later

theorem Tiles.le (tiles : Tiles source position lexemes high) : position.offset ≤ high := by
  induction lexemes generalizing position with
  | nil => cases tiles
  | cons first rest inductionHypothesis =>
      cases tiles with
      | last _ _ => exact Nat.le_refl _
      | cons _ start wide _ _ others =>
          have after := inductionHypothesis others
          rw [← start]
          omega

theorem Tiles.member (tiles : Tiles source position lexemes high) {lexeme : Lexeme}
    (member : lexeme ∈ lexemes) (more : lexeme.token ≠ .eof) :
    lexeme.span.start.offset < lexeme.span.stop.offset ∧ lexeme.span.stop.offset ≤ high ∧
      TilesBraces source (lexeme.span.start.offset + 1) lexeme.subs lexeme.span.stop.offset := by
  induction lexemes generalizing position with
  | nil => cases member
  | cons first rest inductionHypothesis =>
      cases tiles with
      | last isEnd _ =>
          rw [List.mem_singleton.mp member] at more
          exact absurd isEnd more
      | cons _ _ wide _ inside others =>
          rcases List.mem_cons.mp member with rfl | later
          · exact ⟨wide, others.le, inside⟩
          · exact inductionHypothesis others later

/-- Lexemes of a text and of its templates have a width, and stop before the text does. -/
theorem Tiles.occurs (tiles : Tiles source position lexemes high) {lexeme : Lexeme}
    (occurs : lexeme.Occurs lexemes) (more : lexeme.token ≠ .eof) :
    lexeme.span.start.offset < lexeme.span.stop.offset ∧ lexeme.span.stop.offset ≤ high := by
  induction occurs generalizing position high with
  | here member =>
      obtain ⟨wide, within, _⟩ := tiles.member member more
      exact ⟨wide, within⟩
  | inside member isTemplate isSub _ inductionHypothesis =>
      obtain ⟨_, within, inside⟩ := tiles.member member (isTemplate ▸ nofun)
      obtain ⟨start, stop, own, before⟩ := inside.stream isSub
      obtain ⟨wide, below⟩ := inductionHypothesis own
      exact ⟨wide, Nat.le_trans below (Nat.le_trans before within)⟩

theorem bounds_of_occurs_scan {file : String} {lexeme : Lexeme} (occurs : lexeme.Occurs (scan file source))
    (more : lexeme.token ≠ .eof) :
    lexeme.span.start.offset < lexeme.span.stop.offset ∧ lexeme.span.stop.offset ≤ source.length := by
  have tiles := tiles_scanFrom {} (Position.Holds.decode file source) (Nat.lt_succ_self _)
  obtain ⟨wide, within⟩ := tiles.occurs occurs more
  rw [← Text.Rune.length_source, Text.Rune.source_decode] at within
  exact ⟨wide, Nat.le_trans within (Nat.le_of_eq (Nat.zero_add _))⟩

end Lexeme

end Reckon
