import Reckon.Proofs.Lexeme.Verbatim

/-!
# What lexemes say

Wherever a lexeme appears, in a source or in a replacement of one of its templates, it stands for the
bytes between its ends.  A lexeme that says what is written says what these bytes read as, and they are
scanned as this lexeme alone.  In a source that is UTF-8 it says the very bytes.
-/

namespace Reckon

open Text (Rune)
open Text.Rune

/-- The bytes of a source within a span. -/
def Span.bytes (span : Span) (source : List UInt8) : List UInt8 :=
  (source.drop span.start.offset).take (span.stop.offset - span.start.offset)

/-- The bytes encode a text. -/
def Text.IsUtf8 (bytes : List UInt8) : Prop :=
  ∃ text : String, text.toUTF8.toList = bytes

/-! ## The bytes of a text -/

namespace Text.Rune

/-- The runes of a text that is UTF-8 are spelled by their characters. -/
theorem eq_ofChar_of_isUtf8 {source : List UInt8} (valid : IsUtf8 source) {rune : Rune}
    (member : rune ∈ decode source) : rune = ofChar rune.char := by
  obtain ⟨text, rfl⟩ := valid
  rw [decode_text] at member
  obtain ⟨c, -, rfl⟩ := List.mem_map.mp member
  rfl

/-- Runes that are spelled by their characters have the bytes of what they read as. -/
theorem toUTF8_text {runes : List Rune} (spelled : ∀ rune ∈ runes, rune = ofChar rune.char) :
    (text runes).toUTF8.toList = source runes := by
  rw [text, toList_toUTF8_ofList, encode, source, List.flatMap_map]
  exact List.flatMap_congr fun rune member => (congrArg bytes (spelled rune member)).symm

end Text.Rune

namespace Lexeme

open Recognized
open Text (IsUtf8)

/-! ## Where lexemes appear -/

/-- A lexeme is one of a list, or appears in a replacement of one of the list. -/
inductive Appears (lexeme : Lexeme) : List Lexeme → Prop
  | here {lexemes : List Lexeme} : lexeme ∈ lexemes → Appears lexeme lexemes
  | inside {lexemes stream : List Lexeme} {outer : Lexeme} : outer ∈ lexemes → stream ∈ outer.subs →
      Appears lexeme stream → Appears lexeme lexemes

variable {state : ScanState} {source : List UInt8} {position : Position} {runes : List Rune}
  {lexeme : Lexeme}

/-- The lexeme is the first one of some runes of the source. -/
structure Fronts (source : List UInt8) (runes : List Rune) (lexeme : Lexeme) (newlineEnds : Bool)
    (place : Position) (first : Rune) (rest : List Rune) : Prop where
  /-- It is what is recognized there. -/
  eq : lexeme = lexemeAt newlineEnds place first rest
  /-- The runes stand in the source. -/
  holds : place.Holds source (first :: rest)
  /-- The runes stand side by side among those that are scanned. -/
  inside : first :: rest <:+: runes

theorem Fronts.of_infix {part : List Rune} {newlineEnds : Bool} {place : Position} {first : Rune}
    {rest : List Rune} (fronts : Fronts source part lexeme newlineEnds place first rest)
    (within : part <:+: runes) : Fronts source runes lexeme newlineEnds place first rest :=
  { fronts with inside := fronts.inside.trans within }

theorem fronts_of_mem (holds : position.Holds source runes)
    (member : lexeme ∈ scanned state position runes) :
    (∃ place, lexeme = endOfSource place) ∨
      ∃ newlineEnds place first rest, Fronts source runes lexeme newlineEnds place first rest := by
  induction runes using scanned_induction generalizing state position with
  | nil => exact .inl ⟨position, List.mem_singleton.mp member⟩
  | cons first rest inductionHypothesis =>
      rw [scanned_cons] at member
      rcases List.mem_cons.mp member with here | later
      · exact .inr ⟨_, position, first, rest, here, holds, List.infix_rfl⟩
      · have parts := List.take_append_drop (next state.newlineEnds first rest).length (first :: rest)
        have behind : (stopAt state.newlineEnds position first rest).Holds source _ :=
          (parts.symm ▸ holds).after (Position.offset_advanceAll position _)
        refine (inductionHypothesis _ behind later).imp_right ?_
        rintro ⟨newlineEnds, place, front, tail, fronts⟩
        exact ⟨newlineEnds, place, front, tail, fronts.of_infix (List.drop_suffix _ _).isInfix⟩

theorem fronts_of_appears (holds : position.Holds source runes)
    (appears : lexeme.Appears (scanned state position runes)) :
    (∃ place, lexeme = endOfSource place) ∨
      ∃ newlineEnds place first rest, Fronts source runes lexeme newlineEnds place first rest := by
  generalize same : scanned state position runes = lexemes at appears
  induction appears generalizing state position runes with
  | here member => exact fronts_of_mem holds (same ▸ member)
  | inside isOuter isStream _ inductionHypothesis =>
      rcases fronts_of_mem holds (same ▸ isOuter) with
        ⟨place, rfl⟩ | ⟨newlineEnds, place, first, rest, fronts⟩
      · cases isStream
      · obtain ⟨rfl, held, within⟩ := fronts
        obtain ⟨replacement, chosen, rfl⟩ := List.mem_map.mp isStream
        have braced := (isReadFrom_next newlineEnds first rest).braced.isBraced_of_mem chosen
        obtain ⟨_, _, encloses⟩ := held.exists_encloses braced
        have part : replacement.body <:+: first :: rest := by
          rw [braced.body_eq]
          exact (List.take_prefix _ _).isInfix.trans (List.drop_suffix _ _).isInfix
        refine (inductionHypothesis encloses.body rfl).imp_right ?_
        rintro ⟨newlineEnds, place, front, tail, inner⟩
        exact ⟨newlineEnds, place, front, tail, inner.of_infix (part.trans within)⟩

/-! ## Bytes of lexemes -/

variable {newlineEnds : Bool} {place : Position} {first : Rune} {rest : List Rune}

/-- A lexeme was read from the bytes between its ends. -/
theorem Fronts.raw_eq (fronts : Fronts source runes lexeme newlineEnds place first rest) :
    lexeme.raw = lexeme.span.bytes source := by
  obtain ⟨rfl, holds, -⟩ := fronts
  let count := (next newlineEnds first rest).length
  obtain ⟨before, after, split, length⟩ := holds.split
  have parts : Rune.source (first :: rest) =
      Rune.source ((first :: rest).take count) ++ Rune.source ((first :: rest).drop count) := by
    rw [← source_append, List.take_append_drop]
  have stop : (stopAt newlineEnds place first rest).offset =
      place.offset + widthAll ((first :: rest).take count) := Position.offset_advanceAll place _
  change Rune.source ((first :: rest).take count) = (source.drop place.offset).take
    ((stopAt newlineEnds place first rest).offset - place.offset)
  rw [stop, Nat.add_sub_cancel_left, ← length, split, List.drop_left, parts, List.append_assoc,
    ← length_source, List.take_left]

/-- The runes of a lexeme are its bytes. -/
theorem Fronts.decode_raw (fronts : Fronts source (decode source) lexeme newlineEnds place first rest) :
    decode lexeme.raw = (first :: rest).take (next newlineEnds first rest).length := by
  obtain ⟨rfl, -, inside⟩ := fronts
  exact decode_source_of_infix ((List.take_prefix _ _).isInfix.trans inside)

/-- The bytes of a lexeme that says what is written are recognized as this lexeme. -/
theorem Fronts.exists_echoes (fronts : Fronts source (decode source) lexeme newlineEnds place first rest)
    (verbatim : lexeme.token.isVerbatim = true) (noNewline : lexeme.isNewline = false) :
    ∃ tail, decode lexeme.raw = first :: tail ∧
      Echoes (next newlineEnds first rest) first tail := by
  have covered := fronts.decode_raw
  obtain ⟨less, length⟩ :=
    Nat.exists_eq_add_one_of_ne_zero (Nat.ne_of_gt (isReadFrom_next newlineEnds first rest).length_pos)
  obtain rfl := fronts.eq
  refine ⟨rest.take less, by rw [covered, length, List.take_succ_cons], ?_⟩
  refine (branch_next newlineEnds first rest).echoes verbatim (fun token lit => ?_)
    (by rw [length, List.take_succ_cons])
  have newline : (lexemeAt newlineEnds place first rest).isNewline = true := by
    simp [isNewline, lexemeAt, token, lit]
  exact absurd newline (by simp [noNewline])

theorem Fronts.lit_eq (fronts : Fronts source (decode source) lexeme newlineEnds place first rest)
    (verbatim : lexeme.token.isVerbatim = true) (noNewline : lexeme.isNewline = false) :
    lexeme.lit = Rune.text (decode lexeme.raw) := by
  obtain ⟨tail, covered, echoes⟩ := fronts.exists_echoes verbatim noNewline
  rw [covered, ← echoes.lit_eq, fronts.eq]
  rfl

/-- The bytes of a lexeme that says what is written are scanned as this lexeme. -/
theorem Fronts.scanWith_raw (fronts : Fronts source (decode source) lexeme newlineEnds place first rest)
    (verbatim : lexeme.token.isVerbatim = true) (noNewline : lexeme.isNewline = false)
    (automaticSemicolons : Bool) (file : String) :
    (scanWith { automaticSemicolons } file lexeme.raw).map (fun alone => (alone.token, alone.payload)) =
      [(lexeme.token, lexeme.payload), (.eof, [])] := by
  obtain ⟨tail, covered, echoes⟩ := fronts.exists_echoes verbatim noNewline
  have found : next false first tail = next newlineEnds first rest := echoes.branch.next_eq
  have continues : ScanState.newlineEnds { automaticSemicolons } = false := by
    simp [ScanState.newlineEnds]
  have length : (first :: tail).length ≤ (next newlineEnds first rest).length := by
    rw [← covered, fronts.decode_raw]
    exact List.length_take_le _ _
  have raw : Rune.source (first :: tail) = lexeme.raw := by rw [← covered, source_decode]
  rw [scanWith_eq_scanned, covered, scanned_cons, continues, found, List.drop_of_length_le length,
    scanned_nil]
  simp only [List.map_cons, List.map_nil, payload, lexemeAt, found, List.take_of_length_le length, raw]
  rw [show (endOfSource _).lit.toUTF8.toList = [] from toList_toUTF8_ofList [], fronts.eq]
  rfl

theorem Fronts.toUTF8_lit (fronts : Fronts source (decode source) lexeme newlineEnds place first rest)
    (verbatim : lexeme.token.isVerbatim = true) (noNewline : lexeme.isNewline = false)
    (valid : IsUtf8 source) : lexeme.lit.toUTF8.toList = lexeme.raw := by
  have spelled : ∀ rune ∈ decode lexeme.raw, rune = ofChar rune.char := by
    intro rune member
    rw [fronts.decode_raw] at member
    exact eq_ofChar_of_isUtf8 valid (fronts.inside.subset (List.mem_of_mem_take member))
  rw [fronts.lit_eq verbatim noNewline, toUTF8_text spelled, source_decode]

/-- In a source that is UTF-8 a lexeme that says what is written says the bytes it was read from. -/
theorem Fronts.payload_eq (fronts : Fronts source (decode source) lexeme newlineEnds place first rest)
    (verbatim : lexeme.token.isVerbatim = true) (noNewline : lexeme.isNewline = false)
    (valid : IsUtf8 source) : lexeme.payload = lexeme.raw := by
  rw [payload, fronts.toUTF8_lit verbatim noNewline valid, ite_self]

theorem isUtf8_payload (noComment : lexeme.token ≠ .comment) : IsUtf8 lexeme.payload :=
  ⟨lexeme.lit, by rw [payload, if_neg (by simpa using noComment)]⟩

/-- Lexemes say texts, comments apart.  Those that say what is written say what their bytes read as, in a
source that is UTF-8 the bytes themselves, and their bytes are scanned as nothing but the lexeme. -/
theorem payloads_are_faithful {automaticSemicolons : Bool} {file : String}
    (appears : lexeme.Appears (scanWith { automaticSemicolons } file source)) :
    (lexeme.token ≠ .comment → IsUtf8 lexeme.payload) ∧
      (∀ part ∈ lexeme.parts, IsUtf8 part.toUTF8.toList) ∧
      (lexeme.token.isVerbatim = true → lexeme.isNewline = false →
        (IsUtf8 source → lexeme.payload = lexeme.span.bytes source) ∧
          lexeme.lit = Rune.text (decode (lexeme.span.bytes source)) ∧
          ∀ automaticSemicolons file,
            (scanWith { automaticSemicolons } file (lexeme.span.bytes source)).map
              (fun alone => (alone.token, alone.payload)) =
                [(lexeme.token, lexeme.payload), (.eof, [])]) := by
  refine ⟨isUtf8_payload, fun part _ => ⟨part, rfl⟩, fun verbatim noNewline => ?_⟩
  rcases fronts_of_appears (Position.Holds.decode file source) appears with
    ⟨place, rfl⟩ | ⟨newlineEnds, place, first, rest, fronts⟩
  · cases verbatim
  · rw [← fronts.raw_eq]
    exact ⟨fronts.payload_eq verbatim noNewline, fronts.lit_eq verbatim noNewline,
      fronts.scanWith_raw verbatim noNewline⟩

/-- The name in a replacement says its bytes. -/
theorem replaced_name_is_faithful :
    ∃ source, ∃ lexeme : Lexeme, lexeme.Appears (scan "" source) ∧ lexeme.token = .name ∧ IsUtf8 source ∧
      lexeme.span = ⟨⟨"", 1, 6, 5⟩, ⟨"", 1, 8, 7⟩⟩ ∧ IsUtf8 lexeme.payload ∧
      lexeme.payload = lexeme.span.bytes source ∧
      (scan "" (lexeme.span.bytes source)).map (fun alone => (alone.token, alone.payload)) =
        [(.name, lexeme.payload), (.eof, [])] := by
  let chars := ['é', backQuote, '$', '\x7b', 'x', '1', '\x7d', backQuote]
  obtain ⟨outer, isOuter, stream, isStream, lexeme, isLexeme, token, noNewline, span⟩ :
      ∃ outer ∈ scan "" (encode chars), ∃ stream ∈ outer.subs, ∃ lexeme ∈ stream,
        lexeme.token = .name ∧ lexeme.isNewline = false ∧
          lexeme.span = ⟨⟨"", 1, 6, 5⟩, ⟨"", 1, 8, 7⟩⟩ := by
    decide +kernel
  have appears : lexeme.Appears (scan "" (encode chars)) := .inside isOuter isStream (.here isLexeme)
  have valid : IsUtf8 (encode chars) := ⟨String.ofList chars, toList_toUTF8_ofList chars⟩
  obtain ⟨isText, -, echoes⟩ := payloads_are_faithful appears
  obtain ⟨said, -, alone⟩ := echoes (by rw [token]; rfl) noNewline
  exact ⟨encode chars, lexeme, appears, token, valid, span, isText (by rw [token]; nofun), said valid,
    token ▸ alone true ""⟩

end Lexeme

end Reckon
