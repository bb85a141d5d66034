import Reckon.Proofs.Lexeme.Tiling

/-!
# Lines and columns

The line and the column of a place are counted while the source is read. They say what the bytes before
the place say: the number of newlines among them and the number of bytes after the last one. The only
place that is counted wrong is the end of a source whose last lexeme is a template with a replacement
that is not closed: a reader that looks there for the end of a string counts columns past the end.
-/

namespace Reckon

open Text (Rune)
open Text.Rune

/-! ## The place of an offset -/

/-- The byte of a newline. -/
def newlineByte : UInt8 := '\n'.toUInt8

/-- The place of an offset in the bytes of a source: newlines before it count lines, and bytes after the
last of these count columns. -/
def Position.ofOffset (file : String) (source : List UInt8) (offset : Nat) : Position where
  file
  line := 1 + (source.take offset).count newlineByte
  column := 1 + ((source.take offset).reverse.takeWhile (· != newlineByte)).length
  offset

/-- Only a newline has the byte of a newline. -/
theorem Text.Rune.IsSpelled.newlineByte_not_mem {rune : Rune} (spelled : rune.IsSpelled)
    (other : rune.char ≠ '\n') : newlineByte ∉ rune.bytes := by
  intro member
  have code : newlineByte.toNat = 10 := by decide
  rcases Nat.lt_or_ge rune.char.toNat 128 with small | large
  · rw [spelled.ascii small, List.mem_singleton] at member
    have same : rune.char.toNat = '\n'.toNat := by
      rw [member, UInt8.toNat_ofNat', Nat.mod_eq_of_lt (by omega)] at code
      exact code
    exact other (Char.toNat_inj.mp same)
  · have high := (spelled.other large).2 newlineByte member
    omega

namespace Position

variable {file : String} {source : List UInt8} {position : Position} {runes : List Rune}

/-- Reading a rune leads from its place to the place after it. -/
theorem advance_ofOffset {rune : Rune} {before after : List UInt8} (spelled : rune.IsSpelled) :
    (ofOffset file (before ++ (rune.bytes ++ after)) before.length).advance rune =
      ofOffset file (before ++ (rune.bytes ++ after)) (before.length + rune.width) := by
  have here : (before ++ (rune.bytes ++ after)).take before.length = before := List.take_left
  have there : (before ++ (rune.bytes ++ after)).take (before.length + rune.width) =
      before ++ rune.bytes := by
    rw [← List.append_assoc]
    exact List.take_left' (List.length_append)
  unfold ofOffset advance
  rw [here, there]
  by_cases newline : rune.char = '\n'
  · have bytes : rune.bytes = [newlineByte] := spelled.bytes_eq newline (by decide)
    simp [newline, bytes, Nat.add_assoc]
  · have none := spelled.newlineByte_not_mem newline
    have count : rune.bytes.count newlineByte = 0 := List.count_eq_zero.mpr none
    have passed : ∀ byte ∈ rune.bytes.reverse, (byte != newlineByte) = true := by
      intro byte member
      rw [bne_iff_ne]
      rintro rfl
      exact none (List.mem_reverse.mp member)
    rw [if_neg (by simpa using newline), List.count_append, count, List.reverse_append,
      List.takeWhile_append_of_pos passed, List.length_append, List.length_reverse]
    simp only [width, Nat.add_zero, mk.injEq, true_and, and_true]
    omega

/-- Reading runes leads from their place to the place after them. -/
theorem advanceAll_ofOffset (holds : position.Holds source runes)
    (placed : position = ofOffset file source position.offset) :
    position.advanceAll runes = ofOffset file source (position.offset + widthAll runes) := by
  induction runes generalizing position with
  | nil => exact placed
  | cons first rest inductionHypothesis =>
      obtain ⟨before, after, split, length⟩ := holds.split
      have spelled := holds.spelled first List.mem_cons_self
      rw [source_cons, List.append_assoc] at split
      have step : position.advance first =
          ofOffset file source (position.offset + first.width) := by
        rw [placed, split, ← length]
        exact advance_ofOffset spelled
      have offset : (position.advance first).offset = position.offset + widthAll [first] :=
        advance_offset position first
      have later : (position.advance first).Holds source rest :=
        Holds.after (by exact holds : position.Holds source ([first] ++ rest)) offset
      rw [advanceAll_cons, inductionHypothesis later (by rw [advance_offset, step]), advance_offset,
        widthAll, Nat.add_assoc]

end Position

/-! ## The places of lexemes -/

namespace Lexeme

open Recognized

/-- Lexemes have the places of their offsets, and so have those of their replacements. The exception is a
template that is not closed, at the end of the lexemes. -/
inductive Placed (file : String) (source : List UInt8) : List Lexeme → Prop
  | nil : Placed file source []
  | cons {lexeme : Lexeme} {rest : List Lexeme} :
      lexeme.span.start = .ofOffset file source lexeme.span.start.offset →
      lexeme.span.stop = .ofOffset file source lexeme.span.stop.offset →
      (∀ lexemes ∈ lexeme.subs, Placed file source lexemes) →
      Placed file source rest → Placed file source (lexeme :: rest)
  | overrun {lexeme : Lexeme} {columns : Nat} :
      lexeme.token = .badString → lexeme.raw.head? = some backQuote.toUInt8 → lexeme.subs = [] →
      lexeme.span.start = .ofOffset file source lexeme.span.start.offset →
      lexeme.span.stop = (Position.ofOffset file source lexeme.span.stop.offset).overrun columns →
      columns ≤ 2 → Placed file source [lexeme, endOfSource lexeme.span.stop]

variable {file : String} {source : List UInt8} {position : Position} {runes : List Rune}

theorem placed_endOfSource (placed : position = .ofOffset file source position.offset) :
    Placed file source [endOfSource position] :=
  .cons placed placed nofun .nil

/-- The place of a replacement is counted right. -/
theorem place_of_braced {replacement : Replacement} (holds : position.Holds source runes)
    (placed : position = .ofOffset file source position.offset)
    (braced : replacement.IsBraced runes) :
    ∃ start, start = position.advanceAll (runes.take replacement.start) ∧
      start.Holds source replacement.body ∧ start = .ofOffset file source start.offset := by
  obtain ⟨before, after, encloses⟩ := holds.exists_encloses braced
  have parts := List.take_append_drop replacement.start runes
  have start := Position.advanceAll_ofOffset (parts.symm ▸ holds).before placed
  refine ⟨_, rfl, encloses.body, ?_⟩
  rw [Position.offset_advanceAll]
  exact start

/-- A lexeme that goes past the end of the text is a template, and the last one. -/
theorem overrun_next {newlineEnds : Bool} {first : Rune} {rest : List Rune}
    (holds : position.Holds source (first :: rest)) :
    (next newlineEnds first rest).overrun = 0 ∨
      (next newlineEnds first rest).token = .badString ∧
        (next newlineEnds first rest).replacements = [] ∧
        (first :: rest).drop (next newlineEnds first rest).length = [] ∧
        (next newlineEnds first rest).overrun ≤ 2 ∧
        first.bytes = [backQuote.toUInt8] := by
  rcases next_cases newlineEnds first rest with ⟨quote, isTemplate⟩ | plain
  · rcases (isReadFrom_next newlineEnds first rest).overrun with none | ⟨bad, closed, length, few⟩
    · exact .inl none
    · have spelled := holds.spelled first List.mem_cons_self
      refine .inr ⟨bad, closed, ?_, few, spelled.bytes_eq quote (by decide)⟩
      exact List.drop_eq_nil_of_le (Nat.le_of_eq length.symm)
  · exact .inl plain.overrun_eq_zero

theorem scanFrom_nil (bound : Nat) (state : ScanState) (position : Position) :
    scanFrom bound state position [] = [endOfSource position] := by
  cases bound <;> rfl

theorem placed_scanFrom (bound : Nat) (state : ScanState) (holds : position.Holds source runes)
    (placed : position = .ofOffset file source position.offset) :
    Placed file source (scanFrom bound state position runes) := by
  induction bound generalizing state position runes with
  | zero => exact placed_endOfSource placed
  | succ bound inductionHypothesis =>
      cases runes with
      | nil => exact placed_endOfSource placed
      | cons first rest =>
          let found := next state.newlineEnds first rest
          let covered := (first :: rest).take found.length
          let stop := (position.advanceAll covered).overrun found.overrun
          have parts := List.take_append_drop found.length (first :: rest)
          have read : IsReadFrom (first :: rest) found := isReadFrom_next state.newlineEnds first rest
          have stopOffset : stop.offset = position.offset + widthAll covered :=
            Position.offset_advanceAll position covered
          have reached : position.advanceAll covered = .ofOffset file source stop.offset := by
            rw [stopOffset]
            exact Position.advanceAll_ofOffset (parts.symm ▸ holds).before placed
          rcases overrun_next holds with none | ⟨bad, closed, ended, few, quote⟩
          · have place : stop = .ofOffset file source stop.offset := by
              rw [← reached]
              change (position.advanceAll covered).overrun (next state.newlineEnds first rest).overrun = _
              rw [none, Position.overrun_zero]
            have later := (parts.symm ▸ holds).after stopOffset
            refine .cons placed place ?_ (inductionHypothesis _ later place)
            intro lexemes member
            obtain ⟨replacement, chosen, rfl⟩ := List.mem_map.mp member
            obtain ⟨start, rfl, held, start⟩ :=
              place_of_braced holds placed (read.braced.isBraced_of_mem chosen)
            exact inductionHypothesis {} held start
          · have positive := read.length_pos
            have rest : scanFrom bound (state.after found.token) stop ((first :: rest).drop found.length) =
                [endOfSource stop] := by
              rw [ended, scanFrom_nil]
            rw [scanFrom, rest]
            refine .overrun bad ?_ ?_ placed ?_ few
            · change (Rune.source covered).head? = _
              obtain ⟨more, one⟩ := Nat.exists_eq_add_one_of_ne_zero (Nat.ne_of_gt positive)
              simp only [covered, one, List.take_succ_cons, source_cons, quote]
              rfl
            · change found.replacements.map _ = []
              rw [closed, List.map_nil]
            · change stop = (Position.ofOffset file source stop.offset).overrun found.overrun
              rw [← reached]

/-- The places of lexemes are those of their offsets. -/
theorem scanned_lexemes_placed (automaticSemicolons : Bool) (file : String) (source : List UInt8) :
    Placed file source (scanWith { automaticSemicolons } file source) :=
  placed_scanFrom _ _ (Position.Holds.decode file source) rfl

/-- The end of a template whose replacement ends within a string is one column too far to the right. -/
theorem open_string_in_template_overruns :
    ∃ source, ∃ lexeme ∈ scan "" source, lexeme.span.stop ≠ .ofOffset "" source lexeme.span.stop.offset :=
  ⟨[backQuote.toUInt8, '$'.toUInt8, '\x7b'.toUInt8, '"'.toUInt8], by decide +kernel⟩

end Lexeme

/-! ## Scanning without a bound

The bound of the scanner plays no part once it exceeds the number of runes.  Without it a scan is one
lexeme after another until no rune is left. -/

open Text (Rune)

namespace Lexeme

open Recognized

/-- The lexemes of some runes, with a bound that is large enough. -/
def scanned (state : ScanState) (position : Position) (runes : List Rune) : List Lexeme :=
  scanFrom (runes.length + 1) state position runes

/-- The place after the lexeme at the front of some runes. -/
def stopAt (newlineEnds : Bool) (position : Position) (first : Rune) (rest : List Rune) : Position :=
  (position.advanceAll ((first :: rest).take (next newlineEnds first rest).length)).overrun
    (next newlineEnds first rest).overrun

/-- The lexeme at the front of some runes. -/
def lexemeAt (newlineEnds : Bool) (position : Position) (first : Rune) (rest : List Rune) : Lexeme :=
  let found := next newlineEnds first rest
  { token := found.token
    lit := found.lit
    span := ⟨position, stopAt newlineEnds position first rest⟩
    raw := Rune.source ((first :: rest).take found.length)
    parts := found.parts
    subs := found.replacements.map fun replacement =>
      scanned {} (position.advanceAll ((first :: rest).take replacement.start)) replacement.body }

variable {state : ScanState} {position : Position} {first : Rune} {rest runes : List Rune}

theorem length_drop_next_lt (newlineEnds : Bool) (first : Rune) (rest : List Rune) :
    ((first :: rest).drop (next newlineEnds first rest).length).length < (first :: rest).length := by
  have positive := (isReadFrom_next newlineEnds first rest).length_pos
  simp only [List.length_drop, List.length_cons]
  omega

/-- Induction along a scan: what holds of the runes after the lexeme at the front holds of all. -/
@[elab_as_elim]
theorem scanned_induction {motive : List Rune → Prop} (nil : motive [])
    (cons : ∀ first rest,
      (∀ newlineEnds, motive ((first :: rest).drop (next newlineEnds first rest).length)) →
      motive (first :: rest))
    (runes : List Rune) : motive runes := by
  induction size : runes.length using Nat.strongRecOn generalizing runes with
  | ind size inductionHypothesis =>
      subst size
      cases runes with
      | nil => exact nil
      | cons first rest =>
          exact cons first rest fun newlineEnds =>
            inductionHypothesis _ (length_drop_next_lt newlineEnds first rest) _ rfl

/-- Any bound that is large enough gives the same lexemes. -/
theorem scanFrom_eq_of_lt {bound bound' : Nat} (enough : runes.length < bound)
    (enough' : runes.length < bound') :
    scanFrom bound state position runes = scanFrom bound' state position runes := by
  induction bound generalizing bound' state position runes with
  | zero => cases enough
  | succ bound inductionHypothesis =>
      cases bound' with
      | zero => cases enough'
      | succ bound' =>
          cases runes with
          | nil => rfl
          | cons first rest =>
              have shorter := length_drop_next_lt state.newlineEnds first rest
              have braced := (isReadFrom_next state.newlineEnds first rest).braced
              rw [scanFrom, scanFrom]
              congr 1
              · congr 1
                refine List.map_congr_left fun replacement member => ?_
                have within := (braced.isBraced_of_mem member).length_body_lt
                exact inductionHypothesis (by omega) (by omega)
              · exact inductionHypothesis (by omega) (by omega)

theorem scanFrom_eq_scanned {bound : Nat} (enough : runes.length < bound) :
    scanFrom bound state position runes = scanned state position runes :=
  scanFrom_eq_of_lt enough (Nat.lt_succ_self _)

@[simp] theorem scanned_nil : scanned state position [] = [endOfSource position] :=
  rfl

theorem scanned_cons :
    scanned state position (first :: rest) =
      lexemeAt state.newlineEnds position first rest ::
        scanned (state.after (next state.newlineEnds first rest).token)
          (stopAt state.newlineEnds position first rest)
          ((first :: rest).drop (next state.newlineEnds first rest).length) := by
  have shorter := length_drop_next_lt state.newlineEnds first rest
  have braced := (isReadFrom_next state.newlineEnds first rest).braced
  rw [scanned, scanFrom, lexemeAt]
  congr 1
  · congr 1
    refine List.map_congr_left fun replacement member => ?_
    exact scanFrom_eq_scanned (braced.isBraced_of_mem member).length_body_lt
  · exact scanFrom_eq_scanned shorter

theorem scanWith_eq_scanned (file : String) (source : List UInt8) :
    scanWith state file source = scanned state (.first file) (Rune.decode source) :=
  rfl

end Lexeme

end Reckon
