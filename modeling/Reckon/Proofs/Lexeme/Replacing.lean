import Reckon.Proofs.Lexeme.Passing
import Reckon.Proofs.Lexeme.Payload

/-!
# The brace that closes a replacement

A text that is in order by itself, written between the braces of a template, is the replacement that the
scanner finds there: it ends at the brace that matches, and has the lexemes of the text.  Only comments and
templates in it can be in the way, if they have marks that the reader of replacements takes for braces or
quotes.
-/

namespace Reckon

open Text (Rune)
open Text.Rune

/-! ## Places in a template -/

/-- Move what is scanned by itself to a place on the first line, behind some columns. -/
def Relocation.behind (columns : Nat) : Relocation := fun position =>
  { position with
    column := if position.line ≤ 1 then position.column + columns else position.column
    offset := position.offset + columns }

theorem Relocation.follows_behind {position : Position} (started : 1 ≤ position.line) (columns : Nat)
    (runes : List Rune) : (behind columns).Follows position runes := by
  have all (runes : List Rune) : 1 ≤ (position.advanceAll runes).line ∧
      behind columns (position.advanceAll runes) = (behind columns position).advanceAll runes := by
    induction runes using List.reverseRecOn with
    | nil => exact ⟨started, rfl⟩
    | append_singleton runes last inductionHypothesis =>
        obtain ⟨line, same⟩ := inductionHypothesis
        rw [Position.advanceAll_append, Position.advanceAll_append, ← same]
        generalize position.advanceAll runes = place at line
        by_cases newline : last.char = '\n'
        · have below : ¬place.line = 0 := by omega
          simp [Position.advance, behind, newline, below, Nat.add_right_comm]
        · refine ⟨by simpa [Position.advance, newline] using line, ?_⟩
          simp only [Position.advanceAll_cons, Position.advanceAll_nil, Position.advance, behind,
            beq_iff_eq, newline, if_false, Nat.add_right_comm]
          split <;> rfl
  intro count more _
  obtain ⟨line, same⟩ := all (runes.take count)
  rw [← same]
  simp only [behind, Position.overrun, Nat.add_right_comm]
  split <;> rfl

namespace Lexeme

open Recognized

/-! ## Replacements -/

/-- The number of braces that are open after lexemes, none if one is closed that was not opened. -/
def openBraces (depth : Nat) (lexemes : List Lexeme) : Option Nat :=
  lexemes.foldlM (fun depth lexeme => lexeme.token.braceDepth depth) depth

/-- A text as the only replacement of a template without any other text. -/
def replacing (body : List UInt8) : List UInt8 :=
  [backQuote.toUInt8, '$'.toUInt8, '\x7b'.toUInt8] ++ (body ++ ['\x7d'.toUInt8, backQuote.toUInt8])

variable {source : List UInt8} {runes : List Rune} {depth depth' : Nat}

/-- The reader comes through a text that is in order, and counts its braces. -/
theorem passes_scanned {state : ScanState} {position : Position} (inside : runes <:+: decode source)
    (closed : ∀ lexeme ∈ scanned state position runes, lexeme.token ≠ .badString)
    (own : ∀ lexeme ∈ scanned state position runes,
      lexeme.token = .comment ∨ lexeme.token = .template → Passed (decode lexeme.raw))
    (braces : openBraces depth (scanned state position runes) = some depth') :
    Passes runes .code depth .code depth' := by
  induction runes using scanned_induction generalizing state position depth with
  | nil =>
      cases braces
      exact .nil
  | cons first rest inductionHypothesis =>
      let count := (next state.newlineEnds first rest).length
      have parts := List.take_append_drop count (first :: rest)
      rw [scanned_cons] at closed own braces
      obtain ⟨closedFirst, closedRest⟩ := List.forall_mem_cons.mp closed
      obtain ⟨ownFirst, ownRest⟩ := List.forall_mem_cons.mp own
      rw [openBraces, List.foldlM_cons, Option.bind_eq_bind, Option.bind_eq_some_iff] at braces
      obtain ⟨middle, firstBraces, restBraces⟩ := braces
      have raw : decode (lexemeAt state.newlineEnds position first rest).raw = (first :: rest).take count :=
        decode_source_of_infix ((List.take_prefix _ _).isInfix.trans inside)
      rw [raw] at ownFirst
      have behind : (first :: rest).drop count <:+: decode source :=
        (List.drop_suffix _ _).isInfix.trans inside
      rw [← parts]
      exact ((branch_next state.newlineEnds first rest).passes closedFirst ownFirst firstBraces).append
        (inductionHypothesis state.newlineEnds behind closedRest ownRest restBraces)

/-- The runes of a text within a template. -/
theorem decode_replacing (body : List UInt8) :
    decode (replacing body) = .ofChar backQuote :: .ofChar '$' :: .ofChar '\x7b' ::
      (decode body ++ [.ofChar '\x7d', .ofChar backQuote]) := by
  have behind : decode (body ++ ['\x7d'.toUInt8, backQuote.toUInt8]) =
      decode body ++ [.ofChar '\x7d', .ofChar backQuote] :=
    decode_append_of_ascii (by decide) body _
  rw [← behind, replacing, List.cons_append, List.cons_append, List.cons_append, List.nil_append,
    decode_one (by decide), decode_one (by decide), decode_one (by decide)]
  rfl

/-- A text without loose ends is read as the replacement of a template that it is written into. -/
theorem replacement_ends_at_its_brace (file : String) (body : List UInt8)
    (closed : ∀ lexeme ∈ scan file body, lexeme.token ≠ .badString)
    (braces : openBraces 0 (scan file body) = some 0)
    (own : ∀ lexeme ∈ scan file body,
      lexeme.token = .comment ∨ lexeme.token = .template → Passed (decode lexeme.raw)) :
    scan file (replacing body) =
      [{ token := .template
         span := ⟨.first file, (Position.first file).advanceAll (decode (replacing body))⟩
         raw := replacing body
         parts := ["", ""]
         subs := [(scan file body).map (relocate (.behind 3))] },
        endOfSource ((Position.first file).advanceAll (decode (replacing body)))] := by
  let back := Rune.ofChar backQuote
  let dollar := Rune.ofChar '$'
  let opening := Rune.ofChar '\x7b'
  let tail := decode body ++ [.ofChar '\x7d', back]
  have passes : Passes (decode body) .code 0 .code 0 := passes_scanned List.infix_rfl closed own braces
  have ends : replacementEnd .code 0 tail = .closed (decode body).length := by
    rw [passes]
    simp [replacementEnd, Rune.ofChar, ReplacementEnd.add]
  have whole : templateFrom 0 {} (dollar :: opening :: tail) =
      { token := .template
        lit := ""
        length := tail.length + 3
        parts := ["", ""]
        replacements := [⟨3, decode body⟩] } := by
    have step : templateFrom 0 {} (dollar :: opening :: tail) =
        templateFrom ((decode body).length + 2)
          { length := 2, parts := [""], replacements := [⟨3, tail.take (decode body).length⟩] }
          (opening :: tail) := by
      simp [templateFrom, dollar, opening, Rune.ofChar, backQuote, front?, ends]
    have enough : (decode body).length + 2 ≤ (opening :: tail).length := by simp [tail]
    have last : (opening :: tail).drop ((decode body).length + 2) = [back] := by
      rw [List.drop_succ_cons, List.drop_append]
      simp
    rw [step, templateFrom_drop enough, last, List.take_left]
    simp [templateFrom, back, Rune.ofChar, tail]
    omega
  have found : next false back (dollar :: opening :: tail) = templateFrom 0 {} (dollar :: opening :: tail) :=
    (Branch.template rfl).next_eq
  have start : (Position.first file).advanceAll [back, dollar, opening] =
      Relocation.behind 3 (.first file) := rfl
  have follows := Relocation.follows_behind (by exact Nat.le_refl 1 : 1 ≤ (Position.first file).line) 3
    (decode body)
  have moved : scanned {} ((Position.first file).advanceAll [back, dollar, opening]) (decode body) =
      (scan file body).map (relocate (.behind 3)) := by
    rw [start]
    exact scanned_relocate follows
  have runes : decode (replacing body) = back :: dollar :: opening :: tail := decode_replacing body
  have raw : Rune.source (back :: dollar :: opening :: tail) = replacing body := by
    rw [← runes, source_decode]
  have continues : ScanState.newlineEnds {} = false := rfl
  have taken : (back :: dollar :: opening :: tail).take (tail.length + 3) =
      back :: dollar :: opening :: tail := List.take_of_length_le (Nat.le_refl _)
  have left : (back :: dollar :: opening :: tail).drop (tail.length + 3) = [] :=
    List.drop_of_length_le (Nat.le_refl _)
  rw [scan, scanWith_eq_scanned, runes, scanned_cons, continues, stopAt, lexemeAt, stopAt, found, whole]
  simp only [taken, left, raw, List.map_cons, List.map_nil, scanned_nil, Position.overrun_zero]
  rw [← moved]
  rfl

/-! ## Loose marks -/

/-- Whether the lexeme has no brace and no quote that is text for the scanner but not for the reader: none
in a comment, and none in the fixed text of a template. -/
def isUnmarked (lexeme : Lexeme) : Bool :=
  match lexeme.token with
  | .comment => lexeme.lit.toList.all (!isMark ·)
  | .template => lexeme.parts.all (·.toList.all (!isMark ·))
  | _ => true

/-- The reader comes through comments and templates without loose marks, whatever the replacements of the
templates are. -/
theorem passed_of_isUnmarked {file : String} {lexeme : Lexeme} (member : lexeme ∈ scan file source)
    (unmarked : lexeme.isUnmarked = true) (token : lexeme.token = .comment ∨ lexeme.token = .template) :
    Passed (decode lexeme.raw) := by
  rcases fronts_of_mem (Position.Holds.decode file source) member with
    ⟨place, rfl⟩ | ⟨newlineEnds, place, first, rest, fronts⟩
  · rcases token with token | token <;> cases token
  · rcases token with isComment | isTemplate
    · have lit := fronts.lit_eq (by rw [isComment]; rfl) (by simp [isNewline, isComment])
      simp only [isUnmarked, isComment, lit, Rune.text, String.toList_ofList, List.all_map] at unmarked
      exact passed_of_plain (by simpa using unmarked)
    · obtain rfl := fronts.eq
      rcases next_cases newlineEnds first rest with ⟨quote, found⟩ | plain
      · have found : next newlineEnds first rest = templateFrom 0 {} rest := found
        simp only [isUnmarked, isTemplate] at unmarked
        simp only [lexemeAt, found] at isTemplate unmarked
        obtain ⟨count, length, passed⟩ := exists_passed_of_template isTemplate (by simpa using unmarked)
        have plainQuote : isMark first.char = false := by
          rw [quote]
          decide
        rw [fronts.decode_raw, found, length, Nat.add_comm, List.take_succ_cons]
        exact passed.cons plainQuote
      · exact absurd isTemplate plain.token_ne_template

/-- A text with a string, a template and a comment in it is read as a replacement. -/
theorem replacement_with_template_and_comment :
    ∃ body, (scan "" body).map (·.token) =
        [.leftBrace, .name, .colon, .string, .rightBrace, .template, .comment, .eof] ∧
      scan "" (replacing body) =
        [{ token := .template
           span := ⟨.first "", (Position.first "").advanceAll (decode (replacing body))⟩
           raw := replacing body
           parts := ["", ""]
           subs := [(scan "" body).map (relocate (.behind 3))] },
          endOfSource ((Position.first "").advanceAll (decode (replacing body)))] := by
  let body := encode ("\x7ba:\"\x7d\"\x7d".toList ++
    backQuote :: "$\x7b'\x7b'\x7d".toList ++ backQuote :: "//".toList)
  have unmarked : ∀ lexeme ∈ scan "" body, lexeme.isUnmarked = true := by decide +kernel
  exact ⟨body, by decide +kernel, replacement_ends_at_its_brace "" body (by decide +kernel)
    (by decide +kernel) fun lexeme member => passed_of_isUnmarked member (unmarked lexeme member)⟩

/-- The scanner does not stop at a brace in a comment or in the text of a template, but the reader does. -/
theorem loose_brace_ends_replacement :
    ∃ comment template,
      (∀ body ∈ [comment, template], (∀ lexeme ∈ scan "" body, lexeme.token ≠ .badString) ∧
        openBraces 0 (scan "" body) = some 0) ∧
      (scan "" (replacing comment)).map (fun lexeme => (lexeme.token, lexeme.parts)) =
        [(.template, ["", "*/\x7d"]), (.eof, [])] ∧
      (scan "" (replacing template)).map (·.token) = [.template, .rightBrace, .badString, .eof] :=
  ⟨encode "1/*\x7d*/".toList, encode [backQuote, '\x7d', backQuote], by decide +kernel⟩

end Lexeme

end Reckon
