import Mathlib.Data.List.Basic
import Reckon.Lexeme.Basic
import Reckon.Lexeme.Scanner
import Reckon.Proofs.Lexeme.Recognizing

/-!
# Where lexemes stand

The scanner lays lexemes out one after the other.  The lexemes of the replacements of a template stand
within the template, those of one replacement after those of the replacement before it.
-/

namespace Reckon

open Text (Rune)

/-! ## Layouts -/

namespace Lexeme

mutual

/-- Lexemes stand one after the other between two offsets, and the end of a source has no width. -/
inductive Laid : Nat → List Lexeme → Nat → Prop
  | nil {low high : Nat} : low ≤ high → Laid low [] high
  | cons {low high : Nat} {lexeme : Lexeme} {rest : List Lexeme} :
      low ≤ lexeme.span.start.offset →
      LaidAll lexeme.span.start.offset lexeme.subs lexeme.span.stop.offset →
      (lexeme.token = .eof → lexeme.span.stop = lexeme.span.start) →
      Laid lexeme.span.stop.offset rest high → Laid low (lexeme :: rest) high

/-- Streams of lexemes stand one after the other between two offsets, and each has an end. -/
inductive LaidAll : Nat → List (List Lexeme) → Nat → Prop
  | nil {low high : Nat} : low ≤ high → LaidAll low [] high
  | cons {low middle high : Nat} {lexemes : List Lexeme} {rest : List (List Lexeme)} :
      (lexemes.find? (·.token.isEof)).isSome → Laid low lexemes middle → LaidAll middle rest high →
      LaidAll low (lexemes :: rest) high

end

mutual

theorem Laid.le {low high : Nat} {lexemes : List Lexeme} : Laid low lexemes high → low ≤ high
  | .nil le => le
  | .cons before inside _ rest => Nat.le_trans before (Nat.le_trans inside.le rest.le)

theorem LaidAll.le {low high : Nat} {streams : List (List Lexeme)} :
    LaidAll low streams high → low ≤ high
  | .nil le => le
  | .cons _ first rest => Nat.le_trans first.le rest.le

end

variable {low high : Nat} {lexemes : List Lexeme}

theorem Laid.of_le {lower : Nat} (le : lower ≤ low) (laid : Laid low lexemes high) :
    Laid lower lexemes high := by
  cases laid with
  | nil within => exact .nil (Nat.le_trans le within)
  | cons before inside point rest => exact .cons (Nat.le_trans le before) inside point rest

/-- Lexemes may be left out. -/
theorem Laid.sublist {fewer : List Lexeme} (laid : Laid low lexemes high)
    (sublist : fewer.Sublist lexemes) : Laid low fewer high := by
  induction sublist generalizing low with
  | slnil => exact laid
  | cons lexeme _ inductionHypothesis =>
      cases laid with
      | cons before inside _ rest =>
          exact (inductionHypothesis rest).of_le (Nat.le_trans before inside.le)
  | cons_cons lexeme _ inductionHypothesis =>
      cases laid with
      | cons before inside point rest => exact .cons before inside point (inductionHypothesis rest)

end Lexeme

/-! ## Offsets -/

namespace Text.Rune

/-- The number of bytes of some runes. -/
def widthAll : List Rune → Nat
  | [] => 0
  | first :: rest => first.width + widthAll rest

theorem widthAll_append (left right : List Rune) :
    widthAll (left ++ right) = widthAll left + widthAll right := by
  induction left with
  | nil => exact (Nat.zero_add _).symm
  | cons first rest inductionHypothesis =>
      rw [List.cons_append, widthAll, widthAll, inductionHypothesis, Nat.add_assoc]

theorem widthAll_take_add (runes : List Rune) (count more : Nat) :
    widthAll (runes.take (count + more)) =
      widthAll (runes.take count) + widthAll ((runes.drop count).take more) := by
  rw [List.take_add, widthAll_append]

theorem widthAll_take_le (runes : List Rune) {few many : Nat} (le : few ≤ many) :
    widthAll (runes.take few) ≤ widthAll (runes.take many) := by
  obtain ⟨more, rfl⟩ := Nat.exists_eq_add_of_le le
  rw [widthAll_take_add]
  exact Nat.le_add_right _ _

end Text.Rune

open Text.Rune

theorem Position.offset_advanceAll (position : Position) (runes : List Rune) :
    (position.advanceAll runes).offset = position.offset + widthAll runes := by
  induction runes generalizing position with
  | nil => rfl
  | cons rune rest inductionHypothesis =>
      rw [advanceAll_cons, inductionHypothesis, advance_offset]
      rw [widthAll, Nat.add_assoc]

/-! ## Scanning -/

namespace Lexeme

open Recognized

theorem LaidAll.of_le {low lower high : Nat} {streams : List (List Lexeme)} (le : lower ≤ low)
    (laid : LaidAll low streams high) : LaidAll lower streams high := by
  cases laid with
  | nil within => exact .nil (Nat.le_trans le within)
  | cons ends first rest => exact .cons ends (first.of_le le) rest

/-- The lexemes of the replacements stand where the replacements do. -/
theorem laidAll_of_braced (position : Position) {runes : List Rune} {low high : Nat}
    {replacements : List Replacement} {scanned : Position → List Rune → List Lexeme}
    (laid : ∀ position runes, Laid position.offset (scanned position runes)
      (position.offset + widthAll runes))
    (ends : ∀ position runes, ((scanned position runes).find? (·.token.isEof)).isSome)
    (braced : Braced runes low replacements high) :
    LaidAll (position.offset + widthAll (runes.take low))
      (replacements.map fun replacement =>
        scanned (position.advanceAll (runes.take replacement.start)) replacement.body)
      (position.offset + widthAll (runes.take high)) := by
  induction replacements generalizing low with
  | nil => exact .nil (Nat.add_le_add_left (widthAll_take_le _ braced) _)
  | cons first rest inductionHypothesis =>
      obtain ⟨before, own, others⟩ := braced
      have here := laid (position.advanceAll (runes.take first.start)) first.body
      rw [Position.offset_advanceAll] at here
      have width : widthAll (runes.take first.start) + widthAll first.body =
          widthAll (runes.take (first.start + first.body.length)) := by
        rw [widthAll_take_add, ← own.body_eq]
      rw [Nat.add_assoc, width] at here
      have starts : low ≤ first.start := Nat.le_trans (Nat.le_add_right _ _) before
      have passes := widthAll_take_le runes (Nat.le_add_right (first.start + first.body.length) 1)
      refine .cons (ends _ _) (here.of_le ?_)
        ((inductionHypothesis others).of_le (Nat.add_le_add_left passes _))
      exact Nat.add_le_add_left (widthAll_take_le _ starts) _

theorem isSome_find?_scanFrom (bound : Nat) (state : ScanState) (position : Position)
    (runes : List Rune) :
    ((scanFrom bound state position runes).find? (·.token.isEof)).isSome := by
  induction bound generalizing state position runes with
  | zero => rfl
  | succ bound inductionHypothesis =>
      cases runes with
      | nil => rfl
      | cons first rest =>
          rw [List.find?_isSome]
          obtain ⟨last, member, isEnd⟩ := List.find?_isSome.mp
            (inductionHypothesis (state.after (next state.newlineEnds first rest).token)
              ((position.advanceAll ((first :: rest).take (next state.newlineEnds first rest).length)).overrun
                (next state.newlineEnds first rest).overrun)
              ((first :: rest).drop (next state.newlineEnds first rest).length))
          exact ⟨last, List.mem_cons_of_mem _ member, isEnd⟩

/-- The scanner lays lexemes out one after the other. -/
theorem laid_scanFrom (bound : Nat) (state : ScanState) (position : Position) (runes : List Rune) :
    Laid position.offset (scanFrom bound state position runes)
      (position.offset + widthAll runes) := by
  have ended (position : Position) (runes : List Rune) :
      Laid position.offset [endOfSource position] (position.offset + widthAll runes) :=
    .cons (Nat.le_refl _) (.nil (Nat.le_refl _)) (fun _ => rfl) (.nil (Nat.le_add_right _ _))
  induction bound generalizing state position runes with
  | zero => exact ended position runes
  | succ bound inductionHypothesis =>
      cases runes with
      | nil => exact ended position []
      | cons first rest =>
          let found := next state.newlineEnds first rest
          let stop := (position.advanceAll ((first :: rest).take found.length)).overrun found.overrun
          have stopOffset : stop.offset =
              position.offset + widthAll ((first :: rest).take found.length) :=
            Position.offset_advanceAll position _
          have read := isReadFrom_next state.newlineEnds first rest
          have inside := laidAll_of_braced position (inductionHypothesis {}) (isSome_find?_scanFrom bound {})
            read.braced
          have others := inductionHypothesis (state.after found.token) stop
            ((first :: rest).drop found.length)
          have whole : stop.offset + widthAll ((first :: rest).drop found.length) =
              position.offset + widthAll (first :: rest) := by
            rw [stopOffset, Nat.add_assoc, ← widthAll_append, List.take_append_drop]
          rw [whole] at others
          refine .cons (Nat.le_refl _) ?_ (fun isEnd => absurd isEnd read.token_ne_eof) others
          change LaidAll position.offset _ stop.offset
          rw [stopOffset]
          exact inside.of_le (Nat.le_add_right _ _)

end Lexeme

end Reckon
