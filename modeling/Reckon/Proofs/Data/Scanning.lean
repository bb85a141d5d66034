import Reckon.Proofs.Data.Basic
import Reckon.Proofs.Lexeme.Recognizing
import Reckon.Proofs.RoundTrip.Scanning

/-!
# Scanning the text of data

The text of data is scanned into its pieces.  Unlike the pieces of a line, these stand close together: a
bracket, a sign or a text may be followed by anything, and a name or a number by what ends an item.
-/

namespace Reckon

open Text (Rune isPrintable isWritable escapeChar)
open Piece Lexeme

/-! ## Quoted texts -/

namespace Recognized

theorem spells_escapeChar {c : Char} (writable : isWritable c = true) :
    Spells (escapeChar c).toList c := by
  by_cases quote : c = '"'
  · rw [quote]
    exact fun _ => rfl
  · by_cases backslash : c = '\\'
    · rw [backslash]
      exact fun _ => rfl
    · by_cases printable : isPrintable c = true
      · have notNewline : c ≠ '\n' := by
          intro newline
          have notPrintable : isPrintable '\n' = false := by decide +kernel
          rw [newline, notPrintable] at printable
          cases printable
        have plain : (escapeChar c).toList = [c] := by
          simp [escapeChar, quote, backslash, printable]
        rw [plain]
        exact spells_self quote backslash notNewline
      · have control : c = '\n' ∨ c = '\t' ∨ c = '\r' := by
          simpa [isWritable, printable, or_assoc] using writable
        have newline : escapeChar '\n' = "\\n" := by decide +kernel
        have tab : escapeChar '\t' = "\\t" := by decide +kernel
        have carriageReturn : escapeChar '\r' = "\\r" := by decide +kernel
        rcases control with rfl | rfl | rfl
        · rw [newline]
          exact fun _ => rfl
        · rw [tab]
          exact fun _ => rfl
        · rw [carriageReturn]
          exact fun _ => rfl

end Recognized

/-! ## Pieces -/

theorem isDigit_of_mem_toDigits {n : Nat} {c : Char} (member : c ∈ Nat.toDigits 10 n) :
    Text.isDigit c = true := by
  have digit := Nat.isDigit_of_mem_toDigits (by decide) (by decide) member
  simpa [Char.isDigit, Text.isDigit, Char.le_def] using digit

namespace Numeral

/-- The numeral of a natural number. -/
def ofNat (n : Nat) : Numeral where
  first := (Nat.toDigits 10 n).head Nat.toDigits_ne_nil
  rest := (Nat.toDigits 10 n).tail
  isDigit_first := isDigit_of_mem_toDigits (List.head_mem _)
  isDigit_rest _ member := isDigit_of_mem_toDigits (List.mem_of_mem_tail member)

theorem digits_ofNat (n : Nat) : (ofNat n).digits = Nat.toDigits 10 n :=
  List.cons_head_tail _

theorem value_ofNat (n : Nat) : (ofNat n).value = n := by
  have tens := Nat.ofDigitChars_ten_toDigits (n := n)
  rw [Nat.ofDigitChars_eq_foldl] at tens
  rw [value, digits_ofNat]
  simpa only [Nat.mul_comm 10] using tens

end Numeral

/-- The numeral of a whole number without its sign. -/
def Whole.numeral (whole : Whole) : Numeral :=
  .ofNat whole.value.natAbs

/-- The pieces of a whole number. -/
def Whole.pieces (whole : Whole) : List Piece :=
  if whole.value < 0 then [sign .minus, ofNumeral whole.numeral] else [ofNumeral whole.numeral]

/-- The pieces of a matrix. -/
def Grid.pieces (grid : Grid) : List Piece :=
  sign .leftBracket :: (List.intercalate [sign .semicolon] (grid.rows.map fun row =>
    List.intercalate [sign .comma] (row.map Whole.pieces)) ++ [sign .rightBracket])

/-- The piece of a key. -/
def Key.piece : Key → Piece
  | name word => ofName word
  | index numeral => ofNumeral numeral

/-- The pieces of data. -/
def Data.pieces : Data → List Piece
  | .null => [sign .kwNull]
  | .boolean true => [sign .kwTrue]
  | .boolean false => [sign .kwFalse]
  | .whole n => n.pieces
  | .text wording => [⟨.string, wording.text⟩]
  | .matrix grid => grid.pieces
  | .map keys _ value =>
      sign .leftBrace :: (List.intercalate [sign .comma] (keys.attach.map fun key =>
        key.1.piece :: sign .colon :: (value key).pieces) ++ [sign .rightBrace])

/-! ## Scanning -/

/-- The signs that are recognized before anything. -/
def Piece.delimiters : List (Char × Token) :=
  [('-', .minus), (':', .colon), (',', .comma), (';', .semicolon), ('[', .leftBracket),
    (']', .rightBracket), ('\x7b', .leftBrace), ('\x7d', .rightBrace)]

/-- Scanning the characters before some text gives the pieces, and goes on with the text. Every
lexeme takes a character at least. -/
def Lexeme.Yields (chars : List Char) (pieces : List Piece) (following : List Rune) : Prop :=
  ∃ steps, steps ≤ chars.length ∧ ∀ bound state position, ∃ later stop,
    piecesFrom (bound + steps) state position (chars.map .ofChar ++ following) =
      pieces ++ piecesFrom bound later stop following

namespace Lexeme.Yields

variable {chars moreChars : List Char} {pieces morePieces : List Piece} {following : List Rune}

theorem append (front : Yields chars pieces (moreChars.map .ofChar ++ following))
    (back : Yields moreChars morePieces following) :
    Yields (chars ++ moreChars) (pieces ++ morePieces) following := by
  obtain ⟨frontSteps, frontFew, frontScans⟩ := front
  obtain ⟨backSteps, backFew, backScans⟩ := back
  refine ⟨backSteps + frontSteps, ?_, fun bound state position => ?_⟩
  · rw [List.length_append]
    omega
  · obtain ⟨later, stop, frontSame⟩ := frontScans (bound + backSteps) state position
    obtain ⟨last, finish, backSame⟩ := backScans bound later stop
    refine ⟨last, finish, ?_⟩
    rw [List.map_append, List.append_assoc, List.append_assoc, ← Nat.add_assoc, frontSame, backSame]

theorem of_next {piece : Piece} {first : Char} {rest : List Char}
    (found : ∀ newlineEnds, Recognized.next newlineEnds (.ofChar first)
      (rest.map .ofChar ++ following) =
        { token := piece.token, lit := piece.lit, length := rest.length + 1 })
    (seen : piece.token.isEof = false ∧ piece.token.isSignificant = true) :
    Yields (first :: rest) [piece] following := by
  refine ⟨1, by simp, fun bound state position => ?_⟩
  obtain ⟨stop, same⟩ := piecesFrom_of_next found seen bound state position
  exact ⟨_, stop, same⟩

theorem of_plain {piece : Piece} (plain : piece.IsPlain) (bounded : Bounded following) :
    Yields piece.lit.toList [piece] following := by
  obtain ⟨first, rest, scans⟩ := plain.scans
  rw [scans.chars]
  exact of_next (fun newlineEnds => scans.next newlineEnds following bounded) plain.significant

theorem of_delimiter {c : Char} {token : Token} (member : (c, token) ∈ delimiters) :
    Yields [c] [sign token] following := by
  have seen : ∀ delimiter ∈ delimiters,
      delimiter.2.isEof = false ∧ delimiter.2.isSignificant = true := by decide
  refine of_next (fun newlineEnds => ?_) (seen _ member)
  simp only [delimiters, List.mem_cons, Prod.mk.injEq, List.not_mem_nil, or_false] at member
  rcases member with same | same | same | same | same | same | same | same <;>
    (obtain ⟨rfl, rfl⟩ := same; rfl)

end Lexeme.Yields

/-- The characters start with a visible one, and before a limit they are scanned into the pieces. -/
structure Legible (chars : List Char) (pieces : List Piece) : Prop where
  visible : ∃ first rest, chars = first :: rest ∧ Recognized.isBlank first = false ∧ first ≠ '\n'
  yields : ∀ following, Bounded following → Yields chars pieces following

namespace Legible

variable {chars : List Char} {pieces : List Piece} {following : List Rune}

theorem of_plain {piece : Piece} (plain : piece.IsPlain) : Legible piece.lit.toList [piece] where
  visible := by
    obtain ⟨first, rest, scans⟩ := plain.scans
    exact ⟨first, rest, scans.chars, scans.visible⟩
  yields _ := Yields.of_plain plain

theorem spaced (legible : Legible chars pieces) (bounded : Bounded following) :
    Yields (' ' :: chars) pieces following := by
  obtain ⟨first, rest, rfl, notBlank, notNewline⟩ := legible.visible
  obtain ⟨steps, few, scans⟩ := legible.yields following bounded
  refine ⟨steps + 1, Nat.succ_le_succ few, fun bound state position => ?_⟩
  obtain ⟨start, skipped⟩ := piecesFrom_space notBlank notNewline (bound + steps) state position
  obtain ⟨later, stop, same⟩ := scans bound state start
  refine ⟨later, stop, ?_⟩
  rw [← same, ← Nat.add_assoc]
  exact skipped

theorem append {moreChars : List Char} {morePieces : List Piece}
    (legible : Legible chars pieces)
    (further : ∀ following, Bounded following → Yields moreChars morePieces following)
    (limited : ∀ following, Bounded following → Bounded (moreChars.map .ofChar ++ following)) :
    Legible (chars ++ moreChars) (pieces ++ morePieces) where
  visible := by
    obtain ⟨first, rest, rfl, visible⟩ := legible.visible
    exact ⟨first, rest ++ moreChars, rfl, visible⟩
  yields following bounded :=
    (legible.yields _ (limited following bounded)).append (further following bounded)

/-- A sign that may stand before anything. -/
theorem prefixed {c : Char} {token : Token} (member : (c, token) ∈ delimiters)
    (further : ∀ following, Bounded following → Yields chars pieces following) :
    Legible (c :: chars) (sign token :: pieces) where
  visible := by
    have seen : ∀ delimiter ∈ delimiters,
        Recognized.isBlank delimiter.1 = false ∧ delimiter.1 ≠ '\n' := by decide
    exact ⟨c, chars, rfl, seen _ member⟩
  yields following bounded := (Yields.of_delimiter member).append (further following bounded)

/-- Items with a sign and a space between them. -/
theorem joined {α : Type} {items : List α} {charsOf : α → List Char} {piecesOf : α → List Piece}
    {mark : Char} {token : Token} (member : (mark, token) ∈ delimiters) (limit : mark ∈ limits)
    (nonempty : items ≠ []) (each : ∀ item ∈ items, Legible (charsOf item) (piecesOf item)) :
    Legible (List.intercalate [mark, ' '] (items.map charsOf))
      (List.intercalate [sign token] (items.map piecesOf)) := by
  induction items with
  | nil =>
      exact absurd rfl nonempty
  | cons item rest inductionHypothesis =>
      obtain ⟨itemLegible, restLegible⟩ := List.forall_mem_cons.mp each
      cases rest with
      | nil =>
          simpa using itemLegible
      | cons second others =>
          have later := inductionHypothesis (by simp) restLegible
          have marked := prefixed member fun _ bounded => later.spaced bounded
          have whole := itemLegible.append marked.yields fun following _ =>
            .inr ⟨mark, _, limit, rfl⟩
          simpa only [List.map_cons, List.intercalate_cons_cons, List.append_assoc,
            List.cons_append, List.nil_append] using whole

/-- Something in brackets. -/
theorem enclosed {first last : Char} {opening closing : Token}
    (opens : (first, opening) ∈ delimiters) (closes : (last, closing) ∈ delimiters)
    (limit : last ∈ limits) (inside : chars = [] ∧ pieces = [] ∨ Legible chars pieces) :
    Legible (first :: (chars ++ [last])) (sign opening :: (pieces ++ [sign closing])) := by
  refine prefixed opens fun following _ => ?_
  rcases inside with ⟨rfl, rfl⟩ | legible
  · exact Yields.of_delimiter closes
  · exact (legible.yields _ (.inr ⟨last, following, limit, rfl⟩)).append (.of_delimiter closes)

end Legible

/-! ## The text of data -/

theorem Whole.legible (whole : Whole) : Legible whole.chars whole.pieces := by
  have digits : (ofNumeral whole.numeral).lit.toList = Nat.toDigits 10 whole.value.natAbs := by
    rw [ofNumeral, Numeral.toList_text, numeral, Numeral.digits_ofNat]
  have unsigned := Legible.of_plain (.numeral whole.numeral)
  rw [chars, pieces, Int.toString_eq_repr, Int.repr_eq_if]
  by_cases negative : whole.value < 0
  · have same : (-whole.value).toNat = whole.value.natAbs := by omega
    have minus : "-".toList = ['-'] := by decide
    rw [if_pos negative, if_neg (by omega), String.toList_append, Nat.toList_repr, same, ← digits,
      minus, List.singleton_append]
    exact .prefixed (by decide) unsigned.yields
  · have same : whole.value.toNat = whole.value.natAbs := by omega
    rw [if_neg negative, if_pos (by omega), Nat.toList_repr, same, ← digits]
    exact unsigned

theorem Grid.legible (grid : Grid) : Legible grid.chars grid.pieces := by
  refine .enclosed (by decide) (by decide) (by decide) (.inr ?_)
  refine .joined (by decide) (by decide) grid.rows_ne_nil fun row member => ?_
  have nonempty : row ≠ [] := by
    have length := grid.length_of_mem row member
    have positive := grid.cols_pos
    exact List.ne_nil_of_length_pos (by omega)
  exact .joined (by decide) (by decide) nonempty fun whole _ => whole.legible

theorem Wording.legible (wording : Wording) :
    Legible (Text.quote wording.text).toList [⟨.string, wording.text⟩] := by
  have chars : (Text.quote wording.text).toList =
      '"' :: (wording.text.toList.flatMap (fun c => (escapeChar c).toList) ++ ['"']) := by
    have mark : "\"".toList = ['"'] := by decide
    rw [Text.quote, String.toList_append, String.toList_append, String.toList_join, mark,
      List.flatMap_map]
    rfl
  rw [chars]
  have spells : ∀ c ∈ wording.text.toList, Recognized.Spells (escapeChar c).toList c :=
    fun c member => Recognized.spells_escapeChar (wording.isWritable_text c member)
  refine ⟨⟨_, _, rfl, by decide⟩, fun following _ => .of_next (fun newlineEnds => ?_) ⟨rfl, rfl⟩⟩
  rw [Recognized.next_of_spells spells, String.ofList_toList]

theorem Key.legible (key : Key) : Legible key.text.toList [key.piece] := by
  have plain : key.piece.IsPlain := by
    cases key with
    | name name => exact .name name
    | index numeral => exact .numeral numeral
  have lit : key.piece.lit = key.text := by
    cases key <;> rfl
  rw [← lit]
  exact .of_plain plain

/-- The text of data is scanned into its pieces. -/
theorem Data.legible (data : Data) : Legible data.chars data.pieces := by
  induction data with
  | null => exact .of_plain (.sign (by decide))
  | boolean truth =>
      cases truth with
      | true => exact .of_plain (.sign (by decide))
      | false => exact .of_plain (.sign (by decide))
  | whole whole => exact whole.legible
  | text wording => exact wording.legible
  | matrix grid => exact grid.legible
  | map keys distinct value inductionHypothesis =>
      refine .enclosed (by decide) (by decide) (by decide) ?_
      by_cases none : keys.attach = []
      · left
        rw [none]
        exact ⟨rfl, rfl⟩
      · right
        refine .joined (by decide) (by decide) none fun key _ => ?_
        have colon := Legible.prefixed (by decide : (':', Token.colon) ∈ delimiters)
          fun _ bounded => (inductionHypothesis key).spaced bounded
        exact key.1.legible.append colon.yields fun following _ => .inr ⟨':', _, by decide, rfl⟩

/-- A parser that starts on legible text has its pieces ahead. -/
theorem Legible.pieces_start {text : String} {pieces : List Piece}
    (legible : Legible text.toList pieces) (scope : Scope) :
    (ParseState.start (Lexeme.scanText text) scope).pieces = pieces := by
  obtain ⟨steps, few, scans⟩ := legible.yields [] (.inl rfl)
  have decoded := Rune.decode_text text
  obtain ⟨later, stop, same⟩ := scans (text.toList.length + 1 - steps) {} (.first "")
  have bound : text.toList.length + 1 - steps + steps = (Rune.decode text.toUTF8.toList).length + 1 := by
    rw [decoded, List.length_map]
    omega
  have ended (bound : Nat) : piecesFrom bound later stop [] = [] := by
    cases bound <;> rfl
  rw [ended, List.append_nil, List.append_nil, ← decoded, bound] at same
  exact same

end Reckon
