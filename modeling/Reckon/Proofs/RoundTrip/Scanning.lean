import Reckon.Proofs.Parsing.Stream
import Reckon.Proofs.RoundTrip.Levels
import Reckon.Proofs.RoundTrip.Numerals
import Reckon.Proofs.Text.Utf8
import Reckon.Proofs.RoundTrip.Recovery

/-!
# Scanning and parsing the text of a term

A piece of a term is a sign, a name or a numeral.  Before a space, a mark that ends an item of a list,
or the end of the text, the scanner recognizes it as one lexeme; so a line of pieces is scanned into
lexemes with these pieces and with blanks between them.
-/

namespace Reckon

open Text (Rune isLetter isDigit isNameRest ne_of_passes)
open Piece

/-! ## Pieces of terms -/

namespace Piece

/-- The signs in the text of a term. -/
def signs : List Token :=
  [.assign, .arrow, .question, .colon, .range, .pipe, .orOr, .andAnd, .equal, .notEqual, .less,
    .lessEqual, .greater, .greaterEqual, .plus, .minus, .star, .slash, .percent, .caret, .bang,
    .leftParen, .rightParen, .comma, .dot, .kwAwait, .kwFalse, .kwNull, .kwTrue]

/-- The piece is one that the text of a term has. -/
inductive IsPlain : Piece → Prop
  | sign {token : Token} : token ∈ signs → IsPlain (sign token)
  | name (name : Name) : IsPlain (ofName name)
  | numeral (numeral : Numeral) : IsPlain (ofNumeral numeral)

theorem isPlain_enclose {needed : Bool} {pieces : List Piece}
    (plain : ∀ piece ∈ pieces, IsPlain piece) : ∀ piece ∈ enclose needed pieces, IsPlain piece := by
  cases needed with
  | false =>
      exact plain
  | true =>
      simp only [enclose, if_true, List.forall_mem_cons, List.forall_mem_append]
      exact ⟨.sign (by decide), plain, .sign (by decide), by simp⟩

theorem isPlain_append_sign {left right : List Piece} {token : Token} (member : token ∈ signs)
    (leftPlain : ∀ piece ∈ left, IsPlain piece) (rightPlain : ∀ piece ∈ right, IsPlain piece) :
    ∀ piece ∈ left ++ Piece.sign token :: right, IsPlain piece := by
  simp only [List.forall_mem_append, List.forall_mem_cons]
  exact ⟨leftPlain, .sign member, rightPlain⟩

theorem isPlain_names (params : List Name) : ∀ piece ∈ names params, IsPlain piece := by
  induction params with
  | nil =>
      intro piece member
      cases member
  | cons name rest inductionHypothesis =>
      cases rest with
      | nil =>
          exact List.forall_mem_singleton.mpr (.name name)
      | cons second others =>
          rw [names.eq_3 name (second :: others) (by simp), List.forall_mem_cons,
            List.forall_mem_cons]
          exact ⟨.name name, .sign (by decide), inductionHypothesis⟩

end Piece

mutual

theorem Term.isPlain_of_mem : ∀ term : Term, ∀ piece ∈ term.pieces, IsPlain piece
  | .number numeral => List.forall_mem_singleton.mpr (.numeral numeral)
  | .boolean true => List.forall_mem_singleton.mpr (.sign (by decide))
  | .boolean false => List.forall_mem_singleton.mpr (.sign (by decide))
  | .null => List.forall_mem_singleton.mpr (.sign (by decide))
  | .place target => target.isPlain_of_mem
  | .factorial operand =>
      isPlain_append_sign (by decide) (isPlain_enclose operand.isPlain_of_mem) (by simp)
  | .unary op operand =>
      List.forall_mem_cons.mpr
        ⟨.sign (by cases op <;> decide), isPlain_enclose operand.isPlain_of_mem⟩
  | .binary op left right =>
      isPlain_append_sign (by cases op <;> decide) (isPlain_enclose left.isPlain_of_mem)
        (isPlain_enclose right.isPlain_of_mem)
  | .range first last =>
      isPlain_append_sign (by decide) (isPlain_enclose first.isPlain_of_mem)
        (isPlain_enclose last.isPlain_of_mem)
  | .steppedRange first step last =>
      isPlain_append_sign (by decide) (isPlain_enclose first.isPlain_of_mem)
        (isPlain_append_sign (by decide) (isPlain_enclose step.isPlain_of_mem)
          (isPlain_enclose last.isPlain_of_mem))
  | .conditional test whenTrue whenFalse =>
      isPlain_append_sign (by decide) (isPlain_enclose test.isPlain_of_mem)
        (isPlain_append_sign (by decide) (isPlain_enclose whenTrue.isPlain_of_mem)
          (isPlain_enclose whenFalse.isPlain_of_mem))
  | .function params body =>
      isPlain_append_sign (by decide) (isPlain_enclose (isPlain_names params)) body.isPlain_of_mem
  | .assignment target value =>
      isPlain_append_sign (by decide) target.isPlain_of_mem value.isPlain_of_mem

theorem Place.isPlain_of_mem : ∀ place : Place, ∀ piece ∈ place.pieces, IsPlain piece
  | .name name => List.forall_mem_singleton.mpr (.name name)
  | .member owner selector =>
      isPlain_append_sign (by decide) (isPlain_enclose owner.isPlain_of_mem)
        (List.forall_mem_singleton.mpr (.name selector))
  | .call callee args =>
      List.forall_mem_append.mpr
        ⟨isPlain_enclose callee.isPlain_of_mem, isPlain_enclose (Term.isPlain_of_mem_listed args)⟩

theorem Term.isPlain_of_mem_listed :
    ∀ terms : List Term, ∀ piece ∈ Term.listed terms, IsPlain piece
  | [] => by
      intro piece member
      cases member
  | [term] => term.isPlain_of_mem
  | first :: second :: rest => by
      have firstPlain := first.isPlain_of_mem
      have restPlain := Term.isPlain_of_mem_listed (second :: rest)
      rw [Term.listed_cons_cons]
      exact isPlain_append_sign (by decide) firstPlain restPlain

end

/-! ## Recognizing a piece -/

/-- The characters that end the lexeme before them: a space, and what follows an item of a list. -/
def Piece.limits : List Char :=
  [' ', ',', ';', ':', ']', '\x7d']

-- A statement about all members of `limits` would be decided by going through all characters.
theorem eq_false_of_mem_limits (test : Char → Bool) (none : limits.any test = false) {c : Char}
    (member : c ∈ limits) : test c = false := by
  simpa using List.any_eq_false.mp none c member

/-- The text that follows a piece: nothing, or a limit and more. -/
def Bounded (following : List Rune) : Prop :=
  following = [] ∨ ∃ c more, c ∈ limits ∧ following = .ofChar c :: more

theorem bounded_space (more : List Rune) : Bounded (.ofChar ' ' :: more) :=
  .inr ⟨' ', more, by decide, rfl⟩

/-- The scanner recognizes the piece as one lexeme before a limit or the end of the text. -/
structure Piece.Scans (piece : Piece) (first : Char) (rest : List Char) : Prop where
  chars : piece.lit.toList = first :: rest
  visible : Recognized.isBlank first = false ∧ first ≠ '\n'
  next : ∀ newlineEnds following, Bounded following →
    Recognized.next newlineEnds (.ofChar first) (rest.map .ofChar ++ following) =
      { token := piece.token, lit := piece.lit, length := rest.length + 1 }

/-- The leading runes with a property that no limit has end at a limit. -/
theorem leading_map_ofChar {test : Char → Bool} {chars : List Char} {following : List Rune}
    (all : ∀ c ∈ chars, test c = true) (stops : limits.any test = false)
    (bounded : Bounded following) :
    Recognized.leading test (chars.map .ofChar ++ following) = chars.map .ofChar := by
  have every : ∀ rune ∈ chars.map Rune.ofChar, test rune.char = true := by
    intro rune member
    obtain ⟨c, charMember, rfl⟩ := List.mem_map.mp member
    exact all c charMember
  have none : Recognized.leading test following = [] := by
    rcases bounded with rfl | ⟨limit, more, member, rfl⟩
    · rfl
    · have stopped := eq_false_of_mem_limits test stops member
      exact List.takeWhile_cons_of_neg (by simpa [Rune.ofChar] using stopped)
  rw [Recognized.leading, List.takeWhile_append_of_pos every]
  rw [Recognized.leading] at none
  rw [none, List.append_nil]

theorem text_map_ofChar (chars : List Char) :
    Rune.text (chars.map .ofChar) = String.ofList chars := by
  have same : (chars.map Rune.ofChar).map Rune.char = chars := by
    rw [List.map_map]
    exact List.map_id _
  rw [Rune.text, same]

theorem visible_of_passes {test : Char → Bool} (fails : [' ', '\t', '\r', '\n'].any test = false)
    {c : Char} (passes : test c = true) : Recognized.isBlank c = false ∧ c ≠ '\n' := by
  have visible := Recognized.isLayout_of_passes fails passes
  simpa [Recognized.isLayout] using visible

/-- A letter and what may continue a name are a word. -/
theorem scans_word {piece : Piece} {first : Char} {rest : List Char}
    (chars : piece.lit.toList = first :: rest) (word : Token.ofWord piece.lit = piece.token)
    (letter : isLetter first = true) (continues : ∀ c ∈ rest, isNameRest c = true) :
    piece.Scans first rest := by
  refine ⟨chars, visible_of_passes (by decide) letter, ?_⟩
  intro newlineEnds following bounded
  have every : ∀ c ∈ first :: rest, isNameRest c = true := by
    refine List.forall_mem_cons.mpr ⟨?_, continues⟩
    simp [isNameRest, letter]
  have taken := leading_map_ofChar every (by decide) bounded
  rw [List.map_cons, List.cons_append] at taken
  have isWord : Recognized.next newlineEnds (.ofChar first) (rest.map .ofChar ++ following) =
      Recognized.word (.ofChar first :: (rest.map .ofChar ++ following)) :=
    Recognized.next_of_letter letter
  have text : Rune.text (.ofChar first :: rest.map .ofChar) = piece.lit := by
    rw [← List.map_cons, text_map_ofChar, ← chars, String.ofList_toList]
  rw [isWord, Recognized.word, taken, text, word]
  simp

namespace Bounded

variable {following : List Rune}

theorem fractionLength_eq_zero (bounded : Bounded following) :
    Recognized.fractionLength following = 0 := by
  rcases bounded with rfl | ⟨limit, more, member, rfl⟩
  · rfl
  · have notPoint := eq_false_of_mem_limits (· == '.') (by decide) member
    simp [Recognized.fractionLength, Rune.ofChar, notPoint]

theorem exponentLength_eq_zero (bounded : Bounded following) :
    Recognized.exponentLength following = 0 := by
  rcases bounded with rfl | ⟨limit, more, member, rfl⟩
  · rfl
  · have notMark := eq_false_of_mem_limits (fun c => c == 'e' || c == 'E') (by decide) member
    cases more with
    | nil => rfl
    | cons second others => simp [Recognized.exponentLength, Rune.ofChar, notMark]

theorem decimalLength_eq_length (bounded : Bounded following) {digits : List Char}
    (all : ∀ c ∈ digits, isDigit c = true) :
    Recognized.numberLength.decimalLength (digits.map .ofChar ++ following) = digits.length := by
  have past : (digits.map Rune.ofChar ++ following).drop digits.length = following := by
    rw [List.drop_append_of_le_length (by simp), List.drop_eq_nil_of_le (by simp), List.nil_append]
  simp only [Recognized.numberLength.decimalLength, leading_map_ofChar all (by decide) bounded,
    List.length_map, past, bounded.fractionLength_eq_zero, Nat.add_zero,
    bounded.exponentLength_eq_zero]

/-- No mark of a hexadecimal number follows the first digit. -/
theorem numberLength_eq_length (bounded : Bounded following) (numeral : Numeral) :
    Recognized.numberLength (numeral.digits.map .ofChar ++ following) =
      numeral.digits.length := by
  have decimal := bounded.decimalLength_eq_length numeral.isDigit_of_mem
  have following_second : ∀ zero mark rest,
      numeral.digits.map Rune.ofChar ++ following = zero :: mark :: rest →
        mark.char ≠ 'x' ∧ mark.char ≠ 'X' := by
    intro zero mark rest spelled
    cases digits : numeral.rest with
    | nil =>
        rw [Numeral.digits, digits] at spelled
        rcases bounded with rfl | ⟨limit, more, member, rfl⟩
        · cases spelled
        · cases spelled
          have notMark := eq_false_of_mem_limits (fun c => c == 'x' || c == 'X') (by decide) member
          simpa [Rune.ofChar] using notMark
    | cons second others =>
        have digit := numeral.isDigit_rest second (by simp [digits])
        rw [Numeral.digits, digits] at spelled
        cases spelled
        exact ⟨ne_of_passes digit (by decide), ne_of_passes digit (by decide)⟩
  unfold Recognized.numberLength
  split
  · next zero mark rest spelled =>
    rw [if_neg (by simp [following_second zero mark rest spelled])]
    exact decimal
  · exact decimal

end Bounded

/-- Digits are a number. -/
theorem scans_numeral (numeral : Numeral) :
    (ofNumeral numeral).Scans numeral.first numeral.rest := by
  have digit := numeral.isDigit_first
  refine ⟨numeral.toList_text, visible_of_passes (by decide) digit, ?_⟩
  intro newlineEnds following bounded
  have isNumber : Recognized.next newlineEnds (.ofChar numeral.first)
      (numeral.rest.map .ofChar ++ following) =
        Recognized.number (numeral.digits.map .ofChar ++ following) :=
    Recognized.next_of_number (.inl digit)
  have taken : (numeral.digits.map Rune.ofChar ++ following).take numeral.digits.length =
      numeral.digits.map .ofChar := by
    rw [List.take_append_of_le_length (by simp), List.take_of_length_le (by simp)]
  rw [isNumber, Recognized.number, bounded.numberLength_eq_length numeral, taken,
    text_map_ofChar]
  rfl

/-- A symbol of an operator or a delimiter is recognized by itself. -/
theorem scans_symbol {token : Token} (member : token ∈ signs) (symbol : token.isKeyword = false) :
    (sign token).Scans (token.spelling.toList.headD ' ') token.spelling.toList.tail := by
  cases token with
  | assign | arrow | question | colon | range | pipe | orOr | andAnd | equal | notEqual | less
  | lessEqual | greater | greaterEqual | plus | minus | star | slash | percent | caret | bang
  | leftParen | rightParen | comma | dot =>
      refine ⟨by decide, by decide, fun newlineEnds following bounded => ?_⟩
      rcases bounded with rfl | ⟨limit, more, member, rfl⟩
      · rfl
      · simp only [limits, List.mem_cons, List.not_mem_nil, or_false] at member
        rcases member with rfl | rfl | rfl | rfl | rfl | rfl <;> rfl
  | kwAwait | kwFalse | kwNull | kwTrue =>
      cases symbol
  | _ =>
      exact absurd member (by decide)

theorem scans_keyword {token : Token} (member : token ∈ signs) (keyword : token.isKeyword = true) :
    (sign token).Scans (token.spelling.toList.headD ' ') token.spelling.toList.tail := by
  cases token with
  | kwAwait | kwFalse | kwNull | kwTrue =>
      exact scans_word (by decide) (by decide) (by decide) (List.all_eq_true.mp (by decide))
  | _ =>
      first
        | exact absurd member (by decide)
        | cases keyword

theorem Piece.IsPlain.scans {piece : Piece} (plain : piece.IsPlain) :
    ∃ first rest, piece.Scans first rest := by
  cases plain with
  | @sign token member =>
      cases keyword : token.isKeyword with
      | true =>
          exact ⟨_, _, scans_keyword member keyword⟩
      | false =>
          exact ⟨_, _, scans_symbol member keyword⟩
  | name name =>
      exact ⟨name.first, name.rest, scans_word String.toList_ofList name.ofWord_eq_name
        name.isLetter_first name.isNameRest_rest⟩
  | numeral numeral =>
      exact ⟨numeral.first, numeral.rest, scans_numeral numeral⟩

/-! ## Scanning a line -/

/-- Every piece of a term is seen by the parser, and does not end the source. -/
theorem Piece.IsPlain.significant {piece : Piece} (plain : piece.IsPlain) :
    piece.token.isEof = false ∧ piece.token.isSignificant = true := by
  cases plain with
  | @sign token member =>
      have all : ∀ token ∈ signs, token.isEof = false ∧ token.isSignificant = true := by decide
      exact all token member
  | name name =>
      exact ⟨rfl, rfl⟩
  | numeral numeral =>
      exact ⟨rfl, rfl⟩

namespace Piece

theorem spelling_singleton (piece : Piece) : spelling [piece] = piece.lit.toList :=
  List.intercalate_singleton

theorem spelling_cons_cons (piece second : Piece) (others : List Piece) :
    spelling (piece :: second :: others) =
      piece.lit.toList ++ ' ' :: spelling (second :: others) := by
  simp only [spelling, List.map_cons, List.intercalate_cons_cons, List.append_assoc,
    List.singleton_append]

/-- A line starts with a visible character. -/
theorem exists_spelling_eq_cons {piece : Piece} (plain : piece.IsPlain) (others : List Piece) :
    ∃ c more, spelling (piece :: others) = c :: more ∧ Recognized.isBlank c = false ∧ c ≠ '\n' := by
  obtain ⟨first, rest, scans⟩ := plain.scans
  cases others with
  | nil =>
      exact ⟨first, rest, by rw [spelling_singleton, scans.chars], scans.visible⟩
  | cons second others =>
      refine ⟨first, rest ++ ' ' :: spelling (second :: others), ?_, scans.visible⟩
      rw [spelling_cons_cons, scans.chars, List.cons_append]

end Piece

namespace Lexeme

/-- The pieces that the parser sees in scanned text. -/
def piecesFrom (bound : Nat) (state : ScanState) (position : Position) (runes : List Rune) :
    List Piece :=
  (Cursor.aheadOf (scanFrom bound state position runes)).map piece

/-- A piece that the scanner recognizes takes one step. -/
theorem piecesFrom_of_next {piece : Piece} {first : Char} {rest : List Char} {following : List Rune}
    (found : ∀ newlineEnds, Recognized.next newlineEnds (.ofChar first)
      (rest.map .ofChar ++ following) =
        { token := piece.token, lit := piece.lit, length := rest.length + 1 })
    (seen : piece.token.isEof = false ∧ piece.token.isSignificant = true) (bound : Nat)
    (state : ScanState) (position : Position) :
    ∃ stop, piecesFrom (bound + 1) state position ((first :: rest).map .ofChar ++ following) =
      piece :: piecesFrom bound (state.after piece.token) stop following := by
  have past : (Rune.ofChar first :: (rest.map .ofChar ++ following)).drop (rest.length + 1) =
      following := by
    rw [List.drop_succ_cons, List.drop_append_of_le_length (by simp),
      List.drop_eq_nil_of_le (by simp), List.nil_append]
  rw [List.map_cons, List.cons_append, piecesFrom, scanFrom]
  simp only [found, past]
  rw [Cursor.aheadOf_cons_of_significant _ (by exact seen.1) (by exact seen.2), List.map_cons]
  exact ⟨_, rfl⟩

theorem piecesFrom_piece {piece : Piece} {following : List Rune} (plain : piece.IsPlain)
    (bounded : Bounded following) (bound : Nat) (state : ScanState) (position : Position) :
    ∃ stop,
      piecesFrom (bound + 1) state position (piece.lit.toList.map .ofChar ++ following) =
        piece :: piecesFrom bound (state.after piece.token) stop following := by
  obtain ⟨first, rest, scans⟩ := plain.scans
  rw [scans.chars]
  exact piecesFrom_of_next (fun newlineEnds => scans.next newlineEnds following bounded)
    plain.significant bound state position

theorem piecesFrom_space {c : Char} {more : List Rune} (notBlank : Recognized.isBlank c = false)
    (notNewline : c ≠ '\n') (bound : Nat) (state : ScanState) (position : Position) :
    ∃ stop, piecesFrom (bound + 1) state position (.ofChar ' ' :: .ofChar c :: more) =
      piecesFrom bound state stop (.ofChar c :: more) := by
  have found : Recognized.next state.newlineEnds (.ofChar ' ') (.ofChar c :: more) =
      { token := .space, lit := " ", length := 1 } := by
    have single : Recognized.leading
        (fun c => Recognized.isBlank c || (c == '\n' && !state.newlineEnds))
          (.ofChar ' ' :: .ofChar c :: more) = [.ofChar ' '] := by
      rw [Recognized.leading, List.takeWhile_cons_of_pos (by rfl),
        List.takeWhile_cons_of_neg (by simp [Rune.ofChar, notBlank, notNewline])]
    have isBlanks : Recognized.next state.newlineEnds (.ofChar ' ') (.ofChar c :: more) =
        Recognized.blanks state.newlineEnds (.ofChar ' ' :: .ofChar c :: more) := rfl
    rw [isBlanks, Recognized.blanks, single]
    rfl
  rw [piecesFrom, scanFrom]
  simp only [found]
  rw [Cursor.aheadOf_cons_of_insignificant _ rfl]
  exact ⟨_, rfl⟩

/-- Scanning a line gives back its pieces.  Each piece and each space takes one step. -/
theorem piecesFrom_line {pieces : List Piece} (plain : ∀ piece ∈ pieces, piece.IsPlain)
    {bound : Nat} (state : ScanState) (position : Position)
    (enough : (spelling pieces).length < bound) :
    piecesFrom bound state position ((spelling pieces).map .ofChar) = pieces := by
  induction pieces generalizing bound state position with
  | nil =>
      obtain ⟨less, rfl⟩ := Nat.exists_eq_add_of_lt enough
      rfl
  | cons piece rest inductionHypothesis =>
      obtain ⟨piecePlain, restPlain⟩ := List.forall_mem_cons.mp plain
      obtain ⟨bound, rfl⟩ := Nat.exists_eq_succ_of_ne_zero (Nat.ne_zero_of_lt enough)
      cases rest with
      | nil =>
          obtain ⟨stop, first⟩ := piecesFrom_piece piecePlain (.inl rfl) bound state position
          rw [spelling_singleton, ← List.append_nil (List.map _ _), first]
          cases bound <;> rfl
      | cons second others =>
          obtain ⟨c, more, spelled, notBlank, notNewline⟩ :=
            exists_spelling_eq_cons (restPlain second (by simp)) others
          obtain ⟨first, rest, scans⟩ := piecePlain.scans
          rw [spelling_cons_cons, scans.chars, List.length_append, List.length_cons,
            List.length_cons] at enough
          obtain ⟨bound, rfl⟩ : ∃ less, bound = less + 1 := ⟨bound - 1, by omega⟩
          obtain ⟨stop, first⟩ :=
            piecesFrom_piece piecePlain (bounded_space ((spelling (second :: others)).map .ofChar))
              (bound + 1) state position
          rw [spelling_cons_cons, List.map_append, List.map_cons, first, spelled, List.map_cons]
          obtain ⟨next, skipped⟩ :=
            piecesFrom_space notBlank notNewline bound (state.after piece.token) stop
          rw [skipped, ← List.map_cons, ← spelled, inductionHypothesis restPlain]
          omega

end Lexeme

/-- A parser that starts on a line has its pieces ahead. -/
theorem ParseState.pieces_start_line {pieces : List Piece} (plain : ∀ piece ∈ pieces, piece.IsPlain)
    (scope : Scope) : (start (Lexeme.scanText (line pieces)) scope).pieces = pieces := by
  have decoded : Rune.decode (line pieces).toUTF8.toList = (spelling pieces).map .ofChar :=
    Rune.decode_toUTF8 _
  have enough : (spelling pieces).length < ((spelling pieces).map Rune.ofChar).length + 1 := by simp
  have scanned := Lexeme.piecesFrom_line plain {} (.first "") enough
  rw [← decoded] at scanned
  exact scanned

/-- A parser that starts on the text of a term has the pieces of the term ahead. -/
theorem ParseState.pieces_start_render (term : Term) (scope : Scope) :
    (start (Lexeme.scanText term.render) scope).pieces = term.pieces :=
  pieces_start_line term.isPlain_of_mem scope

/-!
## Parsing the text of a term

Parsing is a left inverse of rendering: the text of a term is parsed to the tree of the term, up to
spans and frames.
-/

namespace Lexeme

theorem length_le_weightAll (lexemes : List Lexeme) : lexemes.length ≤ weightAll lexemes := by
  induction lexemes with
  | nil =>
      exact Nat.zero_le _
  | cons lexeme rest inductionHypothesis =>
      have positive := lexeme.weight_pos
      rw [List.length_cons, weightAll_cons]
      omega

end Lexeme

/-- A list of lexemes is no lighter than the pieces ahead of a parser that starts on it. -/
theorem ParseState.length_pieces_start_le (lexemes : List Lexeme) (scope : Scope) :
    (start lexemes scope).pieces.length ≤ Lexeme.weightAll lexemes := by
  calc (start lexemes scope).pieces.length
      = (Cursor.aheadOf lexemes).length := List.length_map _
    _ ≤ Lexeme.weightAll (Cursor.aheadOf lexemes) := Lexeme.length_le_weightAll _
    _ ≤ Lexeme.weightAll lexemes := Cursor.weightAll_aheadOf_le lexemes

/-- A term is recovered from its text, with a list of one item for each pair of parentheses and
nothing else. -/
theorem bare_parseExpression_render (source : Nat) (term : Term) :
    (parseExpression source term.render).bare = term.tree := by
  have ahead := ParseState.pieces_start_render term { source }
  have light := ParseState.length_pieces_start_le (Lexeme.scanText term.render) { source }
  rw [ahead] at light
  obtain ⟨tree, after, ran, recovered⟩ :=
    Grammar.entire_gives_term (Nat.le_succ_of_le light) ahead
  have attempted : Parsed.attempt Grammar.entire source (Lexeme.scanText term.render) =
      some (tree, after) := ran
  rw [parseExpression, Parsed.expression, Parsed.run, attempted]
  exact recovered

end Reckon
