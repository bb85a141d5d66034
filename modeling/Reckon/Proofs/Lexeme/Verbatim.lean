import Reckon.Proofs.Lexeme.Joining
import Reckon.Proofs.Text.Spelling

/-!
# Lexemes that say what is written

All lexemes but strings, templates and the newlines that end statements say what is written where they
stand.  What is written there is enough to recognize them: the scanner never takes what follows into
account.  What strings and templates say is text as well, whatever bytes they were read from.
-/

namespace Reckon

open Text (Rune isLetter isDigit isHexDigit isNameRest)
open Text.Rune

/-! ## A part of the runes -/

namespace Recognized

variable {test : Char → Bool} {runes : List Rune} {count : Nat}

theorem leading_take (enough : (leading test runes).length ≤ count) :
    leading test (runes.take count) = leading test runes := by
  induction runes generalizing count with
  | nil => rw [List.take_nil]
  | cons first rest inductionHypothesis =>
      unfold leading at enough inductionHypothesis ⊢
      cases passes : test first.char with
      | false =>
          rw [List.takeWhile_cons_of_neg (by simp [passes])]
          cases count with
          | zero => rfl
          | succ count => rw [List.take_succ_cons, List.takeWhile_cons_of_neg (by simp [passes])]
      | true =>
          rw [List.takeWhile_cons_of_pos (by exact passes)] at enough ⊢
          obtain ⟨fewer, rfl⟩ := Nat.exists_eq_add_one_of_ne_zero (Nat.ne_of_gt (Nat.zero_lt_of_lt enough))
          rw [List.take_succ_cons, List.takeWhile_cons_of_pos (by exact passes),
            inductionHypothesis (Nat.le_of_succ_le_succ enough)]

/-- A run of characters that pass a test passes a weaker one. -/
theorem leading_leading {weaker : Char → Bool} (weakens : ∀ c, test c = true → weaker c = true) :
    leading weaker (leading test runes) = leading test runes :=
  List.takeWhile_eq_self_iff.mpr fun rune member => by
    have passes : test rune.char = true :=
      List.mem_takeWhile_imp (p := fun rune : Rune => test rune.char) member
    exact weakens _ passes

theorem fractionLength_take (enough : fractionLength runes ≤ count) :
    fractionLength (runes.take count) = fractionLength runes := by
  cases runes with
  | nil => rw [List.take_nil]
  | cons point rest =>
      cases count with
      | zero => exact (Nat.le_zero.mp enough).symm
      | succ count =>
          by_cases isPoint : point.char = '.'
          · have digits : leading isDigit (rest.take count) = leading isDigit rest := by
              refine leading_take ?_
              cases none : leading isDigit rest with
              | nil => exact Nat.zero_le _
              | cons digit digits => simpa [fractionLength, isPoint, none] using enough
            simp only [fractionLength, List.take_succ_cons, digits]
          · simp [fractionLength, isPoint]

theorem exponentLength_cons_cons (mark next : Rune) (rest : List Rune) :
    exponentLength (mark :: next :: rest) =
      if (mark.char == 'e' || mark.char == 'E') &&
          (isDigit next.char || next.char == '+' || next.char == '-') then
        (leading isDigit rest).length + 2
      else 0 := by
  simp only [exponentLength, leading, List.takeWhile_cons, Nat.add_comm 2]
  cases mark.char == 'e' || mark.char == 'E' <;> cases isDigit next.char <;> simp
  omega

theorem exponentLength_take :
    exponentLength (runes.take (exponentLength runes)) = exponentLength runes := by
  match runes with
  | [] => rfl
  | [_] => rfl
  | mark :: next :: rest =>
      rw [exponentLength_cons_cons]
      split
      · next starts =>
        rw [List.take_succ_cons, List.take_succ_cons, exponentLength_cons_cons, if_pos starts,
          leading_take (Nat.le_refl _)]
      · rfl

theorem decimalLength_take : numberLength.decimalLength (runes.take (numberLength.decimalLength runes)) =
    numberLength.decimalLength runes := by
  let whole := (leading isDigit runes).length
  let fraction := fractionLength (runes.drop whole)
  let exponent := exponentLength (runes.drop (whole + fraction))
  change numberLength.decimalLength (runes.take (whole + fraction + exponent)) =
    whole + fraction + exponent
  have digits : leading isDigit (runes.take (whole + fraction + exponent)) = leading isDigit runes :=
    leading_take (by omega)
  have point : fractionLength ((runes.take (whole + fraction + exponent)).drop whole) = fraction := by
    rw [List.drop_take]
    exact fractionLength_take (by omega)
  have mark : exponentLength ((runes.take (whole + fraction + exponent)).drop (whole + fraction)) =
      exponent := by
    rw [List.drop_take, Nat.add_sub_cancel_left]
    exact exponentLength_take
  simp only [numberLength.decimalLength, digits]
  rw [point, mark]

/-- Whether a number is hexadecimal. -/
def startsHex (runes : List Rune) : Bool :=
  front? runes == some '0' && (front? (runes.drop 1) == some 'x' || front? (runes.drop 1) == some 'X')

theorem numberLength_eq (runes : List Rune) :
    numberLength runes =
      if startsHex runes then 2 + (leading isHexDigit (runes.drop 2)).length
      else numberLength.decimalLength runes := by
  match runes with
  | [] => rfl
  | [zero] => simp [numberLength, startsHex, front?]
  | zero :: mark :: rest => simp [numberLength, startsHex, front?]

theorem front?_take {c : Char} (found : front? (runes.take count) = some c) : front? runes = some c := by
  cases runes with
  | nil => simp [front?] at found
  | cons first rest =>
      cases count with
      | zero => simp [front?] at found
      | succ count => exact found

theorem startsHex_of_take (starts : startsHex (runes.take count) = true) : startsHex runes = true := by
  simp only [startsHex, Bool.and_eq_true, Bool.or_eq_true, beq_iff_eq, List.drop_take] at starts ⊢
  obtain ⟨zero, mark⟩ := starts
  exact ⟨front?_take zero, mark.imp front?_take front?_take⟩

theorem numberLength_take : numberLength (runes.take (numberLength runes)) = numberLength runes := by
  by_cases hex : startsHex runes = true
  · have length : numberLength runes = 2 + (leading isHexDigit (runes.drop 2)).length := by
      rw [numberLength_eq, if_pos hex]
    match runes with
    | [] | [_] => simp [startsHex, front?] at hex
    | zero :: mark :: rest =>
        have digits := leading_take (Nat.le_refl (leading isHexDigit rest).length)
        have still : startsHex (zero :: mark :: rest.take (leading isHexDigit rest).length) = true := hex
        rw [List.drop_succ_cons, List.drop_succ_cons, List.drop_zero, Nat.add_comm] at length
        rw [length, List.take_succ_cons, List.take_succ_cons, numberLength_eq, if_pos still,
          List.drop_succ_cons, List.drop_succ_cons, List.drop_zero, digits, Nat.add_comm]
  · have length : numberLength runes = numberLength.decimalLength runes := by
      rw [numberLength_eq, if_neg hex]
    have still : ¬startsHex (runes.take (numberLength.decimalLength runes)) = true :=
      fun starts => hex (startsHex_of_take starts)
    rw [length, numberLength_eq, if_neg still, decimalLength_take]

theorem blockCommentLength_take :
    blockCommentLength (runes.take (blockCommentLength runes)) = blockCommentLength runes := by
  induction runes with
  | nil => rfl
  | cons first rest inductionHypothesis =>
      by_cases closes : (first.char == '*' && front? rest == some '/') = true
      · cases rest with
        | nil => simp [front?] at closes
        | cons second rest =>
            have closes' : (first.char == '*' && front? [second] == some '/') = true := closes
            rw [blockCommentLength, if_pos closes, List.take_succ_cons, List.take_succ_cons, List.take_zero,
              blockCommentLength, if_pos closes']
      · have continues : ¬(first.char == '*' &&
            front? (rest.take (blockCommentLength rest)) == some '/') = true := by
          cases rest with
          | nil => simp [front?]
          | cons second rest =>
              have positive : 0 < blockCommentLength (second :: rest) := by
                rw [blockCommentLength]
                split <;> omega
              obtain ⟨less, same⟩ := Nat.exists_eq_add_one_of_ne_zero (Nat.ne_of_gt positive)
              rw [same, List.take_succ_cons]
              exact closes
        rw [blockCommentLength, if_neg closes, List.take_succ_cons, blockCommentLength, if_neg continues,
          inductionHypothesis]

/-! ## Operators -/

theorem operator?_spelling {c : Char} {following : Option Char} {token : Token} {length : Nat}
    (found : operator? c following = some (token, length)) :
    token.spelling = String.ofList ((c :: following.toList).take length) ∧ (length = 1 ∨ length = 2) := by
  rcases operator?_cases found with ⟨rfl, sign⟩ | ⟨rfl, second, rfl, digraph⟩
  · have spelled : ∀ sign ∈ unigraphs, sign.2.spelling = String.ofList [sign.1] := by decide
    exact ⟨spelled _ sign, .inl rfl⟩
  · have spelled : ∀ digraph ∈ digraphs,
        digraph.2.2.spelling = String.ofList [digraph.1, digraph.2.1] := by decide
    exact ⟨spelled _ digraph, .inr rfl⟩

theorem operator?_alone {c : Char} {following : Option Char} :
    (∀ token, operator? c following = some (token, 1) → operator? c none = some (token, 1)) ∧
      (operator? c following = none → operator? c none = none) := by
  unfold operator?
  split <;> grind

theorem length_operator?_le {c : Char} {rest : List Rune} {token : Token} {length : Nat}
    (found : operator? c (front? rest) = some (token, length)) : length ≤ rest.length + 1 := by
  have within := length_symbol_le c rest
  rwa [symbol, found] at within

end Recognized

/-! ## Lexemes without what follows them -/

/-- Lexemes of these classes say what is written. -/
def Token.isVerbatim : Token → Bool
  | .eof | .string | .badString | .template => false
  | _ => true

namespace Recognized

variable {newlineEnds : Bool} {first : Rune} {rest tail : List Rune} {found : Recognized}

/-- The runes of a lexeme are recognized as this lexeme, and it says what they read as. -/
structure Echoes (found : Recognized) (first : Rune) (tail : List Rune) : Prop where
  branch : Branch false first tail found
  lit_eq : found.lit = Rune.text (first :: tail)

theorem echoes_blanks (layout : isLayout first.char = true)
    (own : first :: tail = (first :: rest).take (blanks newlineEnds (first :: rest)).length) :
    Echoes (blanks newlineEnds (first :: rest)) first tail := by
  rw [blanks_eq, take_length_leading] at own
  have whole : leading (separates false) (first :: tail) = first :: tail := by
    rw [own]
    refine leading_leading fun c passes => ?_
    simp only [separates, Bool.or_eq_true, Bool.and_eq_true, Bool.not_false] at passes ⊢
    exact passes.imp_right fun newline => ⟨newline.1, trivial⟩
  have same : blanks newlineEnds (first :: rest) = blanks false (first :: tail) := by
    rw [blanks_eq, blanks_eq, whole, own]
  have branch : Branch false first tail (blanks false (first :: tail)) := .blanks layout fun _ => rfl
  refine ⟨same ▸ branch, ?_⟩
  rw [blanks_eq, own]

theorem echoes_word (letter : isLetter first.char = true)
    (own : first :: tail = (first :: rest).take (word (first :: rest)).length) :
    Echoes (word (first :: rest)) first tail := by
  have own : first :: tail = leading isNameRest (first :: rest) := own.trans (take_length_leading _ _)
  have whole : leading isNameRest (first :: tail) = first :: tail := by
    rw [own]
    exact leading_leading fun _ passes => passes
  have same : word (first :: rest) = word (first :: tail) := by
    rw [word, word, whole, own]
  exact ⟨same ▸ .word letter, by rw [word, own]⟩

theorem comment_of_line (line : front? rest = some '/') :
    comment (first :: rest) =
      { token := .comment
        lit := Rune.text (leading (· != '\n') (first :: rest))
        length := (leading (· != '\n') (first :: rest)).length } := by
  simp [comment, line, take_length_leading]

theorem echoes_comment (slash : first.char = '/')
    (second : front? rest = some '/' ∨ front? rest = some '*')
    (own : first :: tail = (first :: rest).take (comment (first :: rest)).length) :
    Echoes (comment (first :: rest)) first tail := by
  cases rest with
  | nil => simp [front?] at second
  | cons next body =>
      by_cases line : next.char = '/'
      · have second : front? (next :: body) = some '/' := congrArg some line
        rw [comment_of_line second, take_length_leading] at own
        have whole : leading (· != '\n') (first :: tail) = first :: tail := by
          rw [own]
          exact leading_leading fun _ passes => passes
        have ahead : front? tail = some '/' := by
          simp only [leading, List.takeWhile_cons, slash, line] at own
          rw [(List.cons.inj own).2]
          exact congrArg some line
        have same : comment (first :: next :: body) = comment (first :: tail) := by
          rw [comment_of_line second, comment_of_line ahead, whole, own]
        refine ⟨same ▸ .comment slash (.inl ahead), ?_⟩
        rw [same, comment_of_line ahead, whole]
      · have star : next.char = '*' := by simpa [front?, line] using second
        rw [comment_of_block star] at own ⊢
        rw [Nat.add_comm, List.take_succ_cons, List.take_succ_cons] at own
        obtain rfl := (List.cons.inj own).2
        have branch : Branch false first (next :: body.take (blockCommentLength body))
            (comment (first :: next :: body.take (blockCommentLength body))) :=
          .comment slash (.inr (congrArg some star))
        rw [comment_of_block star, blockCommentLength_take, Nat.add_comm, List.take_succ_cons,
          List.take_succ_cons, List.take_take, Nat.min_self] at branch
        rw [Nat.add_comm, List.take_succ_cons, List.take_succ_cons]
        exact ⟨branch, rfl⟩

theorem echoes_number
    (starts : isDigit first.char = true ∨ first.char = '.' ∧ (front? rest).any isDigit = true)
    (own : first :: tail = (first :: rest).take (number (first :: rest)).length) :
    Echoes (number (first :: rest)) first tail := by
  have own : first :: tail = (first :: rest).take (numberLength (first :: rest)) := own
  have length : numberLength (first :: tail) = numberLength (first :: rest) := by
    rw [own, numberLength_take]
  have whole : (first :: tail).take (numberLength (first :: rest)) = first :: tail := by
    rw [own, List.take_take, Nat.min_self]
  have same : number (first :: rest) = number (first :: tail) := by
    rw [number, number, length, whole, own]
  have still : isDigit first.char = true ∨ first.char = '.' ∧ (front? tail).any isDigit = true := by
    rcases starts with digit | ⟨point, digit⟩
    · exact .inl digit
    refine .inr ⟨point, ?_⟩
    cases tail with
    | nil =>
        have none : isDigit '.' = false := by decide
        have nothing : numberLength [first] = 0 := by
          simp [numberLength, numberLength.decimalLength, leading, point, none, fractionLength,
            exponentLength]
        rw [← length, nothing] at own
        cases own
    | cons second others =>
        cases rest with
        | nil => simp [front?] at digit
        | cons next more =>
            cases count : numberLength (first :: next :: more) with
            | zero => simp [count] at own
            | succ less =>
                cases less with
                | zero => simp [count] at own
                | succ less =>
                    rw [count, List.take_succ_cons, List.take_succ_cons] at own
                    obtain rfl := (List.cons.inj (List.cons.inj own).2).1
                    exact digit
  refine ⟨same ▸ .number still, ?_⟩
  rw [number, ← own]

/-- What starts a symbol does so with fewer runes behind it. -/
theorem StartsSymbol.of_front (starts : StartsSymbol first rest)
    (ahead : ∀ c, front? tail = some c → front? rest = some c) : StartsSymbol first tail where
  visible := starts.visible
  noComment slash :=
    ⟨fun second => (starts.noComment slash).1 (ahead _ second),
      fun second => (starts.noComment slash).2 (ahead _ second)⟩
  noLetter := starts.noLetter
  noDigit := starts.noDigit
  noFraction point := by
    cases second : front? tail with
    | none => rfl
    | some c => simpa [ahead c second] using starts.noFraction point
  noQuote := starts.noQuote

theorem echoes_symbol (starts : StartsSymbol first rest)
    (own : first :: tail = (first :: rest).take (symbol first.char (front? rest)).length) :
    Echoes (symbol first.char (front? rest)) first tail := by
  have alone (same : symbol first.char none = symbol first.char (front? rest)) :
      Branch false first [] (symbol first.char (front? rest)) :=
    same ▸ .symbol (starts.of_front (by simp [front?]))
  cases found : operator? first.char (front? rest) with
  | none =>
      have none := operator?_alone.2 found
      have same : symbol first.char .none = symbol first.char (front? rest) := by
        rw [symbol, symbol, none, found]
      have length : (symbol first.char (front? rest)).length = 1 := by rw [symbol, found]
      rw [length] at own
      obtain rfl := (List.cons.inj own).2
      refine ⟨alone same, ?_⟩
      rw [symbol, found]
      rfl
  | some operator =>
      obtain ⟨token, length⟩ := operator
      obtain ⟨spelling, one | two⟩ := operator?_spelling found
      · subst one
        have same : symbol first.char .none = symbol first.char (front? rest) := by
          rw [symbol, symbol, operator?_alone.1 token found, found]
        have length : (symbol first.char (front? rest)).length = 1 := by rw [symbol, found]
        rw [length] at own
        obtain rfl := (List.cons.inj own).2
        refine ⟨alone same, ?_⟩
        rw [symbol, found]
        exact spelling
      · subst two
        have length : (symbol first.char (front? rest)).length = 2 := by rw [symbol, found]
        have room := length_operator?_le found
        rw [length] at own
        cases rest with
        | nil => simp at room
        | cons next more =>
            obtain rfl := (List.cons.inj own).2
            refine ⟨.symbol (starts.of_front fun _ => id), ?_⟩
            rw [symbol, found]
            exact spelling

theorem Branch.echoes (branch : Branch newlineEnds first rest found)
    (verbatim : found.token.isVerbatim = true)
    (noNewline : found.token = .semicolon → found.lit ≠ "newline")
    (own : first :: tail = (first :: rest).take found.length) : Echoes found first tail := by
  cases branch with
  | newline => exact absurd rfl (noNewline rfl)
  | blanks layout _ => exact echoes_blanks layout own
  | comment slash second => exact echoes_comment slash second own
  | word letter => exact echoes_word letter own
  | number starts => exact echoes_number starts own
  | string _ =>
      unfold Recognized.string at verbatim
      dsimp only at verbatim
      split at verbatim <;> cases verbatim
  | template _ =>
      rcases token_templateFrom 0 {} ((first :: rest).drop 1) with closed | opened
      · rw [Recognized.template, closed] at verbatim
        cases verbatim
      · rw [Recognized.template, opened] at verbatim
        cases verbatim
  | symbol starts => exact echoes_symbol starts own

end Recognized

end Reckon
