import Reckon.Proofs.Lexeme.Moving
import Reckon.Proofs.Lexeme.Newlines
import Reckon.Proofs.Lexeme.Placing
import Reckon.Proofs.Text.Utf8

/-!
# Lexemes before a space or a newline

A text may be continued by a space or a newline and more.  The lexemes of the text stay what they
are, but for one at its end that is not finished there: blanks, a comment, and a string or a template
that is not closed.
-/

namespace Reckon

open Text (Rune isDigit isHexDigit isNameRest)
open Text.Rune

/-! ## Runes -/

namespace Text.Rune

variable {b0 b1 b2 ascii : UInt8} {rest : List UInt8}

/-- No longer sequence goes on with an ASCII character. -/
theorem not_continues_of_ascii (small : ascii < 0x80) :
    isContinuation ascii = false ∧ ∀ b0, isSecond b0 ascii = false := by
  have bound : ascii.toNat < 128 := small
  refine ⟨?_, fun b0 => ?_⟩
  · by_contra continues
    have low := (bounds_of_isContinuation (by simpa using continues)).1
    omega
  · by_contra second
    have low := bounds_of_isSecond (by simpa using second : isSecond b0 ascii = true)
    omega

/-- A sequence that an ASCII character breaks off starts with a stray byte. -/
theorem decode_cons_ascii (small : ascii < 0x80) (long : ¬b0 < 0x80) :
    decode (b0 :: ascii :: rest) = stray b0 :: decode (ascii :: rest) := by
  obtain ⟨notNext, notSecond⟩ := not_continues_of_ascii small
  have notTwo : ofTwo? b0 ascii = none := by simp [ofTwo?, notNext]
  rcases rest with _ | ⟨b2, _ | ⟨b3, rest⟩⟩
  · rw [decode.eq_def]
    simp only [long, if_false, notTwo]
  · have notThree : ofThree? b0 ascii b2 = none := by simp [ofThree?, notSecond]
    rw [decode.eq_def]
    simp only [long, if_false, notTwo, notThree]
  · have notThree : ofThree? b0 ascii b2 = none := by simp [ofThree?, notSecond]
    have notFour : ofFour? b0 ascii b2 b3 = none := by simp [ofFour?, notSecond]
    rw [decode.eq_def]
    simp only [long, if_false, notTwo, notThree, notFour]

theorem decode_cons_cons_ascii (small : ascii < 0x80) (long : ¬b0 < 0x80)
    (notTwo : ofTwo? b0 b1 = none) :
    decode (b0 :: b1 :: ascii :: rest) = stray b0 :: decode (b1 :: ascii :: rest) := by
  obtain ⟨notNext, -⟩ := not_continues_of_ascii small
  have notThree : ofThree? b0 b1 ascii = none := by simp [ofThree?, notNext]
  cases rest with
  | nil =>
      rw [decode.eq_def]
      simp only [long, if_false, notTwo, notThree]
  | cons b3 rest =>
      have notFour : ofFour? b0 b1 ascii b3 = none := by simp [ofFour?, notNext]
      rw [decode.eq_def]
      simp only [long, if_false, notTwo, notThree, notFour]

theorem decode_cons_cons_cons_ascii (small : ascii < 0x80) (long : ¬b0 < 0x80)
    (notTwo : ofTwo? b0 b1 = none) (notThree : ofThree? b0 b1 b2 = none) :
    decode (b0 :: b1 :: b2 :: ascii :: rest) = stray b0 :: decode (b1 :: b2 :: ascii :: rest) := by
  obtain ⟨notNext, -⟩ := not_continues_of_ascii small
  have notFour : ofFour? b0 b1 b2 ascii = none := by simp [ofFour?, notNext]
  rw [decode.eq_def]
  simp only [long, if_false, notTwo, notThree, notFour]

/-- An ASCII character is a rune whatever stands before it. -/
theorem decode_append_of_ascii (small : ascii < 0x80) (left rest : List UInt8) :
    decode (left ++ ascii :: rest) = decode left ++ decode (ascii :: rest) := by
  fun_induction decode left with
  | case1 => rfl
  | case2 b0 left short inductionHypothesis =>
      rw [List.cons_append, decode_one short, inductionHypothesis, List.cons_append]
  | case3 b0 long => exact decode_cons_ascii small long
  | case4 b0 long b1 left rune found inductionHypothesis =>
      rw [List.cons_append, List.cons_append, decode_two long found, inductionHypothesis,
        List.cons_append]
  | case5 b0 long b1 notTwo inductionHypothesis =>
      exact (decode_cons_cons_ascii small long notTwo).trans (congrArg _ inductionHypothesis)
  | case6 b0 long b1 notTwo b2 left rune found inductionHypothesis =>
      rw [List.cons_append, List.cons_append, List.cons_append, decode_three long notTwo found,
        inductionHypothesis, List.cons_append]
  | case7 b0 long b1 notTwo b2 notThree inductionHypothesis =>
      exact (decode_cons_cons_cons_ascii small long notTwo notThree).trans
        (congrArg _ inductionHypothesis)
  | case8 b0 long b1 notTwo b2 notThree b3 left rune found inductionHypothesis =>
      rw [List.cons_append, List.cons_append, List.cons_append, List.cons_append,
        decode_four long notTwo notThree found, inductionHypothesis, List.cons_append]
  | case9 b0 long b1 notTwo b2 notThree b3 left notFour inductionHypothesis =>
      have stray : decode (b0 :: b1 :: b2 :: b3 :: (left ++ ascii :: rest)) =
          stray b0 :: decode (b1 :: b2 :: b3 :: (left ++ ascii :: rest)) := by
        rw [decode.eq_def]
        simp only [long, if_false, notTwo, notThree, notFour]
      exact stray.trans (congrArg _ inductionHypothesis)

end Text.Rune

namespace Recognized

variable {space : Rune} {runes more : List Rune}

/-- A space or a newline. -/
def IsGap (rune : Rune) : Prop :=
  rune.char = ' ' ∨ rune.char = '\n'

theorem IsGap.fails (isGap : IsGap space) {test : Char → Bool}
    (stops : test ' ' = false ∧ test '\n' = false) : test space.char = false := by
  rcases isGap with char | char
  · rw [char, stops.1]
  · rw [char, stops.2]

theorem IsGap.ne (isGap : IsGap space) {c : Char} (other : c ≠ ' ' ∧ c ≠ '\n') : space.char ≠ c := by
  rcases isGap with char | char
  · rw [char]
    exact other.1.symm
  · rw [char]
    exact other.2.symm

/-! ## Numbers -/

theorem leading_append (isGap : IsGap space) {test : Char → Bool}
    (stops : test ' ' = false ∧ test '\n' = false) (runes more : List Rune) :
    leading test (runes ++ space :: more) = leading test runes := by
  induction runes with
  | nil => exact List.takeWhile_cons_of_neg (by rw [isGap.fails stops]; exact Bool.false_ne_true)
  | cons first rest inductionHypothesis =>
      unfold leading at inductionHypothesis ⊢
      rw [List.cons_append, List.takeWhile_cons, List.takeWhile_cons, inductionHypothesis]

theorem front?_append (isGap : IsGap space) {c : Char} (other : c ≠ ' ' ∧ c ≠ '\n')
    (runes more : List Rune) :
    (front? (runes ++ space :: more) == some c) = (front? runes == some c) := by
  cases runes with
  | nil => simp [front?, isGap.ne other]
  | cons first rest => rfl

theorem fractionLength_append (isGap : IsGap space) (runes more : List Rune) :
    fractionLength (runes ++ space :: more) = fractionLength runes := by
  cases runes with
  | nil => simp [fractionLength, isGap.ne (by decide : '.' ≠ ' ' ∧ '.' ≠ '\n')]
  | cons point rest =>
      simp only [List.cons_append, fractionLength,
        leading_append isGap (by decide : isDigit ' ' = false ∧ isDigit '\n' = false)]

theorem exponentLength_append (isGap : IsGap space) (runes more : List Rune) :
    exponentLength (runes ++ space :: more) = exponentLength runes := by
  have digits := leading_append isGap (by decide : isDigit ' ' = false ∧ isDigit '\n' = false)
  match runes with
  | [] =>
      cases more with
      | nil => rfl
      | cons next rest => rcases isGap with char | char <;> simp [exponentLength, char]
  | [mark] =>
      have noDigit : isDigit space.char = false := isGap.fails (by decide)
      rcases isGap with char | char <;> rw [char] at noDigit <;> simp [exponentLength, char, noDigit]
  | mark :: next :: rest =>
      have whole := digits (next :: rest) more
      rw [List.cons_append] at whole
      simp only [List.cons_append, exponentLength, digits, whole]

theorem length_leading_le (test : Char → Bool) (runes : List Rune) :
    (leading test runes).length ≤ runes.length :=
  List.IsPrefix.length_le (List.takeWhile_prefix _)

theorem take_cons_append (first : Rune) {rest : List Rune} {count : Nat}
    (within : count ≤ rest.length + 1) (more : List Rune) :
    (first :: (rest ++ more)).take count = (first :: rest).take count := by
  rw [← List.cons_append, List.take_append_of_le_length within]

theorem drop_append_of_leading {test : Char → Bool} (runes more : List Rune) :
    (runes ++ more).drop (leading test runes).length = runes.drop (leading test runes).length ++ more :=
  List.drop_append_of_le_length (length_leading_le test runes)

theorem fractionLength_le (runes : List Rune) : fractionLength runes ≤ runes.length := by
  cases runes with
  | nil => exact Nat.le_refl _
  | cons point rest =>
      have digits := length_leading_le isDigit rest
      simp only [fractionLength]
      split
      · exact Nat.succ_le_succ digits
      · exact Nat.zero_le _

theorem decimalLength_append (isGap : IsGap space) (runes more : List Rune) :
    numberLength.decimalLength (runes ++ space :: more) = numberLength.decimalLength runes := by
  have digits := length_leading_le isDigit runes
  have fraction := fractionLength_le (runes.drop (leading isDigit runes).length)
  rw [List.length_drop] at fraction
  simp only [numberLength.decimalLength,
    leading_append isGap (by decide : isDigit ' ' = false ∧ isDigit '\n' = false),
    drop_append_of_leading, fractionLength_append isGap]
  rw [List.drop_append_of_le_length (by omega), exponentLength_append isGap]

theorem exponentLength_le (runes : List Rune) : exponentLength runes ≤ runes.length := by
  match runes with
  | [] | [_] => exact Nat.zero_le _
  | mark :: next :: rest =>
      have first := length_leading_le isDigit (next :: rest)
      have second := length_leading_le isDigit rest
      simp only [exponentLength, List.length_cons] at first ⊢
      split <;> (try split) <;> (try split) <;> omega

theorem decimalLength_le (runes : List Rune) :
    numberLength.decimalLength runes ≤ runes.length := by
  have whole := length_leading_le isDigit runes
  have fraction := fractionLength_le (runes.drop (leading isDigit runes).length)
  have exponent := exponentLength_le (runes.drop ((leading isDigit runes).length +
    fractionLength (runes.drop (leading isDigit runes).length)))
  simp only [List.length_drop] at fraction exponent
  simp only [numberLength.decimalLength]
  omega

theorem numberLength_le (runes : List Rune) : numberLength runes ≤ runes.length := by
  have decimal := decimalLength_le runes
  unfold numberLength
  split
  · next zero mark rest =>
    have digits := length_leading_le isHexDigit rest
    split
    · simp only [List.length_cons]
      omega
    · exact decimal
  · exact decimal

theorem numberLength_append (isGap : IsGap space) (runes more : List Rune) :
    numberLength (runes ++ space :: more) = numberLength runes := by
  have decimal := decimalLength_append isGap runes more
  have digits := leading_append isGap (by decide : isHexDigit ' ' = false ∧ isHexDigit '\n' = false)
  match runes with
  | [] =>
      cases more with
      | nil => simpa [numberLength] using decimal
      | cons next rest => rcases isGap with char | char <;> simpa [numberLength, char] using decimal
  | [zero] => rcases isGap with char | char <;> simpa [numberLength, char] using decimal
  | zero :: mark :: rest =>
      simp only [List.cons_append] at decimal ⊢
      simp only [numberLength, digits, decimal]

/-! ## Strings -/

theorem hexEscape_append (isGap : IsGap space) (count : Nat) (runes more : List Rune) :
    hexEscape count (runes ++ space :: more) = hexEscape count runes := by
  have digits : leading isHexDigit ((runes ++ space :: more).take count) =
      leading isHexDigit (runes.take count) := by
    rw [List.take_append]
    cases left : count - runes.length with
    | zero => simp
    | succ left => exact leading_append isGap (by decide) _ _
  simp only [hexEscape, digits]

theorem escape_append (isGap : IsGap space) (some : runes ≠ []) (more : List Rune) :
    escape (runes ++ space :: more) = escape runes := by
  cases runes with
  | nil => exact absurd rfl some
  | cons first rest => simp only [List.cons_append, escape, hexEscape_append isGap]

/-- A string that is closed, or that ends before its text does. -/
theorem quotation_append (isGap : IsGap space) {quote : Char} {used : Nat} {runes : List Rune}
    (ends : (quotation quote used runes).closed = true ∨
      (quotation quote used runes).length < runes.length) (more : List Rune) :
    quotation quote used (runes ++ space :: more) = quotation quote used runes := by
  fun_induction quotation quote used runes with
  | case1 => simp at ends
  | case2 used first rest tail inductionHypothesis =>
      have same := inductionHypothesis (by simpa using ends)
      simp only [List.cons_append, quotation, same, tail]
  | case3 first rest isQuote => simp only [List.cons_append, quotation, isQuote, if_true]
  | case4 first rest notQuote isEscape c used escapes tail inductionHypothesis =>
      have same := inductionHypothesis (by simpa using ends)
      have some : rest ≠ [] := by
        rintro rfl
        cases used <;> simp [tail, quotation] at ends
      simp only [List.cons_append, quotation, notQuote, isEscape, escape_append isGap some, escapes,
        same, tail]
      rfl
  | case5 first rest notQuote notEscape isNewline =>
      simp only [List.cons_append, quotation, notQuote, notEscape, isNewline]
      rfl
  | case6 first rest notQuote notEscape notNewline tail inductionHypothesis =>
      have same := inductionHypothesis (by simpa using ends)
      simp only [List.cons_append, quotation, notQuote, notEscape, notNewline, same, tail]
      rfl

/-! ## Templates -/

/-- Whether a replacement has its closing brace. -/
def ReplacementEnd.isClosed : ReplacementEnd → Bool
  | .closed _ => true
  | .unclosed _ => false

theorem ReplacementEnd.isClosed_succ (found : ReplacementEnd) :
    found.succ.isClosed = found.isClosed := by
  cases found <;> rfl

theorem replacementEnd_append {mode : ReplacementMode} {depth : Nat} {runes : List Rune}
    (closed : (replacementEnd mode depth runes).isClosed = true) (more : List Rune) :
    replacementEnd mode depth (runes ++ more) = replacementEnd mode depth runes := by
  fun_induction replacementEnd mode depth runes with
  | case1 | case2 | case3 => cases closed
  | case5 => simp_all [replacementEnd]
  | _ =>
      rename_i inductionHypothesis
      rw [ReplacementEnd.isClosed_succ] at closed
      have same := inductionHypothesis closed
      simp_all [replacementEnd]

/-- A template that is closed. -/
theorem templateFrom_append (isGap : IsGap space) {used : Nat} {state : TemplateState}
    {runes : List Rune} (closed : (templateFrom used state runes).token = .template)
    (more : List Rune) :
    templateFrom used state (runes ++ space :: more) = templateFrom used state runes := by
  fun_induction templateFrom used state runes with
  | case1 => cases closed
  | case2 used state rune rest inductionHypothesis =>
      rw [List.cons_append, templateFrom, inductionHypothesis closed]
  | case3 state rune rest read isQuote =>
      rw [List.cons_append, templateFrom]
      simp only [isQuote, if_true, read]
  | case4 state rune rest read notQuote isEscape c used escapes inductionHypothesis =>
      have some : rest ≠ [] := by
        rintro rfl
        cases used <;> simp [templateFrom] at closed
      rw [List.cons_append, templateFrom]
      simp only [notQuote, isEscape, escape_append isGap some, escapes]
      exact inductionHypothesis closed
  | case5 state rune rest read notQuote notEscape opens parts length ended replacement
      inductionHypothesis =>
    have opening := front?_append isGap (by decide : '\x7b' ≠ ' ' ∧ '\x7b' ≠ '\n') rest more
    have ahead : (rest ++ space :: more).drop 1 = rest.drop 1 ++ space :: more := by
      cases rest with
      | nil => simp [front?] at opens
      | cons next rest => rfl
    have found : replacementEnd .code 0 (rest.drop 1 ++ space :: more) = .closed length := by
      rw [replacementEnd_append (by rw [ended]; rfl), ended]
    have within : length ≤ (rest.drop 1).length := by
      obtain ⟨body, closing, after, split, size, -⟩ := exists_closing_of_closed ended
      rw [split, ← size, List.length_append]
      exact Nat.le_add_right _ _
    rw [List.cons_append, templateFrom]
    simp only [notQuote, notEscape, opening, opens, ahead, found, List.take_append_of_le_length within,
      if_true]
    exact inductionHypothesis closed
  | case6 => cases closed
  | case7 state rune rest read notQuote notEscape notOpening inductionHypothesis =>
      have opening := front?_append isGap (by decide : '\x7b' ≠ ' ' ∧ '\x7b' ≠ '\n') rest more
      rw [List.cons_append, templateFrom]
      simp only [notQuote, notEscape, opening, notOpening]
      exact inductionHypothesis closed

/-! ## Comments -/

/-- Whether a block comment ends. -/
def closesBlock : List Rune → Bool
  | [] => false
  | first :: rest => (first.char == '*' && front? rest == some '/') || closesBlock rest

theorem blockCommentLength_append (isGap : IsGap space) {runes : List Rune}
    (closed : closesBlock runes = true) (more : List Rune) :
    blockCommentLength (runes ++ space :: more) = blockCommentLength runes := by
  induction runes with
  | nil => cases closed
  | cons first rest inductionHypothesis =>
      have slash := front?_append isGap (by decide : '/' ≠ ' ' ∧ '/' ≠ '\n') rest more
      simp only [List.cons_append, blockCommentLength, slash]
      split
      · rfl
      · next other =>
        rw [inductionHypothesis (by simpa [closesBlock, other] using closed)]

theorem blockCommentLength_le (runes : List Rune) : blockCommentLength runes ≤ runes.length := by
  induction runes with
  | nil => exact Nat.le_refl _
  | cons first rest inductionHypothesis =>
      rw [blockCommentLength]
      split
      · next closes =>
        cases rest with
        | nil => simp [front?] at closes
        | cons second rest =>
            rw [List.length_cons, List.length_cons]
            omega
      · exact Nat.succ_le_succ inductionHypothesis

/-- A block comment that is not closed goes on in what follows it, whatever that starts with. -/
theorem blockCommentLength_append_of_open {runes : List Rune} (opened : closesBlock runes = false)
    {next : Rune} (notSlash : next.char ≠ '/') (more : List Rune) :
    blockCommentLength (runes ++ next :: more) = runes.length + blockCommentLength (next :: more) := by
  induction runes with
  | nil => simp
  | cons first rest inductionHypothesis =>
      obtain ⟨here, later⟩ := Bool.or_eq_false_iff.mp opened
      have slash : (front? (rest ++ next :: more) == some '/') = (front? rest == some '/') := by
        cases rest with
        | nil => simp [front?, notSlash]
        | cons _ _ => rfl
      simp only [List.cons_append, blockCommentLength, slash, here, inductionHypothesis later]
      simp only [Bool.false_eq_true, if_false, List.length_cons]
      omega

/-! ## The next lexeme -/

variable {newlineEnds : Bool} {first : Rune} {rest : List Rune}

/-- Whether the lexeme at the front of a text is finished, so that a space after the text does not belong
to it. -/
structure IsFinished (newlineEnds : Bool) (first : Rune) (rest : List Rune) : Prop where
  /-- Blanks end before the text does. -/
  blank : (next newlineEnds first rest).token = .space →
    (next newlineEnds first rest).length < rest.length + 1
  /-- What is not closed ends before the text does. -/
  quoted : (next newlineEnds first rest).token = .badString →
    (next newlineEnds first rest).length < rest.length + 1
  /-- A line comment ends before the text does, and a block comment is closed. -/
  comment : (next newlineEnds first rest).token = .comment →
    if front? rest = some '/' then (next newlineEnds first rest).length < rest.length + 1
    else closesBlock (rest.drop 1) = true

theorem leading_append_of_lt {test : Char → Bool} {runes : List Rune}
    (ends : (leading test runes).length < runes.length) (more : List Rune) :
    leading test (runes ++ more) = leading test runes := by
  induction runes with
  | nil => simp [leading] at ends
  | cons first rest inductionHypothesis =>
      unfold leading at ends inductionHypothesis ⊢
      rw [List.cons_append, List.takeWhile_cons, List.takeWhile_cons]
      rw [List.takeWhile_cons] at ends
      split
      · next passes =>
        rw [if_pos passes] at ends
        rw [inductionHypothesis (by simpa using ends)]
      · rfl

theorem blanks_append {newlineEnds : Bool} {runes : List Rune}
    (ends : (blanks newlineEnds runes).length < runes.length) (more : List Rune) :
    blanks newlineEnds (runes ++ more) = blanks newlineEnds runes := by
  simp only [blanks, leading_append_of_lt ends more]

theorem comment_append (isGap : IsGap space) {first : Rune} {rest : List Rune}
    (ends : if front? rest = some '/' then (comment (first :: rest)).length < rest.length + 1
      else closesBlock (rest.drop 1) = true) (more : List Rune) :
    comment (first :: (rest ++ space :: more)) = comment (first :: rest) := by
  have slash := front?_append isGap (by decide : '/' ≠ ' ' ∧ '/' ≠ '\n') rest more
  by_cases line : front? rest = some '/'
  · have ends : (comment (first :: rest)).length < (first :: rest).length := by
      simpa [line] using ends
    have length : (comment (first :: rest)).length = (leading (· != '\n') (first :: rest)).length := by
      simp [comment, line]
    rw [length] at ends
    have taken := leading_append_of_lt ends (space :: more)
    rw [List.cons_append] at taken
    have within := take_cons_append first (Nat.le_of_lt ends) (space :: more)
    simp [comment, line, slash, taken, within]
  · rw [if_neg line] at ends
    cases rest with
    | nil => cases ends
    | cons second rest =>
        rw [List.drop_succ_cons, List.drop_zero] at ends
        have length := blockCommentLength_append isGap ends more
        have within : 2 + blockCommentLength rest ≤ (first :: second :: rest).length := by
          have inside := blockCommentLength_le rest
          rw [List.length_cons, List.length_cons]
          omega
        have taken := take_cons_append first within (space :: more)
        have line' : second.char ≠ '/' := by simpa [front?] using line
        rw [List.cons_append] at taken
        simp [comment, front?, line', length, taken]

theorem string_append (isGap : IsGap space) {quote : Char} {first : Rune} {rest : List Rune}
    (ends : (string quote (first :: rest)).token = .badString →
      (string quote (first :: rest)).length < rest.length + 1) (more : List Rune) :
    string quote (first :: (rest ++ space :: more)) = string quote (first :: rest) := by
  have body : quotation quote 0 (rest ++ space :: more) = quotation quote 0 rest := by
    refine quotation_append isGap ?_ more
    cases closed : (quotation quote 0 rest).closed with
    | true => exact .inl rfl
    | false => exact .inr (by simpa [string, closed] using ends)
  simp only [string, List.drop_succ_cons, List.drop_zero, body]

theorem word_append (isGap : IsGap space) (first : Rune) (rest more : List Rune) :
    word (first :: (rest ++ space :: more)) = word (first :: rest) := by
  have taken := leading_append isGap
    (by decide : isNameRest ' ' = false ∧ isNameRest '\n' = false) (first :: rest) more
  rw [List.cons_append] at taken
  simp only [word, taken]

theorem number_append (isGap : IsGap space) (first : Rune) (rest more : List Rune) :
    number (first :: (rest ++ space :: more)) = number (first :: rest) := by
  have length := numberLength_append isGap (first :: rest) more
  have taken := take_cons_append first (numberLength_le (first :: rest)) (space :: more)
  rw [List.cons_append] at length
  simp only [number, length, taken]

/-- A template that is not closed takes all that is left. -/
theorem length_templateFrom_of_badString {used : Nat} {state : TemplateState} {runes : List Rune}
    (opened : (templateFrom used state runes).token = .badString) :
    state.length + runes.length ≤ (templateFrom used state runes).length := by
  fun_induction templateFrom used state runes with
  | case1 => exact Nat.le_refl _
  | case3 => cases opened
  | case6 state rune rest read =>
      simp only [read, List.length_cons]
      omega
  | case2 used state rune rest inductionHypothesis =>
      have whole := inductionHypothesis opened
      simp only [List.length_cons] at whole ⊢
      omega
  | case4 state rune rest read _ _ c used _ inductionHypothesis
  | case5 state rune rest read _ _ _ parts length _ replacement inductionHypothesis
  | case7 state rune rest read _ _ _ inductionHypothesis =>
      have whole := inductionHypothesis opened
      simp only [read, List.length_cons] at whole ⊢
      omega

theorem template_append (isGap : IsGap space) {first : Rune} {rest : List Rune}
    (ends : (template (first :: rest)).token = .badString →
      (template (first :: rest)).length < rest.length + 1) (more : List Rune) :
    template (first :: (rest ++ space :: more)) = template (first :: rest) := by
  rcases token_templateFrom 0 {} rest with closed | opened
  · exact templateFrom_append isGap closed more
  · have short := ends opened
    have long := length_templateFrom_of_badString opened
    change (templateFrom 0 {} rest).length < _ at short
    change 1 + rest.length ≤ _ at long
    omega

theorem symbol_append (isGap : IsGap space) (c : Char) (rest more : List Rune) :
    symbol c (front? (rest ++ space :: more)) = symbol c (front? rest) := by
  cases rest with
  | nil =>
      have none : operator? c (some space.char) = operator? c none := by
        rcases isGap with char | char <;> rw [char] <;> unfold operator? <;> split <;> rfl
      simp only [List.nil_append, front?, List.head?_cons, Option.map_some, symbol, none]
      rfl
  | cons _ _ => rfl

theorem next_append (isGap : IsGap space) (finished : IsFinished newlineEnds first rest)
    (more : List Rune) :
    next newlineEnds first (rest ++ space :: more) = next newlineEnds first rest := by
  have slash := front?_append isGap (by decide : '/' ≠ ' ' ∧ '/' ≠ '\n') rest more
  have star := front?_append isGap (by decide : '*' ≠ ' ' ∧ '*' ≠ '\n') rest more
  have digit : (front? (rest ++ space :: more)).any isDigit = (front? rest).any isDigit := by
    cases rest with
    | nil => simp [front?, isGap.fails (by decide : isDigit ' ' = false ∧ isDigit '\n' = false)]
    | cons _ _ => rfl
  obtain ⟨blank, quoted, closed⟩ := finished
  simp only [next] at blank quoted closed ⊢
  rw [slash, star, digit]
  split
  · rfl
  next noNewline =>
  rw [if_neg noNewline] at blank quoted closed
  split
  · next isLayout =>
    rw [if_pos isLayout] at blank
    exact blanks_append (blank rfl) _
  next notLayout =>
  rw [if_neg notLayout] at blank quoted closed
  split
  · next isComment =>
    rw [if_pos isComment] at closed
    exact comment_append isGap (closed rfl) more
  next notComment =>
  rw [if_neg notComment] at quoted
  split
  · exact word_append isGap first rest more
  next notWord =>
  rw [if_neg notWord] at quoted
  split
  · exact number_append isGap first rest more
  next notNumber =>
  rw [if_neg notNumber] at quoted
  split
  · next isString =>
    rw [if_pos isString] at quoted
    exact string_append isGap quoted more
  next notString =>
  rw [if_neg notString] at quoted
  split
  · next isTemplate =>
    rw [if_pos isTemplate] at quoted
    exact template_append isGap quoted more
  · exact symbol_append isGap _ rest more

/-! ## Lengths -/

theorem length_quotation_le (quote : Char) (used : Nat) (runes : List Rune) :
    (quotation quote used runes).length ≤ runes.length := by
  fun_induction quotation quote used runes with
  | case1 => exact Nat.zero_le _
  | case3 | case5 => simp
  | case2 used first rest tail inductionHypothesis
  | case4 first rest _ _ c used _ tail inductionHypothesis
  | case6 first rest _ _ _ tail inductionHypothesis => exact Nat.succ_le_succ inductionHypothesis

theorem length_templateFrom_le (used : Nat) (state : TemplateState) (runes : List Rune) :
    (templateFrom used state runes).length ≤ state.length + runes.length := by
  fun_induction templateFrom used state runes with
  | case1 => exact Nat.le_refl _
  | case3 state rune rest read | case6 state rune rest read =>
      simp only [read, List.length_cons]
      omega
  | case2 used state rune rest inductionHypothesis =>
      simp only [List.length_cons] at inductionHypothesis ⊢
      omega
  | case4 state rune rest read _ _ c used _ inductionHypothesis
  | case5 state rune rest read _ _ _ parts length _ replacement inductionHypothesis
  | case7 state rune rest read _ _ _ inductionHypothesis =>
      simp only [read, List.length_cons] at inductionHypothesis ⊢
      omega

theorem length_symbol_le (c : Char) (rest : List Rune) :
    (symbol c (front? rest)).length ≤ rest.length + 1 := by
  unfold symbol
  split
  · next token length found =>
    rcases operator?_cases found with ⟨rfl, -⟩ | ⟨rfl, second, follows, -⟩
    · exact Nat.succ_le_succ (Nat.zero_le _)
    · cases rest with
      | nil => cases follows
      | cons _ rest => exact Nat.succ_le_succ (Nat.succ_le_succ (Nat.zero_le _))
  · exact Nat.succ_le_succ (Nat.zero_le _)

/-- No lexeme takes more than there is. -/
theorem length_next_le (newlineEnds : Bool) (first : Rune) (rest : List Rune) :
    (next newlineEnds first rest).length ≤ rest.length + 1 := by
  simp only [next]
  split
  · exact Nat.succ_le_succ (Nat.zero_le _)
  split
  · exact length_leading_le _ (first :: rest)
  split
  · next isComment =>
    cases rest with
    | nil => simp [front?] at isComment
    | cons second rest =>
        have inside := blockCommentLength_le rest
        dsimp only [comment]
        split
        · exact length_leading_le _ (first :: second :: rest)
        · simp only [List.drop_succ_cons, List.drop_zero, List.length_cons]
          omega
  split
  · exact length_leading_le _ (first :: rest)
  split
  · exact numberLength_le (first :: rest)
  split
  · exact Nat.succ_le_succ (length_quotation_le _ 0 rest)
  split
  · have whole := length_templateFrom_le 0 {} rest
    exact Nat.le_trans whole (by simp [Nat.add_comm])
  · exact length_symbol_le _ rest

/-- What is recognized does not reach past the text. -/
theorem IsFinished.overrun_eq_zero (finished : IsFinished newlineEnds first rest) :
    (next newlineEnds first rest).overrun = 0 := by
  rcases (isReadFrom_next newlineEnds first rest).overrun with none | ⟨bad, -, whole, -⟩
  · exact none
  · have short := finished.quoted bad
    simp only [List.length_cons] at whole
    omega

/-- Behind a replacement there are a brace and a quote. -/
theorem IsFinished.replacement_le (finished : IsFinished newlineEnds first rest)
    {replacement : Replacement} (member : replacement ∈ (next newlineEnds first rest).replacements) :
    replacement.start + replacement.body.length + 2 ≤ rest.length + 1 := by
  have within := length_next_le newlineEnds first rest
  rcases next_cases newlineEnds first rest with ⟨-, isTemplate⟩ | plain
  · have quoted := finished.quoted
    rw [isTemplate] at quoted within member
    rcases token_templateFrom 0 {} rest with closed | opened
    · have stop := (braced_of_closed (reads_quote first rest) closed).stop_le_of_mem member
      change (templateFrom 0 {} rest).length ≤ _ at within
      omega
    · have short := quoted opened
      have long := length_templateFrom_of_badString opened
      change (templateFrom 0 {} rest).length < _ at short
      change 1 + rest.length ≤ _ at long
      omega
  · rw [plain.replacements_eq_nil] at member
    cases member

end Recognized

/-! ## Scanning a text that goes on -/

namespace Lexeme

open Recognized

variable {newlineEnds : Bool} {state : ScanState} {position : Position} {space first : Rune}
  {rest runes : List Rune}

theorem stopAt_append (isGap : IsGap space) (finished : IsFinished newlineEnds first rest)
    (more : List Rune) :
    stopAt newlineEnds position first (rest ++ space :: more) =
      stopAt newlineEnds position first rest := by
  have taken := take_cons_append first (length_next_le newlineEnds first rest) (space :: more)
  rw [stopAt, stopAt, next_append isGap finished, taken]

theorem lexemeAt_append (isGap : IsGap space) (finished : IsFinished newlineEnds first rest)
    (more : List Rune) :
    lexemeAt newlineEnds position first (rest ++ space :: more) =
      lexemeAt newlineEnds position first rest := by
  have braced := (isReadFrom_next newlineEnds first rest).braced
  rw [lexemeAt, lexemeAt, stopAt_append isGap finished, next_append isGap finished]
  simp only [take_cons_append first (length_next_le newlineEnds first rest)]
  congr 1
  refine List.map_congr_left fun replacement member => ?_
  have within : replacement.start ≤ (first :: rest).length := by
    obtain ⟨before, dollar, opening, closing, after, split, start, -⟩ := braced.isBraced_of_mem member
    rw [split, start, List.length_append]
    simp
  rw [take_cons_append first within]

/-- A finished lexeme stays in place if all places in the text do. -/
theorem relocate_lexemeAt {move : Relocation} (finished : IsFinished newlineEnds first rest)
    (wide : ∀ rune ∈ first :: rest, 0 < rune.width)
    (keeps : ∀ other : Position, other.Before (position.advanceAll (first :: rest)) →
      move other = other) :
    (lexemeAt newlineEnds position first rest).relocate move =
      lexemeAt newlineEnds position first rest := by
  let found := next newlineEnds first rest
  have start : move position = position := keeps _ (Position.before_advanceAll _ _)
  have stop : move (stopAt newlineEnds position first rest) =
      stopAt newlineEnds position first rest := by
    refine keeps _ ?_
    rw [stopAt, finished.overrun_eq_zero, Position.overrun_zero]
    have reached := Position.before_advanceAll (position.advanceAll ((first :: rest).take found.length))
      ((first :: rest).drop found.length)
    rwa [← Position.advanceAll_append, List.take_append_drop] at reached
  have subs : (lexemeAt newlineEnds position first rest).subs.map (List.map (relocate move)) =
      (lexemeAt newlineEnds position first rest).subs := by
    simp only [lexemeAt, List.map_map]
    refine List.map_congr_left fun replacement member => ?_
    have braced := (isReadFrom_next newlineEnds first rest).braced.isBraced_of_mem member
    have room := finished.replacement_le member
    -- The text of the replacement, and what is behind it.
    let front := (first :: rest).take replacement.start
    let behind := ((first :: rest).drop replacement.start).drop replacement.body.length
    have whole : first :: rest = front ++ (replacement.body ++ behind) := by
      conv_lhs => rw [← List.take_append_drop replacement.start (first :: rest),
        ← List.take_append_drop replacement.body.length ((first :: rest).drop replacement.start),
        ← braced.body_eq]
    have follows : move.Follows (position.advanceAll front) replacement.body := by
      have wideBehind : ∀ rune ∈ behind, 0 < rune.width := fun rune member =>
        wide rune (List.mem_of_mem_drop (List.mem_of_mem_drop member))
      refine Relocation.follows_of_keeps wideBehind ?_ ?_
      · simp only [behind, List.length_drop, List.length_cons]
        omega
      · rw [← Position.advanceAll_append, ← whole]
        exact keeps
    have reached : (position.advanceAll front).Before (position.advanceAll (first :: rest)) := by
      rw [whole, Position.advanceAll_append]
      exact Position.before_advanceAll _ _
    have moved : scanned {} _ _ = _ := scanned_relocate follows
    rw [keeps _ reached] at moved
    exact moved.symm
  simp only [lexemeAt] at subs
  simp only [lexemeAt, relocate, relocateSubs_eq_map, Span.relocate, start, stop, subs]

/-- What some runes are scanned into if they go on: the lexemes that are finished, and from the rest on
whatever follows. -/
structure Leaves (state : ScanState) (position : Position) (runes : List Rune) (front : List Lexeme)
    (place : Position) (tail : List Rune) : Prop where
  /-- The lexeme at the front of the rest is not finished. -/
  unfinished : ∀ first rest, tail = first :: rest →
    ¬ IsFinished (state.afterAll front).newlineEnds first rest
  /-- The finished lexemes are those at the front. -/
  scanned_eq : scanned state position runes = front ++ scanned (state.afterAll front) place tail
  /-- They are so if the text goes on, too. -/
  scanned_append : ∀ (space : Rune) (more : List Rune), IsGap space →
    scanned state position (runes ++ space :: more) =
      front ++ scanned (state.afterAll front) place (tail ++ space :: more)
  /-- The rest is at the end of the runes. -/
  place_eq : place.advanceAll tail = position.advanceAll runes
  /-- The finished lexemes stay in place if all places in the text do. -/
  map_relocate : ∀ move : Relocation, (∀ rune ∈ runes, 0 < rune.width) →
    (∀ other : Position, other.Before (position.advanceAll runes) → move other = other) →
    front.map (relocate move) = front

theorem exists_leaves (state : ScanState) (position : Position) (runes : List Rune) :
    ∃ front place tail, Leaves state position runes front place tail := by
  induction runes using scanned_induction generalizing state position with
  | nil => exact ⟨[], position, [], nofun, rfl, fun _ _ _ => rfl, rfl, fun _ _ _ => rfl⟩
  | cons first rest inductionHypothesis =>
      by_cases finished : IsFinished state.newlineEnds first rest
      · let found := next state.newlineEnds first rest
        obtain ⟨front, place, tail, leaves⟩ := inductionHypothesis state.newlineEnds
          (state.after found.token) (stopAt state.newlineEnds position first rest)
        refine ⟨lexemeAt state.newlineEnds position first rest :: front, place, tail, ?_⟩
        have reached : (stopAt state.newlineEnds position first rest).advanceAll
            ((first :: rest).drop found.length) = position.advanceAll (first :: rest) := by
          rw [stopAt, finished.overrun_eq_zero, Position.overrun_zero, ← Position.advanceAll_append,
            List.take_append_drop]
        constructor
        · exact leaves.unfinished
        · rw [scanned_cons, leaves.scanned_eq]
          rfl
        · intro space more isGap
          have dropped : (first :: (rest ++ space :: more)).drop found.length =
              (first :: rest).drop found.length ++ space :: more := by
            rw [← List.cons_append, List.drop_append_of_le_length (length_next_le _ first rest)]
          rw [List.cons_append, scanned_cons, lexemeAt_append isGap finished,
            stopAt_append isGap finished, next_append isGap finished, dropped,
            leaves.scanned_append space more isGap]
          rfl
        · exact leaves.place_eq.trans reached
        · intro move wide keeps
          rw [List.map_cons, relocate_lexemeAt finished wide keeps, leaves.map_relocate move
            (fun rune member => wide rune (List.mem_of_mem_drop member)) (by rw [reached]; exact keeps)]
      · refine ⟨[], position, first :: rest, ?_, rfl, fun _ _ _ => rfl, rfl, fun _ _ _ => rfl⟩
        rintro _ _ ⟨⟩
        exact finished

end Lexeme

end Reckon
