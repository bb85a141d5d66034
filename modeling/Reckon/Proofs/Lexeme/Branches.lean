import Reckon.Proofs.Lexeme.Newlines

/-!
# The branches of the scanner

The first characters of a text decide what is recognized there: the scanner goes through eight cases.  The
cases exclude each other, so each of them says by itself what is recognized.
-/

namespace Reckon

/-! ## Characters of a class -/

namespace Text

theorem ne_of_passes {test : Char → Bool} {c other : Char} (passes : test c = true)
    (fails : test other = false) : c ≠ other := by
  rintro rfl
  exact Bool.eq_false_iff.mp fails passes

theorem toNat_of_isDigit {c : Char} (digit : isDigit c = true) : 48 ≤ c.toNat ∧ c.toNat ≤ 57 := by
  have bounds : '0' ≤ c ∧ c ≤ '9' := by simpa [isDigit] using digit
  exact ⟨bounds.1, bounds.2⟩

theorem isLetter_of_isDigit {c : Char} (digit : isDigit c = true) : isLetter c = false := by
  have bounds := toNat_of_isDigit digit
  have notLower : ¬ 'a' ≤ c := fun lower => by
    have : 97 ≤ c.toNat := lower
    omega
  have notUpper : ¬ 'A' ≤ c := fun upper => by
    have : 65 ≤ c.toNat := upper
    omega
  have notUnderscore : c ≠ '_' := ne_of_passes digit (by decide)
  have near : ¬128 ≤ c.toNat := by omega
  simp [isLetter, notLower, notUpper, notUnderscore, near]

end Text

open Text (Rune isLetter isDigit ne_of_passes isLetter_of_isDigit)

/-! ## Cases -/

namespace Recognized

variable {newlineEnds : Bool} {first : Rune} {rest : List Rune} {found : Recognized}

/-- The character at the front, with the one behind it, starts an operator, a delimiter or nothing. -/
structure StartsSymbol (first : Rune) (rest : List Rune) : Prop where
  visible : isLayout first.char = false
  noComment : first.char = '/' → front? rest ≠ some '/' ∧ front? rest ≠ some '*'
  noLetter : isLetter first.char = false
  noDigit : isDigit first.char = false
  noFraction : first.char = '.' → (front? rest).any isDigit = false
  noQuote : first.char ≠ '"' ∧ first.char ≠ singleQuote ∧ first.char ≠ backQuote

/-- What is recognized in each case. -/
inductive Branch (newlineEnds : Bool) (first : Rune) (rest : List Rune) : Recognized → Prop
  | newline : first.char = '\n' → newlineEnds = true →
      Branch newlineEnds first rest { token := .semicolon, lit := "newline", length := 1 }
  | blanks : isLayout first.char = true → (first.char = '\n' → newlineEnds = false) →
      Branch newlineEnds first rest (blanks newlineEnds (first :: rest))
  | comment : first.char = '/' → front? rest = some '/' ∨ front? rest = some '*' →
      Branch newlineEnds first rest (comment (first :: rest))
  | word : isLetter first.char = true → Branch newlineEnds first rest (word (first :: rest))
  | number : isDigit first.char = true ∨ first.char = '.' ∧ (front? rest).any isDigit = true →
      Branch newlineEnds first rest (number (first :: rest))
  | string : first.char = '"' ∨ first.char = singleQuote →
      Branch newlineEnds first rest (string first.char (first :: rest))
  | template : first.char = backQuote → Branch newlineEnds first rest (template (first :: rest))
  | symbol : StartsSymbol first rest → Branch newlineEnds first rest (symbol first.char (front? rest))

/-- What is recognized falls under one of the cases. -/
theorem branch_next (newlineEnds : Bool) (first : Rune) (rest : List Rune) :
    Branch newlineEnds first rest (next newlineEnds first rest) := by
  simp only [next]
  split
  · next newline =>
    obtain ⟨char, ends⟩ := Bool.and_eq_true_iff.mp newline
    exact .newline (beq_iff_eq.mp char) ends
  next noNewline =>
  split
  · next layout => exact .blanks layout fun char => by simpa [char] using noNewline
  next visible =>
  split
  · next comment =>
    obtain ⟨slash, second⟩ := Bool.and_eq_true_iff.mp comment
    exact .comment (beq_iff_eq.mp slash) (by simpa using second)
  next noComment =>
  split
  · next letter => exact .word letter
  next noLetter =>
  split
  · next number => exact .number (by simpa using number)
  next noNumber =>
  split
  · next quote => exact .string (by simpa using quote)
  next noQuote =>
  split
  · next quote => exact .template (beq_iff_eq.mp quote)
  next noTemplate =>
  simp only [Bool.or_eq_true, Bool.and_eq_true, beq_iff_eq, not_or, not_and] at noComment noNumber noQuote
  exact .symbol
    { visible := by simpa [isLayout] using visible
      noComment := noComment
      noLetter := by simpa using noLetter
      noDigit := by simpa using noNumber.1
      noFraction := fun point => by simpa using noNumber.2 point
      noQuote := ⟨noQuote.1, noQuote.2, by simpa using noTemplate⟩ }

/-! ## The cases exclude each other -/

theorem isLayout_of_passes {test : Char → Bool} (fails : [' ', '\t', '\r', '\n'].any test = false)
    {c : Char} (passes : test c = true) : isLayout c = false := by
  have other : ∀ blank ∈ [' ', '\t', '\r', '\n'], c ≠ blank := fun blank member =>
    ne_of_passes passes (by simpa using List.any_eq_false.mp fails blank member)
  simp only [List.forall_mem_cons] at other
  simp [isLayout, isBlank, other]

theorem next_of_letter (letter : isLetter first.char = true) :
    next newlineEnds first rest = word (first :: rest) := by
  have visible := isLayout_of_passes (by decide) letter
  have noSlash : first.char ≠ '/' := ne_of_passes letter (by decide)
  simp only [isLayout, Bool.or_eq_false_iff, beq_eq_false_iff_ne] at visible
  simp [next, visible, noSlash, letter]

theorem next_of_number
    (starts : isDigit first.char = true ∨ first.char = '.' ∧ (front? rest).any isDigit = true) :
    next newlineEnds first rest = number (first :: rest) := by
  rcases starts with digit | ⟨point, digit⟩
  · have visible := isLayout_of_passes (by decide) digit
    have noSlash : first.char ≠ '/' := ne_of_passes digit (by decide)
    simp only [isLayout, Bool.or_eq_false_iff, beq_eq_false_iff_ne] at visible
    simp [next, visible, noSlash, isLetter_of_isDigit digit, digit]
  · have noLetter : isLetter '.' = false := by decide
    simp [next, point, isBlank, noLetter, digit]

theorem next_of_comment (slash : first.char = '/')
    (second : front? rest = some '/' ∨ front? rest = some '*') :
    next newlineEnds first rest = comment (first :: rest) := by
  rw [next, if_neg (by simp [slash]), if_neg (by simp [slash, isBlank]), if_pos (by simpa [slash])]

theorem StartsSymbol.next_eq (starts : StartsSymbol first rest) :
    next newlineEnds first rest = symbol first.char (front? rest) := by
  obtain ⟨visible, noComment, noLetter, noDigit, noFraction, noQuote⟩ := starts
  have notComment : (first.char == '/' && (front? rest == some '/' || front? rest == some '*')) = false := by
    by_cases slash : first.char = '/'
    · simp [noComment slash]
    · simp [slash]
  have notFraction : (first.char == '.' && (front? rest).any isDigit) = false := by
    by_cases point : first.char = '.'
    · simp [noFraction point]
    · simp [point]
  simp only [isLayout, Bool.or_eq_false_iff, beq_eq_false_iff_ne] at visible
  simp only [next, notComment, notFraction, noLetter, noDigit]
  simp [visible, noQuote]

/-- A case says what is recognized. -/
theorem Branch.next_eq (branch : Branch newlineEnds first rest found) :
    next newlineEnds first rest = found := by
  cases branch with
  | newline char ends => rw [ends, next_of_newline char]
  | blanks layout continues => exact next_of_layout layout continues
  | comment slash second => exact next_of_comment slash second
  | word letter => exact next_of_letter letter
  | number starts => exact next_of_number starts
  | string quote =>
      have noLetter : isLetter '"' = false ∧ isLetter singleQuote = false := by decide
      have noDigit : isDigit '"' = false ∧ isDigit singleQuote = false := by decide
      rcases quote with quote | quote
      · simp [next, quote, isBlank, noLetter, noDigit]
      · simp only [next, quote, noLetter, noDigit]
        rfl
  | template quote =>
      have noLetter : isLetter backQuote = false := by decide
      have noDigit : isDigit backQuote = false := by decide
      simp only [next, quote, noLetter, noDigit]
      rfl
  | symbol starts => exact starts.next_eq

end Recognized

end Reckon
