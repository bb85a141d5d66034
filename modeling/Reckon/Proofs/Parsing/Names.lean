import Reckon.Plugin.Manifest
import Reckon.Proofs.Lexeme.Payload
import Reckon.Proofs.Parsing.Entrances

/-!
# Names

Whether a text is a name is decided by parsing it: it is one if the whole text reads as the variable of
this name.  The parser never fails and passes over blanks, comments and semicolons, so much reads as a
variable; but the variable has the spelling of one lexeme, and that is an identifier.
-/

namespace Reckon

open Text (Rune isLetter isDigit isNameRest)

/-- The reserved words. -/
def reservedWords : List String :=
  ["await", "break", "continue", "else", "false", "for", "if", "in", "let", "null", "return", "true",
    "while"]

/-- Whether a text is an identifier: a letter, then letters and digits, and no reserved word. -/
def isIdentifier (text : String) : Bool :=
  match text.toList with
  | [] => false
  | first :: rest =>
      isLetter first && rest.all (fun c => isLetter c || isDigit c) && !reservedWords.contains text

theorem spelling_keywords : Token.keywords.map Token.spelling = reservedWords := by
  decide

theorem ofWord_eq_name_iff (word : String) : Token.ofWord word = .name ↔ word ∉ reservedWords := by
  rw [Token.ofWord, ← spelling_keywords]
  cases found : Token.keywords.find? fun token => token.spelling == word with
  | none =>
      have other := List.find?_eq_none.mp found
      simpa using other
  | some token =>
      have member := List.mem_of_find?_eq_some found
      have keyword : ∀ token ∈ Token.keywords, token ≠ .name := by decide
      have same : token.spelling = word := by simpa using List.find?_some found
      have reserved : word ∈ Token.keywords.map Token.spelling := List.mem_map.mpr ⟨token, member, same⟩
      simp [keyword token member, reserved]

theorem isIdentifier_eq_true_iff {text : String} :
    isIdentifier text = true ↔
      ∃ first rest, text.toList = first :: rest ∧ isLetter first = true ∧
        (∀ c ∈ rest, isNameRest c = true) ∧ Token.ofWord text = .name := by
  rw [isIdentifier]
  cases chars : text.toList with
  | nil => simp
  | cons first rest =>
      simp [ofWord_eq_name_iff, isNameRest, and_assoc]

/-! ## Lexemes that are names -/

section Recognized

open Recognized

theorem operator?_ne_name {c : Char} {following : Option Char} {token : Token} {length : Nat}
    (found : operator? c following = some (token, length)) : token ≠ .name := by
  have noName : ∀ sign ∈ operators, sign ≠ .name := by decide
  exact noName token (token_mem_operators found)

/-- Names start with letters. -/
theorem next_eq_word_of_name {newlineEnds : Bool} {first : Rune} {rest : List Rune}
    (isName : (next newlineEnds first rest).token = .name) :
    isLetter first.char = true ∧ next newlineEnds first rest = word (first :: rest) := by
  have branch := branch_next newlineEnds first rest
  generalize next newlineEnds first rest = found at branch isName
  cases branch with
  | newline | blanks | comment | number => cases isName
  | word letter => exact ⟨letter, rfl⟩
  | string =>
      rcases token_string first.char (first :: rest) with closed | opened
      · rw [closed] at isName
        cases isName
      · rw [opened] at isName
        cases isName
  | template =>
      rcases token_templateFrom 0 {} ((first :: rest).drop 1) with closed | opened
      · rw [template, closed] at isName
        cases isName
      · rw [template, opened] at isName
        cases isName
  | symbol =>
      unfold symbol at isName
      split at isName
      · next found => exact absurd isName (operator?_ne_name found)
      · cases isName

theorem isIdentifier_word {first : Rune} {rest : List Rune} (letter : isLetter first.char = true)
    (isName : (word (first :: rest)).token = .name) :
    isIdentifier (word (first :: rest)).lit = true := by
  have continues : isNameRest first.char = true := by rw [isNameRest, letter, Bool.true_or]
  have taken : leading isNameRest (first :: rest) = first :: leading isNameRest rest :=
    List.takeWhile_cons_of_pos continues
  refine isIdentifier_eq_true_iff.mpr
    ⟨first.char, (leading isNameRest rest).map Rune.char, ?_, letter, ?_, isName⟩
  · rw [word, taken, Rune.text, String.toList_ofList, List.map_cons]
  · intro c member
    obtain ⟨rune, passes, rfl⟩ := List.mem_map.mp member
    exact List.mem_takeWhile_imp (p := fun rune : Rune => isNameRest rune.char) passes

end Recognized

/-- A lexeme that is a name is spelled like an identifier. -/
theorem Lexeme.isIdentifier_lit {file : String} {source : List UInt8} {lexeme : Lexeme}
    (member : lexeme ∈ scan file source) (isName : lexeme.token = .name) :
    isIdentifier lexeme.lit = true := by
  obtain ⟨place, rfl⟩ | ⟨newlineEnds, place, first, rest, fronts⟩ :=
    fronts_of_mem (Position.Holds.decode file source) member
  · cases isName
  · obtain rfl := fronts.eq
    obtain ⟨letter, same⟩ := next_eq_word_of_name isName
    change isIdentifier (Recognized.next newlineEnds first rest).lit = true
    change (Recognized.next newlineEnds first rest).token = .name at isName
    rw [same] at isName ⊢
    exact isIdentifier_word letter isName

/-! ## Sources that are variables -/

/-- Whatever reads as a variable, its name is an identifier. -/
theorem isIdentifier_of_read {number : Nat} {file : String} {source : List UInt8} {found : Variable}
    (read : (Parsed.expression number (Lexeme.scan file source)).tree = .var found) :
    isIdentifier found.name = true := by
  obtain ⟨tree, after, ran, -⟩ := Parsed.attempt_entire number (Lexeme.scan file source)
  have same : tree = .var found := by
    rw [← read]
    simp only [Parsed.expression, Parsed.run, ran]
  subst same
  obtain ⟨first, middle, leading, started, -⟩ := (Grammar.entire_ensures_fills _ _ ran rfl).read
  have begins := Grammar.assignment_opens (Grammar.buildsElements_ofDepth _) _ _ started
  obtain ⟨isName, spelled⟩ := begins.name found rfl
  have scanned : first.cursor.current ∈ Lexeme.scan file source := by
    have ahead := ParseState.current_mem_ahead (by simp [isName] : first.token ≠ .eof)
    have significant := leading.reaches.suffix.subset ahead
    exact (List.takeWhile_sublist _).subset (List.mem_filter.mp significant).1
  rw [spelled]
  exact Lexeme.isIdentifier_lit scanned isName

theorem Expr.eq_var_of_bare {tree : Expr} {name : Variable} (same : tree.bare = .var name) :
    ∃ found, tree = .var found ∧ .named found.name = name := by
  cases tree with
  | var found => exact ⟨found, rfl, Expr.var.inj same⟩
  | range _ _ step => cases step <;> cases same
  | _ => cases same

/-- An identifier reads as the variable of this name. -/
theorem exists_var_of_isIdentifier (number : Nat) {text : String} (identifier : isIdentifier text = true) :
    ∃ found, parseExpression number text = .var found ∧ found.name = text := by
  obtain ⟨first, rest, chars, letter, continues, isName⟩ := isIdentifier_eq_true_iff.mp identifier
  have spelled : String.ofList (first :: rest) = text := by rw [← chars, String.ofList_toList]
  let name : Name := ⟨first, rest, letter, continues, spelled.symm ▸ isName⟩
  have written : Piece.line (Term.place (.name name)).pieces = text := by
    rw [← spelled]
    change String.ofList (List.intercalate [' '] [(String.ofList (first :: rest)).toList]) = _
    rw [String.toList_ofList, List.intercalate_singleton]
  have read : (parseExpression number text).bare = (Term.place (.name name)).tree := by
    rw [← written]
    exact parseExpression_line number (fun found => found.bare = _) (Term.isPlain_of_mem _)
      fun depth state light ahead => .of_gives (Grammar.entire_gives_term light ahead)
  obtain ⟨found, tree, same⟩ := Expr.eq_var_of_bare read
  refine ⟨found, tree, ?_⟩
  rw [← spelled]
  exact congrArg Variable.name same

/-- Bytes read as a variable whose name they are exactly if they are an identifier. -/
theorem reads_as_name_iff (number : Nat) (bytes : List UInt8) :
    (∃ found, (Parsed.expression number (Lexeme.scan "" bytes)).tree = .var found ∧
        found.name.toUTF8.toList = bytes) ↔
      ∃ text, isIdentifier text = true ∧ text.toUTF8.toList = bytes := by
  constructor
  · rintro ⟨found, read, same⟩
    exact ⟨found.name, isIdentifier_of_read read, same⟩
  · rintro ⟨text, identifier, rfl⟩
    obtain ⟨found, read, rfl⟩ := exists_var_of_isIdentifier number identifier
    exact ⟨found, read, rfl⟩

/-- The names of a manifest are identifiers. -/
theorem Manifest.isName_eq_isIdentifier (text : String) : isName text = isIdentifier text := by
  rw [Bool.eq_iff_iff]
  constructor
  · intro accepted
    rw [isName] at accepted
    split at accepted
    · next found read =>
      rw [← beq_iff_eq.mp accepted]
      exact isIdentifier_of_read read
    · cases accepted
  · intro identifier
    obtain ⟨found, read, same⟩ := exists_var_of_isIdentifier 0 identifier
    rw [isName, read]
    exact beq_iff_eq.mpr same

end Reckon
