import Mathlib.Data.List.Basic
import Reckon.Lexeme.Recognizer
import Reckon.Proofs.Text.Utf8

/-!
# What is recognized

Every recognized lexeme takes at least one rune, and none is the end of the source. A lexeme that is no
template has no replacements and stops where its runes do. The replacements of a template stand one after
the other within it, each between its own braces.
-/

namespace Reckon

open Text (Rune isLetter isDigit isNameRest)

namespace Recognized

/-! ## Lexemes that are no templates -/

/-- A lexeme without replacements that takes a rune and is read without going past the text. -/
structure IsPlain (found : Recognized) : Prop where
  /-- It takes a rune. -/
  length_pos : 0 < found.length
  /-- It is not the end of the source. -/
  token_ne_eof : found.token ≠ .eof
  /-- It is no template. -/
  token_ne_template : found.token ≠ .template
  /-- It has no replacements. -/
  replacements_eq_nil : found.replacements = []
  /-- It ends where its runes do. -/
  overrun_eq_zero : found.overrun = 0

theorem length_leading_pos {test : Char → Bool} {first : Rune} {rest : List Rune}
    (passes : test first.char = true) : 0 < (leading test (first :: rest)).length := by
  rw [leading, List.takeWhile_cons_of_pos (by exact passes)]
  exact Nat.zero_lt_succ _

/-- A reserved word has a token of its own, and any other word is a name. -/
theorem ofWord_eq_name_or_mem_keywords (word : String) :
    Token.ofWord word = .name ∨ Token.ofWord word ∈ Token.keywords := by
  unfold Token.ofWord
  cases found : Token.keywords.find? fun token => token.spelling == word with
  | none => exact .inl rfl
  | some token => exact .inr (List.mem_of_find?_eq_some found)

theorem ofWord_ne {token : Token} (noName : token ≠ .name) (noKeyword : token ∉ Token.keywords)
    (word : String) : Token.ofWord word ≠ token := by
  rcases ofWord_eq_name_or_mem_keywords word with isName | reserved
  · rw [isName]
    exact noName.symm
  · exact ne_of_mem_of_not_mem reserved noKeyword

theorem isPlain_blanks {newlineEnds : Bool} {first : Rune} {rest : List Rune}
    (blank : isBlank first.char = true ∨ first.char = '\n' ∧ newlineEnds = false) :
    (blanks newlineEnds (first :: rest)).IsPlain where
  length_pos := by
    refine length_leading_pos ?_
    rcases blank with blank | ⟨newline, continues⟩
    · simp [blank]
    · simp [newline, continues]
  token_ne_eof := nofun
  token_ne_template := nofun
  replacements_eq_nil := rfl
  overrun_eq_zero := rfl

theorem isPlain_comment {first : Rune} {rest : List Rune} (slash : first.char = '/') :
    (comment (first :: rest)).IsPlain where
  length_pos := by
    dsimp only [comment]
    split
    · exact length_leading_pos (by simp [slash])
    · omega
  token_ne_eof := nofun
  token_ne_template := nofun
  replacements_eq_nil := rfl
  overrun_eq_zero := rfl

theorem isPlain_word {first : Rune} {rest : List Rune} (letter : isLetter first.char = true) :
    (word (first :: rest)).IsPlain where
  length_pos := length_leading_pos (by simp [isNameRest, letter])
  token_ne_eof := ofWord_ne (by decide) (by decide) _
  token_ne_template := ofWord_ne (by decide) (by decide) _
  replacements_eq_nil := rfl
  overrun_eq_zero := rfl

/-- A decimal number has a digit before or after its point. -/
theorem decimalLength_pos {first : Rune} {rest : List Rune}
    (starts : (isDigit first.char || first.char == '.' && (front? rest).any isDigit) = true) :
    0 < numberLength.decimalLength (first :: rest) := by
  dsimp only [numberLength.decimalLength]
  by_cases digit : isDigit first.char = true
  · have whole : 0 < (leading isDigit (first :: rest)).length := length_leading_pos digit
    omega
  · have none : leading isDigit (first :: rest) = [] := List.takeWhile_cons_of_neg digit
    obtain ⟨point, follows⟩ : first.char = '.' ∧ (front? rest).any isDigit = true := by
      simpa [digit] using starts
    have fraction : 0 < fractionLength (first :: rest) := by
      cases rest with
      | nil => cases follows
      | cons second rest =>
          have digit : isDigit second.char = true := by simpa [front?] using follows
          simp [fractionLength, point, leading, digit]
    simp only [none, List.length_nil, List.drop_zero]
    omega

theorem isPlain_number {first : Rune} {rest : List Rune}
    (starts : (isDigit first.char || first.char == '.' && (front? rest).any isDigit) = true) :
    (number (first :: rest)).IsPlain where
  length_pos := by
    dsimp only [number]
    have decimal := decimalLength_pos starts
    unfold numberLength
    split
    · split
      · omega
      · exact decimal
    · exact decimal
  token_ne_eof := nofun
  token_ne_template := nofun
  replacements_eq_nil := rfl
  overrun_eq_zero := rfl

theorem token_string (quote : Char) (runes : List Rune) :
    (string quote runes).token = .string ∨ (string quote runes).token = .badString := by
  unfold string
  dsimp only
  split
  · exact .inl rfl
  · exact .inr rfl

theorem isPlain_string (quote : Char) (runes : List Rune) : (string quote runes).IsPlain := by
  unfold string
  dsimp only
  split <;> exact ⟨Nat.zero_lt_succ _, nofun, nofun, rfl, rfl⟩

/-- The operators of one character. -/
def unigraphs : List (Char × Token) :=
  [('+', .plus), ('-', .minus), ('*', .star), ('/', .slash), ('%', .percent), ('^', .caret),
    ('?', .question), (':', .colon), ('<', .less), ('>', .greater), ('=', .assign), ('!', .bang),
    ('.', .dot), ('(', .leftParen), (')', .rightParen), ('[', .leftBracket), (']', .rightBracket),
    ('\x7b', .leftBrace), ('\x7d', .rightBrace), (',', .comma), (';', .semicolon)]

/-- The operators of two characters. -/
def digraphs : List (Char × Char × Token) :=
  [('&', '&', .andAnd), ('|', '|', .orOr), ('|', '>', .pipe), ('<', '=', .lessEqual),
    ('>', '=', .greaterEqual), ('=', '=', .equal), ('=', '>', .arrow), ('!', '=', .notEqual),
    ('.', '.', .range)]

/-- The tokens of operators. -/
def operators : List Token :=
  unigraphs.map Prod.snd ++ digraphs.map fun digraph => digraph.2.2

section Operators

variable {c : Char} {next : Option Char} {token : Token} {length : Nat}

/-- An operator is one character or two. -/
theorem operator?_cases (found : operator? c next = some (token, length)) :
    length = 1 ∧ (c, token) ∈ unigraphs ∨
      length = 2 ∧ ∃ second, next = some second ∧ (c, second, token) ∈ digraphs := by
  unfold operator? at found
  -- By the first character, and where there is a choice by the second.
  split at found <;> (try split at found) <;> (try split at found) <;> cases found <;>
    first
    | exact .inl ⟨rfl, by decide⟩
    | exact .inr ⟨rfl, _, eq_of_beq ‹_›, by decide⟩

theorem token_mem_operators (found : operator? c next = some (token, length)) :
    token ∈ operators := by
  rcases operator?_cases found with ⟨-, member⟩ | ⟨-, second, -, member⟩
  · exact List.mem_append_left _ (List.mem_map_of_mem member)
  · exact List.mem_append_right _ (List.mem_map_of_mem member)

theorem operator?_spec (found : operator? c next = some (token, length)) :
    0 < length ∧ ∀ other ∈ [Token.eof, .template, .space, .comment], token ≠ other := by
  constructor
  · rcases operator?_cases found with ⟨rfl, -⟩ | ⟨rfl, -⟩
    · exact Nat.one_pos
    · exact Nat.two_pos
  · have plain : ∀ sign ∈ operators, ∀ other ∈ [Token.eof, .template, .space, .comment],
        sign ≠ other := by decide
    exact plain token (token_mem_operators found)

end Operators

theorem isPlain_symbol (c : Char) (next : Option Char) : (symbol c next).IsPlain := by
  unfold symbol
  split
  · next token length found =>
    obtain ⟨positive, isSign⟩ := operator?_spec found
    exact ⟨positive, isSign .eof (by decide), isSign .template (by decide), rfl, rfl⟩
  · exact ⟨Nat.one_pos, nofun, nofun, rfl, rfl⟩

/-- A lexeme is a template, which a back quote starts, or plain. -/
theorem next_cases (newlineEnds : Bool) (first : Rune) (rest : List Rune) :
    first.char = backQuote ∧ next newlineEnds first rest = template (first :: rest) ∨
      (next newlineEnds first rest).IsPlain := by
  simp only [next]
  split
  · exact .inr ⟨Nat.one_pos, nofun, nofun, rfl, rfl⟩
  split
  · next continues blank =>
    refine .inr (isPlain_blanks ?_)
    rcases Bool.or_eq_true_iff.mp blank with blank | newline
    · exact .inl blank
    · exact .inr ⟨beq_iff_eq.mp newline, by simpa [newline] using continues⟩
  split
  · next slash =>
    exact .inr (isPlain_comment (beq_iff_eq.mp (Bool.and_eq_true_iff.mp slash).1))
  split
  · next letter => exact .inr (isPlain_word letter)
  split
  · next starts => exact .inr (isPlain_number starts)
  split
  · exact .inr (isPlain_string _ _)
  split
  · next quote => exact .inl ⟨beq_iff_eq.mp quote, rfl⟩
  · exact .inr (isPlain_symbol _ _)

/-! ## Replacements -/

end Recognized

/-- The text of a replacement stands between `${` and `}`. -/
def Replacement.IsBraced (runes : List Rune) (replacement : Replacement) : Prop :=
  ∃ before dollar opening closing after,
    runes = before ++ dollar :: opening :: (replacement.body ++ closing :: after) ∧
      replacement.start = before.length + 2 ∧
      dollar.char = '$' ∧ opening.char = '\x7b' ∧ closing.char = '\x7d'

theorem Replacement.IsBraced.body_eq {runes : List Rune} {replacement : Replacement}
    (braced : replacement.IsBraced runes) :
    replacement.body = (runes.drop replacement.start).take replacement.body.length := by
  obtain ⟨before, dollar, opening, closing, after, split, start, -⟩ := braced
  have ahead : runes.drop replacement.start = replacement.body ++ closing :: after := by
    rw [split, start, List.drop_append]
    simp
  rw [ahead, List.take_left]

theorem Replacement.IsBraced.length_body_lt {runes : List Rune} {replacement : Replacement}
    (braced : replacement.IsBraced runes) : replacement.body.length < runes.length := by
  obtain ⟨before, dollar, opening, closing, after, split, -⟩ := braced
  rw [split]
  simp only [List.length_append, List.length_cons]
  omega

namespace Recognized

/-- Replacements stand in braces, one after the other between two places. -/
def Braced (runes : List Rune) : Nat → List Replacement → Nat → Prop
  | low, [], high => low ≤ high
  | low, first :: rest, high =>
      low + 2 ≤ first.start ∧ first.IsBraced runes ∧
        Braced runes (first.start + first.body.length + 1) rest high

variable {runes : List Rune} {low high : Nat} {replacements : List Replacement}

theorem Braced.of_le {higher : Nat} (braced : Braced runes low replacements high)
    (le : high ≤ higher) : Braced runes low replacements higher := by
  induction replacements generalizing low with
  | nil => exact Nat.le_trans braced le
  | cons first rest inductionHypothesis =>
      obtain ⟨after, own, others⟩ := braced
      exact ⟨after, own, inductionHypothesis others⟩

theorem Braced.concat {last : Replacement} (braced : Braced runes low replacements high)
    (after : high + 2 ≤ last.start) (own : last.IsBraced runes) :
    Braced runes low (replacements ++ [last]) (last.start + last.body.length + 1) := by
  induction replacements generalizing low with
  | nil => exact ⟨Nat.le_trans (Nat.add_le_add_right braced 2) after, own, Nat.le_refl _⟩
  | cons first rest inductionHypothesis =>
      obtain ⟨before, first, others⟩ := braced
      exact ⟨before, first, inductionHypothesis others⟩

theorem Braced.isBraced_of_mem {replacement : Replacement}
    (braced : Braced runes low replacements high) (member : replacement ∈ replacements) :
    replacement.IsBraced runes := by
  induction replacements generalizing low with
  | nil => cases member
  | cons first rest inductionHypothesis =>
      obtain ⟨-, own, others⟩ := braced
      rcases List.mem_cons.mp member with rfl | later
      · exact own
      · exact inductionHypothesis others later

theorem Braced.le (braced : Braced runes low replacements high) : low ≤ high := by
  induction replacements generalizing low with
  | nil => exact braced
  | cons first rest inductionHypothesis =>
      obtain ⟨after, -, others⟩ := braced
      have further := inductionHypothesis others
      omega

/-- The brace that closes a replacement stands before the second place. -/
theorem Braced.stop_le_of_mem {replacement : Replacement}
    (braced : Braced runes low replacements high) (member : replacement ∈ replacements) :
    replacement.start + replacement.body.length + 1 ≤ high := by
  induction replacements generalizing low with
  | nil => cases member
  | cons first rest inductionHypothesis =>
      obtain ⟨-, -, others⟩ := braced
      rcases List.mem_cons.mp member with rfl | later
      · exact others.le
      · exact inductionHypothesis others later

/-- The text of a replacement is followed by the brace that closes it. -/
theorem exists_closing_of_closed {mode : ReplacementMode} {depth length : Nat} {runes : List Rune}
    (closed : replacementEnd mode depth runes = .closed length) :
    ∃ body closing after, runes = body ++ closing :: after ∧ body.length = length ∧
      closing.char = '\x7d' := by
  have succ {rune : Rune} {rest : List Rune} {inner : ReplacementEnd} {length : Nat}
      (closed : inner.succ = .closed length)
      (inside : ∀ {length}, inner = .closed length → ∃ body closing after,
        rest = body ++ closing :: after ∧ body.length = length ∧ closing.char = '\x7d') :
      ∃ body closing after, rune :: rest = body ++ closing :: after ∧ body.length = length ∧
        closing.char = '\x7d' := by
    cases inner with
    | closed count =>
        cases closed
        obtain ⟨body, closing, after, split, size, brace⟩ := inside rfl
        exact ⟨rune :: body, closing, after, by rw [split, List.cons_append],
          by rw [List.length_cons, size], brace⟩
    | unclosed overrun => cases closed
  fun_induction replacementEnd mode depth runes generalizing length with
  | case1 | case2 | case3 => cases closed
  | case5 =>
      cases closed
      exact ⟨[], _, _, rfl, rfl, beq_iff_eq.mp (by assumption)⟩
  | _ => exact succ closed (by assumption)

/-- A reader that goes past the end of the text is at most two columns past it. -/
theorem overrun_le_of_unclosed {mode : ReplacementMode} {depth overrun : Nat} {runes : List Rune}
    (unclosed : replacementEnd mode depth runes = .unclosed overrun) : overrun ≤ 2 := by
  have succ {inner : ReplacementEnd} {overrun : Nat} (unclosed : inner.succ = .unclosed overrun) :
      inner = .unclosed overrun := by
    cases inner with
    | closed count => cases unclosed
    | unclosed columns => exact unclosed
  fun_induction replacementEnd mode depth runes with
  | case1 | case2 | case3 =>
      cases unclosed
      decide
  | case5 => cases unclosed
  | _ =>
      rename_i inductionHypothesis
      exact inductionHypothesis (succ unclosed)

/-! ## Templates -/

/-- What holds of the lexeme that is read at the front of some runes. -/
structure IsReadFrom (runes : List Rune) (found : Recognized) : Prop where
  /-- It takes a rune. -/
  length_pos : 0 < found.length
  /-- It is not the end of the source. -/
  token_ne_eof : found.token ≠ .eof
  /-- A template that is closed has one part more than replacements. -/
  length_parts : found.token = .template → found.parts.length = found.replacements.length + 1
  /-- The replacements stand in braces after its opening quote. -/
  braced : Braced runes 1 found.replacements found.length
  /-- A reader goes past the text only in a replacement that is not closed, at the end of the text. -/
  overrun : found.overrun = 0 ∨ found.token = .badString ∧ found.replacements = [] ∧
    found.length = runes.length ∧ found.overrun ≤ 2

/-- What has been read of a template before the runes `rest`, of which an escape or a replacement has
used some already. -/
structure TemplateState.Reads (runes : List Rune) (used : Nat) (state : TemplateState)
    (rest : List Rune) : Prop where
  /-- The opening quote has been read. -/
  length_pos : 0 < state.length
  /-- The other runes are what is still to be read. -/
  ahead : rest = runes.drop state.length
  /-- The replacements stand before it. -/
  braced : Braced runes 1 state.replacements (state.length + min used rest.length)
  /-- Each part so far is followed by a replacement. -/
  length_parts : state.parts.length = state.replacements.length

namespace TemplateState.Reads

variable {used : Nat} {state : TemplateState} {rune : Rune} {rest : List Rune}

theorem ahead_succ (reads : Reads runes used state (rune :: rest)) :
    rest = runes.drop (state.length + 1) := by
  rw [List.drop_add_one_eq_tail_drop, ← reads.ahead, List.tail_cons]

/-- A rune that was used already. -/
theorem pass (reads : Reads runes (used + 1) state (rune :: rest)) :
    Reads runes used { state with length := state.length + 1 } rest where
  length_pos := Nat.zero_lt_succ _
  ahead := reads.ahead_succ
  braced := reads.braced.of_le (by simp only [List.length_cons]; omega)
  length_parts := reads.length_parts

/-- A rune of the part, or the backslash of an escape. -/
theorem read (reads : Reads runes 0 state (rune :: rest)) (current : List Char) :
    Reads runes used { state with length := state.length + 1, current } rest where
  length_pos := Nat.zero_lt_succ _
  ahead := reads.ahead_succ
  braced := reads.braced.of_le (by simp only [Nat.zero_min]; omega)
  length_parts := reads.length_parts

/-- A replacement up to its closing brace. -/
theorem replace {length : Nat} (reads : Reads runes 0 state (rune :: rest))
    (dollar : rune.char = '$') (opens : front? rest = some '\x7b')
    (closed : replacementEnd .code 0 (rest.drop 1) = .closed length) :
    Reads runes (length + 2)
      { length := state.length + 1
        current := []
        parts := state.parts ++ [String.ofList state.current]
        replacements :=
          state.replacements ++ [⟨state.length + 1 + 1, (rest.drop 1).take length⟩] } rest := by
  cases rest with
  | nil => cases opens
  | cons opening rest =>
      obtain ⟨body, closing, after, split, size, brace⟩ := exists_closing_of_closed closed
      have split : rest = body ++ closing :: after := split
      have taken : (rest.take length) = body := by rw [split, ← size, List.take_left]
      have whole : runes = runes.take state.length ++ rune :: opening :: (body ++ closing :: after) := by
        rw [← split, reads.ahead, List.take_append_drop]
      have read : (runes.take state.length).length = state.length := by
        have ahead := congrArg List.length reads.ahead
        simp only [List.length_cons, List.length_drop] at ahead
        rw [List.length_take]
        omega
      have own : Replacement.IsBraced runes ⟨state.length + 1 + 1, rest.take length⟩ :=
        ⟨_, rune, opening, closing, after, taken.symm ▸ whole, by rw [read],
          dollar, Option.some.inj opens, brace⟩
      have room : length < rest.length := by
        rw [split, ← size]
        simp
      refine ⟨Nat.zero_lt_succ _, reads.ahead_succ, ?_, ?_⟩
      · refine (reads.braced.concat ?_ own).of_le ?_
        · simp
        · simp only [List.length_cons, taken, size]
          omega
      · simp [reads.length_parts]

end TemplateState.Reads

theorem isReadFrom_templateFrom {used : Nat} {state : TemplateState} {rest : List Rune}
    (reads : state.Reads runes used rest) : IsReadFrom runes (templateFrom used state rest) := by
  fun_induction templateFrom used state rest with
  | case1 used state =>
      have read := reads.braced
      exact ⟨reads.length_pos, nofun, nofun, by simpa using read, .inl rfl⟩
  | case2 used state rune rest inductionHypothesis => exact inductionHypothesis reads.pass
  | case3 state rune rest read _ =>
      refine ⟨Nat.zero_lt_succ _, nofun, fun _ => ?_, ?_, .inl rfl⟩
      · simp [reads.length_parts]
      · exact reads.braced.of_le (by simp [read])
  | case4 state rune rest read _ escapes c used _ inductionHypothesis =>
      exact inductionHypothesis (reads.read _)
  | case5 state rune rest read _ _ opens parts length closed replacement inductionHypothesis =>
      obtain ⟨dollar, opening⟩ := Bool.and_eq_true_iff.mp opens
      exact inductionHypothesis (reads.replace (beq_iff_eq.mp dollar) (beq_iff_eq.mp opening) closed)
  | case6 state rune rest read _ _ _ parts overrun unclosed =>
      have ahead := congrArg List.length reads.ahead
      simp only [List.length_cons, List.length_drop] at ahead
      refine ⟨Nat.lt_add_right _ (Nat.zero_lt_succ _), nofun, nofun, ?_, .inr ⟨rfl, rfl, ?_, ?_⟩⟩
      · exact Nat.le_add_right_of_le (Nat.le_add_left 1 _)
      · simp only [read]
        omega
      · exact overrun_le_of_unclosed unclosed
  | case7 state rune rest read _ _ _ inductionHypothesis =>
      exact inductionHypothesis (reads.read _)

/-- Before a template is read, its opening quote is. -/
theorem reads_quote (first : Rune) (rest : List Rune) :
    TemplateState.Reads (first :: rest) 0 {} rest :=
  ⟨Nat.one_pos, rfl, Nat.le_add_right _ _, rfl⟩

theorem isReadFrom_template (first : Rune) (rest : List Rune) :
    IsReadFrom (first :: rest) (template (first :: rest)) :=
  isReadFrom_templateFrom (reads_quote first rest)

/-- A template that is closed has a quote behind the braces of its replacements. -/
theorem braced_of_closed {used : Nat} {state : TemplateState} {rest : List Rune}
    (reads : state.Reads runes used rest) (closed : (templateFrom used state rest).token = .template) :
    Braced runes 1 (templateFrom used state rest).replacements
      ((templateFrom used state rest).length - 1) := by
  fun_induction templateFrom used state rest with
  | case1 | case6 => cases closed
  | case2 used state rune rest inductionHypothesis => exact inductionHypothesis reads.pass closed
  | case3 state rune rest read _ => exact reads.braced.of_le (by simp [read])
  | case4 state rune rest read _ escapes c used _ inductionHypothesis =>
      exact inductionHypothesis (reads.read _) closed
  | case5 state rune rest read _ _ opens parts length ended replacement inductionHypothesis =>
      obtain ⟨dollar, opening⟩ := Bool.and_eq_true_iff.mp opens
      exact inductionHypothesis (reads.replace (beq_iff_eq.mp dollar) (beq_iff_eq.mp opening) ended) closed
  | case7 state rune rest read _ _ _ inductionHypothesis =>
      exact inductionHypothesis (reads.read _) closed

/-! ## Lexemes of both kinds -/

theorem IsPlain.isReadFrom {found : Recognized} (plain : found.IsPlain) : IsReadFrom runes found where
  length_pos := plain.length_pos
  token_ne_eof := plain.token_ne_eof
  length_parts isTemplate := absurd isTemplate plain.token_ne_template
  braced := by
    rw [plain.replacements_eq_nil]
    exact plain.length_pos
  overrun := .inl plain.overrun_eq_zero

theorem isReadFrom_next (newlineEnds : Bool) (first : Rune) (rest : List Rune) :
    IsReadFrom (first :: rest) (next newlineEnds first rest) := by
  rcases next_cases newlineEnds first rest with ⟨-, isTemplate⟩ | plain
  · rw [isTemplate]
    exact isReadFrom_template first rest
  · exact plain.isReadFrom

/-- Only the end of a source is recognized as one. -/
theorem token_next_ne_eof (newlineEnds : Bool) (first : Rune) (rest : List Rune) :
    (next newlineEnds first rest).token ≠ .eof :=
  (isReadFrom_next newlineEnds first rest).token_ne_eof

end Recognized

/-! ## Writing strings

A string is written between two double quotes, character by character.  If each character is written in a
way that the scanner reads as this character, whatever stands behind it, the string is read back. -/

open Text (Rune)

namespace Recognized

/-- Inside a string, some characters are read as one character, whatever follows them. -/
def Spells (written : List Char) (c : Char) : Prop :=
  ∀ following, quotation '"' 0 (written.map .ofChar ++ following) =
    { content := c :: (quotation '"' 0 following).content
      length := (quotation '"' 0 following).length + written.length
      closed := (quotation '"' 0 following).closed }

/-- A character stands for itself unless it ends the string or starts an escape. -/
theorem spells_self {c : Char} (notQuote : c ≠ '"') (notBackslash : c ≠ '\\') (notNewline : c ≠ '\n') :
    Spells [c] c := by
  intro following
  simp [quotation, Rune.ofChar, notQuote, notBackslash, notNewline]

variable {write : Char → List Char} {chars : List Char}

theorem quotation_of_spells (spells : ∀ c ∈ chars, Spells (write c) c) (following : List Rune) :
    quotation '"' 0 ((chars.flatMap write).map .ofChar ++ .ofChar '"' :: following) =
      ⟨chars, (chars.flatMap write).length + 1, true⟩ := by
  induction chars with
  | nil =>
      rfl
  | cons c rest inductionHypothesis =>
      obtain ⟨firstSpells, restSpells⟩ := List.forall_mem_cons.mp spells
      rw [List.flatMap_cons, List.map_append, List.append_assoc, firstSpells,
        inductionHypothesis restSpells, List.length_append]
      simp only [Quotation.mk.injEq, true_and, and_true]
      omega

/-- A text between two quotes is a string that says the text. -/
theorem next_of_spells (spells : ∀ c ∈ chars, Spells (write c) c) (newlineEnds : Bool)
    (following : List Rune) :
    next newlineEnds (.ofChar '"') ((chars.flatMap write ++ ['"']).map .ofChar ++ following) =
      { token := .string
        lit := String.ofList chars
        length := (chars.flatMap write ++ ['"']).length + 1 } := by
  have isString : next newlineEnds (.ofChar '"')
      ((chars.flatMap write ++ ['"']).map .ofChar ++ following) =
        string '"' (.ofChar '"' :: ((chars.flatMap write).map .ofChar ++
          .ofChar '"' :: following)) := by
    rw [List.map_append, List.append_assoc]
    rfl
  rw [isString, string, List.drop_one, List.tail_cons, quotation_of_spells spells]
  simp

end Recognized

end Reckon
