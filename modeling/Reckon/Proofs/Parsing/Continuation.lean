import Reckon.Proofs.Lexeme.Joining
import Reckon.Proofs.Parsing.MovesStatement
import Reckon.Proofs.Parsing.WatchesStatement

/-!
# Lines that break after an operator

A line may be broken after any operator between two operands but `>`, which may end a markup element: the
tree stays the same, but for places.  Nothing is asked of the second operand.  The first one has to be an
expression without diagnostics, which leaves no string open, and it must not end in a line comment, which
takes the operator.
-/

namespace Reckon

open Text (Rune)

/-! ## A blank between lexemes -/

namespace Cursor

variable {before after : List Lexeme} {blank : Lexeme}

/-- Blanks make no difference to the parser. -/
theorem ofLexemes_append_blank (isBlank : blank.isSignificant = false)
    (ended : (after.find? (·.token.isEof)).isSome) :
    ofLexemes (before ++ blank :: after) = ofLexemes (before ++ after) := by
  have same : Lexeme.significant (before ++ blank :: after) = Lexeme.significant (before ++ after) := by
    rw [Lexeme.significant_append, Lexeme.significant_append, Lexeme.significant_cons_of_blank isBlank]
  have ended' : ((before ++ after).find? (·.token.isEof)).isSome := by
    rw [List.find?_append, Option.isSome_or, ended, Bool.or_true]
  have ended'' : ((before ++ blank :: after).find? (·.token.isEof)).isSome := by
    rwa [← find?_significant, same, find?_significant]
  rw [← ofLexemes_significant ended'', same, ofLexemes_significant ended']

end Cursor

namespace Lexeme.Breaks

variable {move : Relocation} {first second : List Lexeme}

theorem ofLexemes_eq (breaks : Breaks move first second) (steady : move.Steady) :
    Cursor.ofLexemes second = (Cursor.ofLexemes first).relocate move := by
  obtain ⟨fixed, isBlank, isBlank', -, ended⟩ := breaks
  next before after blank newline =>
  have ended' : ((after.map (relocate move)).find? (·.token.isEof)).isSome := by
    simpa [List.find?_map, Function.comp_def] using ended
  rw [Cursor.ofLexemes_append_blank isBlank ended, Cursor.ofLexemes_append_blank isBlank' ended',
    ← Cursor.ofLexemes_map_relocate steady, List.map_append, fixed]

theorem weightAll_eq (breaks : Breaks move first second) : weightAll second = weightAll first := by
  obtain ⟨fixed, -, -, weight, -⟩ := breaks
  rw [weightAll_append, weightAll_append, weightAll_cons, weightAll_cons, weight,
    ← relocateAll_eq_map, weightAll_relocateAll]

/-- The parser does not notice where a blank breaks a line. -/
theorem expression_eq (breaks : Breaks move first second) (steady : move.Steady) (source : Nat) :
    (Parsed.expression source second).tree =
      (Parsed.expression source first).tree.relocate move := by
  obtain ⟨tree, after, ran, -⟩ := Parsed.attempt_entire source first
  have start : ParseState.start second { source } =
      (ParseState.start first { source }).relocate move := by
    rw [ParseState.start, breaks.ofLexemes_eq steady]
    simp [ParseState.start, ParseState.relocate, Span.relocate, Scope.relocate]
  have moved : Parsed.attempt Grammar.entire source second =
      some (tree.relocate move, after.relocate move) := by
    have moves := Grammar.entire_moves steady
      (Grammar.moves_ofDepth steady (weightAll first + 1)) (ParseState.start first { source })
    rw [Parsed.attempt] at ran ⊢
    rw [breaks.weightAll_eq, start]
    exact moves.trans (congrArg (Option.map _) ran)
  simp only [Parsed.expression, Parsed.run, ran, moved]

end Lexeme.Breaks

/-! ## What the first operand leaves open -/

namespace Lexeme

open Recognized

variable {state : ScanState} {position place : Position} {runes tail : List Rune}
  {front : List Lexeme}

/-- Whether some lexemes end in a line comment, which goes on with whatever follows on its line. -/
def endsInLineComment (lexemes : List Lexeme) : Bool :=
  lexemes.dropLast.getLast?.any fun last =>
    last.token == .comment && ['/', '/'].isPrefixOf last.lit.toList

/-- Whether some lexemes end in a string or a template that is not closed. -/
def endsInString (lexemes : List Lexeme) : Bool :=
  lexemes.dropLast.getLast?.any (·.token == .badString)

theorem isPrefixOf_lit_comment {first : Rune} {rest : List Rune} (slash : first.char = '/')
    (line : front? rest = some '/') (whole : (comment (first :: rest)).length = rest.length + 1) :
    ['/', '/'].isPrefixOf (comment (first :: rest)).lit.toList = true := by
  have taken : (first :: rest).take (comment (first :: rest)).length = first :: rest :=
    List.take_of_length_le (Nat.le_of_eq whole.symm)
  have lit : (comment (first :: rest)).lit = Rune.text (first :: rest) :=
    congrArg Rune.text taken
  rw [lit, Rune.text, String.toList_ofList]
  cases rest with
  | nil => cases line
  | cons second body =>
      have slash' : second.char = '/' := by simpa [front?] using line
      simp [slash, slash']

/-- All lexemes but the last one stand for something in the source. -/
theorem exists_scanned_eq_concat (state : ScanState) (position : Position) (runes : List Rune) :
    ∃ body stop, scanned state position runes = body ++ [endOfSource stop] ∧
      ∀ lexeme ∈ body, lexeme.token ≠ .eof := by
  induction runes using scanned_induction generalizing state position with
  | nil => exact ⟨[], position, rfl, nofun⟩
  | cons first rest inductionHypothesis =>
      obtain ⟨body, stop, scanned, others⟩ := inductionHypothesis state.newlineEnds
        (state.after (next state.newlineEnds first rest).token)
        (stopAt state.newlineEnds position first rest)
      refine ⟨lexemeAt state.newlineEnds position first rest :: body, stop, ?_, ?_⟩
      · rw [scanned_cons, scanned]
        rfl
      · exact List.forall_mem_cons.mpr ⟨token_next_ne_eof _ first rest, others⟩

/-- An unclosed string at the end of a text is ahead of the parser. -/
theorem unclosed_of_scanned {last : Lexeme} {stop : Position} (scope : Scope)
    (found : scanned state position runes = front ++ [last, endOfSource stop])
    (isString : last.token = .badString) :
    (ParseState.start (scanned state position runes) scope).Unclosed := by
  obtain ⟨body, stop', split, others⟩ := exists_scanned_eq_concat state position runes
  have same : body = front ++ [last] := by
    have whole : body ++ [endOfSource stop'] = (front ++ [last]) ++ [endOfSource stop] := by
      rw [← split, found, List.append_assoc]
      rfl
    exact (List.append_inj' whole rfl).1
  have significant : last.isSignificant = true := by rw [isSignificant, isString]; rfl
  have passed : body.takeWhile (fun lexeme => !lexeme.token.isEof) = body :=
    List.takeWhile_eq_self_iff.mpr fun lexeme member => by simpa [Token.isEof] using others lexeme member
  have ahead : Cursor.aheadOf (scanned state position runes) =
      front.filter (·.isSignificant) ++ [last] := by
    rw [split, Cursor.aheadOf_concat_endOfSource, Cursor.aheadOf, passed, same, List.filter_append,
      List.filter_singleton, significant]
    rfl
  refine ⟨last, ?_, isString⟩
  change last ∈ (Cursor.aheadOf (scanned state position runes)).getLast?
  rw [ahead, List.getLast?_concat]
  rfl

/-- A text without an open string or line comment can be resumed, and what is left of it after its finished
lexemes opens no bracket. -/
theorem resumable_of_endsInString (leaves : Leaves {} position runes front place tail)
    (closed : endsInString (scanned {} position runes) = false)
    (ends : endsInLineComment (scanned {} position runes) = false) :
    Resumable (ScanState.afterAll {} front).newlineEnds tail ∧
      openBrackets (scanned {} position runes) = openBrackets front := by
  have whole := leaves.scanned_eq
  cases tail with
  | nil =>
      refine ⟨.blanks nofun, ?_⟩
      rw [whole, scanned_nil, openBrackets_concat]
      rfl
  | cons first rest =>
      let newlineEnds := (ScanState.afterAll {} front).newlineEnds
      obtain ⟨length, pending⟩ := pending_of_unfinished (leaves.unfinished first rest rfl)
      have last : scanned (ScanState.afterAll {} front) place (first :: rest) =
          [lexemeAt newlineEnds place first rest, endOfSource (stopAt newlineEnds place first rest)] := by
        have all : (first :: rest).length ≤ (next newlineEnds first rest).length :=
          Nat.le_of_eq length.symm
        rw [scanned_cons, List.drop_eq_nil_of_le all, scanned_nil]
      rw [last] at whole
      have brackets (quiet : ∀ nested, nest nested (next newlineEnds first rest).token = nested) :
          openBrackets (scanned {} position runes) = openBrackets front := by
        rw [whole, List.append_cons, openBrackets_concat, openBrackets_concat]
        exact quiet _
      generalize isToken : (next newlineEnds first rest).token = token at pending brackets
      cases pending with
      | blanks passes => exact ⟨.blanks passes, brackets fun _ => rfl⟩
      | quoted =>
          rw [whole] at closed
          simp [endsInString, lexemeAt, isToken] at closed
      | line slash line =>
          have starts : ['/', '/'].isPrefixOf (next newlineEnds first rest).lit.toList = true := by
            rw [next_of_comment slash (.inl line)] at length ⊢
            exact isPrefixOf_lit_comment slash line length
          rw [whole] at ends
          simp only [endsInLineComment, lexemeAt, isToken] at ends
          simp [starts] at ends
      | block slash star opened =>
          cases rest with
          | nil => cases star
          | cons second body =>
              exact ⟨.comment slash (by simpa [front?] using star) opened, brackets fun _ => rfl⟩

/-- An expression without diagnostics leaves no string open. -/
theorem resumable_of_leaves (leaves : Leaves {} position runes front place tail) (scope : Scope)
    (closed : ¬(ParseState.start (scanned {} position runes) scope).Unclosed)
    (ends : endsInLineComment (scanned {} position runes) = false) :
    Resumable (ScanState.afterAll {} front).newlineEnds tail ∧
      openBrackets (scanned {} position runes) = openBrackets front := by
  refine resumable_of_endsInString leaves ?_ ends
  by_contra opened
  obtain ⟨body, stop, whole, -⟩ := exists_scanned_eq_concat {} position runes
  obtain ⟨last, isLast, isString⟩ : ∃ last, body.getLast? = some last ∧ last.token = .badString := by
    simpa [endsInString, whole, Option.any_eq_true] using opened
  obtain ⟨others, rfl⟩ := List.getLast?_eq_some_iff.mp isLast
  rw [List.append_assoc] at whole
  exact closed (unclosed_of_scanned scope whole isString)

/-- A newline does not end the statement after an operator but `>`, and in parentheses after none. -/
theorem joins_of_ne_greater {sign : Token} (isSign : sign ∈ binarySigns) {lexemes : List Lexeme}
    (joins : sign = .greater → (openBrackets lexemes).head? = some .leftParen) :
    ((ScanState.afterAll {} lexemes).after sign).newlineEnds = false := by
  have plain : ∀ sign ∈ binarySigns, sign.isSignificant = true ∧
      (sign = .greater ∨ sign.mayEndStatement = false) := by
    decide
  obtain ⟨significant, isGreater | goesOn⟩ := plain sign isSign
  · subst isGreater
    rw [ScanState.afterAll_eq]
    simp [ScanState.after, ScanState.newlineEnds, significant, joins rfl]
  · simp [ScanState.after, ScanState.newlineEnds, significant, goesOn]

end Lexeme

/-! ## Two operands -/

/-- Two operands with an operator between them: a space before it, and a gap after it. -/
def joined (left : List UInt8) (sign : Token) (gap : Char) (right : List UInt8) : List UInt8 :=
  left ++ Rune.encode (' ' :: (sign.spelling.toList ++ [gap])) ++ right

open Lexeme in
theorem decode_joined (left : List UInt8) (sign : Token) (gap : Char) (right : List UInt8) :
    Rune.decode (joined left sign gap right) =
      Rune.decode left ++ .ofChar ' ' :: (signRunes sign ++ .ofChar gap :: Rune.decode right) := by
  let chars := ' ' :: (sign.spelling.toList ++ [gap])
  have text : joined left sign gap right =
      left ++ 0x20 :: (Rune.encode (sign.spelling.toList ++ [gap]) ++ right) := by
    rw [joined, List.append_assoc]
    rfl
  have rest : Rune.decode (0x20 :: (Rune.encode (sign.spelling.toList ++ [gap]) ++ right)) =
      chars.map .ofChar ++ Rune.decode right :=
    Text.Rune.decode_encode_append chars right
  rw [text, Text.Rune.decode_append_of_ascii (by decide), rest]
  simp [chars, signRunes]

open Lexeme in
/-- A line may be broken after an operator between two operands.  The first operand has no diagnostics
and does not end in a line comment; behind `>` a line breaks only in parentheses. -/
theorem lines_break_after_operators (source : Nat) (left right : List UInt8) {sign : Token}
    (isSign : sign ∈ binarySigns)
    (sound : (Parsed.expression source (scan "" left)).tree.diagnostics = [])
    (ends : endsInLineComment (scan "" left) = false)
    (joins : sign = .greater → (openBrackets (scan "" left)).head? = some .leftParen) :
    (Parsed.expression source (scan "" (joined left sign '\n' right))).tree.unplaced =
      (Parsed.expression source (scan "" (joined left sign ' ' right))).tree.unplaced := by
  have closed : ¬(ParseState.start (scan "" left) { source }).Unclosed := fun unclosed =>
    Parsed.diagnostics_expression_of_unclosed source unclosed sound
  obtain ⟨front, place, tail, leaves⟩ := exists_leaves {} (.first "") (Rune.decode left)
  rw [scan, scanWith_eq_scanned] at closed ends joins
  obtain ⟨resumable, brackets⟩ := resumable_of_leaves leaves { source } closed ends
  rw [brackets] at joins
  have breaks := breaks_of_leaves leaves resumable isSign (joins_of_ne_greater isSign joins)
    (Rune.decode right)
  rw [← decode_joined, ← decode_joined, ← scanWith_eq_scanned, ← scanWith_eq_scanned] at breaks
  rw [scan, scan, breaks.expression_eq (Relocation.steady_breakAt _), Expr.unplaced_relocate]

open Lexeme in
/-- A call with a comment behind it, before a pipe. -/
theorem line_breaks_after_pipe :
    let left := "f(x) /* y */".toUTF8.toList
    let right := "g".toUTF8.toList
    let tree (gap : Char) := (Parsed.expression 0 (scan "" (joined left .pipe gap right))).tree
    Token.pipe ∈ binarySigns ∧ (Parsed.expression 0 (scan "" left)).tree.diagnostics = [] ∧
      endsInLineComment (scan "" left) = false ∧ (tree '\n').unplaced = (tree ' ').unplaced := by
  have sound : (Parsed.expression 0 (scan "" "f(x) /* y */".toUTF8.toList)).tree.diagnostics = [] := by
    rw [← List.isEmpty_iff]
    decide +kernel
  have ends : endsInLineComment (scan "" "f(x) /* y */".toUTF8.toList) = false := by decide +kernel
  exact ⟨by decide, sound, ends,
    lines_break_after_operators 0 _ _ (by decide) sound ends nofun⟩

open Lexeme in
/-- A newline behind `>` ends the expression, and a line comment takes the operator. -/
theorem greater_and_line_comment_end_lines :
    let tree (text : String) := (Parsed.expression 0 (scan "" text.toUTF8.toList)).tree
    let whole (left : String) (sign : Token) (gap : Char) :=
      (Parsed.expression 0 (scan "" (joined left.toUTF8.toList sign gap "2".toUTF8.toList))).tree
    (tree "1").diagnostics = [] ∧ (tree "1 // x").diagnostics = [] ∧ (tree "2").diagnostics = [] ∧
      (whole "1" .greater '\n').unplaced ≠ (whole "1" .greater ' ').unplaced ∧
      (whole "1 // x" .plus '\n').unplaced ≠ (whole "1 // x" .plus ' ').unplaced := by
  have counts :
      let count (left : String) (sign : Token) (gap : Char) :=
        (Parsed.expression 0
          (scan "" (joined left.toUTF8.toList sign gap "2".toUTF8.toList))).tree.unplaced.diagnostics.length
      count "1" .greater '\n' ≠ count "1" .greater ' ' ∧
        count "1 // x" .plus '\n' ≠ count "1 // x" .plus ' ' := by
    decide +kernel
  refine ⟨?_, ?_, ?_, fun same => counts.1 ?_, fun same => counts.2 ?_⟩
  · rw [← List.isEmpty_iff]
    decide +kernel
  · rw [← List.isEmpty_iff]
    decide +kernel
  · rw [← List.isEmpty_iff]
    decide +kernel
  · exact congrArg (·.diagnostics.length) same
  · exact congrArg (·.diagnostics.length) same

end Reckon
