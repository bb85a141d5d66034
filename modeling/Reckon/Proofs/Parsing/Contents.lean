import Reckon.Proofs.Lexeme.Payload
import Reckon.Proofs.Parsing.Entrances
import Reckon.Tree.SExpr

/-!
# What elements contain

Between the opening and the closing tag of an element stand elements, expressions in braces, strings and
bare text.  A run of bare text goes on up to the start of one of the others.  It becomes one text child:
what its lexemes say, with single blanks between them.  Semicolons say nothing there, so a line may break
anywhere between the children, and a run of nothing but semicolons is no child.

Most lexemes say what is written.  A template does not: what it says is in its parts.
-/

namespace Reckon

/-- Whether a lexeme of this class belongs to bare text, semicolons included. -/
def Token.isBare : Token → Bool
  | .eof | .less | .leftBrace | .string => false
  | _ => true

namespace Grammar

namespace Children

/-- The span and the words of a run of bare text, if there is any word in it. -/
def textOf? (run : List Lexeme) : Option (Span × String) :=
  match run.filter (·.token != .semicolon) with
  | [] => none
  | first :: rest =>
      some (⟨first.span.start, (rest.getLastD first).span.stop⟩,
        " ".intercalate ((first :: rest).map (·.lit)))

/-- The child that a run of bare text becomes, or none. -/
def textOf (run : List Lexeme) : List Expr :=
  ((textOf? run).map fun (span, words) => .constant span (.string words)).toList

theorem intercalate_concat (first word : String) (rest : List String) :
    " ".intercalate (first :: (rest ++ [word])) = " ".intercalate (first :: rest) ++ " " ++ word := by
  induction rest generalizing first with
  | nil => simp [String.intercalate_cons_cons, String.append_assoc]
  | cons second others inductionHypothesis =>
      rw [List.cons_append, String.intercalate_cons_cons, inductionHypothesis,
        String.intercalate_cons_cons]
      simp only [String.append_assoc]

theorem textOf?_concat_semicolon {run : List Lexeme} {lexeme : Lexeme}
    (semicolon : lexeme.token = .semicolon) : textOf? (run ++ [lexeme]) = textOf? run := by
  simp [textOf?, List.filter_append, semicolon]

theorem textOf?_concat {run : List Lexeme} {lexeme : Lexeme} (other : lexeme.token ≠ .semicolon)
    (soFar : Children) (same : soFar.text = textOf? run) :
    (soFar.addWord lexeme).text = textOf? (run ++ [lexeme]) := by
  have kept : (run ++ [lexeme]).filter (·.token != .semicolon) =
      run.filter (·.token != .semicolon) ++ [lexeme] := by
    simp [List.filter_append, other]
  rw [textOf?] at same
  rw [textOf?, kept, addWord, same]
  cases run.filter (·.token != .semicolon) with
  | nil => rfl
  | cons first rest =>
      simp only [List.cons_append, List.map_cons, List.map_append, List.map_nil, intercalate_concat,
        List.getLastD_concat]

theorem all_eq {soFar : Children} {run : List Lexeme} (same : soFar.text = textOf? run) :
    soFar.all = soFar.finished ++ textOf run := by
  rw [all, textOf, same]
  cases textOf? run with
  | none => exact (List.append_nil _).symm
  | some text => rfl

end Children

open Reckon.Parser Children

variable {inner : Grammar} {state first middle last : ParseState}

/-- The lexemes from one place to another are bare text, and none is next at the second place. -/
inductive Bare : ParseState → List Lexeme → ParseState → Prop
  | done {state : ParseState} : state.token.isBare = false → Bare state [] state
  | word {first last : ParseState} {run : List Lexeme} : first.token.isBare = true →
      Bare first.advance run last → Bare first (first.cursor.current :: run) last

/-- A child that is no bare text, read from one place to another. -/
inductive Child (inner : Grammar) (first : ParseState) : Expr → ParseState → Prop
  | element {child : Expr} {last : ParseState} : first.token = .less →
      first.cursor.peek.token ≠ .slash → inner.markup first = some (child, last) →
      Child inner first child last
  | braced {child : Expr} {last : ParseState} : first.token = .leftBrace →
      inner.braced first = some (child, last) → Child inner first child last
  | string : first.token = .string →
      Child inner first (.constant first.cursor.current.span (.string first.cursor.current.lit))
        first.advance

/-- What stands between two places, of which the second one is before a closing tag: runs of bare text
with one other child between any two of them. -/
inductive Content (inner : Grammar) : ParseState → List Expr → ParseState → Prop
  | closed {state last : ParseState} {run : List Lexeme} : Bare state run last → last.token = .less →
      last.cursor.peek.token = .slash → Content inner state (textOf run) last
  | child {state middle next last : ParseState} {run : List Lexeme} {child : Expr} {rest : List Expr} :
      Bare state run middle → Child inner middle child next → Content inner next rest last →
      Content inner state (textOf run ++ child :: rest) last

/-- What has been read of the children before a place: some of them, and a part of a run. -/
def ReadsTo (inner : Grammar) (state : ParseState) (soFar : Children) (place : ParseState) : Prop :=
  ∃ start run, soFar.text = textOf? run ∧
    (∀ rest last, Bare place rest last → Bare start (run ++ rest) last) ∧
    ∀ list last, Content inner start list last → Content inner state (soFar.finished ++ list) last

theorem ReadsTo.start : ReadsTo inner state {} state :=
  ⟨state, [], rfl, fun _ _ bare => bare, fun _ _ content => content⟩

theorem ReadsTo.word {soFar next : Children} {place : ParseState} (reads : ReadsTo inner state soFar place)
    (bare : place.token.isBare = true) (finished : next.finished = soFar.finished)
    (text : ∀ run, soFar.text = textOf? run → next.text = textOf? (run ++ [place.cursor.current])) :
    ReadsTo inner state next place.advance := by
  obtain ⟨start, run, same, joins, goesOn⟩ := reads
  refine ⟨start, run ++ [place.cursor.current], text run same, fun rest last further => ?_, ?_⟩
  · rw [List.append_assoc]
    exact joins _ _ (.word bare further)
  · rw [finished]
    exact goesOn

theorem ReadsTo.add {soFar : Children} {place next : ParseState} {child : Expr}
    (reads : ReadsTo inner state soFar place) (added : Child inner place child next)
    (stops : place.token.isBare = false) : ReadsTo inner state (soFar.add child) next := by
  obtain ⟨start, run, same, joins, goesOn⟩ := reads
  refine ⟨next, [], rfl, fun _ _ bare => bare, fun list last content => ?_⟩
  have whole := goesOn _ _ (.child (joins [] place (.done stops)) added content)
  rw [List.append_nil] at whole
  rw [Children.add, all_eq same, List.append_assoc, List.append_assoc]
  exact whole

theorem ReadsTo.close {soFar : Children} {place : ParseState} (reads : ReadsTo inner state soFar place)
    (opens : place.token = .less) (slash : place.cursor.peek.token = .slash) :
    Content inner state soFar.all place := by
  obtain ⟨start, run, same, joins, goesOn⟩ := reads
  have whole := goesOn _ _ (.closed (joins [] place (.done (by rw [opens]; rfl))) opens slash)
  rwa [List.append_nil, ← all_eq same] at whole

/-- The children of an element are its content. -/
theorem children_ensures_content : inner.children.Ensures state fun found last =>
    ∀ list, found = some list → Content inner state list last := by
  refine loop_ensures (ReadsTo inner state) .start fun soFar place reads => ?_
  rw [ensures_bind, ensures_token]
  split
  · rw [ensures_pure]
    exact nofun
  · next opens =>
    simp only [ensures_bind, ensures_peekToken, ensures_ite, ensures_pure]
    refine ⟨fun slash => ?_, fun other child next ran => ?_⟩
    · rintro _ ⟨⟩
      exact reads.close opens slash
    · exact reads.add (.element opens other ran) (by rw [opens]; rfl)
  · next opens =>
    simp only [ensures_bind, ensures_pure]
    exact fun child next ran => reads.add (.braced opens ran) (by rw [opens]; rfl)
  · next isString =>
    simp only [literal, ensures_bind, ensures_current, ensures_skipLexeme, ensures_pure]
    exact reads.add (.string isString) (by rw [isString]; rfl)
  · next semicolon =>
    simp only [ensures_bind, ensures_advance, ensures_pure]
    exact reads.word (by rw [semicolon]; rfl) rfl fun run same =>
      same.trans (textOf?_concat_semicolon semicolon).symm
  · next notEof notLess notBrace notString notSemicolon =>
    simp only [ensures_bind, ensures_current, ensures_advance, ensures_pure]
    refine reads.word ?_ (finished_addWord _ _) fun run same => textOf?_concat notSemicolon soFar same
    revert notEof notLess notBrace notString
    cases place.token <;> simp [Token.isBare]

/-- An element that is well formed: a tag and attributes, and if it is not closed there, content and a
closing tag that fits. -/
inductive Element (inner : Grammar) (state : ParseState) (opening : Expr) (entries : List Entry) :
    List Expr → Prop
  | closed {tagged after : ParseState} : tag state.advance = some (opening, tagged) →
      inner.attributes tagged = some ((entries, .closed), after) → Element inner state opening entries []
  | opened {tagged opened last after : ParseState} {list : List Expr} {closing : Expr} :
      tag state.advance = some (opening, tagged) →
      inner.attributes tagged = some ((entries, .opened), opened) → Content inner opened list last →
      tag last.advance.advance = some (closing, after) → closing.tagPath = opening.tagPath →
      Element inner state opening entries list

theorem element_ensures_content : inner.element.Ensures state fun tree _ =>
    ∀ span opening entries list, tree = .markup span opening entries list →
      Element inner state opening entries list := by
  have faulty (whole : Span) (defect : Defect) : ∀ span opening entries list,
      Expr.invalid whole defect = .markup span opening entries list →
        Element inner state opening entries list := by
    rintro _ _ _ _ ⟨⟩
  rw [element]
  simp only [ensures_bind, ensures_current, ensures_advance, ensures_token, ensures_ite]
  refine ⟨fun _ => ?_, fun _ opening tagged tagRead found place read => ?_⟩
  · simp only [ensures_spanFrom, ensures_pure]
    exact fun _ _ _ => faulty _ _
  obtain ⟨entries, tagEnd⟩ := found
  cases tagEnd with
  | broken =>
      simp only [ensures_bind, ensures_spanFrom, ensures_pure]
      exact faulty _ _
  | closed =>
      simp only [ensures_bind, ensures_spanFrom, ensures_pure]
      rintro _ _ _ _ ⟨⟩
      exact .closed tagRead read
  | opened =>
      simp only [ensures_bind]
      refine children_ensures_content.mono fun list last content => ?_
      cases list with
      | none =>
          simp only [ensures_bind, ensures_spanFrom, ensures_pure]
          exact faulty _ _
      | some list =>
          simp only [ensures_bind, ensures_advance, ensures_accept, ensures_spanFrom, ensures_ite,
            ensures_pure]
          intro closing after closingRead
          simp only [accepted_iff, refused_iff]
          refine ⟨fun _ => ⟨fun same => ?_, fun _ => faulty _ _⟩, fun _ => faulty _ _⟩
          rintro _ _ _ _ ⟨⟩
          exact .opened tagRead read (content _ rfl) closingRead same

/-! ## What bare text says -/

theorem Bare.subset {run : List Lexeme} (bare : Bare first run last) : run ⊆ first.cursor.ahead := by
  induction bare with
  | done => exact List.nil_subset _
  | @word first last run isBare _ inductionHypothesis =>
      have more : first.token ≠ .eof := by
        intro ended
        rw [ended] at isBare
        cases isBare
      refine List.cons_subset.mpr ⟨ParseState.current_mem_ahead more, fun lexeme member => ?_⟩
      exact List.mem_of_mem_tail (inductionHypothesis member)

theorem Bare.isBare {run : List Lexeme} (bare : Bare first run last) :
    ∀ lexeme ∈ run, lexeme.token.isBare = true := by
  induction bare with
  | done => exact nofun
  | word isBare _ inductionHypothesis => exact List.forall_mem_cons.mpr ⟨isBare, inductionHypothesis⟩

end Grammar

open Text (IsUtf8)

theorem toUTF8_eq_encode (text : String) : text.toUTF8.toList = Text.Rune.encode text.toList := by
  rw [← Text.Rune.toList_toUTF8_ofList, String.ofList_toList]

theorem toUTF8_append (left right : String) :
    (left ++ right).toUTF8.toList = left.toUTF8.toList ++ right.toUTF8.toList := by
  simp only [toUTF8_eq_encode, Text.Rune.encode, String.toList_append, List.flatMap_append]

theorem toUTF8_intercalate (texts : List String) :
    (" ".intercalate texts).toUTF8.toList =
      List.intercalate [0x20] (texts.map fun text => text.toUTF8.toList) := by
  have blank : " ".toUTF8.toList = [0x20] := toUTF8_eq_encode " "
  induction texts with
  | nil => exact toUTF8_eq_encode ""
  | cons first rest inductionHypothesis =>
      cases rest with
      | nil => simp
      | cons second others =>
          rw [String.intercalate_cons_cons, toUTF8_append, toUTF8_append, blank, inductionHypothesis]
          simp [List.intercalate]

/-- A word of bare text that is neither a template nor an open string says what is written. -/
theorem Lexeme.lit_eq_source {file : String} {source : List UInt8} (valid : IsUtf8 source)
    {lexeme : Lexeme} (appears : lexeme.Appears (scan file source)) (bare : lexeme.token.isBare = true)
    (noSemicolon : lexeme.token ≠ .semicolon) (noTemplate : lexeme.token ≠ .template)
    (closed : lexeme.token ≠ .badString) :
    lexeme.lit.toUTF8.toList = lexeme.span.bytes source := by
  have verbatim : lexeme.token.isVerbatim = true := by
    revert bare noTemplate closed
    cases lexeme.token <;> simp [Token.isBare, Token.isVerbatim]
  have noNewline : lexeme.isNewline = false := by simp [isNewline, noSemicolon]
  obtain ⟨place, rfl⟩ | ⟨newlineEnds, place, first, rest, fronts⟩ :=
    fronts_of_appears (Position.Holds.decode file source) appears
  · cases bare
  · rw [← fronts.raw_eq, fronts.toUTF8_lit verbatim noNewline valid]

open Grammar Children in
/-- A run of bare text without templates and open strings that has a word becomes one text, and this is
what the words are in the source, with single blanks between them. -/
theorem bare_text_is_source_text {file : String} {source : List UInt8} (valid : IsUtf8 source)
    {first last : ParseState} (reads : ∀ lexeme ∈ first.cursor.ahead,
      lexeme.Appears (Lexeme.scan file source))
    {run : List Lexeme} (bare : Bare first run last)
    (kept : ∀ lexeme ∈ run, lexeme.token ≠ .template ∧ lexeme.token ≠ .badString) :
    let words := run.filter (·.token != .semicolon)
    (words = [] ∧ textOf run = []) ∨
      ∃ span text, textOf run = [.constant span (.string text)] ∧
        text.toUTF8.toList = List.intercalate [0x20] (words.map (·.span.bytes source)) := by
  intro words
  have said : ∀ lexeme ∈ words, lexeme.lit.toUTF8.toList = lexeme.span.bytes source := by
    intro lexeme member
    obtain ⟨inRun, other⟩ := List.mem_filter.mp member
    obtain ⟨noTemplate, closed⟩ := kept lexeme inRun
    exact Lexeme.lit_eq_source valid (reads _ (bare.subset inRun)) (bare.isBare _ inRun)
      (by simpa using other) noTemplate closed
  rw [textOf, textOf?]
  change (words = [] ∧ _) ∨ _
  cases same : run.filter (·.token != .semicolon) with
  | nil => exact .inl ⟨same, rfl⟩
  | cons first rest =>
      refine .inr ⟨_, _, rfl, ?_⟩
      rw [toUTF8_intercalate, List.map_map]
      have whole : words = first :: rest := same
      rw [whole] at said ⊢
      exact congrArg _ (List.map_congr_left said)

section Recognized

open Recognized

theorem lit_templateFrom (used : Nat) (state : TemplateState) (runes : List Text.Rune)
    (closed : (templateFrom used state runes).token = .template) :
    (templateFrom used state runes).lit = "" := by
  fun_induction templateFrom used state runes with
  | case1 | case6 => cases closed
  | case3 => rfl
  | case2 | case4 | case5 | case7 =>
      rename_i inductionHypothesis
      exact inductionHypothesis closed

theorem lit_next_of_template {newlineEnds : Bool} {first : Text.Rune} {rest : List Text.Rune}
    (isTemplate : (next newlineEnds first rest).token = .template) :
    (next newlineEnds first rest).lit = "" := by
  have branch := branch_next newlineEnds first rest
  generalize next newlineEnds first rest = found at branch isTemplate ⊢
  cases branch with
  | newline | blanks | comment | number => cases isTemplate
  | word => exact absurd isTemplate (ofWord_ne (by decide) (by decide) _)
  | string =>
      rcases token_string first.char (first :: rest) with closed | opened
      · rw [closed] at isTemplate
        cases isTemplate
      · rw [opened] at isTemplate
        cases isTemplate
  | template => exact lit_templateFrom _ _ _ isTemplate
  | symbol =>
      unfold symbol at isTemplate
      split at isTemplate
      · next found => exact absurd isTemplate ((operator?_spec found).2 .template (by decide))
      · cases isTemplate

end Recognized

/-- A template says nothing among bare text, whatever is written in it. -/
theorem Lexeme.lit_template {file : String} {source : List UInt8} {lexeme : Lexeme}
    (appears : lexeme.Appears (scan file source)) (isTemplate : lexeme.token = .template) :
    lexeme.lit = "" := by
  obtain ⟨place, rfl⟩ | ⟨newlineEnds, place, first, rest, fronts⟩ :=
    fronts_of_appears (Position.Holds.decode file source) appears
  · cases isTemplate
  · obtain rfl := fronts.eq
    exact lit_next_of_template isTemplate

/-- A template between two words leaves no trace but the blanks around it, and a quote that opens a string
which is not closed leaves a blank. -/
theorem template_in_bare_text_is_lost :
    (parseExpression 0 "<a>x `y` z</a>").sexpr = "(jsx \"a\" \"x  z\")" ∧
      (parseExpression 0 "<a>it's so\n b</a>").sexpr = "(jsx \"a\" \"it s so b\")" := by
  decide +kernel

/-- A newline after the tag of an element, or in its closing tag, becomes a semicolon, which is no part of
a tag. -/
theorem newline_in_tag_is_reported :
    (parseExpression 0 "<a b=1/>").sexpr = "(jsx \"a\" (b: 1))" ∧
      (parseExpression 0 "<a\nb=1/>").sexpr = "(jsx \"a\" !UnexpectedToken (b: 1))" ∧
      (parseExpression 0 "<a>x</a\n>").sexpr = "(* !JsxNotClosed !UnexpectedToken)" := by
  decide +kernel

end Reckon
