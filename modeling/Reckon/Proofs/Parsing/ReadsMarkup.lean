import Reckon.Proofs.Parsing.ReadsExpression

/-!
# Parsing markup gives results

An operand that is an element is handed down before anything is read, so a grammar has to read
elements that are as heavy as its bound. Whatever is nested in an element comes after its opening
bracket, and is light enough for the grammar one level down.
-/

namespace Reckon.Grammar

open Reckon.Parser

variable {inner : Grammar} {bound : Nat} {state : ParseState}

/-! ## Tags -/

theorem componentPath_gives (head : Variable) :
    (componentPath head).Gives state fun tree after =>
      state.Reaches after ∧ tree.isComponent = true := by
  unfold componentPath
  refine loop_gives (fun tree middle => state.Reaches middle ∧ tree.isComponent = true)
    (fun tree after => state.Reaches after ∧ tree.isComponent = true)
    ⟨.refl state, rfl⟩ ?_ fun _ _ found => found
  rintro owner middle ⟨reached, component⟩
  simp only [gives_bind, gives_token, gives_peekToken, gives_ite, gives_advance, gives_pure]
  refine ⟨fun found => ?_, fun _ => ⟨reached, component⟩⟩
  have dotRead := ParseState.passes_advance (by simp [found.1] : middle.token ≠ .eof)
  have name : middle.advance.token ≠ .eof := by
    have next : middle.advance.token = .name := found.2
    simp [next]
  refine (identifierRead_gives name).mono fun selector after nameRead => ?_
  have read := dotRead.trans_reaches nameRead.toReaches
  exact ⟨read.shorter, reached.trans read.toReaches, component⟩

theorem plainPath_gives (head : Identifier) :
    (plainPath head).Gives state fun _ after => state.Reaches after := by
  unfold plainPath
  refine loop_gives (fun _ middle => state.Reaches middle) (fun _ after => state.Reaches after)
    (.refl state) ?_ fun _ _ reached => reached
  intro path middle reached
  simp only [gives_bind, gives_token, gives_peekToken, gives_ite, gives_advance, gives_pure]
  refine ⟨fun found => ?_, fun _ => reached⟩
  have dotRead := ParseState.passes_advance (by simp [found.1] : middle.token ≠ .eof)
  have name : middle.advance.token ≠ .eof := by
    have next : middle.advance.token = .name := found.2
    simp [next]
  refine (identifierRead_gives name).mono fun word after nameRead => ?_
  have read := dotRead.trans_reaches nameRead.toReaches
  exact ⟨read.shorter, reached.trans read.toReaches⟩

theorem tag_gives :
    tag.Gives state fun tree after => state.Reaches after ∧ tree.isTag = true := by
  simp only [tag, gives_bind, gives_current, gives_ite, gives_here, gives_pure]
  refine ⟨fun _ => ⟨.refl state, rfl⟩, fun named => ?_⟩
  have name : state.token = .name := Decidable.not_not.mp named
  have more : state.token ≠ .eof := by simp [name]
  refine ⟨fun _ => ?_, fun _ => ?_⟩
  · refine (variableRead_gives more).mono fun head middle headRead => ?_
    refine (componentPath_gives head).mono fun tree after pathRead => ?_
    exact ⟨headRead.toReaches.trans pathRead.1, Expr.isTag_of_isComponent pathRead.2⟩
  · refine (identifierRead_gives more).mono fun head middle headRead => ?_
    refine (plainPath_gives head).mono fun path after pathRead => ?_
    exact ⟨headRead.toReaches.trans pathRead, rfl⟩

theorem complete_of_isTag {tree : Expr} (isTag : tree.isTag = true) : tree.Complete := by
  cases tree with
  | identifier name => exact .identifier name
  | var name => exact .var name
  | member span owner selector => exact .of_isComponent isTag
  | _ => simp [Expr.isTag, Expr.isComponent] at isTag

/-! ## Attributes -/

theorem braced_gives (reads : inner.Reads bound) (light : state.weight ≤ bound)
    (more : state.token ≠ .eof) :
    inner.braced.Gives state fun tree after => state.Passes after ∧ tree.Complete := by
  have opened := ParseState.passes_advance more
  simp only [braced, gives_bind, gives_advance, gives_ite, gives_accept_cases, gives_missing,
    gives_pure]
  refine (reads.expr _ (Nat.lt_of_lt_of_le opened.weight_lt light)).mono
    fun value after valueRead => ?_
  have read := opened.trans_reaches valueRead.reaches
  exact ⟨fun _ => ⟨read.trans_reaches (ParseState.reaches_advance after), valueRead.complete⟩,
    fun _ => ⟨read, .join valueRead.complete (.invalid _ _)⟩⟩

theorem attributeValue?_gives (reads : inner.Reads bound) (light : state.weight ≤ bound) :
    inner.attributeValue?.Gives state fun value after =>
      state.Reaches after ∧ ∀ tree ∈ value, tree.Complete := by
  have present {parser : Parser Expr}
      (given : parser.Gives state fun tree after => state.Passes after ∧ tree.Complete) :
      (parser >>= fun tree => (pure (some tree) : Parser (Option Expr))).Gives state
        fun value after => state.Reaches after ∧ ∀ tree ∈ value, tree.Complete := by
    simp only [gives_bind, gives_pure]
    exact given.mono fun tree after read => ⟨read.1.toReaches, by simpa using read.2⟩
  unfold attributeValue?
  rw [gives_bind, gives_token]
  split
  · next found =>
    rw [gives_bind, gives_current]
    exact present (literal_gives (by simp [found]) _)
  · next found => exact present (number_gives (by simp [found]))
  · next found => exact present (template_gives reads light (by simp [found]))
  · next found => exact present (braced_gives reads light (by simp [found]))
  · rw [gives_pure]
    exact ⟨.refl state, by simp⟩

theorem attributeEntry_gives (reads : inner.Reads bound) (light : state.weight ≤ bound)
    (more : state.token ≠ .eof) :
    inner.attributeEntry.Gives state fun entry after =>
      state.Passes after ∧ entry.Complete := by
  have keyRead := ParseState.passes_advance more
  simp only [attributeEntry, gives_bind, gives_current, gives_advance, gives_ite,
    gives_accept_cases, gives_spanFrom, gives_pure]
  refine ⟨fun _ => ?_, fun _ => ⟨keyRead, .property (.constant _ _)⟩⟩
  have signRead := keyRead.trans_reaches (ParseState.reaches_advance state.advance)
  refine (attributeValue?_gives reads (Nat.le_trans signRead.toReaches.weight_le light)).mono
    fun value after valueRead => ?_
  have read := signRead.trans_reaches valueRead.1
  cases value with
  | some tree =>
      simp only [gives_bind, gives_spanFrom, gives_pure]
      exact ⟨read, .property (valueRead.2 tree rfl)⟩
  | none =>
      simp only [gives_bind, gives_skipLexeme, gives_pure]
      exact ⟨read.trans_reaches (ParseState.reaches_advance after), .invalid _ _⟩

theorem attributes_gives (reads : inner.Reads bound) (light : state.weight ≤ bound) :
    inner.attributes.Gives state fun found after =>
      state.Reaches after ∧ ∀ entry ∈ found.1, entry.Complete := by
  unfold attributes
  refine loop_gives
    (fun entries middle => state.Reaches middle ∧ ∀ entry ∈ entries, entry.Complete)
    (fun found after => state.Reaches after ∧ ∀ entry ∈ found.1, entry.Complete)
    ⟨.refl state, by simp⟩ ?_ fun _ _ found => found
  rintro entries middle ⟨reached, complete⟩
  have lighter : middle.weight ≤ bound := Nat.le_trans reached.weight_le light
  simp only [gives_bind, gives_token]
  split
  · next found =>
    simp only [gives_bind, gives_pure]
    refine (attributeEntry_gives reads lighter (by simp [found])).mono
      fun entry after entryRead => ?_
    exact ⟨entryRead.1.shorter, reached.trans entryRead.1.toReaches,
      forall_mem_concat complete entryRead.2⟩
  · have slashReached := reached.trans (ParseState.reaches_advance middle)
    simp only [gives_bind, gives_advance, gives_accept, gives_pure]
    exact ⟨fun _ => ⟨slashReached.trans (ParseState.reaches_advance _), complete⟩,
      fun _ => ⟨slashReached, complete⟩⟩
  · simp only [gives_bind, gives_advance, gives_pure]
    exact ⟨reached.trans (ParseState.reaches_advance middle), complete⟩
  · rw [gives_pure]
    exact ⟨reached, complete⟩
  · next notEof =>
    simp only [gives_bind, gives_skipLexeme, gives_pure]
    have read : middle.Passes middle.advance := ParseState.passes_advance notEof
    exact ⟨read.shorter, reached.trans read.toReaches,
      forall_mem_concat complete (.invalid _ _)⟩

/-! ## Children -/

theorem Children.complete_all {children : Children}
    (complete : ∀ child ∈ children.finished, child.Complete) :
    ∀ child ∈ children.all, child.Complete := by
  unfold Children.all
  split
  · exact complete
  · exact forall_mem_concat complete (.constant _ _)

theorem Children.finished_addWord (children : Children) (lexeme : Lexeme) :
    (children.addWord lexeme).finished = children.finished := by
  unfold Children.addWord
  split <;> rfl

theorem children_gives (reads : inner.Reads bound) (light : state.weight ≤ bound) :
    inner.children.Gives state fun found after =>
      state.Reaches after ∧ ∀ list ∈ found, ∀ child ∈ list, child.Complete := by
  unfold children
  refine loop_gives
    (fun children middle =>
      state.Reaches middle ∧ ∀ child ∈ children.finished, child.Complete)
    (fun found after => state.Reaches after ∧ ∀ list ∈ found, ∀ child ∈ list, child.Complete)
    ⟨.refl state, by simp⟩ ?_ fun _ _ found => found
  rintro children middle ⟨reached, complete⟩
  have lighter : middle.weight ≤ bound := Nat.le_trans reached.weight_le light
  have added {child : Expr} (childComplete : child.Complete) :
      ∀ other ∈ (children.add child).finished, other.Complete :=
    forall_mem_concat (Children.complete_all complete) childComplete
  simp only [gives_bind, gives_token]
  split
  · rw [gives_pure]
    exact ⟨reached, by simp⟩
  · next found =>
    simp only [gives_bind, gives_peekToken, gives_ite, gives_pure]
    refine ⟨fun _ => ⟨reached, by simpa using Children.complete_all complete⟩, fun _ => ?_⟩
    refine (reads.markup middle lighter found).mono fun child after childRead => ?_
    exact ⟨childRead.1.shorter, reached.trans childRead.1.toReaches, added childRead.2⟩
  · next found =>
    simp only [gives_bind, gives_pure]
    refine (braced_gives reads lighter (by simp [found])).mono fun child after childRead => ?_
    exact ⟨childRead.1.shorter, reached.trans childRead.1.toReaches, added childRead.2⟩
  · next found =>
    simp only [gives_bind, gives_current, gives_pure]
    refine (literal_gives (by simp [found]) _).mono fun child after childRead => ?_
    exact ⟨childRead.1.shorter, reached.trans childRead.1.toReaches, added childRead.2⟩
  · next found =>
    simp only [gives_bind, gives_advance, gives_pure]
    have read := ParseState.passes_advance (by simp [found] : middle.token ≠ .eof)
    exact ⟨read.shorter, reached.trans read.toReaches, complete⟩
  · next notEof _ _ _ _ =>
    simp only [gives_bind, gives_current, gives_advance, gives_pure]
    have read : middle.Passes middle.advance := ParseState.passes_advance notEof
    refine ⟨read.shorter, reached.trans read.toReaches, ?_⟩
    rw [Children.finished_addWord]
    exact complete

/-! ## Elements -/

theorem skipClosingTag_gives :
    skipClosingTag.Gives state fun _ after => state.Reaches after := by
  simp only [skipClosingTag, gives_bind]
  refine loop_gives (fun _ middle => state.Reaches middle) (fun _ after => state.Reaches after)
    (.refl state) ?_ ?_
  · intro _ middle reached
    simp only [gives_bind, gives_token, gives_ite, gives_advance, gives_pure]
    refine ⟨fun _ => reached, fun found => ?_⟩
    have read := ParseState.passes_advance fun ended => found (Or.inr ended)
    exact ⟨read.shorter, reached.trans read.toReaches⟩
  · intro _ after reached
    simp only [gives_accept, gives_pure]
    exact ⟨fun _ => reached.trans (ParseState.reaches_advance after), fun _ => reached⟩

theorem element_gives (reads : inner.Reads bound) (light : state.weight ≤ bound + 1)
    (found : state.token = .less) :
    inner.element.Gives state fun tree after => state.Passes after ∧ tree.Complete := by
  have opened := ParseState.passes_advance (by simp [found] : state.token ≠ .eof)
  have lighter : state.advance.weight ≤ bound := by
    have := opened.weight_lt
    omega
  simp only [element, gives_bind, gives_current, gives_advance, gives_token, gives_ite]
  refine ⟨fun _ => ?_, fun _ => ?_⟩
  · refine skipClosingTag_gives.mono fun _ after skipped => ?_
    simp only [gives_spanFrom, gives_pure]
    exact ⟨opened.trans_reaches skipped, .invalid _ _⟩
  · refine tag_gives.mono fun opening middle tagRead => ?_
    have middleLight : middle.weight ≤ bound := Nat.le_trans tagRead.1.weight_le lighter
    refine (attributes_gives reads middleLight).mono fun found inside read => ?_
    obtain ⟨entries, ending⟩ := found
    obtain ⟨insideReached, entriesComplete⟩ := read
    have insideRead := opened.trans_reaches (tagRead.1.trans insideReached)
    cases ending with
    | broken =>
        simp only [gives_bind, gives_spanFrom, gives_pure]
        exact ⟨insideRead, .invalid _ _⟩
    | closed =>
        simp only [gives_bind, gives_spanFrom, gives_pure]
        exact ⟨insideRead,
          .markup tagRead.2 (complete_of_isTag tagRead.2) entriesComplete (by simp)⟩
    | opened =>
        rw [gives_bind]
        refine (children_gives reads (Nat.le_trans insideReached.weight_le middleLight)).mono
          fun found last childrenRead => ?_
        have lastRead := insideRead.trans_reaches childrenRead.1
        cases found with
        | none =>
            simp only [gives_bind, gives_spanFrom, gives_pure]
            exact ⟨lastRead, .invalid _ _⟩
        | some list =>
            simp only [gives_bind, gives_advance]
            have closingReached := (ParseState.reaches_advance last).trans
              (ParseState.reaches_advance last.advance)
            refine tag_gives.mono fun closing after closingRead => ?_
            have read := lastRead.trans_reaches (closingReached.trans closingRead.1)
            simp only [gives_ite, gives_accept_cases, gives_bind, gives_spanFrom, gives_pure]
            refine ⟨fun _ => ⟨fun _ => ?_, fun _ => ?_⟩, fun _ => ⟨read, .invalid _ _⟩⟩
            · exact ⟨read.trans_reaches (ParseState.reaches_advance after),
                .markup tagRead.2 (complete_of_isTag tagRead.2) entriesComplete
                  (childrenRead.2 list rfl)⟩
            · exact ⟨read.trans_reaches (ParseState.reaches_advance after), .invalid _ _⟩

end Reckon.Grammar
