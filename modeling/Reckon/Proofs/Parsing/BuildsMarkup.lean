import Reckon.Proofs.Parsing.BuildsExpression

/-!
# Parsing markup builds trees

An element is built from its tag, its attributes and its children.  Its closing tag is passed over.
-/

namespace Reckon.Grammar

open Reckon.Parser ParseState

variable {inner : Grammar} {first state : ParseState}

/-! ## Tags -/

theorem componentPath_builds {head : Variable} (before : first.Builds [.expr (.var head)] state) :
    (componentPath head).Ensures state fun tree after => first.Builds [.expr tree] after := by
  refine loop_builds before fun owner middle built => ?_
  simp only [ensures_bind, ensures_token, ensures_peekToken, ensures_ite, ensures_advance,
    ensures_identifierRead, ensures_pure]
  refine ⟨fun selected => ?_, fun _ => built⟩
  have opened := built.sign (isSign_of_eq selected.1 rfl)
  exact .node (opened.and (.identifier (ne_eof_of_eq selected.2 (by decide))))
    (List.cons_ne_nil _ _) rfl
    ⟨.inr ⟨_, rfl, rfl⟩, .inr ⟨_, rfl, rfl⟩⟩

theorem plainPath_builds {head : Identifier}
    (before : first.Builds [.expr (.identifier head)] state) :
    (plainPath head).Ensures state fun name after =>
      first.Builds [.expr (.identifier name)] after := by
  refine loop_ensures (fun name middle => first.Builds [.expr (.identifier name)] middle) before ?_
  intro path middle built
  simp only [ensures_bind, ensures_token, ensures_peekToken, ensures_ite, ensures_advance,
    ensures_identifierRead, ensures_pure]
  refine ⟨fun selected => ?_, fun _ => built⟩
  exact .path _ (built.sign (isSign_of_eq selected.1 rfl)) (ne_eof_of_eq selected.2 (by decide))

theorem tag_builds :
    tag.Ensures state fun tree after => ∃ read, state.ReadsTag tree read ∧ state.Builds read after := by
  simp only [tag, ensures_bind, ensures_current, ensures_ite, ensures_here, ensures_pure,
    ensures_variableRead, ensures_identifierRead]
  refine ⟨fun _ => ⟨[], .fragment, .nothing state⟩, fun isName => ?_⟩
  have more : state.token ≠ .eof := ne_eof_of_eq (not_not.mp isName) (by decide)
  refine ⟨fun _ => ?_, fun _ => ?_⟩
  · exact (componentPath_builds (.read more)).mono fun tree _ built => ⟨_, .named tree, built⟩
  · exact (plainPath_builds (.identifier more)).mono fun name _ built =>
      ⟨_, .named (.identifier name), built⟩

/-- The words of a path are passed over. -/
theorem path_skips {α : Type} {extend : α → Identifier → α} {head : α}
    (before : SkipsPath first state) :
    (loop (σ := α) (β := α)
      (fun path => do
        if (← token) = .dot ∧ (← peekToken) = .name then
          advance
          let word ← identifierRead
          return .again (extend path word)
        else
          return .done path)
      head).Ensures state fun _ after => SkipsPath first after := by
  refine loop_ensures (fun _ middle => SkipsPath first middle) before fun path middle skipped => ?_
  simp only [ensures_bind, ensures_token, ensures_peekToken, ensures_ite, ensures_advance,
    ensures_identifierRead, ensures_pure]
  exact ⟨fun selected => .more (.more skipped (.inr selected.1)) (.inl selected.2), fun _ => skipped⟩

theorem tag_skips : tag.Ensures state fun _ after => SkipsPath state after := by
  simp only [tag, ensures_bind, ensures_current, ensures_ite, ensures_here, ensures_pure,
    ensures_variableRead, ensures_identifierRead]
  refine ⟨fun _ => .refl state, fun isName => ?_⟩
  have head : SkipsPath state state.advance := .more (.refl state) (.inl (not_not.mp isName))
  exact ⟨fun _ => path_skips head, fun _ => path_skips head⟩

/-! ## Attributes -/

theorem braced_builds (builds : inner.Builds) (brace : state.token = .leftBrace) :
    BuildsExpr inner.braced state := by
  simp only [BuildsExpr, braced, ensures_bind, ensures_advance, ensures_accept, ensures_ite,
    ensures_missing, ensures_pure, accepted_iff, refused_iff]
  have opened : state.Builds [] state.advance := Derives.sign (isSign_of_eq brace rfl)
  refine ((builds.expr _).after opened).mono fun value after built =>
    ⟨fun closing => ?_, fun _ => ?_⟩
  · exact built.sign (isSign_of_eq closing rfl)
  · exact (built.and (.missing _ _)).join _

theorem attributeValue?_builds (builds : inner.Builds) :
    inner.attributeValue?.Ensures state fun value after =>
      (∀ tree, value = some tree → state.Builds [.expr tree] after) ∧
        (value = none → after = state) := by
  have found {parser : Parser Expr} (parsed : BuildsExpr parser state) :
      (do return some (← parser) : Parser (Option Expr)).Ensures state fun value after =>
        (∀ tree, value = some tree → state.Builds [.expr tree] after) ∧
          (value = none → after = state) := by
    simp only [ensures_bind, ensures_pure]
    refine parsed.mono fun tree after built => ⟨fun same isSame => ?_, fun isNone => ?_⟩
    · cases isSame
      exact built
    · cases isNone
  simp only [attributeValue?, ensures_bind, ensures_token]
  split
  · next isString =>
    rw [ensures_bind, ensures_current]
    exact found (literal_builds _ (ne_eof_of_eq isString (by decide)))
  · next isNumber => exact found (number_builds isNumber)
  · next isTemplate => exact found (template_builds builds isTemplate)
  · next brace => exact found (braced_builds builds brace)
  · rw [ensures_pure]
    refine ⟨fun tree isSome => ?_, fun _ => rfl⟩
    cases isSome

theorem attributeEntry_builds (builds : inner.Builds) (more : state.token ≠ .eof) :
    inner.attributeEntry.Ensures state fun entry after => state.Builds [.entry entry] after := by
  simp only [attributeEntry, ensures_bind, ensures_current, ensures_advance, ensures_accept,
    ensures_ite, accepted_iff, refused_iff]
  refine ⟨fun sign => ?_, fun _ => ?_⟩
  · refine (attributeValue?_builds builds).mono fun value after found => ?_
    obtain ⟨built, unread⟩ := found
    cases value with
    | some tree =>
        simp only [ensures_bind, ensures_spanFrom, ensures_pure]
        exact .property (Builds.after_sign (isSign_of_eq sign rfl) (built tree rfl)) rfl
    | none =>
        simp only [ensures_bind, ensures_skipLexeme, ensures_pure]
        rw [unread rfl]
        exact .spoiltEntry _ (.more (.more (.refl state)))
  · simp only [ensures_spanFrom, ensures_pure]
    exact .node (.constant (.boolean true) more) (List.cons_ne_nil _ _) rfl ⟨.inl rfl, .inl rfl⟩

/-- The attributes of an element, with the end of its tag if this closes the element. -/
theorem attributes_build (builds : inner.Builds) {trees : List Node}
    (before : first.Builds trees state) :
    inner.attributes.Ensures state fun found after =>
      match found.2 with
      | .closed => ∃ last, first.Builds (trees ++ found.1.map .entry) last ∧ last.ClosesElement after
      | _ => first.Builds (trees ++ found.1.map .entry) after := by
  refine loop_ensures (fun soFar middle => first.Builds (trees ++ soFar.map .entry) middle)
    (by simpa using before) fun soFar middle built => ?_
  simp only [ensures_bind, ensures_token]
  split
  · next isName =>
    simp only [ensures_bind, ensures_pure]
    exact (attributeEntry_builds builds (ne_eof_of_eq isName (by decide))).mono fun _ _ entry =>
      built.concat trees entry
  · next slash =>
    simp only [ensures_bind, ensures_advance, ensures_accept, ensures_pure]
    exact ⟨fun greater => ⟨middle, built, .within slash greater⟩,
      fun _ => built.sign (isSign_of_eq slash rfl)⟩
  · next greater =>
    simp only [ensures_bind, ensures_advance, ensures_pure]
    exact built.sign (isSign_of_eq greater rfl)
  · rw [ensures_pure]
    exact built
  · simp only [ensures_bind, ensures_skipLexeme, ensures_pure]
    exact built.concat trees (.badEntry middle _)

/-! ## Children -/

theorem Children.add_builds {children : Children} {child : Expr} {trees : List Node}
    {middle after : ParseState} (built : first.Builds (trees ++ children.all.map .expr) middle)
    (read : middle.Builds [.expr child] after) :
    first.Builds (trees ++ (children.add child).all.map .expr) after :=
  built.concat trees read

theorem Children.addWord_builds {children : Children} {trees : List Node}
    (built : first.Builds (trees ++ children.all.map .expr) state) (more : state.token ≠ .eof) :
    first.Builds (trees ++ (children.addWord state.cursor.current).all.map .expr) state.advance := by
  unfold addWord
  split
  · next noText =>
    simp only [all, noText] at built ⊢
    exact built.concat trees (.constant _ more)
  · next span words text =>
    simp only [all, text, List.map_append, List.map_cons, List.map_nil, ← List.append_assoc]
      at built ⊢
    exact .word _ built more

/-- Where the children of an element end. -/
structure Closed (first : ParseState) (trees : List Node) (children : List Expr)
    (after : ParseState) : Prop where
  builds : first.Builds (trees ++ children.map .expr) after
  less : after.token = .less
  slash : after.advance.token = .slash

theorem children_build (builds : inner.Builds) {trees : List Node}
    (before : first.Builds trees state) :
    inner.children.Ensures state fun found after =>
      match found with
      | some children => Closed first trees children after
      | none => ∃ more, first.Builds (trees ++ more) after := by
  refine loop_ensures (fun soFar middle => first.Builds (trees ++ soFar.all.map .expr) middle)
    (by simpa [Children.all] using before) fun soFar middle built => ?_
  simp only [ensures_bind, ensures_token]
  split
  · rw [ensures_pure]
    exact ⟨_, built⟩
  · next less =>
    simp only [ensures_bind, ensures_peekToken, ensures_ite, ensures_pure]
    refine ⟨fun slash => ⟨built, less, slash⟩, fun _ => ?_⟩
    exact (builds.markup middle less).mono fun _ _ child => Children.add_builds built child
  · next brace =>
    simp only [ensures_bind, ensures_pure]
    exact (braced_builds builds brace).mono fun _ _ child => Children.add_builds built child
  · next isString =>
    simp only [ensures_bind, ensures_current, ensures_pure]
    exact (literal_builds _ (ne_eof_of_eq isString (by decide))).mono fun _ _ child =>
      Children.add_builds built child
  · next semicolon =>
    simp only [ensures_bind, ensures_advance, ensures_pure]
    exact built.sign (isSign_of_eq semicolon rfl)
  · next more _ _ _ _ =>
    simp only [ensures_bind, ensures_current, ensures_advance, ensures_pure]
    exact Children.addWord_builds built more

/-! ## Elements -/

theorem skipClosingTag_skips (before : Skips first state) :
    skipClosingTag.Ensures state fun _ after => Skips first after := by
  have passed : (loop (σ := Unit) (β := Unit)
      (fun _ => do
        if (← token) = .greater ∨ (← token) = .eof then return .done ()
        else
          advance
          return .again ())
      ()).Ensures state fun _ after => Skips first after := by
    refine loop_ensures (fun _ middle => Skips first middle) before fun _ middle skipped => ?_
    simp only [ensures_bind, ensures_token, ensures_ite, ensures_advance, ensures_pure]
    exact ⟨fun _ => skipped, fun _ => .more skipped⟩
  simp only [skipClosingTag, ensures_bind]
  refine passed.mono fun _ after skipped => ?_
  simp only [ensures_accept, ensures_pure]
  exact ⟨fun _ => .more skipped, fun _ => skipped⟩

theorem element_builds (builds : inner.Builds) (less : state.token = .less) :
    BuildsExpr inner.element state := by
  have opened : state.Builds [] state.advance := Derives.sign (isSign_of_eq less rfl)
  simp only [BuildsExpr, element, ensures_bind, ensures_current, ensures_advance, ensures_token,
    ensures_ite, ensures_spanFrom, ensures_pure]
  refine ⟨fun _ => ?_, fun _ => ?_⟩
  · refine (skipClosingTag_skips (.refl _)).mono fun _ after skipped => ?_
    exact .spoilt _ opened skipped ⟨.inl rfl, .inl rfl⟩
  refine tag_builds.mono fun opening middle tagged => ?_
  obtain ⟨read, isTag, tagged⟩ := tagged
  refine (attributes_build builds tagged).mono fun found after built => ?_
  obtain ⟨entries, tagEnd⟩ := found
  cases tagEnd with
  | broken =>
      simp only [ensures_bind, ensures_spanFrom, ensures_pure]
      exact .spoilt _ (opened.and built) (.refl _) ⟨.inl rfl, .inl rfl⟩
  | closed =>
      obtain ⟨last, built, closes⟩ := built
      simp only [ensures_bind, ensures_spanFrom, ensures_pure]
      exact .element less isTag (by simpa using built) closes rfl
  | opened =>
      simp only [ensures_bind]
      refine (children_build builds built).mono fun found last ended => ?_
      cases found with
      | none =>
          obtain ⟨more, unclosed⟩ := ended
          simp only [ensures_bind, ensures_spanFrom, ensures_pure]
          exact .spoilt _ (opened.and unclosed) (.refl _) ⟨.inl rfl, .inl rfl⟩
      | some children =>
          have whole := opened.and ended.builds
          simp only [ensures_bind, ensures_advance]
          refine tag_skips.mono fun closing final skipped => ?_
          have passed : Skips last final := .trans (.more (.more (.refl last))) skipped.skips
          simp only [ensures_accept, ensures_ite, ensures_bind, ensures_spanFrom, ensures_pure,
            accepted_iff, refused_iff]
          refine ⟨fun greater => ⟨fun _ => ?_, fun _ => ?_⟩, fun _ => ?_⟩
          · exact .element less isTag (by simpa using ended.builds)
              (.tag ended.less ended.slash skipped greater) rfl
          · exact .spoilt _ whole (.more passed) ⟨.inl rfl, .inl rfl⟩
          · exact .spoilt _ whole passed ⟨.inl rfl, .inl rfl⟩

end Reckon.Grammar
