import Reckon.Proofs.Parsing.Entrances
import Reckon.Proofs.Parsing.IgnoresStatement
import Reckon.Proofs.Parsing.MovesStatement

/-!
# Lines that break within elements

A newline between the children of an element is a semicolon or a blank, so the element stays the same:
what is read before it does not look that far, and what is read after it starts with a lexeme of its own.
This holds at every depth of nested elements.
-/

namespace Reckon

namespace ParseState

theorem token_ne_eof_of_pos {state : ParseState} (more : 0 < state.cursor.remaining) :
    state.token ≠ .eof :=
  fun ended => List.ne_nil_of_length_pos more (state.token_eq_eof_iff.mp ended)

theorem SkipsSemicolons.insert {gap : Gap} {first last : ParseState}
    (skips : first.SkipsSemicolons last) (before : gap.behind < last.cursor.remaining) :
    (first.insert gap).SkipsSemicolons (last.insert gap) := by
  induction skips with
  | done other => exact .done (token_insert before ▸ other)
  | @skip first last semicolon rest inductionHypothesis =>
      have shorter := (passes_advance (by simp [semicolon] : first.token ≠ .eof)).shorter
      have further : gap.behind < first.cursor.remaining :=
        Nat.lt_trans (Nat.lt_of_lt_of_le before rest.reaches.remaining_le) shorter
      refine .skip ((token_insert further).trans semicolon) ?_
      rw [advance_insert further]
      exact inductionHypothesis before

/-- The state with another place as that of the last lexeme that was read. -/
def after (state : ParseState) (previous : Position) : ParseState :=
  { state with previous }

end ParseState

namespace Grammar

open Reckon.Parser

variable {gap : Gap} {first second inner : Grammar} {state opened place after last : ParseState}
  {soFar next : Children} {opening tree : Expr} {entries : List Entry} {found : Option (List Expr)}

/-! ## Places in elements -/

/-- The loop over the children of an element comes from the end of its opening tag to a place. -/
inductive Collects (inner : Grammar) (opened : ParseState) : Children → ParseState → Prop
  | start : Collects inner opened {} opened
  | round {soFar next : Children} {state after : ParseState} : Collects inner opened soFar state →
      inner.childrenRound soFar state = some (.again next, after) → Collects inner opened next after

/-- An element at a state has an opening tag, which ends before its children. -/
structure OpensElement (inner : Grammar) (state : ParseState) (opening : Expr) (entries : List Entry)
    (opened : ParseState) : Prop where
  notClosing : state.advance.token ≠ .slash
  reads : ∃ tagged, tag state.advance = some (opening, tagged) ∧
    inner.attributes tagged = some ((entries, .opened), opened)

/-- A place between the children of an element, or of an element among its children, at any depth. -/
inductive InContent : Nat → ParseState → ParseState → Prop
  | here {depth : Nat} {state opened place : ParseState} {opening : Expr} {entries : List Entry}
      {soFar : Children} : (ofDepth depth).OpensElement state opening entries opened →
      (ofDepth depth).Collects opened soFar place → InContent depth state place
  | within {depth : Nat} {state opened child place : ParseState} {opening : Expr}
      {entries : List Entry} {soFar : Children} :
      (ofDepth (depth + 1)).OpensElement state opening entries opened →
      (ofDepth (depth + 1)).Collects opened soFar child → child.token = .less →
      child.cursor.peek.token ≠ .slash → InContent depth child place →
      InContent (depth + 1) state place

/-- The place after some children of an element. -/
def collect (inner : Grammar) : Nat → Children → ParseState → Option (Children × ParseState)
  | 0, soFar, place => some (soFar, place)
  | count + 1, soFar, place => do
    let (.again next, after) ← inner.childrenRound soFar place | none
    inner.collect count next after

/-- The place behind the opening tag of an element. -/
def openElement (inner : Grammar) (state : ParseState) : Option ParseState := do
  if state.advance.token = .slash then none
  let (_, tagged) ← tag state.advance
  let ((_, .opened), opened) ← inner.attributes tagged | none
  return opened

/-- The place after some children of an element, some children of the next one of them, and so on. -/
def placeIn : Nat → List Nat → ParseState → Option ParseState
  | depth, [count], state => do
    let opened ← (ofDepth depth).openElement state
    return (← (ofDepth depth).collect count {} opened).2
  | depth + 1, count :: path, state => do
    let opened ← (ofDepth (depth + 1)).openElement state
    let (_, child) ← (ofDepth (depth + 1)).collect count {} opened
    if child.token = .less ∧ child.cursor.peek.token ≠ .slash then placeIn depth path child else none
  | _, _, _ => none

theorem collects_of_collect {count : Nat} (collects : inner.Collects opened soFar state)
    (found : inner.collect count soFar state = some (next, place)) : inner.Collects opened next place := by
  induction count generalizing soFar state with
  | zero =>
      cases found
      exact collects
  | succ count inductionHypothesis =>
      obtain ⟨⟨outcome, after⟩, ran, rest⟩ := Option.bind_eq_some_iff.mp found
      cases outcome with
      | again next => exact inductionHypothesis (.round collects ran) rest
      | done found => cases rest

theorem opensElement_of_openElement (found : inner.openElement state = some opened) :
    ∃ opening entries, inner.OpensElement state opening entries opened := by
  have notClosing : state.advance.token ≠ .slash := by
    intro closing
    rw [openElement, if_pos closing] at found
    cases found
  rw [openElement, if_neg notClosing] at found
  obtain ⟨⟨opening, tagged⟩, tagRead, rest⟩ := Option.bind_eq_some_iff.mp found
  obtain ⟨⟨⟨entries, tagEnd⟩, after⟩, read, rest⟩ := Option.bind_eq_some_iff.mp rest
  cases tagEnd with
  | opened =>
      cases rest
      exact ⟨opening, entries, notClosing, tagged, tagRead, read⟩
  | closed | broken => cases rest

theorem inContent_of_placeIn {depth : Nat} {path : List Nat}
    (found : placeIn depth path state = some place) : InContent depth state place := by
  fun_induction placeIn depth path state with
  | case1 depth state count =>
      obtain ⟨opened, openRead, rest⟩ := Option.bind_eq_some_iff.mp found
      obtain ⟨⟨soFar, after⟩, ran, rest⟩ := Option.bind_eq_some_iff.mp rest
      cases rest
      obtain ⟨opening, entries, opens⟩ := opensElement_of_openElement openRead
      exact .here opens (collects_of_collect .start ran)
  | case2 depth state count path _ inductionHypothesis =>
      obtain ⟨opened, openRead, rest⟩ := Option.bind_eq_some_iff.mp found
      obtain ⟨⟨soFar, child⟩, ran, rest⟩ := Option.bind_eq_some_iff.mp rest
      obtain ⟨opening, entries, opens⟩ := opensElement_of_openElement openRead
      change (if child.token = .less ∧ child.cursor.peek.token ≠ .slash then _ else none) = _ at rest
      split at rest
      · next isChild =>
        exact .within opens (collects_of_collect .start ran) isChild.1 isChild.2
          (inductionHypothesis _ rest)
      · cases rest
  | case3 => cases found

/-! ## Elements with an opening tag -/

/-- Behind its opening tag an element goes on with children and a closing tag. -/
theorem OpensElement.element_eq (opens : inner.OpensElement state opening entries opened) :
    inner.element state =
      (inner.children >>= closing state.cursor.current.span.start opening entries) opened := by
  obtain ⟨notClosing, tagged, tagRead, read⟩ := opens
  change (if state.advance.token = .slash then _ else _ : Parser Expr) state.advance = _
  rw [if_neg notClosing]
  change (tag state.advance).bind _ = _
  rw [tagRead]
  change (inner.attributes tagged).bind _ = _
  rw [read]
  refine congrArg (Option.bind (inner.children opened)) (funext fun found => ?_)
  obtain ⟨_ | list, after⟩ := found <;> rfl

theorem OpensElement.insert (ignores : first.Ignores gap second)
    (opens : first.OpensElement state opening entries opened)
    (before : gap.behind ≤ opened.cursor.remaining) :
    gap.behind + 2 ≤ state.cursor.remaining ∧
      second.OpensElement (state.insert gap) opening entries (opened.insert gap) := by
  obtain ⟨notClosing, tagged, tagRead, read⟩ := opens
  obtain ⟨beforeTagged, attributesRead⟩ := (attributes_ignores ignores).across read before
  obtain ⟨beforeTag, tagRead'⟩ := tag_ignores.across tagRead beforeTagged
  have further : gap.behind + 2 ≤ state.cursor.remaining := by
    change gap.behind + 1 ≤ state.cursor.advance.remaining at beforeTag
    rw [Cursor.remaining_advance] at beforeTag
    omega
  have advanced : (state.insert gap).advance = state.advance.insert gap :=
    ParseState.advance_insert (by omega)
  refine ⟨further, ⟨?_, tagged.insert gap, ?_, attributesRead⟩⟩
  · rw [advanced, ParseState.token_insert beforeTag]
    exact notClosing
  · rw [advanced]
    exact tagRead'

/-- A sound element that does not end with its opening tag has a list of sound children. -/
theorem closing_sound {start : Position}
    (ran : closing start opening entries found state = some (tree, after))
    (sound : tree.diagnostics = []) :
    ∃ list, found = some list ∧ ∀ child ∈ list, child.diagnostics = [] := by
  have faulty {span : Span} {defect : Defect} (same : tree = .invalid span defect) : False :=
    diagnostics_invalid_ne_nil span defect (same ▸ sound)
  cases found with
  | none =>
      obtain ⟨rfl, -⟩ := Prod.mk.inj (Option.some.inj ran).symm
      exact (faulty rfl).elim
  | some list =>
      refine ⟨list, rfl, fun child member => ?_⟩
      have whole : ∃ span, tree = .markup span opening entries list := by
        have ensured : (closing start opening entries (some list)).Ensures state fun tree _ =>
            tree.diagnostics = [] → ∃ span, tree = .markup span opening entries list := by
          simp only [closing, ensures_bind, ensures_advance, ensures_accept, ensures_ite,
            ensures_spanFrom, ensures_pure, accepted_iff, refused_iff]
          intro closing after read
          refine ⟨fun _ => ⟨fun _ _ => ⟨_, rfl⟩, fun _ sound => ?_⟩, fun _ sound => ?_⟩
          · exact absurd sound (diagnostics_invalid_ne_nil _ _)
          · exact absurd sound (diagnostics_invalid_ne_nil _ _)
        exact ensured _ _ ran sound
      obtain ⟨span, rfl⟩ := whole
      by_contra reported
      have isChild : .expr child ∈ (Node.expr (.markup span opening entries list)).children :=
        List.mem_cons_of_mem _ (List.mem_append_right _ (List.mem_map_of_mem member))
      exact Node.diagnostics_ne_nil_of_child isChild reported sound

/-! ## The loop over children -/

theorem repeatRound_of_again {bound : Nat}
    (ran : inner.childrenRound soFar state = some (.again next, after)) :
    repeatRound inner.childrenRound (bound + 1) soFar state =
      repeatRound inner.childrenRound bound next after := by
  change (inner.childrenRound soFar state).bind _ = _
  rw [ran]
  rfl

/-- At an opening bracket a round ends before a closing tag, or reads an element. -/
theorem childrenRound_of_less (inner : Grammar) (soFar : Children) (less : state.token = .less) :
    inner.childrenRound soFar state =
      if state.cursor.peek.token = .slash then some (.done (some soFar.all), state)
      else (inner.markup state).bind fun found => some (.again (soFar.add found.1), found.2) := by
  change inner.childrenRoundAt soFar state.token state = _
  rw [less]
  change (if state.cursor.peek.token = .slash then _ else _ : Parser _) state = _
  split <;> rfl

theorem exists_eq_succ_of_repeatRound {bound : Nat}
    (ran : repeatRound inner.childrenRound bound soFar state = some (found, last)) :
    ∃ less, bound = less + 1 := by
  refine Nat.exists_eq_succ_of_ne_zero ?_
  rintro rfl
  cases ran

/-- The children that are finished stay. -/
theorem childrenRound_grows (inner : Grammar) (soFar : Children) (state : ParseState) :
    (inner.childrenRound soFar).Ensures state
      (Round.Meets (fun next _ => soFar.finished ⊆ next.finished)
        fun found _ => ∀ list, found = some list → soFar.finished ⊆ list) := by
  have all : soFar.finished ⊆ soFar.all := by
    unfold Children.all
    split
    · exact List.Subset.refl _
    · exact List.subset_append_left _ _
  have added (child : Expr) : soFar.finished ⊆ (soFar.add child).finished :=
    List.Subset.trans all (List.subset_append_left _ _)
  rw [childrenRound, ensures_bind, ensures_token]
  unfold childrenRoundAt
  split
  · rw [ensures_pure]
    exact nofun
  · simp only [ensures_bind, ensures_peekToken, ensures_ite, ensures_pure]
    refine ⟨?_, fun _ child _ _ => added child⟩
    rintro _ _ ⟨⟩
    exact all
  · simp only [ensures_bind, ensures_pure]
    exact fun child _ _ => added child
  · simp only [literal, ensures_bind, ensures_current, ensures_skipLexeme, ensures_pure]
    exact added _
  · simp only [ensures_bind, ensures_advance, ensures_pure]
    exact List.Subset.refl _
  · simp only [ensures_bind, ensures_current, ensures_advance, ensures_pure]
    change soFar.finished ⊆ (soFar.addWord _).finished
    rw [Children.finished_addWord]
    exact List.Subset.refl _

theorem finished_subset {bound : Nat} {list : List Expr}
    (ran : repeatRound inner.childrenRound bound soFar state = some (some list, last)) :
    soFar.finished ⊆ list := by
  induction bound generalizing soFar state with
  | zero => cases ran
  | succ bound inductionHypothesis =>
      change (inner.childrenRound soFar state).bind _ = _ at ran
      obtain ⟨⟨outcome, after⟩, roundRan, rest⟩ := Option.bind_eq_some_iff.mp ran
      have grows := childrenRound_grows inner soFar state _ _ roundRan
      cases outcome with
      | again next => exact List.Subset.trans grows (inductionHypothesis rest)
      | done found =>
          cases rest
          exact grows list rfl

/-- Where the loop over the children comes, it comes with the semicolon further on too. -/
theorem Collects.comes (ignores : first.Ignores gap second)
    (collects : first.Collects opened soFar place) {bound : Nat}
    (ran : repeatRound first.childrenRound bound {} opened = some (found, last)) :
    ∃ left, repeatRound first.childrenRound left soFar place = some (found, last) ∧
      (gap.behind ≤ place.cursor.remaining → soFar.IsSound →
        gap.behind ≤ opened.cursor.remaining ∧
          repeatRound second.childrenRound (bound + 1) {} (opened.insert gap) =
            repeatRound second.childrenRound (left + 1) soFar (place.insert gap)) := by
  induction collects with
  | start => exact ⟨bound, ran, fun before _ => ⟨before, rfl⟩⟩
  | @round soFar next state after _ roundRan inductionHypothesis =>
      obtain ⟨left, rest, comes⟩ := inductionHypothesis
      obtain ⟨left, rfl⟩ := exists_eq_succ_of_repeatRound rest
      refine ⟨left, (repeatRound_of_again roundRan).symm.trans rest, fun before sound => ?_⟩
      have near : roundLookahead (.again next) = 0 := if_pos sound
      have grows : soFar.finished ⊆ next.finished := childrenRound_grows first soFar state _ _ roundRan
      obtain ⟨further, roundRan'⟩ :=
        (childrenRound_ignores ignores soFar).across roundRan (by rw [near]; exact before)
      obtain ⟨beforeOpened, same⟩ :=
        comes (Nat.le_of_succ_le further) fun child member => sound child (grows member)
      exact ⟨beforeOpened, same.trans (repeatRound_of_again roundRan')⟩

/-! ## At the semicolon -/

/-- At the semicolon the loop goes on to the lexeme behind it. -/
theorem childrenRound_at_gap (here : place.cursor.remaining = gap.behind) :
    inner.childrenRound soFar (place.insert gap) =
      some (.again soFar, place.after gap.filler.span.stop) := by
  have token : (place.insert gap).token = .semicolon :=
    (congrArg Lexeme.token (Cursor.current_insert_of_eq here)).trans gap.isSemicolon
  have advanced : (place.insert gap).advance = place.after gap.filler.span.stop := by
    simp only [ParseState.advance, ParseState.insert, Cursor.advance_insert_of_eq here,
      Cursor.current_insert_of_eq here]
    rfl
  change inner.childrenRoundAt soFar (place.insert gap).token (place.insert gap) = _
  rw [token, ← advanced]
  rfl

/-- A round that reads a lexeme does not depend on what was read before it. -/
theorem childrenRound_after {depth : Nat} (more : state.token ≠ .eof)
    (other : ¬(state.token = .less ∧ state.cursor.peek.token = .slash)) (previous : Position) :
    (ofDepth depth).childrenRound soFar (state.after previous) =
      (ofDepth depth).childrenRound soFar state := by
  have markup : (ofDepth depth).markup (state.after previous) = (ofDepth depth).markup state := by
    cases depth <;> rfl
  change (ofDepth depth).childrenRoundAt soFar state.token (state.after previous) =
    (ofDepth depth).childrenRoundAt soFar state.token state
  generalize state.token = token at more other
  unfold childrenRoundAt
  split
  · exact absurd rfl more
  · change (if state.cursor.peek.token = .slash then _ else _ : Parser _) (state.after previous) =
      (if state.cursor.peek.token = .slash then _ else _ : Parser _) state
    rw [if_neg fun slash => other ⟨rfl, slash⟩]
    change ((ofDepth depth).markup (state.after previous)).bind _ = _
    rw [markup]
    rfl
  all_goals rfl

/-- The rest of an element, after some of its children, does not depend on what was read before it. -/
theorem repeatRound_after {depth bound : Nat} (more : state.token ≠ .eof)
    (ran : repeatRound (ofDepth depth).childrenRound bound soFar state = some (found, last))
    (previous : Position) :
    ∃ stop, repeatRound (ofDepth depth).childrenRound bound soFar (state.after previous) =
        some (found, stop) ∧
      ∀ start, closing start opening entries found stop = closing start opening entries found last := by
  obtain ⟨bound, rfl⟩ := exists_eq_succ_of_repeatRound ran
  by_cases closes : state.token = .less ∧ state.cursor.peek.token = .slash
  · have done (place : ParseState) (opens : place.token = .less)
        (slash : place.cursor.peek.token = .slash) :
        repeatRound (ofDepth depth).childrenRound (bound + 1) soFar place =
          some (some soFar.all, place) := by
      change ((ofDepth depth).childrenRound soFar place).bind _ = _
      rw [childrenRound_of_less _ soFar opens, if_pos slash]
      rfl
    rw [done state closes.1 closes.2] at ran
    cases ran
    exact ⟨state.after previous, done _ closes.1 closes.2, fun _ => rfl⟩
  · refine ⟨last, ?_, fun _ => rfl⟩
    change ((ofDepth depth).childrenRound soFar (state.after previous)).bind _ = _
    rw [childrenRound_after more closes]
    exact ran

/-! ## Elements with a semicolon in their content -/

/-- A sound element stays the same if its children do from some place on. -/
theorem OpensElement.element_insert (ignores : first.Ignores gap second)
    (opens : first.OpensElement state opening entries opened)
    (collects : first.Collects opened soFar place)
    (ran : first.element state = some (tree, after)) (sound : tree.diagnostics = []) :
    ∃ left list last, repeatRound first.childrenRound left soFar place = some (some list, last) ∧
      (∀ child ∈ list, child.diagnostics = []) ∧
      ∀ stop, gap.behind ≤ place.cursor.remaining →
        repeatRound second.childrenRound (left + 1) soFar (place.insert gap) =
          some (some list, stop) →
        (∀ start, closing start opening entries (some list) stop =
          closing start opening entries (some list) last) →
        gap.behind + 2 ≤ state.cursor.remaining ∧
          second.element (state.insert gap) = some (tree, after) := by
  rw [opens.element_eq] at ran
  obtain ⟨⟨found, last⟩, childrenRan, closingRan⟩ := Option.bind_eq_some_iff.mp ran
  obtain ⟨list, rfl, sounds⟩ := closing_sound closingRan sound
  obtain ⟨left, rest, comes⟩ := collects.comes ignores childrenRan
  refine ⟨left, list, last, rest, sounds, fun stop before goesOn closes => ?_⟩
  have soFarSound : soFar.IsSound := fun child member => sounds child (finished_subset rest member)
  obtain ⟨beforeOpened, same⟩ := comes before soFarSound
  obtain ⟨further, opens'⟩ := opens.insert ignores beforeOpened
  have start : (state.insert gap).cursor.current = state.cursor.current :=
    Cursor.current_insert (by omega)
  have children : second.children (opened.insert gap) = some (some list, stop) := by
    have longer : (opened.insert gap).cursor.remaining = opened.cursor.remaining + 1 :=
      Cursor.remaining_insert gap opened.cursor
    rw [children_eq]
    change repeatRound _ ((opened.insert gap).cursor.remaining + 1) _ _ = _
    rw [longer]
    exact same.trans goesOn
  refine ⟨further, ?_⟩
  rw [opens'.element_eq]
  change (second.children (opened.insert gap)).bind _ = _
  rw [children, start]
  exact (closes _).trans closingRan

/-- A semicolon in the content of an element makes no difference to it. -/
theorem InContent.element_eq {depth : Nat} (content : InContent depth state place)
    (here : place.cursor.remaining = gap.behind) {deeper : Nat} (le : depth ≤ deeper)
    (ran : (ofDepth depth).element state = some (tree, after)) (sound : tree.diagnostics = []) :
    gap.behind + 2 ≤ state.cursor.remaining ∧
      (ofDepth deeper).element (state.insert gap) = some (tree, after) := by
  induction content generalizing deeper tree after with
  | here opens collects =>
      have ignores := ignores_ofDepth gap le
      obtain ⟨left, list, last, rest, -, goesOn⟩ := opens.element_insert ignores collects ran sound
      have more := ParseState.token_ne_eof_of_pos (here ▸ gap.goesOn)
      have further := (ignoresUpTo_repeatRound (childrenRound_ignores_looped ignores)
        (Nat.le_refl left) _).same rest
      obtain ⟨stop, restAfter, closes⟩ := repeatRound_after more further gap.filler.span.stop
      refine goesOn stop (Nat.le_of_eq here.symm) ?_ closes
      rw [repeatRound_of_again (childrenRound_at_gap here)]
      exact restAfter
  | @within depth state opened child place opening entries soFar opens collects less notSlash content
      inductionHypothesis =>
    obtain ⟨deeper, rfl⟩ := Nat.exists_eq_succ_of_ne_zero (Nat.ne_zero_of_lt le)
    have ignores := ignores_ofDepth gap le
    obtain ⟨left, list, last, rest, sounds, goesOn⟩ := opens.element_insert ignores collects ran sound
    obtain ⟨left, rfl⟩ := exists_eq_succ_of_repeatRound rest
    obtain ⟨⟨outcome, behind⟩, roundRan, rest'⟩ := Option.bind_eq_some_iff.mp rest
    rw [childrenRound_of_less _ soFar less, if_neg notSlash] at roundRan
    obtain ⟨⟨subtree, behind⟩, markupRan, same⟩ := Option.bind_eq_some_iff.mp roundRan
    cases same
    have subtreeSound : subtree.diagnostics = [] :=
      sounds subtree (finished_subset rest' (List.mem_append_right _ (List.mem_singleton_self _)))
    obtain ⟨further, markupRan'⟩ :=
      inductionHypothesis here (Nat.le_of_succ_le_succ le) markupRan subtreeSound
    have less' : (child.insert gap).token = .less := (ParseState.token_insert (by omega)).trans less
    have peek : (child.insert gap).cursor.peek = child.cursor.peek := Cursor.peek_insert further
    have roundRan' : (ofDepth (deeper + 1)).childrenRound soFar (child.insert gap) =
        some (.again (soFar.add subtree), behind) := by
      rw [childrenRound_of_less _ soFar less', peek, if_neg notSlash]
      change ((ofDepth deeper).element (child.insert gap)).bind _ = _
      rw [markupRan']
      rfl
    refine goesOn last (by omega) ?_ fun _ => rfl
    rw [repeatRound_of_again roundRan']
    exact (ignoresUpTo_repeatRound (childrenRound_ignores_looped ignores) (Nat.le_succ left) _).same
      rest'

/-! ## Elements that are the whole source -/

theorem OpensElement.deeper (ignores : first.Ignores gap second)
    (opens : first.OpensElement state opening entries opened) :
    second.OpensElement state opening entries opened := by
  obtain ⟨notClosing, tagged, tagRead, read⟩ := opens
  exact ⟨notClosing, tagged, tagRead, (attributes_ignores ignores).same read⟩

theorem Collects.deeper (ignores : first.Ignores gap second)
    (collects : first.Collects opened soFar place) : second.Collects opened soFar place := by
  induction collects with
  | start => exact .start
  | round _ ran inductionHypothesis =>
      exact .round inductionHypothesis ((childrenRound_ignores ignores _).same ran)

theorem InContent.deeper {depth deeper : Nat} (le : depth ≤ deeper)
    (content : InContent depth state place) : InContent deeper state place := by
  induction content generalizing deeper with
  | here opens collects =>
      have ignores := ignores_ofDepth default le
      exact .here (opens.deeper ignores) (collects.deeper ignores)
  | within opens collects less notSlash _ inductionHypothesis =>
      obtain ⟨deeper, rfl⟩ := Nat.exists_eq_succ_of_ne_zero (Nat.ne_zero_of_lt le)
      have ignores := ignores_ofDepth default le
      exact .within (opens.deeper ignores) (collects.deeper ignores) less notSlash
        (inductionHypothesis (Nat.le_of_succ_le_succ le))

/-- An element that is the whole source stays the same with a semicolon in its content. -/
theorem entire_insert {depth deeper : Nat} {start last : ParseState} (le : depth ≤ deeper)
    (leading : start.SkipsSemicolons state) (content : InContent depth state place)
    (here : place.cursor.remaining = gap.behind)
    (ran : (ofDepth (depth + 1)).entire start = some (tree, last)) (sound : tree.diagnostics = [])
    (element : tree.isMarkup = true) :
    gap.behind < start.cursor.remaining ∧
      (ofDepth (deeper + 1)).entire.Gives (start.insert gap) fun found _ => found = tree := by
  obtain ⟨⟨opened, middle, leading', assignmentRan, trailing⟩, ended⟩ :=
    entire_ensures_fills tree last ran sound
  obtain rfl := leading.unique leading'
  obtain ⟨less, elementRan⟩ :=
    assignment_ensures_element (buildsElements_ofDepth _) tree middle assignmentRan element
  obtain ⟨further, inserted⟩ := content.element_eq here le elementRan sound
  have less' : (state.insert gap).token = .less := (ParseState.token_insert (by omega)).trans less
  have assignment : (ofDepth (deeper + 1)).assignment.Gives (state.insert gap)
      fun found after => found = tree ∧ after = middle := by
    refine @gives_parserOf_of_operand _ _ .assignment _ ?_ ?_ (by rw [less']; rfl)
    · rw [operand, gives_bind, gives_token, less']
      exact ⟨tree, middle, inserted, rfl, rfl⟩
    · rintro _ _ ⟨-, rfl⟩
      cases trailing with
      | done => rw [ended]; rfl
      | skip semicolon => rw [semicolon]; rfl
  have before : gap.behind < start.cursor.remaining :=
    Nat.lt_of_lt_of_le (by omega) leading.reaches.remaining_le
  refine ⟨before, ?_⟩
  rw [entire, gives_bind]
  refine (skipSemicolons_gives_of_skips (leading.insert (by omega))).mono ?_
  rintro _ _ rfl
  rw [gives_bind]
  refine assignment.mono ?_
  rintro _ _ ⟨rfl, rfl⟩
  refine loop_gives_of_round ?_
  rw [gives_bind]
  refine (skipSemicolons_gives_of_skips trailing).mono ?_
  rintro _ _ rfl
  simp only [gives_bind, gives_token, ended, if_true, gives_pure]
  rfl

end Grammar

open Grammar

namespace Parsed

/-- A grammar of any depth that makes something of a source makes the tree of the source. -/
theorem expression_eq_of_entire {source depth : Nat} {lexemes : List Lexeme} {tree : Expr}
    {after : ParseState}
    (ran : (ofDepth depth).entire (ParseState.start lexemes { source }) = some (tree, after)) :
    (Parsed.expression source lexemes).tree = tree := by
  obtain ⟨other, last, attempted, -⟩ := Parsed.attempt_entire source lexemes
  have same := (entire_deeper (Nat.le_max_left depth (Lexeme.weightAll lexemes + 1)) ran).symm.trans
    (entire_deeper (Nat.le_max_right _ _) attempted)
  simp only [Parsed.expression, Parsed.run, attempted]
  exact (congrArg Prod.fst (Option.some.inj same)).symm

variable {move : Relocation} (steady : move.Steady) (source : Nat) {lexemes others : List Lexeme}

include steady

/-- Lexemes that were moved have a tree that was moved. -/
theorem expression_relocate
    (moved : Cursor.ofLexemes others = (Cursor.ofLexemes lexemes).relocate move) :
    (Parsed.expression source others).tree =
      (Parsed.expression source lexemes).tree.relocate move := by
  obtain ⟨tree, after, ran, -⟩ := Parsed.attempt_entire source lexemes
  have start : ParseState.start others { source } =
      (ParseState.start lexemes { source }).relocate move := by
    rw [ParseState.start, moved]
    simp [ParseState.start, ParseState.relocate, Span.relocate, Scope.relocate]
  have moves := entire_moves steady (moves_ofDepth steady (Lexeme.weightAll lexemes + 1))
    (ParseState.start lexemes { source })
  rw [Parsed.attempt] at ran
  rw [← start] at moves
  replace moves := moves.trans (congrArg (Option.map _) ran)
  rw [expression_eq_of_entire moves, expression_eq_of_entire ran]

/-- A source that is an element stays the same, but for places, if its lexemes are moved and one semicolon
is put among them that stands in the content of an element. -/
theorem expression_insert {gap : Gap}
    (filled : Cursor.ofLexemes others = ((Cursor.ofLexemes lexemes).insert gap).relocate move)
    (element : (Parsed.expression source lexemes).tree.isMarkup = true)
    (sound : (Parsed.expression source lexemes).tree.diagnostics = []) {depth : Nat}
    {first place : ParseState} (leading : (ParseState.start lexemes { source }).SkipsSemicolons first)
    (content : InContent depth first place) (here : place.cursor.remaining = gap.behind) :
    (Parsed.expression source others).tree =
      (Parsed.expression source lexemes).tree.relocate move := by
  obtain ⟨tree, after, ran, -⟩ := Parsed.attempt_entire source lexemes
  rw [expression_eq_of_entire ran] at element sound ⊢
  -- The grammar has to be deep enough for the place as well.
  let enough := max depth (Lexeme.weightAll lexemes)
  obtain ⟨before, _, stop, inserted, rfl⟩ := entire_insert (Nat.le_refl enough) leading
    (content.deeper (Nat.le_max_left _ _)) here
    (entire_deeper (Nat.succ_le_succ (Nat.le_max_right _ _)) ran) sound element
  have current : ((Cursor.ofLexemes lexemes).insert gap).current = (Cursor.ofLexemes lexemes).current :=
    Cursor.current_insert before
  have start : ParseState.start others { source } =
      ((ParseState.start lexemes { source }).insert gap).relocate move := by
    rw [ParseState.start, filled]
    simp [ParseState.start, ParseState.insert, ParseState.relocate, Span.relocate, Scope.relocate,
      current]
  have moves := entire_moves steady (moves_ofDepth steady (enough + 1))
    ((ParseState.start lexemes { source }).insert gap)
  rw [← start, inserted] at moves
  exact expression_eq_of_entire moves

end Parsed

end Reckon
