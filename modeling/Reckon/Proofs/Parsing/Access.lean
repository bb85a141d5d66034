import Mathlib.Data.List.GetD
import Reckon.Proofs.Parsing.IgnoresStatement
import Reckon.Proofs.Parsing.ReadsStatement

/-!
# What a stream shows

Of a list of lexemes a stream shows the significant ones, up to the first end of source, on which it stays.
It shows them however it is used: by looking at the current lexeme, by looking ahead, and by moving on, in
any order.  No use of it is out of range.

So blanks and comments make no difference to what is seen, nor to what the parser builds from it.
-/

namespace Reckon

/-! ## What there is to see -/

namespace Lexeme

/-- The lexemes of a list that are seen, one after the other: the significant ones up to the first end of
source.  Lexemes without one, which start at a place, are ended where the last of them stops. -/
def visibleFrom (place : Position) : List Lexeme → List Lexeme
  | [] => [.endOfSource place]
  | lexeme :: rest =>
      if lexeme.token.isEof then [lexeme]
      else if lexeme.isSignificant then lexeme :: visibleFrom lexeme.span.stop rest
      else visibleFrom lexeme.span.stop rest

/-- The lexemes of a list that are seen. -/
def visible (lexemes : List Lexeme) : List Lexeme :=
  visibleFrom {} lexemes

/-- The lexeme that is seen after a number of steps; the last one is seen for good. -/
def seenAfter (lexemes : List Lexeme) (steps : Nat) : Lexeme :=
  (visible lexemes).getD steps ((visible lexemes).getLastD (.endOfSource {}))

end Lexeme

theorem Cursor.finalOf_eq (lexemes : List Lexeme) :
    finalOf lexemes =
      (lexemes.find? (·.token.isEof)).getD
        (.endOfSource ((lexemes.getLast?.map (·.span.stop)).getD {})) := by
  rw [finalOf]
  cases lexemes.find? (·.token.isEof) with
  | some lexeme => rfl
  | none => cases lexemes.getLast? <;> rfl

namespace Lexeme

theorem visibleFrom_eq (place : Position) (lexemes : List Lexeme) :
    visibleFrom place lexemes =
      Cursor.aheadOf lexemes ++
        [(lexemes.find? (·.token.isEof)).getD
          (.endOfSource ((lexemes.getLast?.map (·.span.stop)).getD place))] := by
  induction lexemes generalizing place with
  | nil => rfl
  | cons first rest inductionHypothesis =>
      rw [visibleFrom]
      cases ends : first.token.isEof with
      | true =>
          rw [if_pos rfl, Cursor.aheadOf_cons_of_isEof rest ends, List.find?_cons_of_pos (by exact ends)]
          rfl
      | false =>
          -- A list without an end is ended behind its last lexeme, so the place moves along.
          have stop : ((first :: rest).getLast?.map (·.span.stop)).getD place =
              (rest.getLast?.map (·.span.stop)).getD first.span.stop := by
            rw [List.getLast?_cons]
            cases rest.getLast? <;> rfl
          rw [if_neg Bool.false_ne_true, inductionHypothesis, List.find?_cons_of_neg (by simp [ends]),
            stop]
          cases significant : first.isSignificant with
          | true => rw [if_pos rfl, Cursor.aheadOf_cons_of_significant rest ends significant]; rfl
          | false =>
              rw [if_neg Bool.false_ne_true, Cursor.aheadOf_cons_of_insignificant rest significant]

theorem visible_eq (lexemes : List Lexeme) :
    visible lexemes = Cursor.aheadOf lexemes ++ [Cursor.finalOf lexemes] := by
  rw [visible, visibleFrom_eq, Cursor.finalOf_eq]

theorem seenAfter_eq (lexemes : List Lexeme) (steps : Nat) :
    seenAfter lexemes steps = (Cursor.aheadOf lexemes).getD steps (Cursor.finalOf lexemes) := by
  rw [seenAfter, visible_eq, List.getLastD_concat]
  rcases Nat.lt_or_ge steps (Cursor.aheadOf lexemes).length with before | behind
  · rw [List.getD_append _ _ _ _ before]
  · rw [List.getD_append_right _ _ _ _ behind, List.getD_eq_default _ _ behind]
    cases steps - (Cursor.aheadOf lexemes).length <;> rfl

end Lexeme

/-- A cursor shows what there is to see. -/
theorem Cursor.current_iterate_advance (lexemes : List Lexeme) (steps : Nat) :
    (advance^[steps] (ofLexemes lexemes)).current = Lexeme.seenAfter lexemes steps := by
  rw [current, ahead_iterate_advance, final_iterate_advance, Lexeme.seenAfter_eq,
    List.headD_eq_head?_getD, List.head?_drop, List.getD_eq_getElem?_getD]
  rfl

theorem Cursor.peek_iterate_advance (lexemes : List Lexeme) (steps : Nat) :
    (advance^[steps] (ofLexemes lexemes)).peek = Lexeme.seenAfter lexemes (steps + 1) := by
  rw [peek, ← Function.iterate_succ_apply' advance, current_iterate_advance]

/-! ## Uses of a stream -/

namespace Stream

/-- A use of a stream. -/
inductive Access where
  /-- Look at the current lexeme. -/
  | current
  /-- Look at the one after it. -/
  | peek
  /-- Move on. -/
  | advance
deriving DecidableEq, Repr

/-- What is seen when a stream is used in some ways one after the other, and the stream then.  It fails
if one of the accesses is out of range. -/
def perform (stream : Stream) : List Access → Option (List Lexeme × Stream)
  | [] => some ([], stream)
  | .current :: rest => do
    let lexeme ← stream.current
    let (seen, last) ← stream.perform rest
    return (lexeme :: seen, last)
  | .peek :: rest => do
    let lexeme ← stream.peek
    let (seen, last) ← stream.perform rest
    return (lexeme :: seen, last)
  | .advance :: rest => do
    let next ← stream.advance
    next.perform rest

/-- What is to be seen in the same ways after a number of steps. -/
def Access.expected (lexemes : List Lexeme) (steps : Nat) : List Access → List Lexeme
  | [] => []
  | .current :: rest => Lexeme.seenAfter lexemes steps :: expected lexemes steps rest
  | .peek :: rest => Lexeme.seenAfter lexemes (steps + 1) :: expected lexemes steps rest
  | .advance :: rest => expected lexemes (steps + 1) rest

variable {stream : Stream} {lexemes : List Lexeme} {steps : Nat}

/-- The stream stands where a cursor stands after so many steps. -/
abbrev StandsAfter (stream : Stream) (lexemes : List Lexeme) (steps : Nat) : Prop :=
  stream.Follows (Cursor.advance^[steps] (.ofLexemes lexemes))

theorem StandsAfter.current_eq (stands : stream.StandsAfter lexemes steps) :
    stream.current = some (Lexeme.seenAfter lexemes steps) := by
  rw [Follows.current stands, Cursor.current_iterate_advance]

theorem StandsAfter.peek_eq (stands : stream.StandsAfter lexemes steps) :
    stream.peek = some (Lexeme.seenAfter lexemes (steps + 1)) := by
  rw [Follows.peek stands, Cursor.peek_iterate_advance]

theorem StandsAfter.next (stands : stream.StandsAfter lexemes steps) :
    ∃ next, stream.advance = some next ∧ next.StandsAfter lexemes (steps + 1) := by
  obtain ⟨next, advanced, follows⟩ := Follows.advance stands
  rw [← Function.iterate_succ_apply' Cursor.advance] at follows
  exact ⟨next, advanced, follows⟩

/-- At the last lexeme the stream stays. -/
theorem StandsAfter.advance_eq_self (stands : stream.StandsAfter lexemes steps)
    (ended : (Lexeme.visible lexemes).length ≤ steps + 1) : stream.advance = some stream := by
  have none : (Cursor.aheadOf lexemes).length ≤ steps := by
    simpa [Lexeme.visible_eq] using ended
  have last : Lexeme.seenAfter lexemes steps = Cursor.finalOf lexemes := by
    rw [Lexeme.seenAfter_eq, List.getD_eq_default _ _ none]
  have isEnd : (Lexeme.seenAfter lexemes steps).token.isEof = true := by
    rw [last, Token.isEof, Cursor.token_finalOf]
    rfl
  simp [Stream.advance, stands.current_eq, isEnd]

theorem StandsAfter.perform (stands : stream.StandsAfter lexemes steps) (accesses : List Access) :
    ∃ last, stream.perform accesses = some (Access.expected lexemes steps accesses, last) ∧
      last.StandsAfter lexemes (steps + accesses.count .advance) := by
  induction accesses generalizing stream steps with
  | nil => exact ⟨stream, rfl, stands⟩
  | cons access rest inductionHypothesis =>
      cases access with
      | current =>
          obtain ⟨last, performed, lastStands⟩ := inductionHypothesis stands
          refine ⟨last, ?_, by simpa using lastStands⟩
          simp [Stream.perform, stands.current_eq, performed, Access.expected]
      | peek =>
          obtain ⟨last, performed, lastStands⟩ := inductionHypothesis stands
          refine ⟨last, ?_, by simpa using lastStands⟩
          simp [Stream.perform, stands.peek_eq, performed, Access.expected]
      | advance =>
          obtain ⟨next, advanced, nextStands⟩ := stands.next
          obtain ⟨last, performed, lastStands⟩ := inductionHypothesis nextStands
          refine ⟨last, ?_, ?_⟩
          · simp [Stream.perform, advanced, performed, Access.expected]
          · rwa [List.count_cons_self, Nat.add_comm (rest.count _), ← Nat.add_assoc]

end Stream

/-! ## Lists with the same significant lexemes -/

/-- A cursor does not notice that blanks and comments are taken out of lexemes that end. -/
theorem Cursor.ofLexemes_significant_of_mem {lexemes : List Lexeme}
    (ended : ∃ lexeme ∈ lexemes, lexeme.token = .eof) :
    ofLexemes (Lexeme.significant lexemes) = ofLexemes lexemes := by
  refine ofLexemes_significant (List.find?_isSome.mpr ?_)
  obtain ⟨lexeme, member, isEnd⟩ := ended
  exact ⟨lexeme, member, by simp [Token.isEof, isEnd]⟩

theorem Lexeme.visible_eq_of_ofLexemes_eq {first second : List Lexeme}
    (same : Cursor.ofLexemes first = Cursor.ofLexemes second) : visible first = visible second := by
  rw [visible_eq, visible_eq]
  exact congrArg (fun cursor => cursor.ahead ++ [cursor.final]) same

namespace Parsed

open Grammar

variable {α : Type} [Inhabited α] {parser : Grammar → Parser α} {first second : List Lexeme}

/-- A parser that gives the same results at greater depths does not depend on anything but the cursor that
it starts with. -/
theorem run_eq_of_ofLexemes_eq
    (deeper : ∀ {depth more : Nat}, depth ≤ more → ∀ {state found},
      parser (ofDepth depth) state = some found → parser (ofDepth more) state = some found)
    (gives : ∀ source lexemes, ∃ found, attempt parser source lexemes = some found)
    (same : Cursor.ofLexemes first = Cursor.ofLexemes second) (source : Nat) :
    run parser source first = run parser source second := by
  have start : ParseState.start first { source } = ParseState.start second { source } := by
    rw [ParseState.start, ParseState.start, same]
  obtain ⟨found, ran⟩ := gives source first
  obtain ⟨other, alsoRan⟩ := gives source second
  have equal : found = other := by
    have left := deeper (Nat.le_max_left _ (Lexeme.weightAll second + 1)) ran
    have right := deeper (Nat.le_max_right (Lexeme.weightAll first + 1) _) alsoRan
    rw [start] at left
    exact Option.some.inj (left.symm.trans right)
  simp only [run, ran, alsoRan, equal]

theorem expression_eq_of_ofLexemes_eq (same : Cursor.ofLexemes first = Cursor.ofLexemes second)
    (source : Nat) : expression source first = expression source second := by
  refine run_eq_of_ofLexemes_eq (fun le => entire_deeper le) (fun source lexemes => ?_) same source
  obtain ⟨tree, after, ran, -⟩ := attempt_entire source lexemes
  exact ⟨_, ran⟩

theorem statements_eq_of_ofLexemes_eq (same : Cursor.ofLexemes first = Cursor.ofLexemes second)
    (source : Nat) : statements source first = statements source second := by
  refine run_eq_of_ofLexemes_eq (fun le => ?_) (fun source lexemes => ?_) same source
  · exact (Parser.ignores_map (statements_ignores (ignores_ofDepth default le) false)).same
  · obtain ⟨list, after, ran, -⟩ := attempt_statements source lexemes
    exact ⟨_, ran⟩

end Parsed

/-- However a stream of lexemes is used, no access is out of range, and it shows the visible lexemes: after
a number of steps the one with that number, and the one after it if it looks ahead; at the last of them,
which is an end of source, it stays.  The cursor of the parser shows the same.  If a list has an end of
source, taking out its blanks and comments changes neither what is visible nor what is parsed. -/
theorem streams_show_visible_lexemes (lexemes : List Lexeme) :
    (∀ accesses : List Stream.Access, ∃ first last, Stream.ofLexemes lexemes = some first ∧
      first.perform accesses = some (Stream.Access.expected lexemes 0 accesses, last) ∧
      last.index < last.lexemes.length ∧
      last.current = some (Lexeme.seenAfter lexemes (accesses.count .advance)) ∧
      last.peek = some (Lexeme.seenAfter lexemes (accesses.count .advance + 1)) ∧
      ((Lexeme.visible lexemes).length ≤ accesses.count .advance + 1 → last.advance = some last)) ∧
    (∀ steps, (Cursor.advance^[steps] (.ofLexemes lexemes)).current = Lexeme.seenAfter lexemes steps ∧
      (Cursor.advance^[steps] (.ofLexemes lexemes)).peek = Lexeme.seenAfter lexemes (steps + 1)) ∧
    ((∃ lexeme ∈ lexemes, lexeme.token = .eof) →
      Lexeme.visible (Lexeme.significant lexemes) = Lexeme.visible lexemes ∧
      ∀ source,
        Parsed.expression source (Lexeme.significant lexemes) = Parsed.expression source lexemes ∧
        Parsed.statements source (Lexeme.significant lexemes) = Parsed.statements source lexemes) := by
  refine ⟨fun accesses => ?_, fun steps => ⟨?_, ?_⟩, fun ended => ⟨?_, fun source => ⟨?_, ?_⟩⟩⟩
  · obtain ⟨first, opened, follows⟩ := Stream.ofLexemes_follows lexemes
    have stands : first.StandsAfter lexemes 0 := follows
    obtain ⟨last, performed, lastStands⟩ := stands.perform accesses
    rw [Nat.zero_add] at lastStands
    exact ⟨first, last, opened, performed, lastStands.inRange, lastStands.current_eq,
      lastStands.peek_eq, lastStands.advance_eq_self⟩
  · exact Cursor.current_iterate_advance lexemes steps
  · exact Cursor.peek_iterate_advance lexemes steps
  · exact Lexeme.visible_eq_of_ofLexemes_eq (Cursor.ofLexemes_significant_of_mem ended)
  · exact Parsed.expression_eq_of_ofLexemes_eq (Cursor.ofLexemes_significant_of_mem ended) source
  · exact Parsed.statements_eq_of_ofLexemes_eq (Cursor.ofLexemes_significant_of_mem ended) source

/-- Lexemes that end in the middle, with blanks and a comment on both sides of the end. -/
theorem visible_lexemes_of_sum :
    let blank : Lexeme := { token := .space, lit := " " }
    let comment : Lexeme := { token := .comment, lit := "/* c */" }
    let left : Lexeme := { token := .name, lit := "a" }
    let sign : Lexeme := { token := .plus, lit := "+" }
    let right : Lexeme := { token := .name, lit := "b" }
    let final : Lexeme := .endOfSource {}
    let lexemes := [blank, left, comment, sign, blank, right, comment, final, left, blank]
    let accesses : List Stream.Access :=
      [.current, .peek, .advance, .advance, .current, .advance, .peek, .advance, .current]
    (∃ lexeme ∈ lexemes, lexeme.token = .eof) ∧
      (Lexeme.visible lexemes).length ≤ accesses.count .advance + 1 ∧
      (∃ first last, Stream.ofLexemes lexemes = some first ∧
        first.perform accesses = some ([left, sign, right, final, final], last) ∧
        last.advance = some last) ∧
      Lexeme.visible [left, sign, right, final, left] = Lexeme.visible lexemes ∧
      Parsed.expression 0 [left, sign, right, final, left] = Parsed.expression 0 lexemes ∧
      Parsed.statements 0 [left, sign, right, final, left] = Parsed.statements 0 lexemes := by
  intro blank comment left sign right final lexemes accesses
  have ended : ∃ lexeme ∈ lexemes, lexeme.token = .eof := ⟨final, by simp [lexemes], rfl⟩
  have steps : (Lexeme.visible lexemes).length ≤ accesses.count .advance + 1 := by decide
  obtain ⟨used, -, removed⟩ := streams_show_visible_lexemes lexemes
  obtain ⟨first, last, opened, performed, -, -, -, stays⟩ := used accesses
  obtain ⟨sameVisible, sameParsed⟩ := removed ended
  exact ⟨ended, steps, ⟨first, last, opened, performed, stays steps⟩, sameVisible, sameParsed 0⟩

end Reckon
