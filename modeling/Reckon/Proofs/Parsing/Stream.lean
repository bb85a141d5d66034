import Mathlib.Logic.Function.Iterate
import Reckon.Proofs.Parsing.Outcome

/-!
# Streams by index

A cursor holds the lexemes ahead of it.  Here the same stream is a list with an index into it, whose
accesses are checked: each of them fails if the index is out of range.  The list is the given one,
closed by an end of source unless it ends with one, and the index moves over blanks and comments.

A stream that a cursor abstracts never fails, and both move in step.
-/

namespace Reckon

/-- A list of lexemes and the index of the current one. -/
structure Stream where
  lexemes : List Lexeme
  index : Nat

namespace Stream

/-- The list with an end of source behind it, unless it ends with one. -/
def close (lexemes : List Lexeme) : List Lexeme :=
  match lexemes.getLast? with
  | some last =>
      if last.token.isEof then lexemes else lexemes ++ [.endOfSource last.span.stop]
  | none => [.endOfSource {}]

/-- The index of the first significant lexeme from an index on. -/
def seek (lexemes : List Lexeme) (index : Nat) : Option Nat :=
  if inRange : index < lexemes.length then
    if lexemes[index].isSignificant then some index else seek lexemes (index + 1)
  else
    none
termination_by lexemes.length - index

/-- The stream on the first significant lexeme of a list. -/
def ofLexemes (lexemes : List Lexeme) : Option Stream :=
  (seek (close lexemes) 0).map (Stream.mk (close lexemes))

/-- The lexeme at the index. -/
def current (stream : Stream) : Option Lexeme :=
  stream.lexemes[stream.index]?

/-- The stream one significant lexeme further on; at an end of source it stays. -/
def advance (stream : Stream) : Option Stream := do
  let lexeme ← stream.current
  if lexeme.token.isEof then return stream
  else return { stream with index := ← seek stream.lexemes (stream.index + 1) }

/-- The significant lexeme after the current one, looked up from where the stream stands; at an end of
source it is that end. -/
def peek (stream : Stream) : Option Lexeme := do
  let lexeme ← stream.current
  if lexeme.token.isEof then return lexeme
  else stream.lexemes[← seek stream.lexemes (stream.index + 1)]?

/-- The stream is in range and shows what the cursor shows, now and later. -/
structure Follows (stream : Stream) (cursor : Cursor) : Prop where
  inRange : stream.index < stream.lexemes.length
  significant : (stream.lexemes.get ⟨stream.index, inRange⟩).isSignificant = true
  ahead : Cursor.aheadOf (stream.lexemes.drop stream.index) = cursor.ahead
  final : (stream.lexemes.drop stream.index).find? (·.token.isEof) = some cursor.final

end Stream

/-! ## Closed lists -/

theorem Lexeme.isSignificant_of_isEof {lexeme : Lexeme} (ends : lexeme.token.isEof = true) :
    lexeme.isSignificant = true := by
  have token : lexeme.token = .eof := by simpa [Token.isEof] using ends
  simp [Lexeme.isSignificant, token, Token.isSignificant]

namespace Lexeme

/-- The lexemes that the parser sees. -/
def significant (lexemes : List Lexeme) : List Lexeme :=
  lexemes.filter (·.isSignificant)

variable {lexeme : Lexeme} {lexemes left right : List Lexeme}

theorem significant_append : significant (left ++ right) = significant left ++ significant right :=
  List.filter_append ..

theorem significant_cons_of_significant (isSignificant : lexeme.isSignificant = true) :
    significant (lexeme :: lexemes) = lexeme :: significant lexemes :=
  List.filter_cons_of_pos isSignificant

theorem significant_cons_of_blank (isBlank : lexeme.isSignificant = false) :
    significant (lexeme :: lexemes) = significant lexemes :=
  List.filter_cons_of_neg (by simp [isBlank])

end Lexeme

namespace Cursor

theorem aheadOf_cons_of_isEof {lexeme : Lexeme} (rest : List Lexeme)
    (ends : lexeme.token.isEof = true) : aheadOf (lexeme :: rest) = [] := by
  simp [aheadOf, ends]

theorem aheadOf_cons_of_significant {lexeme : Lexeme} (rest : List Lexeme)
    (more : lexeme.token.isEof = false) (significant : lexeme.isSignificant = true) :
    aheadOf (lexeme :: rest) = lexeme :: aheadOf rest := by
  simp [aheadOf, more, significant]

theorem aheadOf_cons_of_insignificant {lexeme : Lexeme} (rest : List Lexeme)
    (insignificant : lexeme.isSignificant = false) :
    aheadOf (lexeme :: rest) = aheadOf rest := by
  have more : lexeme.token.isEof = false := by
    cases ends : lexeme.token.isEof with
    | false => rfl
    | true =>
        rw [Lexeme.isSignificant_of_isEof ends] at insignificant
        cases insignificant
  simp [aheadOf, more, insignificant]

theorem aheadOf_concat_endOfSource (lexemes : List Lexeme) (place : Position) :
    aheadOf (lexemes ++ [.endOfSource place]) = aheadOf lexemes := by
  induction lexemes with
  | nil =>
      rfl
  | cons lexeme rest inductionHypothesis =>
      cases ends : lexeme.token.isEof with
      | true =>
          rw [List.cons_append, aheadOf_cons_of_isEof _ ends, aheadOf_cons_of_isEof _ ends]
      | false =>
          cases significant : lexeme.isSignificant with
          | true =>
              rw [List.cons_append, aheadOf_cons_of_significant _ ends significant,
                aheadOf_cons_of_significant _ ends significant, inductionHypothesis]
          | false =>
              rw [List.cons_append, aheadOf_cons_of_insignificant _ significant,
                aheadOf_cons_of_insignificant _ significant, inductionHypothesis]

theorem aheadOf_significant (lexemes : List Lexeme) :
    aheadOf (Lexeme.significant lexemes) = aheadOf lexemes := by
  induction lexemes with
  | nil => rfl
  | cons first rest inductionHypothesis =>
      cases significant : first.isSignificant with
      | false => rw [Lexeme.significant_cons_of_blank significant, inductionHypothesis,
          aheadOf_cons_of_insignificant _ significant]
      | true =>
          rw [Lexeme.significant_cons_of_significant significant]
          cases ends : first.token.isEof with
          | true => rw [aheadOf_cons_of_isEof _ ends, aheadOf_cons_of_isEof _ ends]
          | false => rw [aheadOf_cons_of_significant _ ends significant,
              aheadOf_cons_of_significant _ ends significant, inductionHypothesis]

theorem find?_significant (lexemes : List Lexeme) :
    (Lexeme.significant lexemes).find? (·.token.isEof) = lexemes.find? (·.token.isEof) := by
  rw [Lexeme.significant, List.find?_filter]
  congr 1
  funext lexeme
  cases ends : lexeme.token.isEof with
  | true => simp [Lexeme.isSignificant_of_isEof ends]
  | false => simp

/-- A cursor only depends on the significant lexemes, if a source has an end. -/
theorem ofLexemes_significant {lexemes : List Lexeme}
    (ended : (lexemes.find? (·.token.isEof)).isSome) :
    ofLexemes (Lexeme.significant lexemes) = ofLexemes lexemes := by
  obtain ⟨final, found⟩ := Option.isSome_iff_exists.mp ended
  refine Cursor.ext (aheadOf_significant lexemes) ?_
  change finalOf (Lexeme.significant lexemes) = finalOf lexemes
  rw [finalOf, finalOf, find?_significant, found]

theorem ahead_iterate_advance (cursor : Cursor) (count : Nat) :
    (advance^[count] cursor).ahead = cursor.ahead.drop count := by
  induction count with
  | zero => rfl
  | succ count inductionHypothesis =>
      rw [Function.iterate_succ_apply', ahead_advance, inductionHypothesis, List.tail_drop]

theorem final_iterate_advance (cursor : Cursor) (count : Nat) :
    (advance^[count] cursor).final = cursor.final := by
  induction count with
  | zero => rfl
  | succ count inductionHypothesis =>
      rw [Function.iterate_succ_apply', final_advance, inductionHypothesis]

end Cursor

namespace Stream

theorem aheadOf_close (lexemes : List Lexeme) :
    Cursor.aheadOf (close lexemes) = Cursor.aheadOf lexemes := by
  unfold close
  split
  · split
    · rfl
    · exact Cursor.aheadOf_concat_endOfSource lexemes _
  · next none =>
    rw [List.getLast?_eq_none_iff.mp none]
    rfl

theorem find?_close (lexemes : List Lexeme) :
    (close lexemes).find? (·.token.isEof) = some (Cursor.finalOf lexemes) := by
  cases found : lexemes.find? (·.token.isEof) with
  | some lexeme =>
      cases isLast : lexemes.getLast? with
      | some last =>
          simp only [close, Cursor.finalOf, found, isLast]
          split
          · exact found
          · rw [List.find?_append, found]
            rfl
      | none =>
          rw [List.getLast?_eq_none_iff.mp isLast] at found
          cases found
  | none =>
      cases isLast : lexemes.getLast? with
      | some last =>
          have member : last ∈ lexemes := List.mem_of_getLast? isLast
          have notEof := List.find?_eq_none.mp found last member
          simp only [close, Cursor.finalOf, found, isLast]
          rw [if_neg notEof, List.find?_append, found]
          rfl
      | none =>
          simp only [close, Cursor.finalOf, found, isLast]
          rfl

/-! ## Moving along -/

/-- As long as an end of source is ahead, the next significant lexeme is in range, and nothing that
a cursor shows lies before it. -/
theorem seek_spec {lexemes : List Lexeme} {index : Nat} {final : Lexeme}
    (ends : (lexemes.drop index).find? (·.token.isEof) = some final) :
    ∃ found, ∃ inRange : found < lexemes.length,
      seek lexemes index = some found ∧
        (lexemes.get ⟨found, inRange⟩).isSignificant = true ∧
          Cursor.aheadOf (lexemes.drop found) = Cursor.aheadOf (lexemes.drop index) ∧
            (lexemes.drop found).find? (·.token.isEof) = some final := by
  fun_induction seek lexemes index with
  | case1 index inRange significant =>
      exact ⟨index, inRange, rfl, significant, rfl, ends⟩
  | case2 index inRange insignificant inductionHypothesis =>
      have skipped := Bool.not_eq_true _ |>.mp insignificant
      rw [List.drop_eq_getElem_cons inRange] at ends ⊢
      have more : (lexemes[index]).token.isEof = false := by
        cases isEnd : (lexemes[index]).token.isEof with
        | false => rfl
        | true => exact absurd (Lexeme.isSignificant_of_isEof isEnd) insignificant
      rw [List.find?_cons_of_neg (by simp [more])] at ends
      obtain ⟨found, foundRange, sought, significant, sameAhead, sameFinal⟩ :=
        inductionHypothesis ends
      refine ⟨found, foundRange, sought, significant, ?_, sameFinal⟩
      rw [sameAhead, Cursor.aheadOf_cons_of_insignificant _ skipped]
  | case3 index outOfRange =>
      rw [List.drop_eq_nil_of_le (Nat.le_of_not_lt outOfRange)] at ends
      cases ends

theorem ofLexemes_follows (lexemes : List Lexeme) :
    ∃ stream, ofLexemes lexemes = some stream ∧ stream.Follows (.ofLexemes lexemes) := by
  have ends : ((close lexemes).drop 0).find? (·.token.isEof) = some (Cursor.finalOf lexemes) :=
    find?_close lexemes
  obtain ⟨found, inRange, sought, significant, sameAhead, sameFinal⟩ := seek_spec ends
  refine ⟨⟨close lexemes, found⟩, ?_, inRange, significant, ?_, sameFinal⟩
  · simp [ofLexemes, sought]
  · rw [sameAhead, List.drop_zero]
    exact aheadOf_close lexemes

variable {stream : Stream} {cursor : Cursor}

theorem Follows.current (follows : stream.Follows cursor) :
    stream.current = some cursor.current := by
  have inRange := follows.inRange
  have ahead := follows.ahead
  have final := follows.final
  rw [List.drop_eq_getElem_cons inRange] at ahead final
  rw [Stream.current, List.getElem?_eq_getElem inRange, Cursor.current]
  cases ends : (stream.lexemes[stream.index]).token.isEof with
  | true =>
      rw [Cursor.aheadOf_cons_of_isEof _ ends] at ahead
      rw [List.find?_cons_of_pos (by exact ends)] at final
      rw [← ahead, List.headD_nil]
      exact final
  | false =>
      rw [Cursor.aheadOf_cons_of_significant _ ends follows.significant] at ahead
      rw [← ahead, List.headD_cons]

/-- An advance stays in range and moves as the cursor does. -/
theorem Follows.advance (follows : stream.Follows cursor) :
    ∃ next, stream.advance = some next ∧ next.Follows cursor.advance := by
  have inRange := follows.inRange
  have ahead := follows.ahead
  have final := follows.final
  have now : stream.current = some stream.lexemes[stream.index] :=
    List.getElem?_eq_getElem inRange
  rw [List.drop_eq_getElem_cons inRange] at ahead final
  unfold Stream.advance
  rw [now]
  cases ends : (stream.lexemes[stream.index]).token.isEof with
  | true =>
      refine ⟨stream, by simp [ends], inRange, follows.significant, ?_, follows.final⟩
      rw [Cursor.aheadOf_cons_of_isEof _ ends] at ahead
      rw [follows.ahead, Cursor.ahead_advance, ← ahead]
      rfl
  | false =>
      rw [List.find?_cons_of_neg (by simp [ends])] at final
      obtain ⟨found, foundRange, sought, significant, sameAhead, sameFinal⟩ := seek_spec final
      refine ⟨⟨stream.lexemes, found⟩, by simp [ends, sought], foundRange, significant, ?_,
        sameFinal⟩
      rw [Cursor.aheadOf_cons_of_significant _ ends follows.significant] at ahead
      rw [sameAhead, Cursor.ahead_advance, ← ahead, List.tail_cons]

/-- What is looked up is the current lexeme one step further on. -/
theorem peek_eq_advance_current (stream : Stream) :
    stream.peek = stream.advance >>= Stream.current := by
  unfold Stream.peek Stream.advance
  cases now : stream.current with
  | none => rfl
  | some lexeme =>
      cases ends : lexeme.token.isEof with
      | true => simp [ends, now]
      | false =>
          cases seek stream.lexemes (stream.index + 1) with
          | none => simp [ends]
          | some index => simp [ends, Stream.current]

theorem Follows.peek (follows : stream.Follows cursor) : stream.peek = some cursor.peek := by
  obtain ⟨next, advanced, nextFollows⟩ := follows.advance
  rw [peek_eq_advance_current, advanced, Cursor.peek]
  exact nextFollows.current

/-- The stream after a number of steps. -/
def walk (lexemes : List Lexeme) : Nat → Option Stream
  | 0 => ofLexemes lexemes
  | count + 1 => walk lexemes count >>= advance

/-- However far a stream moves, its index stays in range. -/
theorem walk_follows (lexemes : List Lexeme) (count : Nat) :
    ∃ stream, walk lexemes count = some stream ∧
      stream.Follows (Cursor.advance^[count] (.ofLexemes lexemes)) := by
  induction count with
  | zero =>
      exact ofLexemes_follows lexemes
  | succ count inductionHypothesis =>
      obtain ⟨stream, walked, follows⟩ := inductionHypothesis
      obtain ⟨next, advanced, nextFollows⟩ := follows.advance
      refine ⟨next, ?_, ?_⟩
      · rw [walk, walked]
        exact advanced
      · rw [Function.iterate_succ_apply']
        exact nextFollows

end Stream

end Reckon
