import Reckon.Proofs.Parsing.Complete

/-!
# Parsing expressions gives results

A grammar reads up to a weight if each of its parsers has a result from every lighter state, moves
forward and builds a complete tree. From a grammar that reads up to a weight, every parser of a
construct has a result too, because what is nested in a construct is lighter than the construct.

The loops end because their rounds read lexemes. A round that joins an operand without an operator
in front of it reads one because an operand is missing only before a lexeme that ends operands, and
no such lexeme starts the round.
-/

namespace Reckon

/-- Whether a lexeme of this class ends an operand and starts none. -/
def Token.endsOperand : Token → Bool
  | .eof | .rightParen | .rightBracket | .rightBrace | .comma | .semicolon | .colon => true
  | _ => false

namespace Grammar

open Reckon.Parser

/-- What a parser of an expression says: it reads something unless the operand is missing. -/
structure Operand (before : ParseState) (tree : Expr) (after : ParseState) : Prop where
  reaches : before.Reaches after
  complete : tree.Complete
  passes : before.token.endsOperand = false → before.Passes after
  missing : before.token.endsOperand = true → tree.isEmpty = true ∧ after = before

/-- What a parser says that goes on after an operand: it leaves the operand alone before a lexeme
that ends operands. -/
structure Extension (operand : Expr) (before : ParseState) (tree : Expr)
    (after : ParseState) : Prop where
  reaches : before.Reaches after
  complete : tree.Complete
  same : before.token.endsOperand = true → tree = operand ∧ after = before

/-- The parsers of a grammar have results from every state that is light enough. The parser of
elements, which is called before anything is read, has one from a state a little heavier. -/
structure Reads (grammar : Grammar) (bound : Nat) : Prop where
  expr : ∀ state, state.weight < bound → grammar.expr.Gives state (Operand state)
  lambda : ∀ state, state.weight < bound → grammar.lambda.Gives state (Operand state)
  unary : ∀ state, state.weight < bound → grammar.unary.Gives state (Operand state)
  markup : ∀ state, state.weight ≤ bound → state.token = .less →
    grammar.markup.Gives state fun tree after => state.Passes after ∧ tree.Complete
  block : ∀ state, state.weight < bound → state.token = .leftBrace →
    grammar.block.Gives state fun tree after => state.Passes after ∧ tree.Complete
  ifStatement : ∀ state, state.weight < bound → state.token = .kwIf →
    grammar.ifStatement.Gives state fun tree after =>
      state.Passes after ∧ tree.Complete ∧ tree.isAlternative
  whole : ∀ state, state.weight < bound → grammar.whole.Gives state fun tree after =>
    state.Reaches after ∧ after.cursor.ahead = [] ∧ tree.Complete

variable {inner : Grammar} {bound : Nat} {state : ParseState}

theorem Operand.extend {first second third : ParseState} {operand tree : Expr}
    (left : Operand first operand second) (right : Extension operand second tree third) :
    Operand first tree third where
  reaches := left.reaches.trans right.reaches
  complete := right.complete
  passes ends := (left.passes ends).trans_reaches right.reaches
  missing ends := by
    obtain ⟨empty, unmoved⟩ := left.missing ends
    subst unmoved
    obtain ⟨sameTree, sameState⟩ := right.same ends
    exact ⟨sameTree ▸ empty, sameState⟩

theorem Extension.refl {operand : Expr} (complete : operand.Complete) (state : ParseState) :
    Extension operand state operand state :=
  ⟨.refl state, complete, fun _ => ⟨rfl, rfl⟩⟩

theorem Operand.of_passes {before after : ParseState} {tree : Expr}
    (passed : before.Passes after) (complete : tree.Complete)
    (starts : before.token.endsOperand = false) : Operand before tree after :=
  ⟨passed.toReaches, complete, fun _ => passed, fun ends => by simp [starts] at ends⟩

theorem ne_eof_of_endsOperand {token : Token} (starts : token.endsOperand = false) :
    token ≠ .eof := by
  rintro rfl
  simp [Token.endsOperand] at starts

/-- A parser of operands followed by one that goes on. -/
theorem bind_gives_operand {operand : Parser Expr} {further : Expr → Parser Expr}
    (first : operand.Gives state (Operand state))
    (second : ∀ left middle, left.Complete → state.Reaches middle →
      (further left).Gives middle (Extension left middle)) :
    (operand >>= further).Gives state (Operand state) := by
  rw [gives_bind]
  refine first.mono fun left middle leftRead => ?_
  refine (second left middle leftRead.complete leftRead.reaches).mono fun tree after extended => ?_
  exact leftRead.extend extended

/-- A loop that extends an operand. A round goes on only if it reads something. -/
theorem loop_gives_extension {round : Expr → Parser (Round Expr Expr)} {operand : Expr}
    (operandComplete : operand.Complete)
    (step : ∀ left middle, left.Complete → state.Reaches middle →
      (round left).Gives middle
        (Round.Post middle
          (fun tree after => middle.Reaches after ∧ tree.Complete ∧
            middle.token.endsOperand = false)
          (Extension left middle))) :
    (loop round operand).Gives state (Extension operand state) := by
  refine loop_gives (Extension operand state) (Extension operand state)
    (.refl operandComplete state) ?_ fun _ _ kept => kept
  intro left middle kept
  refine (step left middle kept.complete kept.reaches).mono fun outcome after moved => ?_
  cases outcome with
  | again tree =>
      obtain ⟨shorter, reached, complete, starts⟩ := moved
      refine ⟨shorter, kept.reaches.trans reached, complete, ?_⟩
      intro ends
      obtain ⟨-, rfl⟩ := kept.same ends
      simp [starts] at ends
  | done tree =>
      refine ⟨kept.reaches.trans moved.reaches, moved.complete, ?_⟩
      intro ends
      obtain ⟨rfl, rfl⟩ := kept.same ends
      exact moved.same ends

/-! ## Lists and literals -/

theorem forall_mem_concat {α : Type} {good : α → Prop} {list : List α} {last : α}
    (old : ∀ item ∈ list, good item) (new : good last) : ∀ item ∈ list ++ [last], good item :=
  List.forall_mem_append.mpr ⟨old, List.forall_mem_singleton.mpr new⟩

theorem items_gives (reads : inner.Reads bound) (light : state.weight < bound)
    (close : Token) (defect : Defect) :
    (inner.items close defect).Gives state fun list after =>
      state.Reaches after ∧ ∀ item ∈ list, item.Complete := by
  unfold items
  rw [gives_bind]
  refine loop_gives (fun list middle => state.Reaches middle ∧ ∀ item ∈ list, item.Complete)
    (fun list middle => state.Reaches middle ∧ ∀ item ∈ list, item.Complete)
    ⟨.refl state, by simp⟩ ?_ ?_
  · rintro soFar middle ⟨reached, complete⟩
    simp only [itemsRound, gives_bind, gives_token, gives_ite, gives_pure, gives_accept_cases]
    refine ⟨fun _ => ⟨reached, complete⟩, fun _ => ?_⟩
    have lighter : middle.weight < bound := Nat.lt_of_le_of_lt reached.weight_le light
    refine (reads.expr middle lighter).mono fun item after itemRead => ?_
    have longer :
        ∀ other ∈ (if !item.isEmpty || after.token == .comma then soFar ++ [item] else soFar),
          other.Complete := by
      split
      · exact forall_mem_concat complete itemRead.complete
      · exact complete
    have reachedAfter := reached.trans itemRead.reaches
    refine ⟨fun comma => ?_, fun _ => ⟨reachedAfter, longer⟩⟩
    have passed := ParseState.passes_advance (by simp [comma] : after.token ≠ .eof)
    exact ⟨Nat.lt_of_lt_of_le passed.shorter itemRead.reaches.remaining_le,
      reachedAfter.trans passed.toReaches, longer⟩
  · rintro list after ⟨reached, complete⟩
    simp only [gives_bind, gives_ite, gives_accept_cases, gives_pure, gives_missing]
    exact ⟨fun _ => ⟨reached.trans (ParseState.reaches_advance after), complete⟩,
      fun _ => ⟨reached, forall_mem_concat complete (.invalid _ _)⟩⟩

theorem literal_gives (more : state.token ≠ .eof) (value : Literal) :
    (literal value).Gives state fun tree after => state.Passes after ∧ tree.Complete := by
  simp only [literal, gives_bind, gives_skipLexeme, gives_pure]
  exact ⟨ParseState.passes_advance more, .constant _ _⟩

theorem number_gives (more : state.token ≠ .eof) :
    number.Gives state fun tree after => state.Passes after ∧ tree.Complete := by
  simp only [number, gives_bind, gives_current]
  split
  · exact literal_gives more _
  · simp only [gives_bad]
    exact ⟨ParseState.passes_advance more, .invalid _ _⟩

theorem variableRead_gives (more : state.token ≠ .eof) :
    variableRead.Gives state fun _ after => state.Passes after := by
  simp only [variableRead, gives_bind, gives_current, gives_findFrame, gives_skipLexeme,
    gives_pure]
  exact ParseState.passes_advance more

theorem identifierRead_gives (more : state.token ≠ .eof) :
    identifierRead.Gives state fun _ after => state.Passes after := by
  simp only [identifierRead, gives_bind, gives_current, gives_skipLexeme, gives_pure]
  exact ParseState.passes_advance more

/-- The tree is what the grammar makes of the whole stream, read to its end in some scope. -/
def Replaces (inner : Grammar) (lexemes : List Lexeme) (tree : Expr) : Prop :=
  ∃ scope after, inner.whole (ParseState.start lexemes scope) = some (tree, after) ∧
    (ParseState.start lexemes scope).Reaches after ∧ after.cursor.ahead = [] ∧ tree.Complete

/-- A template has one replacement for each of its streams, and reads each stream to its end. -/
theorem template_gives_replacements (reads : inner.Reads bound) (light : state.weight ≤ bound)
    (more : state.token ≠ .eof) :
    inner.template.Gives state fun tree after =>
      state.Passes after ∧ ∃ span trees,
        tree = .interpolated span state.cursor.current.parts trees ∧
          List.Forall₂ (Replaces inner) state.cursor.current.subs trees := by
  simp only [template, gives_bind, gives_current, gives_skipLexeme, gives_pure]
  refine (mapM_gives (fun middle => middle.cursor = state.cursor) (Replaces inner)
    state.cursor.current.subs rfl ?_).mono ?_
  · intro lexemes member middle sameCursor
    simp only [gives_bind, gives_get, gives_set, gives_modify, gives_pure]
    have lighter : (ParseState.start lexemes middle.scope).weight < bound :=
      calc (ParseState.start lexemes middle.scope).weight
          ≤ Lexeme.weightAll lexemes := Cursor.weightAll_aheadOf_le lexemes
        _ < state.cursor.current.weight := Lexeme.weightAll_lt_weight member
        _ ≤ bound := Nat.le_trans (ParseState.weight_current_le more) light
    obtain ⟨tree, after, ran, reached, ended, complete⟩ := reads.whole _ lighter
    exact ⟨tree, after, ran, sameCursor, middle.scope, after, ran, reached, ended, complete⟩
  · rintro trees after ⟨sameCursor, replaced⟩
    refine ⟨?_, _, trees, rfl, replaced⟩
    have moreAfter : after.token ≠ .eof := by
      unfold ParseState.token
      rw [sameCursor]
      exact more
    exact (ParseState.Reaches.of_cursor_eq sameCursor).trans_passes
      (ParseState.passes_advance moreAfter)

theorem complete_of_replaces {streams : List (List Lexeme)} {trees : List Expr}
    (replaced : List.Forall₂ (Replaces inner) streams trees) : ∀ tree ∈ trees, tree.Complete := by
  induction replaced with
  | nil => simp
  | cons first _ inductionHypothesis =>
      obtain ⟨_, _, _, _, _, complete⟩ := first
      exact List.forall_mem_cons.mpr ⟨complete, inductionHypothesis⟩

theorem template_gives (reads : inner.Reads bound) (light : state.weight ≤ bound)
    (more : state.token ≠ .eof) :
    inner.template.Gives state fun tree after => state.Passes after ∧ tree.Complete := by
  refine (template_gives_replacements reads light more).mono fun tree after read => ?_
  obtain ⟨passed, span, trees, rfl, replaced⟩ := read
  exact ⟨passed, .interpolated (complete_of_replaces replaced)⟩

/-! ## Brackets -/

/-- Every row that is being collected has only complete cells, and finished rows have some. -/
structure MatrixRows.Good (rows : MatrixRows) : Prop where
  nonempty : ∀ row ∈ rows.rows, row ≠ []
  finished : ∀ row ∈ rows.rows, ∀ cell ∈ row, cell.Complete
  current : ∀ cell ∈ rows.row, cell.Complete

theorem MatrixRows.Good.endRow {rows : MatrixRows} (good : rows.Good) : rows.endRow.Good := by
  unfold MatrixRows.endRow
  split
  · exact good
  · next more =>
    exact ⟨forall_mem_concat good.nonempty (by simpa using more),
      forall_mem_concat good.finished good.current, by simp⟩

theorem MatrixRows.Good.addCell {rows : MatrixRows} (good : rows.Good) {cell : Expr}
    (complete : cell.Complete) :
    MatrixRows.Good { rows with row := rows.row ++ [cell] } :=
  ⟨good.nonempty, good.finished, forall_mem_concat good.current complete⟩

theorem matrix_gives (reads : inner.Reads bound) (light : state.weight ≤ bound)
    (more : state.token ≠ .eof) :
    inner.matrix.Gives state fun tree after => state.Passes after ∧ tree.Complete := by
  simp only [matrix, gives_bind, gives_current, gives_advance, gives_spanFrom, gives_pure]
  have opened := ParseState.passes_advance more
  refine loop_gives (fun rows middle => state.Passes middle ∧ rows.Good)
    (fun rows after => state.Passes after ∧ (∀ row ∈ rows, row ≠ []) ∧
      ∀ row ∈ rows, ∀ cell ∈ row, cell.Complete)
    ⟨opened, by constructor <;> simp⟩ ?_ ?_
  · rintro rows middle ⟨passed, good⟩
    simp only [gives_bind, gives_token]
    split
    · simp only [gives_bind, gives_advance, gives_pure]
      exact ⟨passed.trans_reaches (ParseState.reaches_advance middle), good.endRow.nonempty,
        good.endRow.finished⟩
    · simp only [gives_bind, gives_missing, gives_pure]
      have ended := (good.addCell
        (.invalid (.point middle.cursor.current.span.start) .unterminatedMatrix)).endRow
      exact ⟨passed, ended.nonempty, ended.finished⟩
    · next semicolon =>
      simp only [gives_bind, gives_advance, gives_pure]
      have read := ParseState.passes_advance (by simp [semicolon] : middle.token ≠ .eof)
      exact ⟨read.shorter, passed.trans_reaches read.toReaches, good.endRow⟩
    · next comma =>
      simp only [gives_bind, gives_advance, gives_pure]
      have read := ParseState.passes_advance (by simp [comma] : middle.token ≠ .eof)
      exact ⟨read.shorter, passed.trans_reaches read.toReaches, good⟩
    · next notEof _ _ =>
      have lighter : middle.weight < bound := Nat.lt_of_lt_of_le passed.weight_lt light
      simp only [gives_bind, gives_ite, gives_bad, gives_pure]
      refine (reads.expr middle lighter).mono fun cell after cellRead => ⟨?_, ?_⟩
      · intro empty
        -- A missing cell is replaced by the lexeme that stands in its place.
        have unread : middle.Passes after.advance := by
          cases ends : middle.token.endsOperand with
          | false =>
              exact (cellRead.passes ends).trans_reaches (ParseState.reaches_advance after)
          | true =>
              obtain ⟨-, rfl⟩ := cellRead.missing ends
              exact ParseState.passes_advance notEof
        exact ⟨unread.shorter, passed.trans_reaches unread.toReaches,
          good.addCell (.invalid _ _)⟩
      · intro present
        have read : middle.Passes after := by
          cases ends : middle.token.endsOperand with
          | false => exact cellRead.passes ends
          | true => exact absurd (cellRead.missing ends).1 present
        exact ⟨read.shorter, passed.trans_reaches read.toReaches,
          good.addCell cellRead.complete⟩
  · rintro rows after ⟨passed, nonempty, complete⟩
    exact ⟨passed, .matrix nonempty complete⟩

theorem property_gives (reads : inner.Reads bound) (light : state.weight ≤ bound)
    (more : state.token ≠ .eof) :
    inner.property.Gives state fun tree after => state.Passes after ∧ tree.Complete := by
  simp only [property, gives_bind, gives_current, gives_advance, gives_ite, gives_accept_cases,
    gives_spanFrom, gives_findFrame, gives_pure]
  have read := ParseState.passes_advance more
  refine ⟨fun _ => ?_, fun _ => ⟨fun _ => ⟨read, .property (.var _)⟩, fun _ => ⟨read, .invalid _ _⟩⟩⟩
  have colonRead := read.trans_reaches (ParseState.reaches_advance state.advance)
  have lighter := Nat.lt_of_lt_of_le colonRead.weight_lt light
  refine (reads.expr _ lighter).mono fun value after valueRead => ?_
  exact ⟨colonRead.trans_reaches valueRead.reaches, .property valueRead.complete⟩

theorem object_gives (reads : inner.Reads bound) (light : state.weight ≤ bound)
    (more : state.token ≠ .eof) :
    inner.object.Gives state fun tree after => state.Passes after ∧ tree.Complete := by
  simp only [object, gives_bind, gives_current, gives_advance, gives_spanFrom, gives_pure]
  have opened := ParseState.passes_advance more
  refine loop_gives
    (fun entries middle => state.Passes middle ∧ ∀ entry ∈ entries, entry.Complete)
    (fun entries after => state.Passes after ∧ ∀ entry ∈ entries, entry.Complete)
    ⟨opened, by simp⟩ ?_ fun _ _ found => ⟨found.1, .object found.2⟩
  rintro entries middle ⟨passed, complete⟩
  have lighter : middle.weight ≤ bound :=
    Nat.le_trans (Nat.le_of_lt passed.weight_lt) light
  have keyed (notEof : middle.token ≠ .eof) :
      (inner.property >>= fun entry =>
          (pure (.again (entries ++ [entry])) : Parser (Round (List Entry) (List Entry)))).Gives
        middle (Round.Post middle
          (fun entries after => state.Passes after ∧ ∀ entry ∈ entries, entry.Complete)
          (fun entries after => state.Passes after ∧ ∀ entry ∈ entries, entry.Complete)) := by
    simp only [gives_bind, gives_pure]
    refine (property_gives reads lighter notEof).mono fun entry after entryRead => ?_
    exact ⟨entryRead.1.shorter, passed.trans_reaches entryRead.1.toReaches,
      forall_mem_concat complete entryRead.2⟩
  simp only [gives_bind, gives_token]
  split
  · simp only [gives_bind, gives_advance, gives_pure]
    exact ⟨passed.trans_reaches (ParseState.reaches_advance middle), complete⟩
  · simp only [gives_bind, gives_here, gives_pure]
    exact ⟨passed, forall_mem_concat complete (.invalid _ _)⟩
  · next separator =>
    simp only [gives_bind, gives_advance, gives_pure]
    have read := ParseState.passes_advance (by simp [separator] : middle.token ≠ .eof)
    exact ⟨read.shorter, passed.trans_reaches read.toReaches, complete⟩
  · next separator =>
    simp only [gives_bind, gives_advance, gives_pure]
    have read := ParseState.passes_advance (by simp [separator] : middle.token ≠ .eof)
    exact ⟨read.shorter, passed.trans_reaches read.toReaches, complete⟩
  · next key => exact keyed (by simp [key])
  · next key => exact keyed (by simp [key])
  · next key => exact keyed (by simp [key])
  · next notEof _ _ _ _ _ =>
    simp only [gives_bind, gives_skipLexeme, gives_pure]
    have read : middle.Passes middle.advance := ParseState.passes_advance notEof
    exact ⟨read.shorter, passed.trans_reaches read.toReaches,
      forall_mem_concat complete (.invalid _ _)⟩

/-! ## Operands -/

theorem operand_gives (reads : inner.Reads bound) (light : state.weight ≤ bound) :
    inner.operand.Gives state (Operand state) := by
  simp only [operand, gives_bind, gives_token]
  have reading {parser : Parser Expr} (starts : state.token.endsOperand = false)
      (given : parser.Gives state fun tree after => state.Passes after ∧ tree.Complete) :
      parser.Gives state (Operand state) :=
    given.mono fun _ _ read => .of_passes read.1 read.2 starts
  have malformed (starts : state.token.endsOperand = false) (defect : Defect) :
      (bad defect).Gives state (Operand state) := by
    refine reading starts ?_
    simp only [gives_bad]
    exact ⟨ParseState.passes_advance (ne_eof_of_endsOperand starts), .invalid _ _⟩
  have absent (ends : state.token.endsOperand = true) :
      (here >>= fun span => (pure (.empty span) : Parser Expr)).Gives state (Operand state) := by
    simp only [gives_bind, gives_here, gives_pure]
    exact ⟨.refl state, .empty _, fun starts => by simp [ends] at starts, fun _ => ⟨rfl, rfl⟩⟩
  split
  · next found => exact reading (by rw [found]; rfl) (number_gives (by simp [found]))
  · next found =>
    simp only [gives_bind, gives_current]
    exact reading (by rw [found]; rfl) (literal_gives (by simp [found]) _)
  · next found => exact malformed (by rw [found]; rfl) _
  · next found =>
    exact reading (by rw [found]; rfl) (template_gives reads light (by simp [found]))
  · next found => exact reading (by rw [found]; rfl) (literal_gives (by simp [found]) _)
  · next found => exact reading (by rw [found]; rfl) (literal_gives (by simp [found]) _)
  · next found => exact reading (by rw [found]; rfl) (literal_gives (by simp [found]) _)
  · next found =>
    refine reading (by rw [found]; rfl) ?_
    simp only [gives_bind, gives_pure]
    exact (variableRead_gives (by simp [found])).mono fun name after read => ⟨read, .var name⟩
  · next found =>
    refine reading (by rw [found]; rfl) ?_
    simp only [gives_bind, gives_current, gives_advance, gives_spanFrom, gives_pure]
    have opened := ParseState.passes_advance (by simp [found] : state.token ≠ .eof)
    have lighter := Nat.lt_of_lt_of_le opened.weight_lt light
    refine (items_gives reads lighter _ _).mono fun items after listRead => ?_
    exact ⟨opened.trans_reaches listRead.1, .arguments listRead.2⟩
  · next found => exact reading (by rw [found]; rfl) (matrix_gives reads light (by simp [found]))
  · next found => exact reading (by rw [found]; rfl) (object_gives reads light (by simp [found]))
  · next found => exact reading (by rw [found]; rfl) (reads.markup state light found)
  · next found => exact malformed (by rw [found]; rfl) _
  · next found => exact absent (by rw [found]; rfl)
  · next found => exact absent (by rw [found]; rfl)
  · next found => exact absent (by rw [found]; rfl)
  · next found => exact absent (by rw [found]; rfl)
  · next found => exact absent (by rw [found]; rfl)
  · next found => exact absent (by rw [found]; rfl)
  · next found => exact absent (by rw [found]; rfl)
  · refine malformed ?_ _
    unfold Token.endsOperand
    split <;> simp_all

theorem postfixed_gives (reads : inner.Reads bound) (light : state.weight ≤ bound) :
    inner.postfixed.Gives state (Operand state) := by
  unfold postfixed
  refine bind_gives_operand (operand_gives reads light) fun owner middle complete reached => ?_
  refine loop_gives_extension complete fun owner place ownerComplete placeReached => ?_
  have lighter : place.weight ≤ bound :=
    Nat.le_trans (reached.trans placeReached).weight_le light
  simp only [postfixRound, gives_bind, gives_token]
  split
  · next found =>
    have opened := ParseState.passes_advance (by simp [found] : place.token ≠ .eof)
    simp only [gives_bind, gives_ite, gives_advance, gives_spanFrom, gives_pure]
    refine ⟨fun _ => .refl ownerComplete place, fun _ => ?_⟩
    refine (items_gives reads (Nat.lt_of_lt_of_le opened.weight_lt lighter) _ _).mono
      fun args after listRead => ?_
    have called := opened.trans_reaches listRead.1
    exact ⟨called.shorter, called.toReaches, .call ownerComplete listRead.2, by rw [found]; rfl⟩
  · next found =>
    have dotRead := ParseState.passes_advance (by simp [found] : place.token ≠ .eof)
    have starts : place.token.endsOperand = false := by rw [found]; rfl
    simp only [gives_bind, gives_ite, gives_advance, gives_token, gives_missing, gives_pure]
    refine ⟨fun name => ?_, fun _ => ?_⟩
    · refine (identifierRead_gives (by simp [name])).mono fun selector after nameRead => ?_
      have selected := dotRead.trans_reaches nameRead.toReaches
      exact ⟨selected.shorter, selected.toReaches, .member ownerComplete, starts⟩
    · exact ⟨dotRead.toReaches, .join ownerComplete (.invalid _ _),
        fun ends => by simp [starts] at ends⟩
  · next found =>
    have bangRead := ParseState.passes_advance (by simp [found] : place.token ≠ .eof)
    simp only [gives_bind, gives_advance, gives_spanFrom, gives_pure]
    exact ⟨bangRead.shorter, bangRead.toReaches, .factorial ownerComplete, by rw [found]; rfl⟩
  · rw [gives_pure]
    exact .refl ownerComplete place

theorem endsOperand_of_unaryOp {token : Token} {op : UnaryOp} (found : unaryOp? token = some op) :
    token.endsOperand = false := by
  cases token <;> first | rfl | cases found

theorem signed_gives (reads : inner.Reads bound) (light : state.weight ≤ bound) :
    inner.signed.Gives state (Operand state) := by
  simp only [signed, gives_bind, gives_token]
  split
  · next op found =>
    have starts := endsOperand_of_unaryOp found
    have signRead := ParseState.passes_advance (ne_eof_of_endsOperand starts)
    simp only [gives_bind, gives_current, gives_advance, gives_pure]
    refine (reads.unary _ (Nat.lt_of_lt_of_le signRead.weight_lt light)).mono
      fun operand after operandRead => ?_
    exact .of_passes (signRead.trans_reaches operandRead.reaches) (.unary operandRead.complete)
      starts
  · exact postfixed_gives reads light

/-! ## Operators between operands -/

theorem operatorRound_gives (reads : inner.Reads bound) (light : state.weight ≤ bound)
    {op : BinaryOp} {operand : Parser Expr} {left : Expr} (leftComplete : left.Complete)
    (operandGives : ∀ state, state.weight ≤ bound → operand.Gives state (Operand state))
    (starts : state.token.endsOperand = false) :
    (inner.operatorRound op operand left).Gives state
      (Round.Post state
        (fun tree after => state.Reaches after ∧ tree.Complete ∧
          state.token.endsOperand = false)
        (Extension left state)) := by
  have signRead := ParseState.passes_advance (ne_eof_of_endsOperand starts)
  simp only [operatorRound, compound, gives_bind, gives_current, gives_advance, gives_ite,
    gives_pure]
  refine ⟨fun _ => ?_, fun _ => ?_⟩
  · have bothRead := signRead.trans_reaches (ParseState.reaches_advance state.advance)
    simp only [true_implies, not_true_eq_false, false_implies, and_true]
    refine (reads.expr _ (Nat.lt_of_lt_of_le bothRead.weight_lt light)).mono
      fun value after valueRead => ?_
    exact ⟨bothRead.toReaches.trans valueRead.reaches,
      .assign leftComplete (.join leftComplete valueRead.complete),
      fun ends => by simp [starts] at ends⟩
  · simp only [Bool.false_eq_true, not_false_eq_true, true_implies, false_implies, true_and]
    refine (operandGives _ (Nat.le_trans signRead.toReaches.weight_le light)).mono
      fun right after rightRead => ?_
    have joined := signRead.trans_reaches rightRead.reaches
    exact ⟨joined.shorter, joined.toReaches, .join leftComplete rightRead.complete, starts⟩

theorem power_gives (reads : inner.Reads bound) (light : state.weight ≤ bound) :
    inner.power.Gives state (Operand state) := by
  unfold power
  refine bind_gives_operand (signed_gives reads light) fun base middle baseComplete reached => ?_
  refine loop_gives
    (fun exponents place => middle.Reaches place ∧ (∀ exponent ∈ exponents, exponent.Complete) ∧
      (middle.token.endsOperand = true → exponents = [] ∧ place = middle))
    (Extension base middle) ⟨.refl middle, by simp, fun _ => ⟨rfl, rfl⟩⟩ ?_ fun _ _ kept => kept
  rintro exponents place ⟨placeReached, complete, same⟩
  have chain := baseComplete.powerChain complete
  have lighter : place.weight ≤ bound :=
    Nat.le_trans (reached.trans placeReached).weight_le light
  simp only [powerRound, compound, gives_bind, gives_token, gives_ite, gives_current,
    gives_advance, gives_pure]
  refine ⟨fun caret => ?_, fun _ => ?_⟩
  · have starts : place.token.endsOperand = false := by rw [caret]; rfl
    have notMissing (ends : middle.token.endsOperand = true) : False := by
      obtain ⟨-, rfl⟩ := same ends
      simp [starts] at ends
    have signRead := ParseState.passes_advance (ne_eof_of_endsOperand starts)
    refine ⟨fun _ => ?_, fun _ => ?_⟩
    · simp only [true_implies, not_true_eq_false, false_implies, and_true]
      have bothRead := signRead.trans_reaches (ParseState.reaches_advance place.advance)
      refine (reads.expr _ (Nat.lt_of_lt_of_le bothRead.weight_lt lighter)).mono
        fun value after valueRead => ?_
      exact ⟨(placeReached.trans bothRead.toReaches).trans valueRead.reaches,
        .assign chain (.join chain valueRead.complete), fun ends => (notMissing ends).elim⟩
    · simp only [Bool.false_eq_true, not_false_eq_true, true_implies, false_implies, true_and]
      refine (signed_gives reads (Nat.le_trans signRead.toReaches.weight_le lighter)).mono
        fun exponent after exponentRead => ?_
      have joined := signRead.trans_reaches exponentRead.reaches
      exact ⟨joined.shorter, placeReached.trans joined.toReaches,
        forall_mem_concat complete exponentRead.complete, fun ends => (notMissing ends).elim⟩
  · refine ⟨placeReached, chain, fun ends => ?_⟩
    obtain ⟨rfl, rfl⟩ := same ends
    exact ⟨rfl, rfl⟩

/-- An operator that joins operands ends none. -/
theorem endsOperand_of_joins {operator? : Token → Option BinaryOp} (table : operator? ∈ joiningOps)
    {token : Token} {op : BinaryOp} (found : operator? token = some op) :
    token.endsOperand = false := by
  have starts : ∀ token ∈ joiningSigns, token.endsOperand = false := by decide
  exact starts token (mem_joiningSigns table found)

theorem product_gives (reads : inner.Reads bound) (light : state.weight ≤ bound) :
    inner.product.Gives state (Operand state) := by
  unfold product
  refine bind_gives_operand (power_gives reads light) fun left middle leftComplete reached => ?_
  refine loop_gives_extension leftComplete fun left place complete placeReached => ?_
  have lighter : place.weight ≤ bound :=
    Nat.le_trans (reached.trans placeReached).weight_le light
  have factor (starts : place.token.endsOperand = false) :
      (inner.power >>= fun right =>
          (pure (.again (Expr.juxtapose left right)) : Parser (Round Expr Expr))).Gives place
        (Round.Post place
          (fun tree after => place.Reaches after ∧ tree.Complete ∧
            place.token.endsOperand = false)
          (Extension left place)) := by
    simp only [gives_bind, gives_pure]
    refine (power_gives reads lighter).mono fun right after rightRead => ?_
    exact ⟨(rightRead.passes starts).shorter, rightRead.reaches,
      .juxtapose complete rightRead.complete, starts⟩
  simp only [productRound, gives_bind, gives_token]
  split
  · next op found =>
    exact operatorRound_gives reads lighter complete (fun _ => power_gives reads)
      (endsOperand_of_joins (by simp [joiningOps]) found)
  · split
    · next found => exact factor (by rw [found]; rfl)
    · next found => exact factor (by rw [found]; rfl)
    · next found => exact factor (by rw [found]; rfl)
    · next found => exact factor (by rw [found]; rfl)
    · next found => exact factor (by rw [found]; rfl)
    · next found => exact factor (by rw [found]; rfl)
    · next found => exact factor (by rw [found]; rfl)
    · next found =>
      split
      · exact factor (by rw [found]; rfl)
      · rw [gives_pure]
        exact .refl complete place
    · rw [gives_pure]
      exact .refl complete place

theorem sum_gives (reads : inner.Reads bound) (light : state.weight ≤ bound) :
    inner.sum.Gives state (Operand state) := by
  unfold sum
  refine bind_gives_operand (product_gives reads light) fun left middle leftComplete reached => ?_
  refine loop_gives_extension leftComplete fun left place complete placeReached => ?_
  have lighter : place.weight ≤ bound :=
    Nat.le_trans (reached.trans placeReached).weight_le light
  simp only [sumRound, gives_bind, gives_token]
  split
  · next op found =>
    exact operatorRound_gives reads lighter complete (fun _ => product_gives reads)
      (endsOperand_of_joins (by simp [joiningOps]) found)
  · rw [gives_pure]
    exact .refl complete place

theorem leftChain_gives {operator? : Token → Option BinaryOp} {operand : Parser Expr}
    (table : operator? ∈ joiningOps) (light : state.weight ≤ bound)
    (operandGives : ∀ state, state.weight ≤ bound → operand.Gives state (Operand state)) :
    (leftChain operator? operand).Gives state (Operand state) := by
  unfold leftChain
  refine bind_gives_operand (operandGives state light) fun left middle leftComplete reached => ?_
  refine loop_gives_extension leftComplete fun left place complete placeReached => ?_
  have lighter : place.weight ≤ bound :=
    Nat.le_trans (reached.trans placeReached).weight_le light
  simp only [chainRound, gives_bind, gives_token]
  split
  · next op found =>
    have starting := endsOperand_of_joins table found
    have signRead := ParseState.passes_advance (ne_eof_of_endsOperand starting)
    simp only [gives_bind, gives_advance, gives_pure]
    refine (operandGives _ (Nat.le_trans signRead.toReaches.weight_le lighter)).mono
      fun right after rightRead => ?_
    have joined := signRead.trans_reaches rightRead.reaches
    exact ⟨joined.shorter, joined.toReaches, .join complete rightRead.complete, starting⟩
  · rw [gives_pure]
    exact .refl complete place

theorem comparison_gives (reads : inner.Reads bound) (light : state.weight ≤ bound) :
    inner.comparison.Gives state (Operand state) :=
  leftChain_gives (by simp [joiningOps]) light fun _ => sum_gives reads

theorem equality_gives (reads : inner.Reads bound) (light : state.weight ≤ bound) :
    inner.equality.Gives state (Operand state) :=
  leftChain_gives (by simp [joiningOps]) light fun _ => comparison_gives reads

theorem conjunction_gives (reads : inner.Reads bound) (light : state.weight ≤ bound) :
    inner.conjunction.Gives state (Operand state) :=
  leftChain_gives (by simp [joiningOps]) light fun _ => equality_gives reads

theorem disjunction_gives (reads : inner.Reads bound) (light : state.weight ≤ bound) :
    inner.disjunction.Gives state (Operand state) :=
  leftChain_gives (by simp [joiningOps]) light fun _ => conjunction_gives reads

theorem pipe_gives (reads : inner.Reads bound) (light : state.weight ≤ bound) :
    inner.pipe.Gives state (Operand state) :=
  leftChain_gives (by simp [joiningOps]) light fun _ => disjunction_gives reads

theorem range_gives (reads : inner.Reads bound) (light : state.weight ≤ bound) :
    inner.range.Gives state (Operand state) := by
  unfold range
  refine bind_gives_operand (pipe_gives reads light) fun first middle firstComplete reached => ?_
  have lighter : middle.weight ≤ bound := Nat.le_trans reached.weight_le light
  simp only [gives_bind, gives_token, gives_ite, gives_advance, gives_accept_cases, gives_pure]
  refine ⟨fun found => ?_, fun _ => .refl firstComplete middle⟩
  have notMissing (ends : middle.token.endsOperand = true) : False := by
    rw [found] at ends
    simp [Token.endsOperand] at ends
  have signReached := ParseState.reaches_advance middle
  refine (pipe_gives reads (Nat.le_trans signReached.weight_le lighter)).mono
    fun second after secondRead => ?_
  have secondReached := signReached.trans secondRead.reaches
  refine ⟨fun _ => ?_, fun _ => ?_⟩
  · have againReached := secondReached.trans (ParseState.reaches_advance after)
    refine (pipe_gives reads (Nat.le_trans againReached.weight_le lighter)).mono
      fun last final lastRead => ?_
    exact ⟨againReached.trans lastRead.reaches,
      .range firstComplete (by simpa using secondRead.complete) lastRead.complete,
      fun ends => (notMissing ends).elim⟩
  · exact ⟨secondReached, .range firstComplete (by simp) secondRead.complete,
      fun ends => (notMissing ends).elim⟩

theorem conditional_gives (reads : inner.Reads bound) (light : state.weight ≤ bound) :
    inner.conditional.Gives state (Operand state) := by
  unfold conditional
  refine bind_gives_operand (range_gives reads light) fun test middle testComplete reached => ?_
  have lighter : middle.weight ≤ bound := Nat.le_trans reached.weight_le light
  simp only [gives_bind, gives_token, gives_ite, gives_advance, gives_accept_cases, gives_missing,
    gives_pure]
  refine ⟨fun found => ?_, fun _ => .refl testComplete middle⟩
  have notMissing (ends : middle.token.endsOperand = true) : False := by
    rw [found] at ends
    simp [Token.endsOperand] at ends
  have signRead := ParseState.passes_advance (by simp [found] : middle.token ≠ .eof)
  refine (reads.lambda _ (Nat.lt_of_lt_of_le signRead.weight_lt lighter)).mono
    fun whenTrue after trueRead => ?_
  have trueReached := signRead.trans_reaches trueRead.reaches
  refine ⟨fun _ => ?_, fun _ => ?_⟩
  · have colonRead := trueReached.trans_reaches (ParseState.reaches_advance after)
    refine (reads.lambda _ (Nat.lt_of_lt_of_le colonRead.weight_lt lighter)).mono
      fun whenFalse last falseRead => ?_
    exact ⟨colonRead.toReaches.trans falseRead.reaches,
      .conditional testComplete trueRead.complete falseRead.complete,
      fun ends => (notMissing ends).elim⟩
  · exact ⟨trueReached.toReaches, .conditional testComplete trueRead.complete (.invalid _ _),
      fun ends => (notMissing ends).elim⟩

/-! ## Functions and assignments -/

theorem function_gives (reads : inner.Reads bound) (light : state.weight ≤ bound) :
    inner.function.Gives state (Operand state) := by
  unfold function
  refine bind_gives_operand (conditional_gives reads light)
    fun head middle headComplete reached => ?_
  have lighter : middle.weight ≤ bound := Nat.le_trans reached.weight_le light
  simp only [gives_bind, gives_token, gives_ite, gives_pure]
  refine ⟨fun found => ?_, fun _ => .refl headComplete middle⟩
  have notMissing (ends : middle.token.endsOperand = true) : False := by
    rw [found] at ends
    simp [Token.endsOperand] at ends
  split
  · rw [gives_pure]
    exact .refl headComplete middle
  · next items =>
    have arrowRead := ParseState.passes_advance (by simp [found] : middle.token ≠ .eof)
    simp only [gives_bind, gives_advance, gives_pushFrame, gives_token, gives_ite, gives_map,
      gives_popFrame, gives_pure]
    refine (declareAll_gives _).mono fun _ declared sameCursor => ?_
    have declaredRead : middle.Passes declared :=
      arrowRead.trans_reaches (.of_cursor_eq sameCursor)
    have bodyLight : declared.weight < bound :=
      Nat.lt_of_lt_of_le declaredRead.weight_lt lighter
    have finish {body : Body} {after : ParseState} (bodyRead : declared.Reaches after)
        (bodyComplete : body.Complete) (tree : Expr)
        (made : body.Complete → tree.Complete) :
        Extension head middle tree { after with scope := after.scope.pop.2 } :=
      ⟨(declaredRead.toReaches.trans bodyRead).trans (.of_cursor_eq rfl), made bodyComplete,
        fun ends => (notMissing ends).elim⟩
    refine ⟨fun brace => ?_, fun _ => ?_⟩
    · refine (reads.block declared bodyLight brace).mono fun block after blockRead => ?_
      exact ⟨fun _ => finish blockRead.1.toReaches (.block blockRead.2) _ .function,
        fun _ => finish blockRead.1.toReaches (.block blockRead.2) _ fun _ => .invalid _ _⟩
    · refine (reads.expr declared bodyLight).mono fun value after valueRead => ?_
      exact ⟨fun _ => finish valueRead.reaches (.expr valueRead.complete) _ .function,
        fun _ => finish valueRead.reaches (.expr valueRead.complete) _ fun _ => .invalid _ _⟩

theorem assignment_gives (reads : inner.Reads bound) (light : state.weight ≤ bound) :
    inner.assignment.Gives state (Operand state) := by
  unfold assignment
  refine bind_gives_operand (function_gives reads light)
    fun target middle targetComplete reached => ?_
  have lighter : middle.weight ≤ bound := Nat.le_trans reached.weight_le light
  simp only [gives_bind, gives_token, gives_ite, gives_advance, gives_pure]
  refine ⟨fun found => ?_, fun _ => .refl targetComplete middle⟩
  have signRead := ParseState.passes_advance (by simp [found] : middle.token ≠ .eof)
  refine (reads.expr _ (Nat.lt_of_lt_of_le signRead.weight_lt lighter)).mono
    fun value after valueRead => ?_
  refine ⟨signRead.toReaches.trans valueRead.reaches, .assign targetComplete valueRead.complete, ?_⟩
  intro ends
  rw [found] at ends
  simp [Token.endsOperand] at ends

theorem skipSemicolons_gives :
    skipSemicolons.Gives state fun _ after => state.Reaches after := by
  unfold skipSemicolons
  refine loop_gives (fun _ middle => state.Reaches middle) (fun _ after => state.Reaches after)
    (.refl state) ?_ fun _ _ reached => reached
  intro _ middle reached
  simp only [gives_bind, gives_ite, gives_accept_cases, gives_pure]
  refine ⟨fun found => ?_, fun _ => reached⟩
  have read := ParseState.passes_advance (by simp [found] : middle.token ≠ .eof)
  exact ⟨read.shorter, reached.trans read.toReaches⟩

theorem entire_gives (reads : inner.Reads bound) (light : state.weight ≤ bound) :
    inner.entire.Gives state fun tree after =>
      state.Reaches after ∧ after.cursor.ahead = [] ∧ tree.Complete := by
  unfold entire
  rw [gives_bind]
  refine skipSemicolons_gives.mono fun _ start skipped => ?_
  rw [gives_bind]
  refine (assignment_gives reads (Nat.le_trans skipped.weight_le light)).mono
    fun tree middle treeRead => ?_
  refine loop_gives (fun tree place => state.Reaches place ∧ tree.Complete)
    (fun tree after => state.Reaches after ∧ after.cursor.ahead = [] ∧ tree.Complete)
    ⟨skipped.trans treeRead.reaches, treeRead.complete⟩ ?_ fun _ _ ended => ended
  rintro soFar place ⟨reached, complete⟩
  simp only [gives_bind, gives_token, gives_ite, gives_bad, gives_pure]
  refine skipSemicolons_gives.mono fun _ next nextReached => ⟨fun ended => ?_, fun more => ?_⟩
  · exact ⟨reached.trans nextReached, next.token_eq_eof_iff.mp ended, complete⟩
  · have badRead := nextReached.trans_passes (ParseState.passes_advance more)
    have reachedBad := reached.trans badRead.toReaches
    refine (assignment_gives reads (Nat.le_trans reachedBad.weight_le light)).mono
      fun further after furtherRead => ?_
    have joined : (Expr.join .multiply soFar
        (.invalid next.cursor.current.span .unexpectedToken)).Complete :=
      .join complete (.invalid _ _)
    have read := badRead.trans_reaches furtherRead.reaches
    refine ⟨read.shorter, reached.trans read.toReaches, ?_⟩
    split
    · exact joined
    · exact .join joined furtherRead.complete

end Grammar

end Reckon
