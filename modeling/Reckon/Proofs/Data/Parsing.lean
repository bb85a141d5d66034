import Reckon.Proofs.Data.Meaning
import Reckon.Proofs.Data.Scanning
import Reckon.Proofs.RoundTrip.Scanning

/-!
# Parsing the pieces of data

The pieces of data are parsed to a tree that denotes the data, wherever a lexeme follows that cannot go on
with an operand.  The cells of a row, the rows of a matrix and the entries of an object are read by loops
that go round once for each of them and once for each sign in between.
-/

namespace Reckon

open Piece

namespace Grammar

open Reckon.Parser

/-! ## Loops over items -/

section Loops

variable {σ β α : Type} {round : σ → Parser (Round σ β)} {pieces : List Piece}
  {before after : σ → Prop}

/-- From a state that satisfies the first condition, a loop comes to one that satisfies the second, and
has read the pieces then. -/
def Advances (round : σ → Parser (Round σ β)) (pieces : List Piece) (before after : σ → Prop) :
    Prop :=
  ∀ soFar state rest post, before soFar → state.pieces = pieces ++ rest →
    (front rest).continues = none →
    (∀ next place, after next → place.pieces = rest → (loop round next).Gives place post) →
    (loop round soFar).Gives state post

theorem advances_of_round {allowed : List Token} (starts : StartsIn allowed pieces)
    (reads : ∀ soFar state rest, before soFar → state.token ∈ allowed →
      state.pieces = pieces ++ rest → (front rest).continues = none →
      (round soFar).Gives state fun outcome place =>
        ∃ next, outcome = .again next ∧ after next ∧ place.pieces = rest) :
    Advances round pieces before after := by
  intro soFar state rest post started ahead ended further
  have token := starts.token_mem ahead
  refine loop_gives_of_round ((reads soFar state rest started token ahead ended).mono ?_)
  intro outcome place read
  obtain ⟨next, rfl, reached, placeAhead⟩ := read
  obtain ⟨first, others, rfl, -⟩ := starts
  refine ⟨?_, further next place reached placeAhead⟩
  rw [ParseState.remaining_eq_length_pieces, ParseState.remaining_eq_length_pieces, placeAhead,
    ahead, List.length_append, List.length_cons]
  omega

theorem Advances.mono {weaker : σ → Prop} (advances : Advances round pieces before after)
    (implied : ∀ soFar, after soFar → weaker soFar) : Advances round pieces before weaker := by
  intro soFar state rest post started ahead ended further
  refine advances soFar state rest post started ahead ended fun next place reached placeAhead => ?_
  exact further next place (implied next reached) placeAhead

theorem Advances.separated {morePieces : List Piece} {middle start : σ → Prop} {token : Token}
    (first : Advances round pieces before middle) (second : Advances round morePieces start after)
    (ends : token.continues = none)
    (passes : ∀ soFar state, middle soFar → state.token = token →
      (round soFar).Gives state fun outcome place =>
        ∃ next, outcome = .again next ∧ start next ∧ place = state.advance) :
    Advances round (pieces ++ sign token :: morePieces) before after := by
  intro soFar state rest post started ahead ended further
  rw [List.append_assoc] at ahead
  refine first soFar state _ post started ahead ends fun found place reached placeAhead => ?_
  have atSign : place.token = token := ParseState.token_of_pieces placeAhead
  refine loop_gives_of_round ((passes found place reached atSign).mono fun outcome next read => ?_)
  obtain ⟨goOn, rfl, restarted, rfl⟩ := read
  have nextAhead : place.advance.pieces = morePieces ++ rest :=
    ParseState.pieces_advance_of_cons placeAhead
  exact ⟨ParseState.remaining_advance_lt placeAhead,
    second goOn _ rest post restarted nextAhead ended further⟩

/-- A loop that has read some items reads more of them, with a sign between every two. -/
theorem Advances.joined {items : List α} {piecesOf : α → List Piece} {token : Token}
    (waits reached : List α → σ → Prop)
    (stays : ∀ done soFar, waits done soFar → reached done soFar)
    (each : ∀ done, ∀ item ∈ items,
      Advances round (piecesOf item) (waits done) (reached (done ++ [item])))
    (ends : token.continues = none)
    (passes : ∀ done soFar state, reached done soFar → state.token = token →
      (round soFar).Gives state fun outcome place =>
        ∃ next, outcome = .again next ∧ waits done next ∧ place = state.advance)
    (done : List α) :
    Advances round (List.intercalate [sign token] (items.map piecesOf)) (waits done)
      (reached (done ++ items)) := by
  induction items generalizing done with
  | nil =>
      intro soFar state rest post started ahead _ further
      rw [List.append_nil] at further
      exact further soFar state (stays done soFar started) ahead
  | cons item rest inductionHypothesis =>
      have first := each done item (List.mem_cons_self ..)
      cases rest with
      | nil =>
          simpa using first
      | cons second others =>
          have later := inductionHypothesis
            (fun done other member => each done other (List.mem_cons_of_mem item member))
            (done ++ [item])
          have whole := first.separated later ends (passes (done ++ [item]))
          simpa only [List.map_cons, List.intercalate_cons_cons, List.append_assoc,
            List.cons_append, List.nil_append] using whole

end Loops

/-! ## Operands -/

variable {inner : Grammar} {pieces : List Piece} {data : Data}

/-- The parser reads the pieces as a tree that denotes the data, before any lexeme that does not go on
with an operand. -/
def Parses (parser : Parser Expr) (pieces : List Piece) (data : Data) : Prop :=
  ∀ state rest, state.pieces = pieces ++ rest → (front rest).continues = none →
    parser.Gives state fun tree after => tree.Denotes data ∧ after.pieces = rest

/-- The lexemes that data starts with. -/
def dataStarts : List Token :=
  [.number, .string, .kwTrue, .kwFalse, .kwNull, .leftBracket, .leftBrace]

theorem ends_of_continues {level : Level} {state : ParseState} {rest : List Piece}
    (ahead : state.pieces = rest) (ended : (front rest).continues = none) :
    state.token.ends level = true := by
  rw [ParseState.token_eq_front, ahead, Token.ends, ended]
  rfl

theorem parses_of_operand (level : Level) (starts : StartsIn dataStarts pieces)
    (given : ∀ state rest, state.pieces = pieces ++ rest →
      inner.operand.Gives state fun tree after => tree.Denotes data ∧ after.pieces = rest) :
    Parses (inner.parserOf level) pieces data := by
  intro state rest ahead ended
  have unsigned : ∀ token ∈ dataStarts, unaryOp? token = none := by decide
  refine gives_parserOf_of_operand (given state rest ahead) ?_
    (unsigned _ (starts.token_mem ahead))
  exact fun _ _ read => ends_of_continues read.2 ended

theorem parses_literal (level : Level) {piece : Piece} (starts : piece.token ∈ dataStarts)
    (given : ∀ state, state.token = piece.token → state.cursor.current.lit = piece.lit →
      inner.operand.Gives state fun tree after => tree.Denotes data ∧ after = state.advance) :
    Parses (inner.parserOf level) [piece] data := by
  refine parses_of_operand level ⟨piece, [], rfl, starts⟩ fun state rest ahead => ?_
  have token := ParseState.token_of_pieces ahead
  have lit := ParseState.lit_of_pieces ahead
  refine (given state token lit).mono fun tree after read => ⟨read.1, ?_⟩
  rw [read.2]
  exact ParseState.pieces_advance_of_cons ahead

theorem parses_null (level : Level) : Parses (inner.parserOf level) [sign .kwNull] .null := by
  refine parses_literal level (by decide) fun state found _ => ?_
  have isNull : state.token = .kwNull := found
  simp only [operand, literal, gives_bind, gives_token, isNull, gives_skipLexeme, gives_pure]
  exact ⟨Expr.denotes_constant _ fun _ => .null, trivial⟩

theorem parses_boolean (level : Level) (truth : Bool) :
    Parses (inner.parserOf level) (Data.boolean truth).pieces (.boolean truth) := by
  cases truth with
  | true =>
      refine parses_literal level (by decide) fun state found _ => ?_
      have isTrue : state.token = .kwTrue := found
      simp only [operand, literal, gives_bind, gives_token, isTrue, gives_skipLexeme, gives_pure]
      exact ⟨Expr.denotes_constant _ fun _ => .boolean true, trivial⟩
  | false =>
      refine parses_literal level (by decide) fun state found _ => ?_
      have isFalse : state.token = .kwFalse := found
      simp only [operand, literal, gives_bind, gives_token, isFalse, gives_skipLexeme, gives_pure]
      exact ⟨Expr.denotes_constant _ fun _ => .boolean false, trivial⟩

theorem parses_text (level : Level) (wording : Wording) :
    Parses (inner.parserOf level) (Data.text wording).pieces (.text wording) := by
  refine parses_literal level (show Token.string ∈ dataStarts by decide) fun state found lit => ?_
  have isString : state.token = .string := found
  have text : state.cursor.current.lit = wording.text := lit
  simp only [operand, literal, gives_bind, gives_token, isString, gives_current, gives_skipLexeme,
    gives_pure, text]
  exact ⟨Expr.denotes_constant _ fun _ => .text wording, trivial⟩

theorem parses_numeral (level : Level) {numeral : Numeral} {whole : Whole}
    (same : whole.value = numeral.value) :
    Parses (inner.parserOf level) [ofNumeral numeral] (.whole whole) := by
  refine parses_literal level (show Token.number ∈ dataStarts by decide) fun state found lit => ?_
  have isNumber : state.token = .number := found
  have text : state.cursor.current.lit = numeral.text := lit
  simp only [operand, number, literal, gives_bind, gives_token, isNumber, gives_current, text,
    Decimal.readLiteral_text, gives_skipLexeme, gives_pure]
  exact ⟨Expr.denotes_ofNat _ same, trivial⟩

/-- A whole number is a numeral, with a sign in front if it is negative. -/
theorem parses_whole (depth : Nat) (whole : Whole) :
    Parses (ofDepth (depth + 1)).assignment whole.pieces (.whole whole) := by
  have size : (whole.numeral.value : Int) = whole.value.natAbs := by
    rw [Whole.numeral, Numeral.value_ofNat]
  by_cases negative : whole.value < 0
  · intro state rest ahead ended
    rw [Whole.pieces, if_pos negative] at ahead
    have found : unaryOp? state.token = some .negate := by
      rw [ParseState.token_of_pieces ahead]
      rfl
    let opposite : Whole := ⟨whole.value.natAbs, by rw [Int.natAbs_natCast]; exact whole.small⟩
    have reads : Parses ((ofDepth depth).parserOf .unary) [ofNumeral whole.numeral]
        (.whole opposite) := parses_numeral .unary size.symm
    have given : (ofDepth (depth + 1)).signed.Gives state fun tree after =>
        tree.Denotes (.whole whole) ∧ after.pieces = rest := by
      simp only [signed, gives_bind, gives_token, found, gives_current, gives_advance, gives_pure]
      refine (reads _ rest (ParseState.pieces_advance_of_cons ahead) ended).mono ?_
      refine fun operand after read => ⟨Expr.denotes_negate _ read.1 ?_, read.2⟩
      show whole.value = -(whole.value.natAbs : Int)
      omega
    refine @gives_parserOf_of_rank_le _ _ .assignment .unary _ (by decide) given ?_ ?_
    · exact fun _ _ read => ends_of_continues read.2 ended
    · intro same
      cases same
  · rw [Whole.pieces, if_neg negative]
    exact parses_numeral .assignment (by omega)

/-! ## Matrices -/

theorem startsIn_whole (whole : Whole) : StartsIn [.number, .minus] whole.pieces := by
  unfold Whole.pieces
  by_cases negative : whole.value < 0
  · rw [if_pos negative]
    exact ⟨_, _, rfl, show Token.minus ∈ [Token.number, .minus] by decide⟩
  · rw [if_neg negative]
    exact ⟨_, _, rfl, show Token.number ∈ [Token.number, .minus] by decide⟩

/-- The finished rows and the current row of a matrix that is being read. -/
structure MatrixRows.Denotes (soFar : MatrixRows) (rows : List (List Whole)) (row : List Whole) :
    Prop where
  rows : List.Forall₂ (List.Forall₂ fun whole tree => tree.Denotes (.whole whole)) rows soFar.rows
  row : List.Forall₂ (fun whole tree => tree.Denotes (.whole whole)) row soFar.row

theorem MatrixRows.Denotes.concat {soFar : MatrixRows} {rows : List (List Whole)}
    {row : List Whole} (denotes : soFar.Denotes rows row) {cell : Expr} {whole : Whole}
    (cellDenotes : cell.Denotes (.whole whole)) :
    MatrixRows.Denotes { soFar with row := soFar.row ++ [cell] } rows (row ++ [whole]) :=
  ⟨denotes.rows, List.rel_append denotes.row (.cons cellDenotes .nil)⟩

theorem MatrixRows.Denotes.endRow {soFar : MatrixRows} {rows : List (List Whole)}
    {row : List Whole} (denotes : soFar.Denotes rows row) (nonempty : row ≠ []) :
    soFar.endRow.Denotes (rows ++ [row]) [] := by
  have some : soFar.row.isEmpty = false := by
    have sameLength := denotes.row.length_eq
    have positive := List.length_pos_of_ne_nil nonempty
    cases found : soFar.row with
    | nil =>
        rw [found, List.length_nil] at sameLength
        omega
    | cons cell rest => rfl
  rw [MatrixRows.endRow, some, if_neg Bool.false_ne_true]
  exact ⟨List.rel_append denotes.rows (.cons denotes.row .nil), .nil⟩

theorem MatrixRows.Denotes.endRow_of_nil {soFar : MatrixRows} {rows : List (List Whole)}
    (denotes : soFar.Denotes rows []) : soFar.endRow.Denotes rows [] := by
  have none : soFar.row = [] := by
    simpa using denotes.row
  rw [MatrixRows.endRow, none, List.isEmpty_nil, if_pos rfl]
  exact denotes

/-- A grid is read row by row, and each row number by number. -/
theorem matrix_gives_grid {grid : Grid} {state : ParseState} {rest : List Piece}
    (cells : ∀ whole : Whole, Parses inner.expr whole.pieces (.whole whole))
    (ahead : state.pieces = grid.pieces ++ rest) :
    inner.matrix.Gives state fun tree after => tree.Denotes (.matrix grid) ∧ after.pieces = rest := by
  simp only [Grid.pieces, List.cons_append, List.append_assoc, List.nil_append] at ahead
  have insideAhead := ParseState.pieces_advance_of_cons ahead
  simp only [matrix, gives_bind, gives_current, gives_advance, gives_spanFrom, gives_pure]
  refine Advances.joined (fun done soFar => MatrixRows.Denotes soFar done [])
    (fun done soFar => soFar.endRow.Denotes done []) (fun _ _ => MatrixRows.Denotes.endRow_of_nil)
    ?_ rfl ?_ [] _ state.advance _ _ ⟨.nil, .nil⟩ insideAhead rfl ?_
  · intro done row member
    have nonempty : row ≠ [] := by
      have length := grid.length_of_mem row member
      have positive := grid.cols_pos
      exact List.ne_nil_of_length_pos (by omega)
    refine (Advances.joined (fun cells soFar => MatrixRows.Denotes soFar done cells)
      (fun cells soFar => MatrixRows.Denotes soFar done cells) (fun _ _ denotes => denotes)
      ?_ rfl ?_ []).mono fun soFar denotes => denotes.endRow nonempty
    · intro found whole _
      refine advances_of_round (startsIn_whole whole) ?_
      intro soFar place later denotes starts ahead ended
      have reads := cells whole place later ahead ended
      simp only [List.mem_cons, List.not_mem_nil, or_false] at starts
      rw [gives_bind, gives_token]
      rcases starts with isStart | isStart
      all_goals
        simp only [isStart, gives_bind]
        refine reads.mono fun cell after read => ?_
        simp only [read.1.present, Bool.false_eq_true, if_false, gives_bind, gives_pure]
        exact ⟨_, rfl, denotes.concat read.1, read.2⟩
    · intro found soFar place denotes isComma
      simp only [gives_bind, gives_token, isComma, gives_advance, gives_pure]
      exact ⟨soFar, rfl, denotes, trivial⟩
  · intro done soFar place denotes isSemicolon
    simp only [gives_bind, gives_token, isSemicolon, gives_advance, gives_pure]
    exact ⟨soFar.endRow, rfl, denotes, trivial⟩
  · intro soFar place denotes closeAhead
    have isClose : place.token = .rightBracket := ParseState.token_of_pieces closeAhead
    refine loop_gives_of_round ?_
    simp only [gives_bind, gives_token, isClose, gives_advance, gives_pure]
    exact ⟨Expr.denotes_matrix _ denotes.rows, ParseState.pieces_advance_of_cons closeAhead⟩

/-! ## Objects -/

theorem startsIn_key (key : Key) (rest : List Piece) :
    StartsIn [.name, .number] (key.piece :: rest) := by
  cases key with
  | name name =>
      exact ⟨_, _, rfl, show Token.name ∈ [Token.name, Token.number] by decide⟩
  | index numeral =>
      exact ⟨_, _, rfl, show Token.number ∈ [Token.name, Token.number] by decide⟩

theorem property_gives_key {key : Key} {state : ParseState} {rest : List Piece}
    (value : Parses inner.expr pieces data)
    (ahead : state.pieces = key.piece :: sign .colon :: (pieces ++ rest))
    (ended : (front rest).continues = none) :
    inner.property.Gives state fun entry after =>
      (∃ span tree, entry = .property span key.text tree ∧ tree.Denotes data) ∧
        after.pieces = rest := by
  have colonAhead := ParseState.pieces_advance_of_cons ahead
  have isColon : state.advance.token = .colon := ParseState.token_of_pieces colonAhead
  have lit : state.cursor.current.lit = key.text := by
    rw [ParseState.lit_of_pieces ahead]
    cases key <;> rfl
  have valueAhead := ParseState.pieces_advance_of_cons colonAhead
  simp only [property, gives_bind, gives_current, gives_advance, gives_ite, gives_accept_cases,
    gives_spanFrom, gives_pure, lit]
  refine ⟨fun _ => ?_, fun other => absurd isColon other⟩
  exact (value _ rest valueAhead ended).mono fun tree after read =>
    ⟨⟨_, tree, rfl, read.1⟩, read.2⟩

/-- A map is read entry by entry. -/
theorem object_gives_map {keys : List Key} {distinct : (keys.map Key.text).Nodup}
    {value : {key // key ∈ keys} → Data} {state : ParseState} {rest : List Piece}
    (values : ∀ key, Parses inner.expr (value key).pieces (value key))
    (ahead : state.pieces = (Data.map keys distinct value).pieces ++ rest) :
    inner.object.Gives state fun tree after =>
      tree.Denotes (.map keys distinct value) ∧ after.pieces = rest := by
  simp only [Data.pieces, List.cons_append, List.append_assoc, List.nil_append] at ahead
  have insideAhead := ParseState.pieces_advance_of_cons ahead
  simp only [object, gives_bind, gives_current, gives_advance, gives_spanFrom, gives_pure]
  let holds (done : List {key // key ∈ keys}) (entries : List Entry) : Prop :=
    List.Forall₂ (fun key entry => ∃ place tree,
      entry = .property place key.1.text tree ∧ tree.Denotes (value key)) done entries
  refine Advances.joined holds holds (fun _ _ held => held) ?_ rfl ?_ [] _ state.advance _ _ .nil
    insideAhead rfl ?_
  · intro done key _
    refine advances_of_round (startsIn_key key.1 _) ?_
    intro entries place later held isStart keyAhead ended
    have reads := property_gives_key (values key) keyAhead ended
    simp only [List.mem_cons, List.not_mem_nil, or_false] at isStart
    rw [gives_bind, gives_token]
    rcases isStart with isStart | isStart
    all_goals
      simp only [isStart, gives_bind, gives_pure]
      refine reads.mono fun entry after read => ?_
      exact ⟨_, rfl, List.rel_append held (.cons read.1 .nil), read.2⟩
  · intro done entries place held isComma
    simp only [gives_bind, gives_token, isComma, gives_advance, gives_pure]
    exact ⟨entries, rfl, held, trivial⟩
  · intro entries place held closeAhead
    have isClose : place.token = .rightBrace := ParseState.token_of_pieces closeAhead
    refine loop_gives_of_round ?_
    simp only [gives_bind, gives_token, isClose, gives_advance, gives_pure]
    exact ⟨Expr.denotes_object _ distinct held, ParseState.pieces_advance_of_cons closeAhead⟩

/-! ## Data -/

theorem length_le_length_intercalate {α : Type} {separator list : List α} {lists : List (List α)}
    (member : list ∈ lists) : list.length ≤ (List.intercalate separator lists).length := by
  induction lists with
  | nil =>
      cases member
  | cons first rest inductionHypothesis =>
      cases rest with
      | nil =>
          rw [List.mem_singleton.mp member, List.intercalate_singleton]
      | cons second others =>
          rw [List.intercalate_cons_cons, List.length_append, List.length_append]
          rcases List.mem_cons.mp member with rfl | later
          · omega
          · have bounded := inductionHypothesis later
            omega

/-- Data is read by a grammar that is as deep as the data has pieces. -/
theorem parses_data (data : Data) (depth : Nat) (light : data.pieces.length ≤ depth) :
    Parses (ofDepth depth).assignment data.pieces data := by
  induction data generalizing depth with
  | null => exact parses_null .assignment
  | boolean truth => exact parses_boolean .assignment truth
  | whole whole =>
      obtain ⟨first, others, same, -⟩ := startsIn_whole whole
      rw [Data.pieces, same, List.length_cons] at light
      obtain ⟨more, rfl⟩ := Nat.exists_eq_add_of_le' (by omega : 1 ≤ depth)
      exact parses_whole more whole
  | text wording => exact parses_text .assignment wording
  | matrix grid =>
      simp only [Data.pieces, Grid.pieces, List.length_cons, List.length_append] at light
      obtain ⟨more, rfl⟩ := Nat.exists_eq_add_of_le' (by omega : 2 ≤ depth)
      refine parses_of_operand .assignment ⟨_, _, rfl, by decide⟩ fun state rest ahead => ?_
      have isMatrix : state.token = .leftBracket := ParseState.token_of_pieces ahead
      simp only [operand, gives_bind, gives_token, isMatrix]
      exact matrix_gives_grid (parses_whole more) ahead
  | map keys distinct value inductionHypothesis =>
      have lighter (key : {key // key ∈ keys}) : (value key).pieces.length < depth := by
        have member : key.1.piece :: sign .colon :: (value key).pieces ∈ keys.attach.map fun key =>
            key.1.piece :: sign .colon :: (value key).pieces :=
          List.mem_map_of_mem (List.mem_attach keys key)
        have bounded := @length_le_length_intercalate _ [sign .comma] _ _ member
        simp only [Data.pieces, List.length_cons, List.length_append] at light bounded
        omega
      simp only [Data.pieces, List.length_cons, List.length_append] at light
      obtain ⟨more, rfl⟩ := Nat.exists_eq_add_of_le' (by omega : 1 ≤ depth)
      refine parses_of_operand .assignment ⟨_, _, rfl, by decide⟩ fun state rest ahead => ?_
      have isObject : state.token = .leftBrace := ParseState.token_of_pieces ahead
      simp only [operand, gives_bind, gives_token, isObject]
      refine object_gives_map (fun key => ?_) ahead
      exact inductionHypothesis key more (Nat.le_of_lt_succ (lighter key))

theorem startsIn_data (data : Data) : StartsIn (.minus :: dataStarts) data.pieces := by
  cases data with
  | null => exact ⟨_, _, rfl, by decide⟩
  | boolean truth =>
      cases truth
      · exact ⟨_, _, rfl, by decide⟩
      · exact ⟨_, _, rfl, by decide⟩
  | whole whole =>
      obtain ⟨piece, rest, same, member⟩ := startsIn_whole whole
      have allowed : ∀ token ∈ [Token.number, .minus], token ∈ .minus :: dataStarts := by decide
      exact ⟨piece, rest, same, allowed piece.token member⟩
  | text wording => exact ⟨_, _, rfl, show Token.string ∈ _ by decide⟩
  | matrix grid => exact ⟨_, _, rfl, by decide⟩
  | map keys distinct value => exact ⟨_, _, rfl, by decide⟩

end Grammar

/-- The text of data is parsed to a tree that denotes the data. -/
theorem Data.denotes_parseExpression {data : Data} {text : String}
    (chars : text.toList = data.chars) (source : Nat) :
    (parseExpression source text).Denotes data := by
  have legible : Legible text.toList data.pieces := chars ▸ data.legible
  have ahead := legible.pieces_start { source }
  have light := ParseState.length_pieces_start_le (Lexeme.scanText text) { source }
  rw [ahead] at light
  have wholeAhead : (ParseState.start (Lexeme.scanText text) { source }).pieces =
      data.pieces ++ [] := by
    rw [ahead, List.append_nil]
  have reads := Grammar.parses_data data _ (Nat.le_succ_of_le light) _ [] wholeAhead rfl
  have first := (Grammar.startsIn_data data).token_ne wholeAhead (by decide : Token.semicolon ∉ _)
  obtain ⟨tree, after, ran, denotes⟩ := Grammar.entire_gives_of_assignment first reads
  have attempted : Parsed.attempt Grammar.entire source (Lexeme.scanText text) =
      some (tree, after) := ran
  rw [parseExpression, Parsed.expression, Parsed.run, attempted]
  exact denotes

end Reckon
