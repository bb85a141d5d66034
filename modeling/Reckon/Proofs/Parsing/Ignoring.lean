import Reckon.Proofs.Parsing.Ensures

/-!
# What a parser does not look at

A parser looks at the lexemes that it reads and at the one where it stops, and at one more where a name
or a keyword has to follow.  So it does not notice a semicolon that stands further on: it gives the same
tree, and stops at the same lexeme.

How much further on it has to be depends on the parser, and on what it gives.  One that ends by reading a
closing sign does not look at anything behind it; most others stop at a lexeme that tells them to.
-/

namespace Reckon

/-- A semicolon that is put among the lexemes of a source, before so many of them. -/
structure Gap where
  /-- The semicolon. -/
  filler : Lexeme
  /-- It is one. -/
  isSemicolon : filler.token = .semicolon
  /-- The number of lexemes behind it. -/
  behind : Nat
  /-- The source goes on behind it. -/
  goesOn : 0 < behind

instance : Inhabited Gap where
  default := ⟨{ Lexeme.endOfSource {} with token := .semicolon }, rfl, 1, Nat.one_pos⟩

/-! ## Lexemes with a gap -/

namespace Gap

variable (gap : Gap)

/-- The lexemes with the semicolon before the last ones. -/
def fill (lexemes : List Lexeme) : List Lexeme :=
  lexemes.take (lexemes.length - gap.behind) ++
    gap.filler :: lexemes.drop (lexemes.length - gap.behind)

theorem fill_cons (first : Lexeme) {rest : List Lexeme} (before : gap.behind ≤ rest.length) :
    gap.fill (first :: rest) = first :: gap.fill rest := by
  have front : rest.length + 1 - gap.behind = rest.length - gap.behind + 1 := by omega
  rw [fill, List.length_cons, front, List.take_succ_cons, List.drop_succ_cons, List.cons_append, fill]

theorem fill_of_length_eq {lexemes : List Lexeme} (here : lexemes.length = gap.behind) :
    gap.fill lexemes = gap.filler :: lexemes := by
  rw [fill, here, Nat.sub_self]
  rfl

theorem fill_append (front : List Lexeme) {lexemes : List Lexeme} (here : lexemes.length = gap.behind) :
    gap.fill (front ++ lexemes) = front ++ gap.filler :: lexemes := by
  rw [fill, List.length_append, here, Nat.add_sub_cancel, List.take_left' rfl, List.drop_left' rfl]

theorem length_fill (lexemes : List Lexeme) : (gap.fill lexemes).length = lexemes.length + 1 := by
  simp only [fill, List.length_append, List.length_take, List.length_cons, List.length_drop]
  omega

theorem token_ne_eof_of_mem_fill {lexemes : List Lexeme}
    (more : ∀ lexeme ∈ lexemes, lexeme.token ≠ .eof) : ∀ lexeme ∈ gap.fill lexemes,
      lexeme.token ≠ .eof := by
  intro lexeme member
  rcases List.mem_append.mp member with before | later
  · exact more lexeme (List.mem_of_mem_take before)
  · rcases List.mem_cons.mp later with rfl | behind
    · simp [gap.isSemicolon]
    · exact more lexeme (List.mem_of_mem_drop behind)

end Gap

namespace Cursor

variable {gap : Gap} {cursor : Cursor}

/-- The cursor with the semicolon of a gap before the last lexemes. -/
def insert (gap : Gap) (cursor : Cursor) : Cursor where
  ahead := gap.fill cursor.ahead
  final := cursor.final
  ahead_ne_eof := gap.token_ne_eof_of_mem_fill cursor.ahead_ne_eof
  final_eq_eof := cursor.final_eq_eof

@[simp]
theorem ahead_insert (gap : Gap) (cursor : Cursor) :
    (cursor.insert gap).ahead = gap.fill cursor.ahead :=
  rfl

theorem remaining_advance (cursor : Cursor) : cursor.advance.remaining = cursor.remaining - 1 :=
  List.length_tail

@[simp]
theorem remaining_insert (gap : Gap) (cursor : Cursor) :
    (cursor.insert gap).remaining = cursor.remaining + 1 :=
  gap.length_fill cursor.ahead

theorem ahead_insert_of_lt (before : gap.behind < cursor.remaining) :
    (cursor.insert gap).ahead = cursor.current :: gap.fill cursor.advance.ahead := by
  obtain ⟨first, rest, ahead⟩ := List.exists_cons_of_length_pos (Nat.zero_lt_of_lt before)
  have length : cursor.remaining = rest.length + 1 := congrArg List.length ahead
  rw [ahead_insert, ahead_advance, current, ahead, gap.fill_cons first (by omega)]
  rfl

theorem current_insert (before : gap.behind < cursor.remaining) :
    (cursor.insert gap).current = cursor.current := by
  rw [current, ahead_insert_of_lt before]
  rfl

theorem advance_insert (before : gap.behind < cursor.remaining) :
    (cursor.insert gap).advance = cursor.advance.insert gap := by
  refine Cursor.ext ?_ rfl
  rw [ahead_advance, ahead_insert_of_lt before]
  rfl

theorem current_insert_of_eq (here : cursor.remaining = gap.behind) :
    (cursor.insert gap).current = gap.filler := by
  rw [current, ahead_insert, gap.fill_of_length_eq here]
  rfl

theorem advance_insert_of_eq (here : cursor.remaining = gap.behind) :
    (cursor.insert gap).advance = cursor := by
  refine Cursor.ext ?_ rfl
  rw [ahead_advance, ahead_insert, gap.fill_of_length_eq here]
  rfl

theorem peek_insert (before : gap.behind + 1 < cursor.remaining) :
    (cursor.insert gap).peek = cursor.peek := by
  have next : gap.behind < cursor.advance.remaining := by
    rw [remaining_advance]
    omega
  rw [peek, advance_insert (Nat.lt_of_succ_lt before), current_insert next, peek]

theorem peek_insert_of_eq (last : cursor.remaining = gap.behind + 1) :
    (cursor.insert gap).peek = gap.filler := by
  have next : cursor.advance.remaining = gap.behind := by
    rw [remaining_advance, last, Nat.add_sub_cancel]
  rw [peek, advance_insert (last ▸ Nat.lt_succ_self _), current_insert_of_eq next]

end Cursor

namespace ParseState

variable {gap : Gap} {state : ParseState}

/-- The state with the semicolon of a gap before the last lexemes. -/
def insert (gap : Gap) (state : ParseState) : ParseState :=
  { state with cursor := state.cursor.insert gap }

theorem token_insert (before : gap.behind < state.cursor.remaining) :
    (state.insert gap).token = state.token :=
  congrArg Lexeme.token (Cursor.current_insert before)

theorem advance_insert (before : gap.behind < state.cursor.remaining) :
    (state.insert gap).advance = state.advance.insert gap := by
  simp only [advance, insert, Cursor.advance_insert before, Cursor.current_insert before]

end ParseState

/-! ## Parsers -/

namespace Parser

variable {α β σ : Type} {gap : Gap} {pre : Nat} {post : α → Nat} {next : β → Nat}
  {first second firstElse secondElse : Parser α}

/-- The second parser does what the first one does, and a semicolon behind what is read makes no
difference to it: it may stand `post` lexemes behind the place where the parser stops, and then it stands
at least `pre` lexemes behind the place where it starts. -/
structure IgnoresUpTo (gap : Gap) (pre : Nat) (post : α → Nat) (first second : Parser α) : Prop where
  /-- Without the semicolon. -/
  same : ∀ {state found}, first state = some found → second state = some found
  /-- With the semicolon. -/
  across : ∀ {state result after}, first state = some (result, after) →
    gap.behind + post result ≤ after.cursor.remaining →
    gap.behind + pre ≤ state.cursor.remaining ∧
      second (state.insert gap) = some (result, after.insert gap)

/-- Most parsers stop at a lexeme that they look at and do not read. -/
abbrev Ignores (gap : Gap) (first second : Parser α) : Prop :=
  IgnoresUpTo gap 1 (fun _ => 1) first second

theorem IgnoresUpTo.mono {less : Nat} {more : α → Nat}
    (ignores : IgnoresUpTo gap pre post first second) (start : less ≤ pre)
    (stop : ∀ result, post result ≤ more result) : IgnoresUpTo gap less more first second where
  same := ignores.same
  across {state result after} ran before := by
    have enough := Nat.add_le_add_left (stop result) gap.behind
    obtain ⟨further, carried⟩ := ignores.across ran (Nat.le_trans enough before)
    exact ⟨Nat.le_trans (Nat.add_le_add_left start _) further, carried⟩

theorem ignoresUpTo_pure {value : α} (enough : pre ≤ post value) :
    IgnoresUpTo gap pre post (pure value) (pure value) where
  same := id
  across := by
    rintro state result after ⟨⟩ before
    exact ⟨Nat.le_trans (Nat.add_le_add_left enough _) before, rfl⟩

theorem ignores_pure (value : α) : Ignores gap (pure value) (pure value) :=
  ignoresUpTo_pure (Nat.le_refl 1)

theorem ignores_failure : IgnoresUpTo gap pre post failure second :=
  ⟨nofun, nofun⟩

theorem ignores_bind {firstRest secondRest : α → Parser β}
    (head : IgnoresUpTo gap pre post first second)
    (rest : ∀ value, IgnoresUpTo gap (post value) next (firstRest value) (secondRest value)) :
    IgnoresUpTo gap pre next (first >>= firstRest) (second >>= secondRest) where
  same {state found} ran := by
    change (first state).bind (fun found => firstRest found.1 found.2) = _ at ran
    change (second state).bind (fun found => secondRest found.1 found.2) = _
    obtain ⟨middle, headRan, restRan⟩ := Option.bind_eq_some_iff.mp ran
    rw [head.same headRan]
    exact (rest _).same restRan
  across {state result after} ran before := by
    change (first state).bind (fun found => firstRest found.1 found.2) = _ at ran
    change _ ∧ (second (state.insert gap)).bind (fun found => secondRest found.1 found.2) = _
    obtain ⟨middle, headRan, restRan⟩ := Option.bind_eq_some_iff.mp ran
    obtain ⟨between, restCarried⟩ := (rest middle.1).across restRan before
    obtain ⟨further, headCarried⟩ := head.across headRan between
    rw [headCarried]
    exact ⟨further, restCarried⟩

theorem ignores_map {change : α → β} (ignores : Ignores gap first second) :
    Ignores gap (change <$> first) (change <$> second) := by
  rw [map_eq_pure_bind, map_eq_pure_bind]
  exact ignores_bind ignores fun _ => ignores_pure _

theorem ignores_ite {condition : Prop} [Decidable condition]
    (whenTrue : condition → IgnoresUpTo gap pre post first second)
    (whenFalse : ¬condition → IgnoresUpTo gap pre post firstElse secondElse) :
    IgnoresUpTo gap pre post (if condition then first else firstElse)
      (if condition then second else secondElse) := by
  split
  · next found => exact whenTrue found
  · next other => exact whenFalse other

/-! ### Elementary parsers -/

/-- What only looks at the current lexeme, or at none. -/
theorem ignores_of_stays (value : ParseState → α) {enough : Nat}
    (stays : ∀ state, first state = some (value state, state))
    (unseen : ∀ state, gap.behind + enough ≤ state.cursor.remaining →
      value (state.insert gap) = value state) :
    IgnoresUpTo gap enough (fun _ => enough) first first where
  same := id
  across {state result after} ran before := by
    rw [stays] at ran
    cases ran
    rw [stays, unseen state before]
    exact ⟨before, rfl⟩

theorem ignoresUpTo_current {enough : Nat} (some : 0 < enough) :
    IgnoresUpTo gap enough (fun _ => enough) current current :=
  ignores_of_stays (·.cursor.current) (fun _ => rfl) fun _ before =>
    Cursor.current_insert (by omega)

theorem ignoresUpTo_token {enough : Nat} (some : 0 < enough) :
    IgnoresUpTo gap enough (fun _ => enough) token token :=
  ignores_of_stays ParseState.token (fun _ => rfl) fun _ before =>
    ParseState.token_insert (by omega)

theorem ignores_current : Ignores gap current current :=
  ignoresUpTo_current Nat.one_pos

theorem ignores_token : Ignores gap token token :=
  ignoresUpTo_token Nat.one_pos

theorem ignores_here : Ignores gap here here :=
  ignores_bind ignores_current fun _ => ignores_pure _

theorem ignores_missing (defect : Defect) : Ignores gap (missing defect) (missing defect) :=
  ignores_bind ignores_here fun _ => ignores_pure _

theorem ignoresUpTo_spanFrom (enough : Nat) (start : Position) :
    IgnoresUpTo gap enough (fun _ => enough) (spanFrom start) (spanFrom start) :=
  ignores_of_stays (fun state => ⟨start, state.previous⟩) (fun _ => rfl) fun _ _ => rfl

theorem ignores_spanFrom (start : Position) : Ignores gap (spanFrom start) (spanFrom start) :=
  ignoresUpTo_spanFrom 1 start

theorem ignores_findFrame (name : String) : Ignores gap (findFrame name) (findFrame name) :=
  ignores_of_stays (fun state => state.scope.find? name) (fun _ => rfl) fun _ _ => rfl

theorem ignores_currentFrame : Ignores gap currentFrame currentFrame :=
  ignores_of_stays (fun state => state.scope.current) (fun _ => rfl) fun _ _ => rfl

/-- What only changes the scopes. -/
theorem ignores_of_scope (value : ParseState → α) (scope : ParseState → Scope)
    (changes : ∀ state, first state = some (value state, { state with scope := scope state }))
    (unseen : ∀ state : ParseState, value (state.insert gap) = value state ∧
      scope (state.insert gap) = scope state) : Ignores gap first first where
  same := id
  across {state result after} ran before := by
    rw [changes] at ran
    cases ran
    rw [changes, (unseen state).1, (unseen state).2]
    exact ⟨before, rfl⟩

theorem ignores_pushFrame : Ignores gap pushFrame pushFrame :=
  ignores_of_scope (fun state => state.scope.push.1) (fun state => state.scope.push.2) (fun _ => rfl)
    fun _ => ⟨rfl, rfl⟩

theorem ignores_popFrame : Ignores gap popFrame popFrame :=
  ignores_of_scope (fun _ => ⟨⟩) (fun state => state.scope.pop.2) (fun _ => rfl) fun _ => ⟨rfl, rfl⟩

theorem ignores_declare (declaration : Variable) :
    Ignores gap (declare declaration) (declare declaration) :=
  ignores_of_scope (fun _ => ⟨⟩)
    (fun state => state.scope.declare declaration.name declaration) (fun _ => rfl) fun _ => ⟨rfl, rfl⟩

theorem ignores_declareAll (params : List Variable) :
    Ignores gap (params.forM declare) (params.forM declare) := by
  induction params with
  | nil => exact ignores_pure _
  | cons param rest inductionHypothesis =>
      exact ignores_bind (ignores_declare param) fun _ => inductionHypothesis

/-- What is read is in front of the semicolon. -/
theorem ignoresUpTo_advance (enough : Nat) :
    IgnoresUpTo gap (enough + 1) (fun _ => enough) advance advance where
  same := id
  across {state result after} ran before := by
    have some := gap.goesOn
    cases ran
    change gap.behind + enough ≤ state.cursor.advance.remaining at before
    rw [Cursor.remaining_advance] at before
    have further : gap.behind < state.cursor.remaining := by omega
    refine ⟨by omega, ?_⟩
    rw [← ParseState.advance_insert further]
    rfl

theorem ignores_advance : Ignores gap advance advance :=
  (ignoresUpTo_advance 1).mono (Nat.le_succ 1) fun _ => Nat.le_refl 1

/-- Nothing is looked at behind a lexeme that was expected. -/
theorem ignoresUpTo_accept (expected : Token) :
    IgnoresUpTo gap 1 (fun accepted => if accepted then 0 else 1) (accept expected)
      (accept expected) := by
  refine ignores_bind ignores_token fun found => ignores_ite (fun _ => ?_) fun _ => ?_
  · exact ignores_bind (ignoresUpTo_advance 0) fun _ => ignoresUpTo_pure (Nat.le_refl 0)
  · exact ignoresUpTo_pure (Nat.le_refl 1)

theorem ignores_accept (expected : Token) : Ignores gap (accept expected) (accept expected) :=
  (ignoresUpTo_accept expected).mono (Nat.le_refl 1) fun accepted => by cases accepted <;> decide

theorem ignoresUpTo_skipLexeme (enough : Nat) :
    IgnoresUpTo gap (enough + 1) (fun _ => enough) skipLexeme skipLexeme :=
  ignores_bind (ignoresUpTo_current (Nat.succ_pos enough)) fun _ =>
    ignores_bind (ignoresUpTo_advance enough) fun _ => ignoresUpTo_pure (Nat.le_refl enough)

theorem ignores_skipLexeme : Ignores gap skipLexeme skipLexeme :=
  (ignoresUpTo_skipLexeme 1).mono (Nat.le_succ 1) fun _ => Nat.le_refl 1

theorem ignores_bad (defect : Defect) : Ignores gap (bad defect) (bad defect) :=
  ignores_bind ignores_skipLexeme fun _ => ignores_pure _

/-! ### Looking ahead -/

/-- A test of the lexeme after the current one.  If it is found, it is read, so the semicolon stands
behind it; and if the semicolon stands there, the lexeme is not found with it either. -/
theorem ignores_peek {expected : Token} (other : expected ≠ .semicolon)
    (whenTrue : IgnoresUpTo gap 2 post first second)
    (whenFalse : IgnoresUpTo gap 1 post firstElse secondElse) :
    IgnoresUpTo gap 1 post
      (peekToken >>= fun found => if found = expected then first else firstElse)
      (peekToken >>= fun found => if found = expected then second else secondElse) where
  same {state found} ran := by
    change (if state.cursor.peek.token = expected then first else firstElse) state = _ at ran
    change (if state.cursor.peek.token = expected then second else secondElse) state = _
    split at ran
    · next isNext => rw [if_pos isNext, whenTrue.same ran]
    · next notNext => rw [if_neg notNext, whenFalse.same ran]
  across {state result after} ran before := by
    change (if state.cursor.peek.token = expected then first else firstElse) state = _ at ran
    change _ ∧ (if (state.cursor.insert gap).peek.token = expected then second else secondElse)
      (state.insert gap) = _
    split at ran
    · next isNext =>
      obtain ⟨further, carried⟩ := whenTrue.across ran before
      rw [Cursor.peek_insert further, if_pos isNext]
      exact ⟨Nat.le_of_succ_le further, carried⟩
    · next notNext =>
      obtain ⟨further, carried⟩ := whenFalse.across ran before
      have notNext' : (state.cursor.insert gap).peek.token ≠ expected := by
        rcases Nat.eq_or_lt_of_le further with last | more
        · rw [Cursor.peek_insert_of_eq last.symm, gap.isSemicolon]
          exact other.symm
        · rwa [Cursor.peek_insert more]
      rw [if_neg notNext']
      exact ⟨further, carried⟩

/-- A test of two lexemes. -/
theorem ignores_followed (here : Token) {expected : Token} (other : expected ≠ .semicolon)
    (whenTrue : IgnoresUpTo gap 2 post first second)
    (whenFalse : IgnoresUpTo gap 1 post firstElse secondElse) :
    IgnoresUpTo gap 1 post
      (token >>= fun found => peekToken >>= fun following =>
        if found = here ∧ following = expected then first else firstElse)
      (token >>= fun found => peekToken >>= fun following =>
        if found = here ∧ following = expected then second else secondElse) := by
  refine ignores_bind ignores_token fun found => ?_
  by_cases isHere : found = here
  · simp only [isHere, true_and]
    exact ignores_peek other whenTrue whenFalse
  · simp only [isHere, false_and, if_false]
    exact whenFalse

/-- A test whether a parser has read anything. -/
theorem ignores_measured {head secondHead : Parser σ} {idle busy secondIdle secondBusy : σ → Parser α}
    (ignores : Ignores gap head secondHead)
    (whenIdle : ∀ value, IgnoresUpTo gap 1 post (idle value) (secondIdle value))
    (whenBusy : ∀ value, IgnoresUpTo gap 1 post (busy value) (secondBusy value)) :
    IgnoresUpTo gap 1 post
      (remaining >>= fun before => head >>= fun value => remaining >>= fun left =>
        if left = before then idle value else busy value)
      (remaining >>= fun before => secondHead >>= fun value => remaining >>= fun left =>
        if left = before then secondIdle value else secondBusy value) := by
  have rest (state middle : ParseState) (value : σ) : IgnoresUpTo gap 1 post
      (if middle.cursor.remaining = state.cursor.remaining then idle value else busy value)
      (if middle.cursor.remaining = state.cursor.remaining then secondIdle value
        else secondBusy value) :=
    ignores_ite (fun _ => whenIdle value) fun _ => whenBusy value
  refine ⟨fun {state found} ran => ?_, fun {state result after} ran before => ?_⟩
  · change (head state).bind (fun found => (if found.2.cursor.remaining = state.cursor.remaining
      then idle found.1 else busy found.1) found.2) = _ at ran
    change (secondHead state).bind (fun found => (if found.2.cursor.remaining = state.cursor.remaining
      then secondIdle found.1 else secondBusy found.1) found.2) = _
    obtain ⟨middle, headRan, restRan⟩ := Option.bind_eq_some_iff.mp ran
    rw [ignores.same headRan]
    exact (rest state middle.2 middle.1).same restRan
  · change (head state).bind (fun found => (if found.2.cursor.remaining = state.cursor.remaining
      then idle found.1 else busy found.1) found.2) = _ at ran
    change _ ∧ (secondHead (state.insert gap)).bind (fun found =>
      (if found.2.cursor.remaining = (state.cursor.insert gap).remaining
        then secondIdle found.1 else secondBusy found.1) found.2) = _
    obtain ⟨middle, headRan, restRan⟩ := Option.bind_eq_some_iff.mp ran
    obtain ⟨between, restCarried⟩ := (rest state middle.2 middle.1).across restRan before
    obtain ⟨further, headCarried⟩ := ignores.across headRan between
    rw [headCarried]
    refine ⟨further, ?_⟩
    change (if (middle.2.cursor.insert gap).remaining = (state.cursor.insert gap).remaining
      then secondIdle middle.1 else secondBusy middle.1) (middle.2.insert gap) = _
    simpa only [Cursor.remaining_insert, Nat.succ_inj] using restCarried

/-! ### Loops and lists -/

/-- How far behind the end of a round the semicolon may stand. -/
def Round.lookahead (pre : Nat) (post : β → Nat) : Round σ β → Nat
  | .again _ => pre
  | .done result => post result

theorem ignoresUpTo_repeatRound {firstRound secondRound : σ → Parser (Round σ α)}
    (round : ∀ soFar, IgnoresUpTo gap pre (Round.lookahead pre post) (firstRound soFar)
      (secondRound soFar)) {small large : Nat} (le : small ≤ large) (soFar : σ) :
    IgnoresUpTo gap pre post (repeatRound firstRound small soFar)
      (repeatRound secondRound large soFar) := by
  induction small generalizing large soFar with
  | zero => exact ignores_failure
  | succ small inductionHypothesis =>
      obtain ⟨large, rfl⟩ := Nat.exists_eq_succ_of_ne_zero (Nat.ne_zero_of_lt le)
      refine ignores_bind (round soFar) fun outcome => ?_
      cases outcome with
      | again further => exact inductionHypothesis (Nat.le_of_succ_le_succ le) further
      | done result => exact ignoresUpTo_pure (Nat.le_refl _)

theorem ignoresUpTo_loop {firstRound secondRound : σ → Parser (Round σ α)}
    (round : ∀ soFar, IgnoresUpTo gap pre (Round.lookahead pre post) (firstRound soFar)
      (secondRound soFar)) (start : σ) :
    IgnoresUpTo gap pre post (loop firstRound start) (loop secondRound start) where
  same ran := (ignoresUpTo_repeatRound round (Nat.le_refl _) start).same ran
  across {state result after} ran before := by
    have longer : state.cursor.remaining + 1 ≤ (state.insert gap).cursor.remaining + 1 := by
      rw [ParseState.insert, Cursor.remaining_insert]
      exact Nat.le_succ _
    exact (ignoresUpTo_repeatRound round longer start).across ran before

/-- A loop whose rounds all stop at a lexeme that they look at. -/
theorem ignores_loop {firstRound secondRound : σ → Parser (Round σ α)}
    (round : ∀ soFar, Ignores gap (firstRound soFar) (secondRound soFar)) (start : σ) :
    Ignores gap (loop firstRound start) (loop secondRound start) :=
  ignoresUpTo_loop (fun soFar => (round soFar).mono (Nat.le_refl 1) fun outcome => by
    cases outcome <;> exact Nat.le_refl 1) start

theorem ignores_mapM {firstEach secondEach : σ → Parser α}
    (each : ∀ item, Ignores gap (firstEach item) (secondEach item)) (items : List σ) :
    Ignores gap (items.mapM firstEach) (items.mapM secondEach) := by
  induction items with
  | nil => exact ignores_pure _
  | cons item rest inductionHypothesis =>
      rw [List.mapM_cons, List.mapM_cons]
      refine ignores_bind (each item) fun _ => ignores_bind inductionHypothesis fun _ => ?_
      exact ignores_pure _

end Parser

end Reckon
