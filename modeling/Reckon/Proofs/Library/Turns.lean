import Reckon.Proofs.Library.Arrays

/-!
# Turns

A function that goes through a collection calls another one on each element in turn.  It fails when a turn
fails, with the same failure and on the machine that the turn left, so that no later element has a turn.  A
function that looks for a truth value ends with the first element that has it.
-/

namespace Reckon

namespace Eval

variable {α β γ : Type} {machine after : Machine} {failure : Failure}

/-! ## One action after another -/

theorem bind_fails_iff {action : Eval α} {next : α → Eval β} :
    (action >>= next).run machine = .error failure after ↔
      action.run machine = .error failure after ∨ ∃ result between,
        action.run machine = .ok result between ∧ (next result).run between = .error failure after := by
  rw [EStateM.run_bind]
  rcases action.run machine with ⟨result, between⟩ | ⟨first, between⟩ <;> simp

theorem bind_succeeds_iff {action : Eval α} {next : α → Eval β} {result : β} :
    (action >>= next).run machine = .ok result after ↔ ∃ middle between,
      action.run machine = .ok middle between ∧ (next middle).run between = .ok result after := by
  rw [EStateM.run_bind]
  rcases action.run machine with ⟨middle, between⟩ | ⟨first, between⟩ <;> simp

theorem run_store_bind {next : Store → Eval α} :
    (do next (← Eval.store)).run machine = (next machine.store).run machine :=
  rfl

/-- What cannot fail does not matter for whether something fails. -/
theorem bind_fails_iff_of_succeeds {action : Eval α} {next : α → Eval β}
    (succeeds : ∀ result between, ∃ final last, (next result).run between = .ok final last) :
    (action >>= next).run machine = .error failure after ↔ action.run machine = .error failure after := by
  rw [bind_fails_iff, or_iff_left]
  rintro ⟨result, between, -, fails⟩
  obtain ⟨final, last, ran⟩ := succeeds result between
  rw [ran] at fails
  cases fails

theorem bind_return_fails_iff {action : Eval α} {value : α → β} :
    (do return value (← action)).run machine = .error failure after ↔
      action.run machine = .error failure after :=
  bind_fails_iff_of_succeeds fun result between => ⟨value result, between, rfl⟩

/-- Of actions that are done in turn, one fails, and those before it do not. -/
def FirstFailure (turns : List (Eval α)) (machine : Machine) (failure : Failure) (after : Machine) :
    Prop :=
  ∃ before turn later results between, turns = before ++ turn :: later ∧
    (before.mapM id).run machine = .ok results between ∧ turn.run between = .error failure after

theorem not_firstFailure_nil : ¬FirstFailure ([] : List (Eval α)) machine failure after := by
  rintro ⟨before, turn, later, -, -, parts, -⟩
  exact absurd parts.symm (by simp)

theorem firstFailure_cons {turn : Eval α} {later : List (Eval α)} :
    FirstFailure (turn :: later) machine failure after ↔
      turn.run machine = .error failure after ∨ ∃ result between,
        turn.run machine = .ok result between ∧ FirstFailure later between failure after := by
  constructor
  · rintro ⟨before, failing, rest, results, between, parts, succeed, fails⟩
    rcases before with _ | ⟨first, before⟩
    · obtain ⟨rfl, rfl⟩ := List.cons.inj parts
      cases succeed
      exact .inl fails
    · obtain ⟨rfl, rfl⟩ := List.cons.inj parts
      rw [List.mapM_cons, bind_succeeds_iff] at succeed
      obtain ⟨result, middle, ran, others⟩ := succeed
      rw [bind_succeeds_iff] at others
      obtain ⟨otherResults, last, others, returned⟩ := others
      cases returned
      exact .inr ⟨result, middle, ran, before, failing, rest, otherResults, between, rfl, others, fails⟩
  · rintro (fails | ⟨result, middle, ran, before, failing, rest, results, between, rfl, succeed, fails⟩)
    · exact ⟨[], turn, later, [], machine, rfl, rfl, fails⟩
    · refine ⟨turn :: before, failing, rest, result :: results, between, rfl, ?_, fails⟩
      rw [List.mapM_cons, bind_succeeds_iff]
      refine ⟨result, middle, ran, ?_⟩
      rw [bind_succeeds_iff]
      exact ⟨results, between, succeed, rfl⟩

theorem mapM_fails_iff (action : α → Eval β) (items : List α) :
    (items.mapM action).run machine = .error failure after ↔
      FirstFailure (items.map action) machine failure after := by
  induction items generalizing machine with
  | nil => exact iff_of_false (fun fails => nomatch fails) not_firstFailure_nil
  | cons first rest inductionHypothesis =>
      rw [List.mapM_cons, List.map_cons, firstFailure_cons, bind_fails_iff]
      refine or_congr_right (exists_congr fun result => exists_congr fun between => ?_)
      rw [bind_return_fails_iff, inductionHypothesis]

/-- An action without its result. -/
def moves (action : Eval α) : Eval Unit := do
  let _ ← action

theorem moves_succeeds_iff {action : Eval α} :
    (moves action).run machine = .ok () after ↔ ∃ result, action.run machine = .ok result after := by
  rw [moves, bind_succeeds_iff]
  constructor
  · rintro ⟨result, between, ran, done⟩
    cases done
    exact ⟨result, ran⟩
  · rintro ⟨result, ran⟩
    exact ⟨result, after, ran, rfl⟩

theorem moves_fails_iff {action : Eval α} :
    (moves action).run machine = .error failure after ↔ action.run machine = .error failure after :=
  bind_fails_iff_of_succeeds fun _ between => ⟨(), between, rfl⟩

/-- What the turns give does not matter for which of them fails. -/
theorem firstFailure_moves (turns : List (Eval α)) :
    FirstFailure (turns.map moves) machine failure after ↔ FirstFailure turns machine failure after := by
  induction turns generalizing machine with
  | nil => exact iff_of_false not_firstFailure_nil not_firstFailure_nil
  | cons first rest inductionHypothesis =>
      rw [List.map_cons, firstFailure_cons, firstFailure_cons, moves_fails_iff]
      refine or_congr_right ⟨?_, ?_⟩
      · rintro ⟨⟨⟩, between, moved, fails⟩
        obtain ⟨result, ran⟩ := moves_succeeds_iff.mp moved
        exact ⟨result, between, ran, inductionHypothesis.mp fails⟩
      · rintro ⟨result, between, ran, fails⟩
        exact ⟨(), between, moves_succeeds_iff.mpr ⟨result, ran⟩, inductionHypothesis.mpr fails⟩

theorem firstFailure_map_congr {action : γ → Eval α} {other : γ → Eval β}
    (same : ∀ item, moves (action item) = moves (other item)) (items : List γ) :
    FirstFailure (items.map action) machine failure after ↔
      FirstFailure (items.map other) machine failure after := by
  rw [← firstFailure_moves, ← firstFailure_moves (items.map other), List.map_map, List.map_map]
  simp only [Function.comp_def, same]

theorem moves_bind_return (action : Eval α) (value : α → β) :
    moves (do return value (← action)) = moves action := by
  simp [moves]

/-- Looking at the truth of a result changes nothing. -/
theorem moves_bind_isTruthy (action : Eval Value) :
    moves (do isTruthy (← action)) = moves action := by
  simp only [moves, isTruthy, Eval.store, bind_assoc, pure_bind]
  funext machine
  change EStateM.run _ machine = EStateM.run _ machine
  rw [EStateM.run_bind, EStateM.run_bind]
  rcases action.run machine with ⟨result, between⟩ | ⟨first, between⟩
  · rfl
  · rfl

end Eval

namespace Library

open Eval

variable {machine after : Machine} {failure : Failure} {call : Caller} {f p initial source : Value}

/-! ## The turns of a collection -/

/-- The calls that a function makes for the elements of a collection.  The element of a map is read when its
turn comes, by a key that the map had at the start. -/
def turns (call : Caller) (f : Value) (store : Store) : Value → List (Eval Value)
  | .matrix matrix => matrix.values.map fun cell => call f [cell]
  | .map ref => (store.record ref).keys.map fun key => do
    call f [((← Eval.store).record ref).get? key |>.getD .null]
  | value => [call f [value]]

/-- Going through a map fails as its turns do, if these make the same calls. -/
theorem forEntries_fails_iff {α : Type} {ref : MapRef} {action : String → Value → Eval α}
    (calls : ∀ key value, moves (action key value) = moves (call f [value])) :
    (forEntries ref action).run machine = .error failure after ↔
      FirstFailure (turns call f machine.store (.map ref)) machine failure after := by
  have start : (forEntries ref action).run machine = ((machine.store.record ref).keys.mapM fun key => do
      action key (((← Eval.store).record ref).get? key |>.getD .null)).run machine := rfl
  rw [start, mapM_fails_iff]
  refine firstFailure_map_congr (fun key => ?_) _
  have inTurn {β : Type} (action : Value → Eval β) :
      moves (do action (((← Eval.store).record ref).get? key |>.getD .null)) = (do
        moves (action (((← Eval.store).record ref).get? key |>.getD .null))) := by
    simp [moves]
  rw [inTurn (action key), inTurn fun value => call f [value]]
  simp only [calls]

theorem filterM_eq {α : Type} (keep : α → Eval Bool) (items : List α) :
    items.filterM keep = (do
      let truths ← items.mapM keep
      return (items.zip truths).filterMap fun pair => if pair.2 then some pair.1 else none) := by
  have onto (kept : List α) : items.filterAuxM keep kept = (do
      let truths ← items.mapM keep
      return ((items.zip truths).filterMap fun pair =>
        if pair.2 then some pair.1 else none).reverse ++ kept) := by
    induction items generalizing kept with
    | nil => simp [List.filterAuxM]
    | cons first rest inductionHypothesis =>
        simp only [List.filterAuxM, List.mapM_cons, inductionHypothesis, bind_assoc, pure_bind]
        congr 1
        funext truth
        cases truth <;> simp
  rw [List.filterM, onto]
  simp

theorem newMap_succeeds (record : Record) (machine : Machine) :
    ∃ result after, (newMap record).run machine = .ok result after :=
  ⟨_, _, rfl⟩

theorem newArray_succeeds (values : List Value) (machine : Machine) :
    ∃ result after, (Eval.newArray values).run machine = .ok result after :=
  newMap_succeeds (.ofList values) machine

theorem map_fails_iff (elements : (machine.store.elements? source).isSome = true) :
    (run call .map [f, source]).run machine = .error failure after ↔
      FirstFailure (turns call f machine.store source) machine failure after := by
  have unfolded : run call .map [f, source] = mapEach call f source := rfl
  rw [unfolded]
  cases source with
  | matrix matrix =>
      rw [mapEach, bind_fails_iff_of_succeeds, mapM_fails_iff]
      · rfl
      · intro results between
        cases Matrix.ofValues? matrix.rows matrix.cols results with
        | some result => exact ⟨_, _, rfl⟩
        | none => exact newArray_succeeds results between
  | map ref =>
      rw [mapEach, bind_fails_iff_of_succeeds fun entries => newMap_succeeds _]
      exact forEntries_fails_iff fun key value => moves_bind_return _ _
  | _ => cases elements

/-- The entries that were judged true: an array of their values, or a map with their keys. -/
def gather (array : Bool) (judged : List (String × Value × Bool)) : Eval Value :=
  let entries := judged.filterMap fun entry => if entry.2.2 then some (entry.1, entry.2.1) else none
  if array then Eval.newArray (entries.map Prod.snd) else newMap (.ofEntries entries)

theorem gather_succeeds (array : Bool) (judged : List (String × Value × Bool)) (machine : Machine) :
    ∃ result after, (gather array judged).run machine = .ok result after := by
  rw [gather]
  cases array
  · exact newMap_succeeds _ machine
  · exact newArray_succeeds _ machine

theorem run_filter_map (ref : MapRef) : (filter call p (.map ref)).run machine =
    (do gather (machine.store.record ref).isArray (← judge call p ref)).run machine :=
  rfl

theorem filter_fails_iff (elements : (machine.store.elements? source).isSome = true) :
    (run call .filter [p, source]).run machine = .error failure after ↔
      FirstFailure (turns call p machine.store source) machine failure after := by
  have unfolded : run call .filter [p, source] = filter call p source := rfl
  rw [unfolded]
  cases source with
  | matrix matrix =>
      rw [filter, bind_return_fails_iff, filterM_eq, bind_return_fails_iff, mapM_fails_iff]
      exact firstFailure_map_congr (fun cell => moves_bind_isTruthy _) _
  | map ref =>
      rw [run_filter_map, bind_fails_iff_of_succeeds fun judged => gather_succeeds _ judged]
      refine forEntries_fails_iff fun key value => ?_
      have judged := moves_bind_return (do isTruthy (← call p [value])) fun truth => (key, value, truth)
      rw [bind_assoc] at judged
      exact judged.trans (moves_bind_isTruthy _)
  | _ => cases elements

/-! ## Folding -/

theorem foldlM_fails_iff {α : Type} (step : Value → α → Eval Value) (items : List α) (initial : Value) :
    (items.foldlM step initial).run machine = .error failure after ↔
      ∃ before item later middle between, items = before ++ item :: later ∧
        (before.foldlM step initial).run machine = .ok middle between ∧
        (step middle item).run between = .error failure after := by
  induction items generalizing machine initial with
  | nil =>
      refine iff_of_false (fun fails => nomatch fails) ?_
      rintro ⟨before, item, later, -, -, parts, -⟩
      exact absurd parts.symm (by simp)
  | cons first rest inductionHypothesis =>
      rw [List.foldlM_cons, bind_fails_iff]
      constructor
      · rintro (fails | ⟨result, between, ran, fails⟩)
        · exact ⟨[], first, rest, initial, machine, rfl, rfl, fails⟩
        · obtain ⟨before, item, later, middle, last, rfl, folded, fails⟩ :=
            (inductionHypothesis result).mp fails
          refine ⟨first :: before, item, later, middle, last, rfl, ?_, fails⟩
          rw [List.foldlM_cons, bind_succeeds_iff]
          exact ⟨result, between, ran, folded⟩
      · rintro ⟨before, item, later, middle, last, parts, folded, fails⟩
        rcases before with _ | ⟨head, before⟩
        · obtain ⟨rfl, rfl⟩ := List.cons.inj parts
          cases folded
          exact .inl fails
        · obtain ⟨rfl, rfl⟩ := List.cons.inj parts
          rw [List.foldlM_cons, bind_succeeds_iff] at folded
          obtain ⟨result, between, ran, folded⟩ := folded
          exact .inr ⟨result, between, ran,
            (inductionHypothesis result).mpr ⟨before, item, later, middle, last, rfl, folded, fails⟩⟩

theorem run_reduce {elements : List Value} (found : machine.store.elements? source = some elements) :
    (run call .reduce [f, initial, source]).run machine =
      (elements.foldlM (fun acc element => call f [acc, element]) initial).run machine := by
  have unfolded : run call .reduce [f, initial, source] = reduce call f initial source := rfl
  rw [unfolded, reduce, run_store_bind, found]

/-! ## Looking for a truth value -/

/-- What a predicate says of elements, each at its turn. -/
def judgements (call : Caller) (p : Value) (elements : List Value) : Eval (List Bool) :=
  elements.mapM fun element => do isTruthy (← call p [element])

/-- A predicate was asked about elements, and none had the wanted truth value. -/
def PassesOver (call : Caller) (p : Value) (wanted : Bool) (elements : List Value)
    (machine after : Machine) : Prop :=
  ∃ truths, (judgements call p elements).run machine = .ok truths after ∧ ∀ truth ∈ truths, truth ≠ wanted

theorem passesOver_nil {wanted : Bool} : PassesOver call p wanted [] machine after ↔ machine = after := by
  constructor
  · rintro ⟨truths, ran, -⟩
    cases ran
    rfl
  · rintro rfl
    exact ⟨[], rfl, by simp⟩

section Looking

variable {wanted : Bool} {element : Value} {rest elements : List Value}
  {outcome : EStateM.Result Failure Machine Value → Prop}

theorem judged_succeeds_iff {truth : Bool} :
    (do isTruthy (← call p [element])).run machine = .ok truth after ↔ ∃ result,
      (call p [element]).run machine = .ok result after ∧ after.store.isTruthy result = truth := by
  rw [bind_succeeds_iff]
  constructor
  · rintro ⟨result, between, ran, said⟩
    cases said
    exact ⟨result, ran, rfl⟩
  · rintro ⟨result, ran, rfl⟩
    exact ⟨result, after, ran, rfl⟩

theorem passesOver_cons :
    PassesOver call p wanted (element :: rest) machine after ↔ ∃ result between,
      (call p [element]).run machine = .ok result between ∧ between.store.isTruthy result ≠ wanted ∧
        PassesOver call p wanted rest between after := by
  constructor
  · rintro ⟨truths, ran, unwanted⟩
    rw [judgements, List.mapM_cons, bind_succeeds_iff] at ran
    obtain ⟨truth, between, said, gone⟩ := ran
    obtain ⟨others, last, listed, returned⟩ := bind_succeeds_iff.mp gone
    cases returned
    obtain ⟨result, ran, rfl⟩ := judged_succeeds_iff.mp said
    rw [List.forall_mem_cons] at unwanted
    exact ⟨result, between, ran, unwanted.1, others, listed, unwanted.2⟩
  · rintro ⟨result, between, ran, unwanted, truths, others, allUnwanted⟩
    refine ⟨between.store.isTruthy result :: truths, ?_, List.forall_mem_cons.mpr ⟨unwanted, allUnwanted⟩⟩
    rw [judgements, List.mapM_cons, bind_succeeds_iff]
    refine ⟨_, between, judged_succeeds_iff.mpr ⟨result, ran, rfl⟩, ?_⟩
    exact bind_succeeds_iff.mpr ⟨truths, after, others, rfl⟩

/-- A predicate was asked about an element, with such an outcome, after elements that it passed over. -/
def Arrives (call : Caller) (p : Value) (wanted : Bool) (elements : List Value) (machine : Machine)
    (outcome : EStateM.Result Failure Machine Value → Prop) : Prop :=
  ∃ before element later between, elements = before ++ element :: later ∧
    PassesOver call p wanted before machine between ∧ outcome ((call p [element]).run between)

theorem not_arrives_nil : ¬Arrives call p wanted [] machine outcome := by
  rintro ⟨before, element, later, -, parts, -⟩
  exact absurd parts.symm (by simp)

theorem arrives_cons :
    Arrives call p wanted (element :: rest) machine outcome ↔
      outcome ((call p [element]).run machine) ∨ ∃ result between,
        (call p [element]).run machine = .ok result between ∧ between.store.isTruthy result ≠ wanted ∧
          Arrives call p wanted rest between outcome := by
  constructor
  · rintro ⟨before, last, later, between, parts, passed, asked⟩
    rcases before with _ | ⟨first, before⟩
    · obtain ⟨rfl, rfl⟩ := List.cons.inj parts
      cases passesOver_nil.mp passed
      exact .inl asked
    · obtain ⟨rfl, rfl⟩ := List.cons.inj parts
      obtain ⟨result, middle, ran, unwanted, passed⟩ := passesOver_cons.mp passed
      exact .inr ⟨result, middle, ran, unwanted, before, last, later, between, rfl, passed, asked⟩
  · rintro (asked | ⟨result, middle, ran, unwanted, before, last, later, between, rfl, passed, asked⟩)
    · exact ⟨[], element, rest, machine, rfl, passesOver_nil.mpr rfl, asked⟩
    · exact ⟨element :: before, last, later, between, rfl,
        passesOver_cons.mpr ⟨result, middle, ran, unwanted, passed⟩, asked⟩

/-- How looking for a truth value goes on after the first element. -/
theorem run_decidedBy_cons :
    (decidedBy call p wanted (element :: rest)).run machine =
      match (call p [element]).run machine with
      | .ok result between =>
          if between.store.isTruthy result = wanted then .ok true between
          else (decidedBy call p wanted rest).run between
      | .error failure between => .error failure between := by
  rw [decidedBy, EStateM.run_bind]
  rcases (call p [element]).run machine with ⟨result, between⟩ | ⟨failure, between⟩
  · have said : (isTruthy result).run between = .ok (between.store.isTruthy result) between := rfl
    dsimp only
    rw [EStateM.run_bind, said]
    by_cases decided : between.store.isTruthy result = wanted
    · simp [decided]
    · simp [decided]
  · rfl

theorem decidedBy_fails_iff :
    (decidedBy call p wanted elements).run machine = .error failure after ↔
      Arrives call p wanted elements machine (· = .error failure after) := by
  induction elements generalizing machine with
  | nil => exact iff_of_false (fun fails => nomatch fails) not_arrives_nil
  | cons element rest inductionHypothesis =>
      rw [run_decidedBy_cons, arrives_cons]
      rcases (call p [element]).run machine with ⟨result, between⟩ | ⟨first, between⟩
      · by_cases decided : between.store.isTruthy result = wanted
        · simp [decided]
        · simp [decided, inductionHypothesis]
      · simp

/-- Something was found: a predicate had the wanted truth value on an element. -/
theorem decidedBy_finds_iff :
    (decidedBy call p wanted elements).run machine = .ok true after ↔
      Arrives call p wanted elements machine fun outcome => ∃ result,
        outcome = .ok result after ∧ after.store.isTruthy result = wanted := by
  induction elements generalizing machine with
  | nil => exact iff_of_false (fun found => nomatch found) not_arrives_nil
  | cons element rest inductionHypothesis =>
      rw [run_decidedBy_cons, arrives_cons]
      rcases (call p [element]).run machine with ⟨result, between⟩ | ⟨first, between⟩
      · by_cases decided : between.store.isTruthy result = wanted
        · dsimp only
          rw [if_pos decided]
          constructor
          · intro found
            cases found
            exact .inl ⟨result, rfl, decided⟩
          · rintro (⟨_, same, _⟩ | ⟨_, _, same, unwanted, _⟩)
            · cases same
              rfl
            · cases same
              exact absurd decided unwanted
        · dsimp only
          rw [if_neg decided, inductionHypothesis]
          constructor
          · exact fun later => .inr ⟨result, between, rfl, decided, later⟩
          · rintro (⟨_, same, found⟩ | ⟨_, _, same, _, later⟩)
            · cases same
              exact absurd found decided
            · cases same
              exact later
      · simp

theorem decidedBy_misses_iff :
    (decidedBy call p wanted elements).run machine = .ok false after ↔
      PassesOver call p wanted elements machine after := by
  induction elements generalizing machine with
  | nil =>
      rw [passesOver_nil]
      constructor
      · intro missed
        cases missed
        rfl
      · rintro rfl
        rfl
  | cons element rest inductionHypothesis =>
      rw [run_decidedBy_cons, passesOver_cons]
      rcases (call p [element]).run machine with ⟨result, between⟩ | ⟨first, between⟩
      · by_cases decided : between.store.isTruthy result = wanted
        · simp [decided]
        · simp [decided, inductionHypothesis]
      · simp

/-- The function that looks for true, or that looks for false. -/
def quantifier : Bool → Builtin
  | true => .anyOf
  | false => .allOf

theorem run_quantifier (found : machine.store.elements? source = some elements) :
    (run call (quantifier wanted) [p, source]).run machine =
      (do return Value.boolean ((← decidedBy call p wanted elements) == wanted)).run machine := by
  have listed : (elementsOf source).run machine = .ok elements machine := by
    have start : (elementsOf source).run machine =
        .ok ((machine.store.elements? source).getD [source]) machine := rfl
    rw [start, found, Option.getD_some]
  cases wanted with
  | true =>
      have unfolded : run call (quantifier true) [p, source] = anyOf call p source := rfl
      rw [unfolded, anyOf, EStateM.run_bind, listed]
      simp
  | false =>
      have unfolded : run call (quantifier false) [p, source] = allOf call p source := rfl
      rw [unfolded, allOf, EStateM.run_bind, listed]
      simp

theorem quantifier_fails_iff (found : machine.store.elements? source = some elements) :
    (run call (quantifier wanted) [p, source]).run machine = .error failure after ↔
      Arrives call p wanted elements machine (· = .error failure after) := by
  rw [run_quantifier found, ← decidedBy_fails_iff]
  exact bind_return_fails_iff

theorem quantifier_answers_iff (found : machine.store.elements? source = some elements) {result : Value} :
    (run call (quantifier wanted) [p, source]).run machine = .ok result after ↔
      result = .boolean wanted ∧ Arrives call p wanted elements machine (fun outcome => ∃ said,
        outcome = .ok said after ∧ after.store.isTruthy said = wanted) ∨
      result = .boolean (!wanted) ∧ PassesOver call p wanted elements machine after := by
  rw [run_quantifier found, ← decidedBy_finds_iff, ← decidedBy_misses_iff, bind_succeeds_iff]
  constructor
  · rintro ⟨truth, between, decided, returned⟩
    cases returned
    cases truth with
    | true => exact .inl ⟨by simp, decided⟩
    | false => exact .inr ⟨by simp, decided⟩
  · rintro (⟨rfl, decided⟩ | ⟨rfl, decided⟩)
    · refine ⟨true, after, decided, ?_⟩
      cases wanted <;> rfl
    · refine ⟨false, after, decided, ?_⟩
      cases wanted <;> rfl

end Looking

/-! ## All functions that take turns -/

/-- The functions that call another one on the elements fail with the first call that fails, unless they
look for a truth value and an earlier element has it. -/
structure StopsAtFailure (call : Caller) (f source : Value) (elements : List Value) (machine : Machine) :
    Prop where
  map (failure : Failure) (after : Machine) :
    (run call .map [f, source]).run machine = .error failure after ↔
      FirstFailure (turns call f machine.store source) machine failure after
  filter (failure : Failure) (after : Machine) :
    (run call .filter [f, source]).run machine = .error failure after ↔
      FirstFailure (turns call f machine.store source) machine failure after
  reduce (initial : Value) (failure : Failure) (after : Machine) :
    (run call .reduce [f, initial, source]).run machine = .error failure after ↔
      ∃ before element later acc between, elements = before ++ element :: later ∧
        (before.foldlM (fun acc element => call f [acc, element]) initial).run machine = .ok acc between ∧
        (call f [acc, element]).run between = .error failure after
  looks (wanted : Bool) (failure : Failure) (after : Machine) :
    (run call (quantifier wanted) [f, source]).run machine = .error failure after ↔
      Arrives call f wanted elements machine (· = .error failure after)
  answers (wanted : Bool) (result : Value) (after : Machine) :
    (run call (quantifier wanted) [f, source]).run machine = .ok result after ↔
      result = .boolean wanted ∧ Arrives call f wanted elements machine (fun outcome => ∃ said,
        outcome = .ok said after ∧ after.store.isTruthy said = wanted) ∨
      result = .boolean (!wanted) ∧ PassesOver call f wanted elements machine after

theorem stopsAtFailure {elements : List Value} (found : machine.store.elements? source = some elements) :
    StopsAtFailure call f source elements machine where
  map _ _ := map_fails_iff (Option.isSome_of_eq_some found)
  filter _ _ := filter_fails_iff (Option.isSome_of_eq_some found)
  reduce initial _ _ := by
    rw [run_reduce found]
    exact foldlM_fails_iff _ elements initial
  looks _ _ _ := quantifier_fails_iff found
  answers _ _ _ := quantifier_answers_iff found

end Library

end Reckon
