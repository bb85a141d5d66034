import Reckon.Proofs.Library.Carrying
import Reckon.Proofs.Session.Insertion

/-!
# Runs carry an insertion along

When functions are put into the store of a machine, a run from it does what it did before: it gives what
it gave, moved past the functions, and leaves the machine that it left, with the functions put in.  For
trees this goes by recursion on the tree, with one case for each construct; for the application of
functions it goes by induction on the depth of calls.
-/

namespace Reckon

namespace Eval

variable {inserted : Insertion} {α : Type} {change : α → α}

/-! ## Built-in functions -/

section Library

open Library

variable {call callFirst : Caller}

/-- A range is a matrix or null. -/
theorem range_fixed {first step bound result : Value}
    (ranged : Operator.range first step bound = .ok result) : result.past inserted = result := by
  unfold Operator.range Operator.Progression.row at ranged
  split at ranged
  · cases ranged
    rfl
  · dsimp only at ranged
    split at ranged
    · cases ranged
      rfl
    · split at ranged
      · cases ranged
        rfl
      · split at ranged
        · cases ranged
        · cases ranged
          rfl

theorem range_past (first step bound : Value) :
    Operator.range (first.past inserted) (step.past inserted) (bound.past inserted) =
      Operator.range first step bound := by
  have steps : Operator.Progression.ofValues? (first.past inserted) (step.past inserted)
      (bound.past inserted) = Operator.Progression.ofValues? first step bound := by
    unfold Operator.Progression.ofValues?
    rw [Value.asReal?_past, Value.asReal?_past]
    cases step <;> rfl
  rw [Operator.range, steps, Operator.range]

theorem carries_range (first step bound : Value) :
    Carries inserted (Value.past inserted)
      (orCrash (Operator.range (first.past inserted) (step.past inserted) (bound.past inserted)))
      (orCrash (Operator.range first step bound)) := by
  rw [range_past]
  exact carries_orCrash fun result ranged => range_fixed ranged

theorem carries_formatNumber (locale value : Value) :
    Carries inserted (Value.past inserted)
      (match formatNumber (locale.past inserted) (value.past inserted) with
        | .ok text => pure text
        | .error fault => throw (.host fault))
      (match formatNumber locale value with
        | .ok text => pure text
        | .error fault => throw (.host fault)) := by
  cases locale with
  | string name =>
      rw [Value.past_string, formatNumber, formatNumber, Value.asReal?_past]
      cases Locale.Tag.parse name with
      | error error => exact carries_throw (.host _)
      | ok tag => cases value.asReal? <;> exact carries_fixed rfl
  | _ => exact carries_fixed rfl

theorem carries_forEntries (change : α → α) {first second : String → Value → Eval α}
    (ref : MapRef) (carried : ∀ key value,
      Carries inserted change (first key (value.past inserted)) (second key value)) :
    Carries inserted (List.map change) (forEntries ref first) (forEntries ref second) := by
  refine carries_store fun store _ => ?_
  rw [store.record_past, Record.keys_past]
  refine (carrying inserted).mapM_unchanged change (fun key => ?_) _
  refine carries_store fun later _ => ?_
  rw [later.record_past, Record.get?_past]
  cases (later.record ref).get? key with
  | none => exact carried key .null
  | some value => exact carried key value

variable (carried : ∀ callee args, Carries inserted (Value.past inserted)
  (callFirst (callee.past inserted) (args.map (Value.past inserted))) (call callee args))

include carried

theorem carries_mapEach (f collection : Value) :
    Carries inserted (Value.past inserted)
      (mapEach callFirst (f.past inserted) (collection.past inserted)) (mapEach call f collection) := by
  cases collection with
  | matrix matrix =>
      have called (cell : Value) : Carries inserted (Value.past inserted)
          (callFirst (f.past inserted) [cell.past inserted]) (call f [cell]) := carried f [cell]
      have cells : Carries inserted (List.map (Value.past inserted))
          ((matrix.values.map (Value.past inserted)).mapM fun cell => callFirst (f.past inserted) [cell])
          (matrix.values.mapM fun cell => call f [cell]) :=
        (carrying inserted).mapM (Value.past inserted) called matrix.values
      rw [Matrix.map_past_values] at cells
      refine cells.bind fun results => ?_
      rw [Matrix.ofValues?_past]
      cases Matrix.ofValues? matrix.rows matrix.cols results with
      | none => exact carries_newArray results
      | some result => exact carries_fixed rfl
  | map ref =>
      refine Carries.bind (carries_forEntries (Prod.map id (Value.past inserted)) ref
        fun key value => ?_) fun entries => ?_
      · refine (carried f [value]).bind fun result => ?_
        exact carries_pure (Prod.map id (Value.past inserted)) (key, result)
      · exact carries_ofEntries entries
  | _ => exact carried f [_]

theorem carries_reduce (f initial collection : Value) :
    Carries inserted (Value.past inserted)
      (reduce callFirst (f.past inserted) (initial.past inserted) (collection.past inserted))
      (reduce call f initial collection) := by
  refine carries_store fun store _ => ?_
  rw [store.elements?_past]
  cases store.elements? collection with
  | none => exact carried f [initial, collection]
  | some elements =>
      refine (carrying inserted).foldlM ?_ elements initial
      exact fun soFar element => carried f [soFar, element]

theorem carries_decidedBy (predicate : Value) (wanted : Bool) (elements : List Value) :
    Carries inserted id
      (decidedBy callFirst (predicate.past inserted) wanted (elements.map (Value.past inserted)))
      (decidedBy call predicate wanted elements) := by
  induction elements with
  | nil => exact carries_pure id false
  | cons element rest inductionHypothesis =>
      refine (carried predicate [element]).bind fun result =>
        (carries_isTruthy result).bind fun passed => ?_
      exact carries_ite (fun _ => carries_pure id true) fun _ => inductionHypothesis

omit carried in
/-- The elements that passed a test have moved as the elements have. -/
theorem passed_past (judgements : List (String × Value × Bool)) :
    (judgements.map (Prod.map id (Prod.map (Value.past inserted) id))).filterMap
        (fun (key, value, keep) => if keep then some (key, value) else none) =
      (judgements.filterMap fun (key, value, keep) => if keep then some (key, value) else none).map
        (Prod.map id (Value.past inserted)) := by
  rw [List.filterMap_map, List.map_filterMap]
  congr 1
  funext judgement
  rcases judgement with ⟨key, value, keep⟩
  cases keep <;> rfl

omit carried in
theorem carries_collected (isArray : Bool) (entries : List (String × Value)) :
    Carries inserted (Value.past inserted)
      (if isArray then newArray ((entries.map (Prod.map id (Value.past inserted))).map Prod.snd)
        else newMap (.ofEntries (entries.map (Prod.map id (Value.past inserted)))))
      (if isArray then newArray (entries.map Prod.snd) else newMap (.ofEntries entries)) := by
  refine carries_ite (fun _ => ?_) fun _ => carries_ofEntries entries
  have made : Carries inserted (Value.past inserted) _ _ := carries_newArray (entries.map Prod.snd)
  rw [List.map_map] at made ⊢
  exact made

theorem carries_filter (predicate collection : Value) :
    Carries inserted (Value.past inserted)
      (Library.filter callFirst (predicate.past inserted) (collection.past inserted))
      (Library.filter call predicate collection) := by
  have judged (value : Value) : Carries inserted id
      (do isTruthy (← callFirst (predicate.past inserted) [value.past inserted]))
      (do isTruthy (← call predicate [value])) :=
    (carried predicate [value]).bind carries_isTruthy
  have single : Carries inserted (Value.past inserted)
      (do
        if ← isTruthy (← callFirst (predicate.past inserted) [collection.past inserted]) then
          return collection.past inserted
        else return .null)
      (do if ← isTruthy (← call predicate [collection]) then return collection else return .null) :=
    (carried predicate [collection]).bind fun result => (carries_isTruthy result).bind fun keep =>
      carries_ite (fun _ => carries_pure _ collection) fun _ => carries_fixed rfl
  cases collection with
  | matrix matrix =>
      have kept : Carries inserted (List.map (Value.past inserted))
          ((matrix.values.map (Value.past inserted)).filterM fun cell => do
            isTruthy (← callFirst (predicate.past inserted) [cell]))
          (matrix.values.filterM fun cell => do isTruthy (← call predicate [cell])) :=
        (carrying inserted).filterM judged matrix.values
      rw [Matrix.map_past_values] at kept
      refine kept.bind fun cells => ?_
      rw [Matrix.rowVector?_past]
      exact carries_fixed (Matrix.past_orNull _)
  | map ref =>
      refine carries_store fun store _ => ?_
      refine Carries.bind (carries_forEntries
        (Prod.map id (Prod.map (Value.past inserted) id)) ref fun key value => ?_) fun judgements => ?_
      · refine (carried predicate [value]).bind fun result => (carries_isTruthy result).bind fun keep => ?_
        exact carries_pure (Prod.map id (Prod.map (Value.past inserted) id)) (key, value, keep)
      · rw [store.record_past, Record.isArray_past]
        dsimp only
        rw [passed_past]
        exact carries_collected _ _
  | _ => exact single

omit carried in
theorem carries_elementsOf (value : Value) :
    Carries inserted (List.map (Value.past inserted)) (elementsOf (value.past inserted))
      (elementsOf value) :=
  carries_store fun store _ => by
    rw [store.elements?_past]
    cases store.elements? value with
    | none => exact carries_pure (List.map (Value.past inserted)) [value]
    | some elements => exact carries_pure _ elements

omit carried in
theorem caught_past (store : Store) (failure : Failure) :
    caught (store.past inserted) (failure.past inserted) = (caught store failure).past inserted := by
  cases failure <;> rfl

omit carried in
theorem isCatchable_past (failure : Failure) :
    isCatchable (failure.past inserted) = isCatchable failure := by
  cases failure <;> rfl

theorem carries_rescue (f : Value) :
    Carries inserted (Value.past inserted) (rescue callFirst (f.past inserted)) (rescue call f) := by
  have report (value error : Value) : Carries inserted (Value.past inserted)
      (newMap (.ofEntries [("value", value.past inserted), ("error", error.past inserted)]))
      (newMap (.ofEntries [("value", value), ("error", error)])) :=
    carries_ofEntries [("value", value), ("error", error)]
  -- A handler is no sequence of actions, so the two ways the call can end are compared by themselves.
  intro machine fits
  have called : Carries inserted (Value.past inserted) (callFirst (f.past inserted) []) (call f []) :=
    carried f []
  obtain ⟨same, later⟩ := called machine fits
  cases ran : (call f []).run machine with
  | ok value after =>
      rw [ran] at same later
      have made := report value .null after later
      constructor
      · rw [Regime.run_rescue, Regime.run_rescue, same, ran]
        exact made.same
      · rw [Regime.run_rescue, ran]
        exact made.fits
  | error failure after =>
      rw [ran] at same later
      have told : caught (after.past inserted).store (failure.past inserted) = _ :=
        caught_past after.store failure
      by_cases catchable : isCatchable failure = true
      · have made := report .null (caught after.store failure) after later
        constructor
        · rw [Regime.run_rescue, Regime.run_rescue, same, ran]
          simp only [pastResult, isCatchable_past, told, if_pos catchable]
          exact made.same
        · rw [Regime.run_rescue, ran]
          simp only [if_pos catchable]
          exact made.fits
      · constructor
        · rw [Regime.run_rescue, Regime.run_rescue, same, ran]
          simp only [pastResult, isCatchable_past, if_neg catchable]
        · rw [Regime.run_rescue, ran]
          simp only [if_neg catchable]
          exact later

omit carried in
theorem carries_sleep (value : Value) :
    Carries inserted (Value.past inserted) (sleep (value.past inserted)) (sleep value) := by
  rw [sleep, sleep, Value.asReal?_past]
  cases value.asReal? with
  | none => exact carries_fixed rfl
  | some time =>
      exact carries_ite (fun _ => carries_fixed rfl) fun _ =>
        carries_newFuture (.running none (.ok value))

omit carried in
theorem carries_resolve (value : Value) :
    Carries inserted (Value.past inserted) (resolve (value.past inserted)) (resolve value) := by
  have made : Carries inserted (Value.past inserted) _ _ := carries_newFuture (.done (.ok value))
  cases value with
  | future ref => exact carries_fixed rfl
  | _ => exact made

omit carried in
theorem carries_keys (value : Value) :
    Carries inserted (Value.past inserted) (keys (value.past inserted)) (keys value) := by
  cases value with
  | map ref =>
      refine carries_store fun store _ => ?_
      rw [store.record_past, Record.keys_past]
      have made : Carries inserted (Value.past inserted) _ _ :=
        carries_newArray ((store.record ref).keys.map .string)
      rw [List.map_map] at made
      exact made
  | matrix matrix =>
      refine carries_ite (fun _ => carries_fixed rfl) fun _ => carries_orCrash fun result ranged => ?_
      exact range_fixed ranged
  | _ => exact carries_newArray []

omit carried in
theorem carries_computed (function : Builtin) (args : List Value) :
    Carries inserted (Value.past inserted)
      (match pure? function (args.map (Value.past inserted)) with
        | some action => follow action
        | none => pure .null)
      (match pure? function args with
        | some action => follow action
        | none => pure .null) := by
  have related : Option.Rel (FollowM.Carries inserted (Value.past inserted)) _ _ :=
    carries_pure? function args
  generalize pure? function (args.map (Value.past inserted)) = first at related ⊢
  generalize pure? function args = second at related ⊢
  cases related with
  | none => exact carries_fixed rfl
  | some carried => exact carries_follow carried

theorem carries_libraryRun (function : Builtin) (args : List Value) :
    Carries inserted (Value.past inserted)
      (Library.run callFirst function (args.map (Value.past inserted)))
      (Library.run call function args) := by
  have computed : Carries inserted (Value.past inserted) _ _ := carries_computed function args
  unfold Library.run
  simp only [getD_past]
  generalize args.getD 0 .null = x
  generalize args.getD 1 .null = y
  generalize args.getD 2 .null = z
  cases function with
  | map => exact carries_mapEach carried x y
  | reduce => exact carries_reduce carried x y z
  | filter => exact carries_filter carried x y
  | anyOf =>
      exact (carries_elementsOf y).bind fun elements =>
        (carries_decidedBy carried x true elements).bind fun found => carries_fixed rfl
  | allOf =>
      exact (carries_elementsOf y).bind fun elements =>
        (carries_decidedBy carried x false elements).bind fun found => carries_fixed rfl
  | raise => exact carries_throw (.exception { value := x })
  | rescue => exact carries_rescue carried x
  | sleep => exact carries_sleep x
  | resolve => exact carries_resolve x
  | range =>
      dsimp only
      rw [Library.range, getD_past, getD_past, getD_past]
      exact carries_range _ _ _
  | keys => exact carries_keys x
  | formatNumber => exact carries_formatNumber x y
  | _ => exact computed

end Library

/-! ## Calls -/

section Trees

variable {apply : Applier}

/-- A way to apply functions that carries an insertion along. -/
def CarriesCalls (inserted : Insertion) (apply : Applier) : Prop :=
  ∀ ref args, Carries inserted (Value.past inserted)
    (apply (ref.past inserted) (args.map (Value.past inserted))) (apply ref args)

theorem index?_past (args : List Value) :
    (args.map (Value.past inserted)).map index? = args.map index? := by
  rw [List.map_map]
  refine List.map_congr_left fun value _ => ?_
  rw [Function.comp_apply, index?, index?, Value.asReal?_past]

theorem carries_indexed (matrix : Matrix) (args : List Value) :
    Carries inserted (Value.past inserted)
      (orCrash (indexMatrix matrix (args.map (Value.past inserted))))
      (orCrash (indexMatrix matrix args)) := by
  rw [indexMatrix, index?_past, ← indexMatrix]
  refine carries_orCrash fun value indexed => ?_
  have plain (cell : Option Number) : (cellOrNull cell).past inserted = cellOrNull cell := by
    cases cell <;> rfl
  unfold indexMatrix at indexed
  split at indexed
  · cases indexed
    exact plain _
  · next row col _ =>
    cases read : matrix.at? row col with
    | error crash =>
        rw [read] at indexed
        cases indexed
    | ok cell =>
        rw [read] at indexed
        cases indexed
        exact plain cell
  · cases indexed
    rfl

theorem carries_call (applies : CarriesCalls inserted apply) (callee : Value) (args : List Value) :
    Carries inserted (Value.past inserted)
      (call apply (callee.past inserted) (args.map (Value.past inserted))) (call apply callee args) := by
  refine carries_checkCancelled.bind fun _ => ?_
  cases callee with
  | function ref =>
      refine carries_store fun store fits => ?_
      rw [store.function_past fits]
      exact (applies ref args).mapFailure fun failure => failure.past_calling _
  | matrix matrix => exact carries_indexed matrix args
  | map ref =>
      match args with
      | [key] =>
          refine carries_store fun store _ => (carries_textOf key).bind fun text => ?_
          rw [store.record_past, Record.get?_past, id_eq]
          cases (store.record ref).get? text with
          | none => exact carries_fixed rfl
          | some value => exact carries_pure _ value
      | [] | _ :: _ :: _ => exact carries_fixed rfl
  | string text =>
      have indexed : indexString text (args.map (Value.past inserted)) =
          (indexString text args).past inserted := by
        rw [indexString, index?_past, indexString]
        split
        · split <;> rfl
        · rfl
      dsimp only [Value.past_string]
      rw [indexed]
      exact carries_pure _ (indexString text args)
  | _ => exact carries_fixed rfl

theorem carries_setFuture (ref : FutureRef) (future : Future) :
    Carries inserted id (setFuture ref (future.past inserted)) (setFuture ref future) :=
  carries_modify fun machine fits => ⟨by
    have set : (machine.past inserted).store.setFuture ref (future.past inserted) = _ :=
      machine.store.setFuture_past ref future
    rw [set]
    rfl, ⟨fits.within, fits.suits⟩⟩

theorem carries_delivered (outcome : Outcome) :
    Carries inserted (Value.past inserted) (delivered (Outcome.past inserted outcome))
      (delivered outcome) := by
  cases outcome with
  | ok result => exact carries_pure _ result
  | error error =>
      have thrown : Carries inserted (Value.past inserted) _ _ :=
        carries_throw (error.failure.calling "await")
      rw [← Failure.past_calling, ← HostError.failure_past] at thrown
      exact thrown

theorem carries_outcomeOf (ref : FutureRef) (future : Future) :
    Carries inserted (Value.past inserted) (outcomeOf ref (future.past inserted))
      (outcomeOf ref future) := by
  unfold outcomeOf
  rw [future.register_past]
  cases future.register 0 with
  | error refusal =>
      exact carries_throw ((Failure.host { root := refusal.message }).calling "await")
  | ok found =>
      obtain ⟨next, due⟩ := found
      refine (carries_setFuture ref next).bind fun _ => ?_
      cases due with
      | some outcome => exact carries_delivered outcome
      | none =>
          cases next with
          | running waiting outcome =>
              exact carries_checkCancelled.bind fun _ =>
                (carries_setFuture ref (.done outcome)).bind fun _ => carries_delivered outcome
          | _ => exact carries_waitForever

theorem carries_await (value : Value) :
    Carries inserted (Value.past inserted) (await (value.past inserted)) (await value) := by
  cases value with
  | future ref =>
      refine carries_store fun store _ => ?_
      rw [store.future_past]
      dsimp only
      rw [Future.isEnding_past]
      exact carries_ite (fun _ => carries_checkCancelled.bind fun _ => carries_outcomeOf ref _)
        fun _ => carries_outcomeOf ref _
  | _ => exact carries_pure _ _

theorem carries_compute (op : BinaryOp) (x y : Value) :
    Carries inserted (Value.past inserted) (compute op (x.past inserted) (y.past inserted))
      (compute op x y) :=
  carries_ite (fun _ => carries_follow (carries_binary op x y)) fun _ =>
    carries_throw (Failure.unsupported _)

theorem carries_unary (op : UnaryOp) (value : Value) :
    Carries inserted (Value.past inserted) (unary op (value.past inserted)) (unary op value) := by
  cases op with
  | await => exact carries_await value
  | negate => exact carries_follow (Operator.carries_negate value)
  | plus => exact carries_follow (Operator.carries_plus value)
  | not => exact carries_follow (Operator.carries_not value)

theorem carries_element (applies : CarriesCalls inserted apply) (isComponent : Bool)
    (tag attributes children : Value) :
    Carries inserted (Value.past inserted)
      (element apply isComponent (tag.past inserted) (attributes.past inserted)
        (children.past inserted)) (element apply isComponent tag attributes children) := by
  have made : Carries inserted (Value.past inserted) _ _ :=
    carries_ofEntries [("tag", tag), ("props", attributes), ("children", children)]
  cases isComponent with
  | false => exact made
  | true =>
      cases tag with
      | function ref => exact carries_call applies (.function ref) [attributes, children]
      | _ => exact made

theorem carries_setMember (owner : Value) (key : String) (value : Value) :
    Carries inserted id (setMember (owner.past inserted) key (value.past inserted))
      (setMember owner key value) := by
  cases owner with
  | map ref =>
      refine carries_modify fun machine fits => ⟨?_, ⟨fits.within, fits.suits⟩⟩
      have set : (machine.past inserted).store.modifyMap ref
          (fun record => record.set key (value.past inserted)) = _ :=
        machine.store.modifyMap_past ref fun record => record.set_past key value
      rw [set]
      rfl
  | _ => exact carries_throw (Failure.raise _)

/-! ## Loops -/

/-- The end of a statement, after functions were put in. -/
def pastCompletion (inserted : Insertion) : Completion → Completion
  | .normal value => .normal (value.past inserted)
  | .returned value => .returned (value.past inserted)
  | completion => completion

/-- After a round of a loop, either the loop ends or it goes on. -/
theorem carries_afterRound {first second : Eval Completion}
    (goOn : Carries inserted (pastCompletion inserted) first second) (completion : Completion) :
    Carries inserted (pastCompletion inserted)
      (match pastCompletion inserted completion with
        | .returned result => pure (.returned result)
        | .exitLoop => pure (.normal .null)
        | .normal _ | .nextRound => first)
      (match completion with
        | .returned result => pure (.returned result)
        | .exitLoop => pure (.normal .null)
        | .normal _ | .nextRound => second) := by
  cases completion with
  | returned value => exact carries_pure (pastCompletion inserted) (.returned value)
  | exitLoop => exact carries_pure (pastCompletion inserted) (.normal .null)
  | normal _ => exact goOn
  | nextRound => exact goOn

theorem carries_repeatWhile {test : Eval Value} {body : Eval Completion}
    (testCarried : Carries inserted (Value.past inserted) test test)
    (bodyCarried : Carries inserted (pastCompletion inserted) body body) (rounds : Nat) :
    Carries inserted (pastCompletion inserted) (repeatWhile test body rounds)
      (repeatWhile test body rounds) := by
  induction rounds with
  | zero => exact carries_throw .exhausted
  | succ rounds inductionHypothesis =>
      refine carries_checkCancelled.bind fun _ => testCarried.bind fun value =>
        (carries_isTruthy value).bind fun passed => carries_ite (fun _ => ?_) fun _ => ?_
      · exact bodyCarried.bind (carries_afterRound inductionHypothesis)
      · exact carries_pure (pastCompletion inserted) (.normal .null)

theorem loopItems_past (store : Store) (value : Value) :
    loopItems (store.past inserted) (value.past inserted) =
      (loopItems store value).map (Prod.map (Value.past inserted) (Value.past inserted)) := by
  cases value with
  | map ref => simp [loopItems, Function.comp_def]
  | matrix matrix =>
      rw [Value.past_matrix, loopItems, loopItems, List.map_map]
      refine List.map_congr_left fun item listed => ?_
      have kept := matrix.past_of_mem_values inserted (List.fst_mem_of_mem_zipIdx listed)
      exact Prod.ext rfl kept.symm
  | string text => simp [loopItems, Function.comp_def]
  | _ => rfl

theorem carries_forEach (key : Option Variable) (value : Variable) {body : Eval Completion}
    (bodyCarried : Carries inserted (pastCompletion inserted) body body)
    (items : List (Value × Value)) :
    Carries inserted (pastCompletion inserted)
      (forEach key value body
        (items.map (Prod.map (Value.past inserted) (Value.past inserted))))
      (forEach key value body items) := by
  induction items with
  | nil => exact carries_pure (pastCompletion inserted) (.normal .null)
  | cons item rest inductionHypothesis =>
      refine carries_checkCancelled.bind fun _ => ?_
      cases key with
      | none =>
          exact (carries_declareVariable value _).bind fun _ =>
            bodyCarried.bind (carries_afterRound inductionHypothesis)
      | some name =>
          exact (carries_declareVariable name _).bind fun _ =>
            (carries_declareVariable value _).bind fun _ =>
              bodyCarried.bind (carries_afterRound inductionHypothesis)

/-! ## Trees -/

theorem carries_definition (callee : Expr) (args : List Expr) (body : Expr) :
    Carries inserted (Value.past inserted) (definition callee args body)
      (definition callee args body) := by
  unfold definition
  cases params : definitionParams args with
  | error failure =>
      obtain ⟨message, rfl⟩ := Regime.raise_of_definitionParams params
      exact carries_throw (Failure.raise message)
  | ok names => exact carries_newClosure _ names none _

theorem literal_past (value : Literal) : (literal value).past inserted = literal value := by
  cases value <;> rfl

mutual

theorem carries_eval (applies : CarriesCalls inserted apply) :
    ∀ tree : Expr, Carries inserted (Value.past inserted) (tree.eval apply) (tree.eval apply)
  | .empty _ => by
      simp only [Expr.eval]
      exact carries_fixed rfl
  | .invalid span defect => by
      simp only [Expr.eval]
      exact carries_throw (.malformed ⟨defect, span⟩)
  | .constant _ value => by
      simp only [Expr.eval]
      exact carries_fixed (literal_past value)
  | .var name => by
      simp only [Expr.eval]
      exact carries_readVariable name
  | .identifier _ => by
      simp only [Expr.eval]
      exact carries_fixed rfl
  | .binary _ op left right _ => by
      have leftCarried := carries_eval applies left
      have rightCarried := carries_eval applies right
      cases op with
      | and =>
          simp only [Expr.eval]
          refine leftCarried.bind fun x => (carries_isTruthy x).bind fun _ =>
            carries_ite (fun _ => ?_) fun _ => carries_fixed rfl
          exact rightCarried.bind fun y => (carries_isTruthy y).bind fun _ => carries_fixed rfl
      | or =>
          simp only [Expr.eval]
          refine leftCarried.bind fun x => (carries_isTruthy x).bind fun _ =>
            carries_ite (fun _ => carries_fixed rfl) fun _ => ?_
          exact rightCarried.bind fun y => (carries_isTruthy y).bind fun _ => carries_fixed rfl
      | pipe =>
          simp only [Expr.eval]
          exact leftCarried.bind fun x => rightCarried.bind fun f => carries_call applies f [x]
      | _ =>
          simp only [Expr.eval]
          exact leftCarried.bind fun x => rightCarried.bind fun y => carries_compute _ x y
  | .unary _ op operand => by
      simp only [Expr.eval]
      exact (carries_eval applies operand).bind (carries_unary op)
  | .factorial _ operand => by
      simp only [Expr.eval]
      exact (carries_eval applies operand).bind fun x => carries_follow (Operator.carries_factorial x)
  | .range _ first none last => by
      simp only [Expr.eval]
      exact (carries_eval applies first).bind fun a => (carries_eval applies last).bind fun b =>
        carries_range a .null b
  | .range _ first (some step) last => by
      simp only [Expr.eval]
      exact (carries_eval applies first).bind fun a => (carries_eval applies step).bind fun s =>
        (carries_eval applies last).bind fun b => carries_range a s b
  | .conditional _ test whenTrue whenFalse => by
      simp only [Expr.eval]
      refine (carries_eval applies test).bind fun value => (carries_isTruthy value).bind fun _ => ?_
      exact carries_ite (fun _ => carries_eval applies whenTrue) fun _ =>
        carries_eval applies whenFalse
  | .call _ callee args => by
      simp only [Expr.eval]
      exact (carries_eval applies callee).bind fun f => (carries_evalAll applies args).bind
        fun values => carries_call applies f values
  | .arguments _ items => by
      simp only [Expr.eval]
      refine (carries_evalAll applies items).bind fun values => ?_
      match values with
      | [] => exact carries_fixed rfl
      | [value] => exact carries_pure _ value
      | first :: second :: rest => exact carries_newArray (first :: second :: rest)
  | .matrix _ rows => by
      simp only [Expr.eval]
      exact (carries_evalRows applies rows).bind fun values =>
        carries_onStore (carries_matrixLiteral values)
  | .object _ entries => by
      simp only [Expr.eval]
      exact (carries_evalEntries applies entries).bind carries_ofEntries
  | .function _ frame params body => by
      simp only [Expr.eval]
      exact carries_newClosure "" _ (some frame) body
  | .member _ owner selector => by
      simp only [Expr.eval]
      refine (carries_eval applies owner).bind fun value => ?_
      cases value with
      | map ref =>
          refine carries_store fun store _ => ?_
          rw [store.record_past, Record.get?_past]
          cases (store.record ref).get? selector.name with
          | none => exact carries_fixed rfl
          | some value => exact carries_pure _ value
      | _ => exact carries_fixed rfl
  | .assignment _ target value => by
      have valueCarried := carries_eval applies value
      cases target with
      | var name =>
          simp only [Expr.eval]
          exact valueCarried.bind fun result =>
            (carries_assignVariable name result).bind fun _ => carries_pure _ result
      | member _ owner selector =>
          have ownerCarried := carries_eval applies owner
          simp only [Expr.eval]
          exact valueCarried.bind fun result => ownerCarried.bind fun object =>
            (carries_setMember object _ result).bind fun _ => carries_pure _ result
      | call _ callee args =>
          have defined : Carries inserted (Value.past inserted) _ _ :=
            carries_definition callee args value
          cases callee with
          | var name =>
              simp only [Expr.eval]
              exact defined.bind fun f =>
                (carries_assignVariable name f).bind fun _ => carries_pure _ f
          | member _ owner selector =>
              have ownerCarried := carries_eval applies owner
              simp only [Expr.eval]
              exact defined.bind fun f => ownerCarried.bind fun object =>
                (carries_setMember object _ f).bind fun _ => carries_pure _ f
          | invalid span defect =>
              simp only [Expr.eval]
              exact defined.bind fun _ => carries_throw (.malformed ⟨defect, span⟩)
          | _ =>
              simp only [Expr.eval]
              exact defined.bind fun _ => carries_throw (Failure.raise _)
      | invalid span defect =>
          simp only [Expr.eval]
          exact valueCarried.bind fun _ => carries_throw (.malformed ⟨defect, span⟩)
      | _ =>
          simp only [Expr.eval]
          exact valueCarried.bind fun _ => carries_throw (Failure.raise _)
  | .interpolated _ parts replacements => by
      simp only [Expr.eval]
      exact (carries_evalTexts applies replacements).bind fun _ => carries_fixed rfl
  | .markup _ tag attributes children => by
      have tagCarried := carries_eval applies tag
      have attributesCarried := carries_evalEntries applies attributes
      simp only [Expr.eval]
      refine attributesCarried.bind fun entries => (carries_ofEntries entries).bind fun props =>
        (carries_evalAll applies children).bind fun values =>
          (carries_newArray values).bind fun list => ?_
      cases tag with
      | identifier name => exact carries_element applies false (.string name.name) props list
      | _ => exact tagCarried.bind fun component => carries_element applies true component props list

theorem carries_evalAll (applies : CarriesCalls inserted apply) :
    ∀ trees : List Expr, Carries inserted (List.map (Value.past inserted))
      (Expr.evalAll apply trees) (Expr.evalAll apply trees)
  | [] => by
      simp only [Expr.evalAll]
      exact carries_fixed rfl
  | first :: rest => by
      simp only [Expr.evalAll]
      exact (carries_eval applies first).bind fun value => (carries_evalAll applies rest).bind
        fun values => carries_pure (List.map (Value.past inserted)) (value :: values)

theorem carries_evalRows (applies : CarriesCalls inserted apply) :
    ∀ rows : List (List Expr), Carries inserted (List.map (List.map (Value.past inserted)))
      (Expr.evalRows apply rows) (Expr.evalRows apply rows)
  | [] => by
      simp only [Expr.evalRows]
      exact carries_fixed rfl
  | row :: rest => by
      simp only [Expr.evalRows]
      exact (carries_evalAll applies row).bind fun value => (carries_evalRows applies rest).bind
        fun values => carries_pure (List.map (List.map (Value.past inserted))) (value :: values)

theorem carries_evalTexts (applies : CarriesCalls inserted apply) :
    ∀ trees : List Expr, Carries inserted id (Expr.evalTexts apply trees) (Expr.evalTexts apply trees)
  | [] => by
      simp only [Expr.evalTexts]
      exact carries_fixed rfl
  | first :: rest => by
      simp only [Expr.evalTexts]
      exact (carries_eval applies first).bind fun value => (carries_textOf value).bind fun text =>
        (carries_evalTexts applies rest).bind fun texts => carries_fixed rfl

theorem carries_evalEntries (applies : CarriesCalls inserted apply) :
    ∀ entries : List Entry, Carries inserted (List.map (Prod.map id (Value.past inserted)))
      (Entry.evalAll apply entries) (Entry.evalAll apply entries)
  | [] => by
      simp only [Entry.evalAll]
      exact carries_fixed rfl
  | .property span key value :: rest => by
      simp only [Entry.evalAll]
      exact (carries_eval applies value).bind fun value => (carries_evalEntries applies rest).bind
        fun values =>
          carries_pure (List.map (Prod.map id (Value.past inserted))) ((key, value) :: values)
  | .invalid span defect :: rest => by
      simp only [Entry.evalAll]
      exact carries_throw (.malformed ⟨defect, span⟩)

end

mutual

theorem carries_exec (applies : CarriesCalls inserted apply) :
    ∀ tree : Stmt, Carries inserted (pastCompletion inserted) (tree.exec apply) (tree.exec apply)
  | .expr value => by
      simp only [Stmt.exec]
      exact (carries_eval applies value).bind fun result =>
        carries_pure (pastCompletion inserted) (.normal result)
  | .block (.mk _ statements) => by
      simp only [Stmt.exec]
      exact carries_execAll applies statements
  | .ifThen _ test (.mk _ statements) none => by
      simp only [Stmt.exec]
      refine (carries_eval applies test).bind fun value => (carries_isTruthy value).bind fun _ => ?_
      exact carries_ite (fun _ => carries_execAll applies statements) fun _ => carries_fixed rfl
  | .ifThen _ test (.mk _ statements) (some whenFalse) => by
      simp only [Stmt.exec]
      refine (carries_eval applies test).bind fun value => (carries_isTruthy value).bind fun _ => ?_
      exact carries_ite (fun _ => carries_execAll applies statements) fun _ =>
        carries_exec applies whenFalse
  | .whileDo _ test (.mk _ statements) => by
      simp only [Stmt.exec]
      exact carries_repeatWhile (carries_eval applies test) (carries_execAll applies statements) roundLimit
  | .forIn _ key none source (.mk _ statements) => by
      simp only [Stmt.exec]
      exact (carries_eval applies source).bind fun _ => carries_fixed rfl
  | .forIn _ key (some value) source (.mk _ statements) => by
      simp only [Stmt.exec]
      refine (carries_eval applies source).bind fun collection => carries_store fun store _ => ?_
      rw [loopItems_past]
      exact carries_forEach key value (carries_execAll applies statements) _
  | .returnValue _ none => by
      simp only [Stmt.exec]
      exact carries_fixed rfl
  | .returnValue _ (some result) => by
      simp only [Stmt.exec]
      exact (carries_eval applies result).bind fun value =>
        carries_pure (pastCompletion inserted) (.returned value)
  | .jump _ .exitLoop => by
      simp only [Stmt.exec]
      exact carries_fixed rfl
  | .jump _ .nextRound => by
      simp only [Stmt.exec]
      exact carries_fixed rfl
  | .letIn _ name none => by
      simp only [Stmt.exec]
      exact (carries_declareVariable name .null).bind fun _ => carries_fixed rfl
  | .letIn _ name (some value) => by
      simp only [Stmt.exec]
      exact (carries_eval applies value).bind fun result =>
        (carries_declareVariable name result).bind fun _ => carries_fixed rfl

theorem carries_execAll (applies : CarriesCalls inserted apply) :
    ∀ trees : List Stmt, Carries inserted (pastCompletion inserted) (Stmt.execAll apply trees)
      (Stmt.execAll apply trees)
  | [] => by
      simp only [Stmt.execAll]
      exact carries_fixed rfl
  | first :: rest => by
      simp only [Stmt.execAll]
      refine carries_checkCancelled.bind fun _ =>
        (carries_exec applies first).bind fun completion => ?_
      cases completion with
      | normal _ => exact carries_execAll applies rest
      | returned value => exact carries_pure (pastCompletion inserted) (.returned value)
      | _ => exact carries_fixed rfl

end

theorem carries_bodyRun (applies : CarriesCalls inserted apply) (body : Body) :
    Carries inserted (Value.past inserted) (body.run apply) (body.run apply) := by
  cases body with
  | expr value => exact carries_eval applies value
  | block statements =>
      obtain ⟨span, statements⟩ := statements
      refine (carries_execAll applies statements).bind fun completion => ?_
      cases completion with
      | returned value => exact carries_pure _ value
      | _ => exact carries_fixed rfl

/-! ## Applying functions -/

theorem parameterRecord_eq_ofEntries (params : List String) (args : List Value) :
    parameterRecord params args =
      .ofEntries (params.zipIdx.map fun (name, index) => (name, args.getD index .null)) := by
  rw [parameterRecord, Record.ofEntries, List.foldl_map]

theorem parameterRecord_past (params : List String) (args : List Value) :
    parameterRecord params (args.map (Value.past inserted)) =
      (parameterRecord params args).past inserted := by
  rw [parameterRecord_eq_ofEntries, parameterRecord_eq_ofEntries, ← Record.ofEntries_past,
    List.map_map]
  simp only [Library.getD_past]
  rfl

theorem carries_invoke (applies : CarriesCalls inserted apply) (parent : Nat)
    (static : Option FrameId) (params : List String) (body : Body) (args : List Value) :
    Carries inserted (Value.past inserted)
      (invoke apply parent static params body (args.map (Value.past inserted)))
      (invoke apply parent static params body args) := by
  intro machine fits
  have size : (machine.past inserted).arena.size = machine.arena.size := machine.arena.size_past
  have arena : (machine.past inserted).arena.enter parent static
      ((parameterRecord params args).past inserted) =
        (machine.arena.enter parent static (parameterRecord params args)).past inserted :=
    machine.arena.enter_past parent static _
  have entered : (machine.past inserted).pass.enter parent static
      (parameterRecord params (args.map (Value.past inserted))) =
        (machine.pass.enter parent static (parameterRecord params args)).past inserted := by
    rw [parameterRecord_past]
    calc (machine.past inserted).pass.enter parent static ((parameterRecord params args).past inserted)
        = { (machine.past inserted).pass with
            arena := (machine.past inserted).arena.enter parent static
              ((parameterRecord params args).past inserted)
            current := (machine.past inserted).arena.size
            depth := machine.depth + 1 } := rfl
      _ = _ := by
        rw [arena, size]
        rfl
  have left (after : Machine) :
      (after.past inserted).leave machine.arena.size machine.current machine.depth =
        (after.leave machine.arena.size machine.current machine.depth).past inserted := by
    have released : (after.past inserted).arena.release machine.arena.size = _ :=
      after.arena.release_past machine.arena.size
    unfold Machine.leave
    rw [released]
    rfl
  have ran := (carries_bodyRun applies body
    (machine.pass.enter parent static (parameterRecord params args)) fits).cleaningUp
      (·.leave machine.arena.size machine.current machine.depth) left fun _ => rfl
  -- Neither the context nor the depth of calls moves, so the call goes the same of three ways.
  have runs : (invoke apply parent static params body (args.map (Value.past inserted))).run
        (machine.past inserted) =
      if machine.isCancelled then .error .cancelled (machine.stop.past inserted)
      else if machine.maxDepth ≤ machine.depth then .error .depthExceeded (machine.pass.past inserted)
      else
        (cleaningUp (body.run apply)
          (·.leave machine.arena.size machine.current machine.depth)).run
            ((machine.pass.enter parent static (parameterRecord params args)).past inserted) := by
    rw [Regime.run_invoke, entered, machine.stop_past, size]
    rfl
  by_cases cancelled : machine.isCancelled = true
  · constructor
    · rw [runs, Regime.run_invoke, if_pos cancelled, if_pos cancelled]
      rfl
    · rw [Regime.run_invoke, if_pos cancelled]
      exact fits
  · by_cases deep : machine.maxDepth ≤ machine.depth
    · constructor
      · rw [runs, Regime.run_invoke, if_neg cancelled, if_neg cancelled, if_pos deep, if_pos deep]
        rfl
      · rw [Regime.run_invoke, if_neg cancelled, if_pos deep]
        exact fits
    · constructor
      · rw [runs, Regime.run_invoke, if_neg cancelled, if_neg cancelled, if_neg deep, if_neg deep]
        exact ran.same
      · rw [Regime.run_invoke, if_neg cancelled, if_neg deep]
        exact ran.fits

theorem carries_print (args : List Value) :
    Carries inserted (Value.past inserted) (Eval.print (args.map (Value.past inserted)))
      (Eval.print args) := by
  refine Carries.bind ((carrying inserted).mapM id carries_textOf args) fun texts => ?_
  rw [List.map_id]
  refine (carries_printLine _).bind fun _ => ?_
  rw [List.getLast?_map]
  cases args.getLast? with
  | none => exact carries_fixed rfl
  | some last => exact carries_pure _ last

theorem carries_runNative {function : Native}
    (suits : ∀ reply, function = .answer reply → inserted.Suits reply) (args : List Value) :
    Carries inserted (Value.past inserted) (runNative function (args.map (Value.past inserted)))
      (runNative function args) := by
  cases function with
  | collect => exact carries_newArray args
  | fail message => exact carries_throw (.host { root := message })
  | throwMessage message => exact carries_throw (Failure.raise message)
  | cancel =>
      have cancels : Carries inserted id (modify Machine.cancel) (modify Machine.cancel) :=
        carries_modify fun _ fits => ⟨rfl, fits⟩
      exact cancels.bind fun _ => carries_fixed rfl
  | start =>
      have made : Carries inserted (Value.past inserted) _ _ :=
        carries_newFuture (.ending (.ok (args.head?.getD .null)))
      cases args <;> exact made
  | startFailing message =>
      exact carries_newFuture (.ending (.error (.fault { root := message })))
  | answer reply =>
      dsimp only [runNative]
      rw [suits reply rfl args]
      cases reply args with
      | ok value => exact carries_pure _ value
      | error error =>
          have thrown : Carries inserted (Value.past inserted)
              (throw (error.failure.past inserted)) (throw error.failure) := carries_throw _
          rw [← HostError.failure_past] at thrown
          exact thrown

theorem carries_callFunction (applies : CarriesCalls inserted apply) (callee : Value)
    (args : List Value) :
    Carries inserted (Value.past inserted)
      (callFunction apply (callee.past inserted) (args.map (Value.past inserted)))
      (callFunction apply callee args) := by
  cases callee with
  | function ref => exact applies ref args
  | _ => exact carries_fixed rfl

theorem carries_runCode (applies : CarriesCalls inserted apply) {code : Code}
    (suits : ∀ reply, code = .native (.answer reply) → inserted.Suits reply) (args : List Value) :
    Carries inserted (Value.past inserted) (runCode apply code (args.map (Value.past inserted)))
      (runCode apply code args) := by
  cases code with
  | builtin function => exact carries_libraryRun (carries_callFunction applies) function args
  | native function =>
      exact carries_runNative (fun reply same => suits reply (congrArg Code.native same)) args
  | print realm =>
      intro machine fits
      exact carriesAt_inRealm fun there same => carries_print args there (same ▸ fits)
  | closure realm parent static params body =>
      intro machine fits
      exact carriesAt_inRealm fun there same =>
        carries_invoke applies parent static params body args there (same ▸ fits)

theorem carries_applyWith (applies : CarriesCalls inserted apply) :
    CarriesCalls inserted (applyWith apply) := by
  intro ref args machine fits
  have runs (before : Machine) (ref : FunctionRef) (args : List Value) :
      (applyWith apply ref args).run before =
        (if ((before.store.function ref).bound ++ args).length <
            (before.store.function ref).threshold then
          if args.isEmpty then pure (.function ref)
          else newFunction ((before.store.function ref).bind args)
        else runCode apply (before.store.function ref).code
          ((before.store.function ref).bound ++ args)).run before := rfl
  have function : (machine.past inserted).store.function (ref.past inserted) =
      (machine.store.function ref).past inserted := machine.store.function_past fits ref
  have all : ((machine.store.function ref).past inserted).bound ++ args.map (Value.past inserted) =
      ((machine.store.function ref).bound ++ args).map (Value.past inserted) := List.map_append.symm
  have suits := fits.suits_function ref
  -- The threshold and the number of arguments stay, so either run takes the same branch.
  suffices chosen : CarriesAt inserted machine (Value.past inserted)
      (if ((machine.store.function ref).bound ++ args).length < (machine.store.function ref).threshold then
        if args.isEmpty then pure (.function (ref.past inserted))
        else newFunction (((machine.store.function ref).bind args).past inserted)
      else runCode apply (machine.store.function ref).code
        (((machine.store.function ref).bound ++ args).map (Value.past inserted)))
      (if ((machine.store.function ref).bound ++ args).length < (machine.store.function ref).threshold then
        if args.isEmpty then pure (.function ref)
        else newFunction ((machine.store.function ref).bind args)
      else runCode apply (machine.store.function ref).code
        ((machine.store.function ref).bound ++ args)) by
    constructor
    · rw [runs, runs, function, all, List.length_map, List.isEmpty_map, Function.bind_past]
      exact chosen.same
    · rw [runs]
      exact chosen.fits
  split
  · split
    · exact carries_pure (Value.past inserted) (.function ref) machine fits
    · exact carriesAt_newFunction ((machine.store.function ref).bind args) fits suits
  · exact carries_runCode applies suits _ machine fits

theorem carries_applyTo (depth : Nat) : CarriesCalls inserted (applyTo depth) := by
  induction depth with
  | zero => exact fun _ _ => carries_throw .exhausted
  | succ depth inductionHypothesis => exact carries_applyWith inductionHypothesis

end Trees

end Eval

end Reckon
