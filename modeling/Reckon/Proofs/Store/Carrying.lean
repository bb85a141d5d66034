import Reckon.Proofs.Store.Insertion
import Reckon.Session.Apply

/-!
# Store actions carry an insertion along

An action that starts from a store with more functions, on values that have moved past them, does the same
as before: it gives what it gave, moved past the functions, and leaves the store it left, with the
functions put in.  This holds of all operators.
-/

namespace Reckon

/-- A correspondence of actions, which do the same up to a change of what they give.  It passes to actions
that are built one after the other. -/
structure Correspondence (m : Type → Type) [Monad m] where
  relates : {α : Type} → (α → α) → m α → m α → Prop
  pure : ∀ {α : Type} (change : α → α) (value : α), relates change (pure (change value)) (pure value)
  bind : ∀ {α β : Type} {change : α → α} {changeNext : β → β} {first second : m α}
    {firstNext secondNext : α → m β}, relates change first second →
      (∀ value, relates changeNext (firstNext (change value)) (secondNext value)) →
      relates changeNext (first >>= firstNext) (second >>= secondNext)

namespace Correspondence

variable {m : Type → Type} [Monad m] (correspondence : Correspondence m) {α β : Type}
  {change : α → α}

theorem fixed {value : α} (same : change value = value) :
    correspondence.relates change (Pure.pure value) (Pure.pure value) := by
  have changed : correspondence.relates change (Pure.pure (change value)) (Pure.pure value) :=
    correspondence.pure change value
  rwa [same] at changed

theorem mapM [LawfulMonad m] (changeNext : β → β) {first second : α → m β}
    (related : ∀ item, correspondence.relates changeNext (first (change item)) (second item))
    (items : List α) :
    correspondence.relates (List.map changeNext) ((items.map change).mapM first) (items.mapM second) := by
  induction items with
  | nil => exact correspondence.pure (List.map changeNext) []
  | cons item rest inductionHypothesis =>
      rw [List.map_cons, List.mapM_cons, List.mapM_cons]
      refine correspondence.bind (related item) fun value => ?_
      refine correspondence.bind inductionHypothesis fun values => ?_
      exact correspondence.pure (List.map changeNext) (value :: values)

theorem mapM_unchanged [LawfulMonad m] (changeNext : β → β) {first second : α → m β}
    (related : ∀ item, correspondence.relates changeNext (first item) (second item)) (items : List α) :
    correspondence.relates (List.map changeNext) (items.mapM first) (items.mapM second) := by
  have changed : correspondence.relates (List.map changeNext) ((items.map id).mapM first)
      (items.mapM second) := correspondence.mapM changeNext related items
  rwa [List.map_id] at changed

theorem filterMapM [LawfulMonad m] (changeNext : β → β) {first second : α → m (Option β)}
    (related : ∀ item,
      correspondence.relates (Option.map changeNext) (first (change item)) (second item))
    (items : List α) :
    correspondence.relates (List.map changeNext) ((items.map change).filterMapM first)
      (items.filterMapM second) := by
  induction items with
  | nil => exact correspondence.pure (List.map changeNext) []
  | cons item rest inductionHypothesis =>
      rw [List.map_cons, List.filterMapM_cons, List.filterMapM_cons]
      refine correspondence.bind (related item) fun found => ?_
      cases found with
      | none => exact inductionHypothesis
      | some value =>
          refine correspondence.bind inductionHypothesis fun values => ?_
          exact correspondence.pure (List.map changeNext) (value :: values)

theorem foldlM {changeNext : β → β} {first second : β → α → m β}
    (related : ∀ soFar item,
      correspondence.relates changeNext (first (changeNext soFar) (change item)) (second soFar item))
    (items : List α) (start : β) :
    correspondence.relates changeNext ((items.map change).foldlM first (changeNext start))
      (items.foldlM second start) := by
  induction items generalizing start with
  | nil => exact correspondence.pure changeNext start
  | cons item rest inductionHypothesis =>
      rw [List.map_cons, List.foldlM_cons, List.foldlM_cons]
      exact correspondence.bind (related start item) fun soFar => inductionHypothesis soFar

theorem filterM [LawfulMonad m] {first second : α → m Bool}
    (related : ∀ item, correspondence.relates id (first (change item)) (second item)) (items : List α) :
    correspondence.relates (List.map change) ((items.map change).filterM first)
      (items.filterM second) := by
  -- What passed is collected in reverse, so the induction starts from any collection.
  have auxiliary (soFar : List α) :
      correspondence.relates (List.map change) ((items.map change).filterAuxM first (soFar.map change))
        (items.filterAuxM second soFar) := by
    induction items generalizing soFar with
    | nil => exact correspondence.pure (List.map change) soFar
    | cons item rest inductionHypothesis =>
        refine correspondence.bind (related item) fun passed => ?_
        cases passed with
        | false => exact inductionHypothesis soFar
        | true => exact inductionHypothesis (item :: soFar)
  refine correspondence.bind (auxiliary []) fun found => ?_
  rw [← List.map_reverse]
  exact correspondence.pure (List.map change) found.reverse

variable {inserted : Insertion}

/-- An action on the pairs of values that two records have under the same keys. -/
theorem sharedEntries [LawfulMonad m] (first second : Value → Value → m Value)
    (related : ∀ x y,
      correspondence.relates (Value.past inserted) (first (x.past inserted) (y.past inserted)) (second x y))
    (left right : Record) :
    correspondence.relates (List.map (Prod.map id (Value.past inserted)))
      ((left.past inserted).entries.filterMapM fun (key, value) => do
        match (right.past inserted).get? key with
        | some other => return some (key, ← first value other)
        | none => return none)
      (left.entries.filterMapM fun (key, value) => do
        match right.get? key with
        | some other => return some (key, ← second value other)
        | none => return none) := by
  rw [Record.entries_past]
  refine correspondence.filterMapM (Prod.map id (Value.past inserted)) ?_ left.entries
  rintro ⟨key, value⟩
  dsimp only [Prod.map, id_eq]
  rw [Record.get?_past]
  cases right.get? key with
  | none => exact correspondence.pure (Option.map (Prod.map id (Value.past inserted))) none
  | some other =>
      refine correspondence.bind (related value other) fun result => ?_
      exact correspondence.pure (Option.map (Prod.map id (Value.past inserted))) (some (key, result))

end Correspondence

/-! ## Actions on the store -/

variable (inserted : Insertion)

/-- From a store with functions put in, the first action gives what the second one gives, changed, and
leaves the store that it leaves, with the functions put in. -/
structure StoreM.Carries {α : Type} (change : α → α) (first second : StoreM α) : Prop where
  same : ∀ store, inserted.Fits store →
    first.run (store.past inserted) =
      (change (second.run store).1, (second.run store).2.past inserted)
  fits : ∀ store, inserted.Fits store → inserted.Fits (second.run store).2

/-- The correspondence of actions on the store. -/
def StoreM.carrying : Correspondence StoreM where
  relates := StoreM.Carries inserted
  pure _ _ := ⟨fun _ _ => rfl, fun _ fits => fits⟩
  bind {_ _ _ _ _ second _ _} carried next := by
    constructor
    · intro store fits
      rw [StateT.run_bind, StateT.run_bind, carried.same store fits]
      exact (next (second.run store).1).same _ (carried.fits store fits)
    · intro store fits
      exact (next (second.run store).1).fits _ (carried.fits store fits)

namespace StoreM

variable {inserted} {α β : Type} {change : α → α} {changeNext : β → β}

theorem carries_pure (change : α → α) (value : α) :
    Carries inserted change (pure (change value)) (pure value) :=
  (carrying inserted).pure change value

theorem carries_fixed {value : α} (fixed : change value = value) :
    Carries inserted change (pure value) (pure value) :=
  (carrying inserted).fixed fixed

theorem Carries.bind {first second : StoreM α} {firstNext secondNext : α → StoreM β}
    (carried : Carries inserted change first second)
    (next : ∀ value, Carries inserted changeNext (firstNext (change value)) (secondNext value)) :
    Carries inserted changeNext (first >>= firstNext) (second >>= secondNext) :=
  (carrying inserted).bind carried next

theorem carries_get {firstNext secondNext : Store → StoreM α}
    (next : ∀ store, inserted.Fits store →
      Carries inserted change (firstNext (store.past inserted)) (secondNext store)) :
    Carries inserted change (get >>= firstNext) (get >>= secondNext) :=
  ⟨fun store fits => (next store fits).same store fits,
    fun store fits => (next store fits).fits store fits⟩

theorem Carries.record {firstNext secondNext : Record → StoreM α} (ref : MapRef)
    (next : ∀ record, Carries inserted change (firstNext (record.past inserted)) (secondNext record)) :
    Carries inserted change (record ref >>= firstNext) (record ref >>= secondNext) :=
  carries_get fun store _ => by
    have carried := next (store.record ref)
    rw [← store.record_past ref] at carried
    exact carried

theorem carries_newMap (record : Record) :
    Carries inserted (Value.past inserted) (newMap (record.past inserted)) (newMap record) :=
  ⟨fun store _ => by
      exact congrArg (fun result : MapRef × Store => (Value.map result.1, result.2))
        (store.newMap_past record),
    fun _ fits => ⟨fits.within, fits.suits⟩⟩

theorem carries_ofEntries (entries : List (String × Value)) :
    Carries inserted (Value.past inserted)
      (newMap (.ofEntries (entries.map (Prod.map id (Value.past inserted)))))
      (newMap (.ofEntries entries)) := by
  rw [Record.ofEntries_past]
  exact carries_newMap _

theorem carries_newArray (values : List Value) :
    Carries inserted (Value.past inserted) (newArray (values.map (Value.past inserted)))
      (newArray values) := by
  rw [newArray, Record.ofList_past]
  exact carries_newMap _

end StoreM

namespace FollowM

variable {α β : Type} {change : α → α} {changeNext : β → β}

/-- An action that follows maps gives the same, changed, from a store with functions put in. -/
def Carries (change : α → α) (first second : FollowM α) : Prop :=
  StoreM.Carries inserted (Option.map change) first.run second.run

/-- The correspondence of actions that follow maps. -/
def carrying : Correspondence FollowM where
  relates := Carries inserted
  pure change value := StoreM.carries_pure (Option.map change) (some value)
  bind {_ _ _ _ _ second _ _} carried next := by
    rw [Carries, OptionT.run_bind, OptionT.run_bind, Option.elimM, Option.elimM]
    refine StoreM.Carries.bind carried fun found => ?_
    cases found with
    | none => exact StoreM.carries_pure _ none
    | some value => exact next value

variable {inserted}

theorem carries_pure (change : α → α) (value : α) :
    Carries inserted change (pure (change value)) (pure value) :=
  (carrying inserted).pure change value

theorem carries_fixed {value : α} (fixed : change value = value) :
    Carries inserted change (pure value) (pure value) :=
  (carrying inserted).fixed fixed

theorem carries_failure : Carries inserted change failure failure :=
  StoreM.carries_pure _ none

theorem Carries.bind {first second : FollowM α} {firstNext secondNext : α → FollowM β}
    (carried : Carries inserted change first second)
    (next : ∀ value, Carries inserted changeNext (firstNext (change value)) (secondNext value)) :
    Carries inserted changeNext (first >>= firstNext) (second >>= secondNext) :=
  (carrying inserted).bind carried next

theorem carries_liftM {first second : StoreM α} (carried : StoreM.Carries inserted change first second) :
    Carries inserted change (liftM first) (liftM second) := by
  have lifted : StoreM.Carries inserted (Option.map change)
      (first >>= fun value => pure (some value)) (second >>= fun value => pure (some value)) :=
    carried.bind fun value => StoreM.carries_pure (Option.map change) (some value)
  exact lifted

theorem carries_get {firstNext secondNext : Store → FollowM α}
    (next : ∀ store, inserted.Fits store →
      Carries inserted change (firstNext (store.past inserted)) (secondNext store)) :
    Carries inserted change (get >>= firstNext) (get >>= secondNext) := by
  have carried : StoreM.Carries inserted (Option.map change)
      (get >>= fun store => (firstNext store).run) (get >>= fun store => (secondNext store).run) :=
    StoreM.carries_get next
  exact carried

theorem Carries.record {firstNext secondNext : Record → FollowM α} (ref : MapRef)
    (next : ∀ record, Carries inserted change (firstNext (record.past inserted)) (secondNext record)) :
    Carries inserted change (liftM (StoreM.record ref) >>= firstNext)
      (liftM (StoreM.record ref) >>= secondNext) :=
  carries_get fun store _ => by
    have carried := next (store.record ref)
    rw [← store.record_past ref] at carried
    exact carried

theorem carries_ofEntries (entries : List (String × Value)) :
    Carries inserted (Value.past inserted)
      (liftM (StoreM.newMap (.ofEntries (entries.map (Prod.map id (Value.past inserted))))))
      (liftM (StoreM.newMap (.ofEntries entries))) :=
  carries_liftM (StoreM.carries_ofEntries entries)

theorem carries_newArray (values : List Value) :
    Carries inserted (Value.past inserted)
      (liftM (StoreM.newArray (values.map (Value.past inserted)))) (liftM (StoreM.newArray values)) :=
  carries_liftM (StoreM.carries_newArray values)

theorem carries_getM (found : Option α) :
    Carries inserted change ((found.map change).getM) found.getM := by
  cases found with
  | none => exact carries_failure
  | some value => exact carries_pure change value

end FollowM

/-! ## Operators -/

open FollowM

namespace Matrix

variable {inserted}

@[simp]
theorem past_orNull (matrix : Option Matrix) : (orNull matrix).past inserted = orNull matrix := by
  cases matrix <;> rfl

@[simp]
theorem ofValues?_past (rows cols : Int) (cells : List Value) :
    ofValues? rows cols (cells.map (Value.past inserted)) = ofValues? rows cols cells := by
  have same : (cells.map (Value.past inserted)).mapM Value.asCell? = cells.mapM Value.asCell? := by
    induction cells with
    | nil => rfl
    | cons first rest inductionHypothesis =>
        rw [List.map_cons, List.mapM_cons, List.mapM_cons, Value.asCell?_past, inductionHypothesis]
  rw [ofValues?, ofValues?, List.length_map, same]

@[simp]
theorem rowVector?_past (cells : List Value) :
    rowVector? (cells.map (Value.past inserted)) = rowVector? cells := by
  rw [rowVector?, List.length_map, ofValues?_past, rowVector?]

end Matrix

variable {inserted} in
/-- An action on the values of a map, one after the other, that makes a map of the results. -/
theorem carries_overEntries (first second : Value → FollowM Value)
    (carried : ∀ value, Carries inserted (Value.past inserted) (first (value.past inserted))
      (second value)) (ref : MapRef) :
    Carries inserted (Value.past inserted)
      (do
        let entries ← (← StoreM.record ref).entries.mapM fun (key, value) => do
          return (key, ← first value)
        StoreM.newMap (.ofEntries entries))
      (do
        let entries ← (← StoreM.record ref).entries.mapM fun (key, value) => do
          return (key, ← second value)
        StoreM.newMap (.ofEntries entries)) := by
  refine Carries.record ref fun record => ?_
  rw [Record.entries_past]
  refine ((carrying inserted).mapM (Prod.map id (Value.past inserted)) ?_
    record.entries).bind fun entries => ?_
  · rintro ⟨key, value⟩
    refine (carried value).bind fun result => ?_
    exact carries_pure (Prod.map id (Value.past inserted)) (key, result)
  · exact carries_ofEntries entries

namespace Cascade

variable (op : Cascade)

/-- An operator that does the same on scalars that have moved. -/
def Moves : Prop :=
  ∀ x y, op.onScalars (x.past inserted) (y.past inserted) = (op.onScalars x y).past inserted

variable {inserted} {op}

theorem onMatrices?_past (x y : Value) :
    op.onMatrices? (x.past inserted) (y.past inserted) =
      (op.onMatrices? x y).map (Value.past inserted) := by
  cases x with
  | matrix a =>
      cases y with
      | matrix b =>
          refine congrArg some ?_
          split
          · exact (Matrix.past_orNull _).symm
          · rfl
      | number _ | boolean _ => exact congrArg some (Matrix.past_orNull _).symm
      | _ => rfl
  | number _ | boolean _ =>
      cases y with
      | matrix _ => exact congrArg some (Matrix.past_orNull _).symm
      | _ => rfl
  | _ => cases y <;> rfl

theorem carries_onMaps (moves : op.Moves inserted) {next : Value → Value → FollowM Value}
    (carried : ∀ x y, Carries inserted (Value.past inserted)
      (next (x.past inserted) (y.past inserted)) (next x y)) (x y : Value) :
    Carries inserted (Value.past inserted) (op.onMaps next (x.past inserted) (y.past inserted))
      (op.onMaps next x y) := by
  have scalars : Carries inserted (Value.past inserted)
      (pure (op.onScalars (x.past inserted) (y.past inserted))) (pure (op.onScalars x y)) := by
    rw [moves x y]
    exact carries_pure _ (op.onScalars x y)
  have overLeft := carries_overEntries (next · (y.past inserted)) (next · y) (carried · y)
  have overRight := carries_overEntries (next (x.past inserted)) (next x) (carried x)
  cases x with
  | map a =>
      cases y with
      | map b =>
          refine Carries.record b fun right => Carries.record a fun left => ?_
          exact Carries.bind ((carrying inserted).sharedEntries next next carried left right)
            carries_ofEntries
      | number _ | boolean _ | string _ =>
          exact overLeft a
      | _ => exact scalars
  | number _ | boolean _ | string _ =>
      cases y with
      | map b => exact overRight b
      | _ => exact scalars
  | _ => cases y <;> exact scalars

theorem carries_applyTo (moves : op.Moves inserted) (depth : Nat) (x y : Value) :
    Carries inserted (Value.past inserted) (op.applyTo depth (x.past inserted) (y.past inserted))
      (op.applyTo depth x y) := by
  induction depth generalizing x y with
  | zero => exact carries_failure
  | succ depth inductionHypothesis =>
      rw [applyTo, applyTo, onMatrices?_past]
      cases op.onMatrices? x y with
      | none => exact carries_onMaps moves inductionHypothesis x y
      | some result => exact carries_pure _ result

theorem carries_apply (moves : op.Moves inserted) (x y : Value) :
    Carries inserted (Value.past inserted) (op.apply (x.past inserted) (y.past inserted))
      (op.apply x y) :=
  carries_get fun store _ => by
    rw [store.pairing_past]
    exact carries_applyTo moves store.pairing x y

end Cascade

variable {inserted}

theorem carries_liftTo {f : Value → Value}
    (moves : ∀ value, f (value.past inserted) = (f value).past inserted)
    (depth : Nat) (value : Value) :
    Carries inserted (Value.past inserted) (liftTo f depth (value.past inserted))
      (liftTo f depth value) := by
  have plain (value : Value) : Carries inserted (Value.past inserted)
      (pure (f (value.past inserted))) (pure (f value)) := by
    rw [moves]
    exact carries_pure _ (f value)
  have cells (matrix : Matrix) (f : Number → Value) : Carries inserted (Value.past inserted)
      (pure (Matrix.orNull (matrix.mapCells? f))) (pure (Matrix.orNull (matrix.mapCells? f))) :=
    carries_fixed (Matrix.past_orNull _)
  induction depth generalizing value with
  | zero =>
      cases value with
      | map ref => exact carries_failure
      | matrix matrix => exact cells matrix _
      | _ => exact plain _
  | succ depth inductionHypothesis =>
      cases value with
      | map ref => exact carries_overEntries _ _ inductionHypothesis ref
      | matrix matrix => exact cells matrix _
      | _ => exact plain _

theorem carries_lift {f : Value → Value}
    (moves : ∀ value, f (value.past inserted) = (f value).past inserted) (value : Value) :
    Carries inserted (Value.past inserted) (lift f (value.past inserted)) (lift f value) :=
  carries_get fun store _ => by
    rw [store.nesting_past]
    exact carries_liftTo moves store.nesting value

/-! ### The operators of the language -/

namespace Cascade

variable {op : Cascade}

/-- What an operator makes of scalars is no function, so that it moves if only the pairs that are no
numbers do. -/
theorem moves_of_others (onReals : ∀ a b, (op.onReals a b).past inserted = op.onReals a b)
    (onComplex : ∀ f, op.onComplex = some f → ∀ a b, (f a b).past inserted = f a b)
    (onOthers : ∀ x y, op.onOthers (x.past inserted) (y.past inserted) =
      (op.onOthers x y).map (Value.past inserted)) : op.Moves inserted := by
  -- Functions are neither real nor complex numbers, so only the other pairs can tell where they lie.
  intro x y
  rw [onScalars, onScalars, onOthers]
  cases op.onOthers x y with
  | some result => rfl
  | none =>
      dsimp only [Option.map_none]
      simp only [coerced, Value.asReal?_past, Value.asComplex?_past]
      split
      · exact (onReals _ _).symm
      · split
        · next f a b found _ _ => exact (onComplex f found a b).symm
        · rfl

end Cascade

namespace Operator

theorem moves_arithmetic {onReals : Float → Float → Value} {onComplex : Complex → Complex → Complex}
    (plain : ∀ a b, (onReals a b).past inserted = onReals a b) :
    Cascade.Moves inserted
      { onReals, onComplex := some fun a b => .complex (onComplex a b) } := by
  refine Cascade.moves_of_others plain (fun f found a b => ?_) fun _ _ => rfl
  obtain rfl := Option.some.inj found
  rfl

theorem joinTexts_past (x y : Value) :
    joinTexts (x.past inserted) (y.past inserted) = (joinTexts x y).map (Value.past inserted) := by
  cases x with
  | string a => cases y <;> rfl
  | _ => cases y <;> rfl

theorem moves_add : add.Moves inserted := by
  refine Cascade.moves_of_others (fun _ _ => rfl) (fun f found a b => ?_) joinTexts_past
  obtain rfl := Option.some.inj found
  rfl

theorem equalOthers_past (x y : Value) :
    equalOthers (x.past inserted) (y.past inserted) =
      (equalOthers x y).map (Value.past inserted) := by
  cases x with
  | function left =>
      cases y with
      | function right =>
          have same : (left.past inserted == right.past inserted) = (left == right) := by
            rw [Bool.eq_iff_iff, beq_iff_eq, beq_iff_eq, FunctionRef.past_inj]
          exact congrArg (fun truth => some (Value.boolean truth)) same
      | _ => rfl
  | _ => cases y <;> rfl

theorem moves_equalEach : equalEach.Moves inserted := by
  refine Cascade.moves_of_others (fun _ _ => rfl) (fun f found a b => ?_) equalOthers_past
  obtain rfl := Option.some.inj found
  rfl

theorem moves_comparison (onReals : Float → Float → Bool) (onStrings : String → String → Bool) :
    (comparison onReals onStrings).Moves inserted := by
  refine Cascade.moves_of_others (fun _ _ => rfl) (fun f found => ?_) fun x y => ?_
  · cases found
  · cases x with
    | string a => cases y <;> rfl
    | _ => rfl

theorem moves_less : less.Moves inserted :=
  moves_comparison _ _

theorem moves_greater : greater.Moves inserted :=
  moves_comparison _ _

theorem moves_remainder : remainder.Moves inserted := by
  refine Cascade.moves_of_others (fun _ _ => rfl) (fun f found => ?_) fun _ _ => rfl
  cases found

theorem moves_power : power.Moves inserted := by
  refine moves_arithmetic fun a b => ?_
  rw [realPower]
  split <;> rfl

theorem carries_equal (x y : Value) :
    Carries inserted (Value.past inserted) (equal (x.past inserted) (y.past inserted)) (equal x y) := by
  refine (Cascade.carries_apply moves_equalEach x y).bind fun result => ?_
  have kept : Carries inserted (Value.past inserted) (pure (result.past inserted)) (pure result) :=
    carries_pure _ result
  cases result with
  | null => exact carries_pure (Value.past inserted) (Value.boolean false)
  | _ => exact kept

theorem carries_negate (value : Value) :
    Carries inserted (Value.past inserted) (negate (value.past inserted)) (negate value) := by
  refine carries_lift (fun scalar => ?_) value
  cases scalar with
  | number n => cases n <;> rfl
  | _ => rfl

theorem carries_plus (value : Value) :
    Carries inserted (Value.past inserted) (plus (value.past inserted)) (plus value) := by
  refine carries_lift (fun scalar => ?_) value
  cases scalar <;> rfl

theorem carries_not (value : Value) :
    Carries inserted (Value.past inserted) (Operator.not (value.past inserted))
      (Operator.not value) := by
  refine carries_lift (fun scalar => ?_) value
  cases scalar <;> rfl

theorem carries_notEqual (x y : Value) :
    Carries inserted (Value.past inserted) (notEqual (x.past inserted) (y.past inserted))
      (notEqual x y) :=
  (carries_equal x y).bind carries_not

theorem carries_factorial (value : Value) :
    Carries inserted (Value.past inserted) (factorial (value.past inserted)) (factorial value) := by
  refine carries_lift (fun scalar => ?_) value
  rw [factorialScalar, factorialScalar, Value.asReal?_past]
  cases scalar.asReal? <;> rfl

end Operator

namespace Eval

theorem carries_binary (op : BinaryOp) (x y : Value) :
    Carries inserted (Value.past inserted) (binary op (x.past inserted) (y.past inserted))
      (binary op x y) := by
  cases op with
  | equal => exact Operator.carries_equal x y
  | notEqual => exact Operator.carries_notEqual x y
  | less | lessEqual | greater | greaterEqual =>
      exact Cascade.carries_apply (Operator.moves_comparison _ _) x y
  | add => exact Cascade.carries_apply Operator.moves_add x y
  | power => exact Cascade.carries_apply Operator.moves_power x y
  | subtract | multiply | divide => exact Cascade.carries_apply (Operator.moves_arithmetic fun _ _ => rfl) x y
  | remainder =>
      exact Cascade.carries_apply Operator.moves_remainder x y
  | pipe | or | and => exact carries_pure (Value.past inserted) Value.null

theorem spliced_past (value : Value) :
    spliced (value.past inserted) = (spliced value).map (Value.past inserted) := by
  cases value with
  | matrix matrix =>
      rw [Value.past_matrix, spliced]
      split
      · exact (Matrix.map_past_values inserted matrix).symm
      · rfl
  | _ => rfl

theorem carries_matrixLiteral (rows : List (List Value)) :
    StoreM.Carries inserted (Value.past inserted)
      (matrixLiteral (rows.map (List.map (Value.past inserted)))) (matrixLiteral rows) := by
  have spliced : (rows.map (List.map (Value.past inserted))).map (fun row => row.flatMap spliced) =
      (rows.map fun row => row.flatMap spliced).map (List.map (Value.past inserted)) := by
    rw [List.map_map, List.map_map]
    refine List.map_congr_left fun row _ => ?_
    simp only [Function.comp_apply, List.flatMap_map, List.map_flatMap, spliced_past]
  unfold matrixLiteral
  rw [spliced]
  generalize rows.map (fun row => row.flatMap Eval.spliced) = rows
  cases rows with
  | nil => exact StoreM.carries_pure (Value.past inserted) (Value.matrix _)
  | cons first rest =>
      have numeric : ((first :: rest).map (List.map (Value.past inserted))).all
          (·.all Value.isNumeric) = (first :: rest).all (·.all Value.isNumeric) := by
        simp [List.all_map, Function.comp_def]
      have even : (rest.map (List.map (Value.past inserted))).all
          (·.length == (first.map (Value.past inserted)).length) =
            rest.all (·.length == first.length) := by
        simp [List.all_map, Function.comp_def]
      have whole : Matrix.ofValues? ((first :: rest).map (List.map (Value.past inserted))).length
          (first.map (Value.past inserted)).length
          ((first :: rest).map (List.map (Value.past inserted))).flatten =
            Matrix.ofValues? (first :: rest).length first.length (first :: rest).flatten := by
        rw [← List.map_flatten, Matrix.ofValues?_past, List.length_map, List.length_map]
      rw [List.map_cons] at numeric whole ⊢
      dsimp only
      rw [numeric, even, whole]
      generalize (if ((first :: rest).all (·.all Value.isNumeric) &&
        rest.all (·.length == first.length)) = true then
          Matrix.ofValues? (first :: rest).length first.length (first :: rest).flatten else none) = whole
      cases whole with
      | some matrix => exact StoreM.carries_pure (Value.past inserted) (Value.matrix matrix)
      | none =>
          cases rest with
          | nil => exact StoreM.carries_newArray first
          | cons second rest =>
              refine ((StoreM.carrying inserted).mapM (Value.past inserted) StoreM.carries_newArray
                (first :: second :: rest)).bind StoreM.carries_newArray

end Eval

end Reckon
