import Reckon.Proofs.Library.Sorting
import Reckon.Proofs.Store.Carrying

/-!
# Built-in functions carry an insertion along

The built-in functions that call no function do the same on values that have moved past functions that
were put into the store.  For sorting this is a matter of comparisons: elements that compare as others do
are sorted as they are.
-/

namespace Reckon.Library

/-! ## Sorting the images of elements -/

section Images

variable {α β : Type} {f : α → β} {before : α → α → Option Bool}
  {image : β → β → Option Bool} (same : ∀ x y, image (f x) (f y) = before x y)

include same

theorem insertBackwards_map (x : α) (items : List α) :
    insertBackwards image (f x) (items.map f) = (insertBackwards before x items).map (List.map f) := by
  induction items with
  | nil => rfl
  | cons y rest inductionHypothesis =>
      rw [List.map_cons, insertBackwards, insertBackwards, same, inductionHypothesis]
      cases before x y with
      | none => rfl
      | some holds =>
          cases holds with
          | false => rfl
          | true => cases insertBackwards before x rest <;> rfl

theorem insertionSort_map (items : List α) :
    insertionSort image (items.map f) = (insertionSort before items).map (List.map f) := by
  have inserted (sorted : List α) :
      (items.map f).foldlM (fun sorted x => insertBackwards image x sorted) (sorted.map f) =
        (items.foldlM (fun sorted x => insertBackwards before x sorted) sorted).map (List.map f) := by
    induction items generalizing sorted with
    | nil => rfl
    | cons x rest inductionHypothesis =>
        rw [List.map_cons, List.foldlM_cons, List.foldlM_cons, insertBackwards_map same]
        cases insertBackwards before x sorted with
        | none => rfl
        | some sorted => exact inductionHypothesis sorted
  have sorted := inserted []
  rw [List.map_nil] at sorted
  rw [insertionSort, insertionSort, sorted]
  cases items.foldlM (fun sorted x => insertBackwards before x sorted) [] with
  | none => rfl
  | some sorted => exact congrArg some List.map_reverse.symm

theorem precedesAt_map (left right : List α) (i j : Nat) :
    precedesAt image (left.map f) i (right.map f) j = precedesAt before left i right j := by
  rw [precedesAt, precedesAt, List.getElem?_map, List.getElem?_map]
  cases left[i]? with
  | none => rfl
  | some x =>
      cases right[j]? with
      | none => rfl
      | some y => exact same x y

theorem mergeCut_map (left right : List α) :
    mergeCut image (left.map f) (right.map f) = mergeCut before left right := by
  simp only [mergeCut, precedesAt_map same, List.length_map]

theorem symmetricMerge_map (bound : Nat) (left right : List α) :
    symmetricMerge image bound (left.map f) (right.map f) =
      (symmetricMerge before bound left right).map (List.map f) := by
  -- The cases are told apart by lengths, which stay, and the cuts by comparisons.
  have notNil {items : List α} (given : items = [] → False) : items.map f = [] → False :=
    fun none => given (List.map_eq_nil_iff.mp none)
  have notSingle {items : List α} (given : ∀ x, items = [x] → False) (y : β) :
      items.map f = [y] → False := by
    intro one
    obtain ⟨x, only, _⟩ := List.map_eq_singleton_iff.mp one
    exact given x only
  have single (x : α) : [f x] = [x].map f := rfl
  fun_induction symmetricMerge before bound left right with
  | case1 left right => exact congrArg some List.map_append.symm
  | case2 bound right => rfl
  | case3 bound left given =>
      rw [List.map_nil, symmetricMerge.eq_3 _ _ _ (notNil given)]
      rfl
  | case4 bound x right given =>
      rw [List.map_singleton, symmetricMerge.eq_4 _ _ _ _ (notNil given), single]
      simp only [precedesAt_map same, List.length_map, Option.bind_eq_bind, Option.map_bind]
      refine Option.bind_congr fun place _ => congrArg some ?_
      rw [List.map_append, List.map_cons, List.map_take, List.map_drop]
  | case5 bound left y given several =>
      rw [List.map_singleton, symmetricMerge.eq_5 _ _ _ _ (notNil given) (notSingle several), single]
      simp only [precedesAt_map same, List.length_map, Option.bind_eq_bind, Option.map_bind]
      refine Option.bind_congr fun place _ => congrArg some ?_
      rw [List.map_append, List.map_cons, List.map_take, List.map_drop]
  | case6 bound left right given given' several several' first second =>
      rw [symmetricMerge.eq_6 _ _ _ _ (notNil given) (notSingle several) (notNil given')
        (notSingle several')]
      simp only [List.map_take, List.map_drop] at first second
      simp only [mergeCut_map same, List.length_map, first, second, Option.bind_eq_bind,
        Option.map_bind]
      refine Option.bind_congr fun cut _ => ?_
      simp only [Function.comp_def, Option.bind_map, Option.map_bind, Option.pure_def, Option.map_some,
        List.map_append]

theorem merge_map (left right : List α) :
    merge image (left.map f) (right.map f) = (merge before left right).map (List.map f) := by
  rw [merge, List.length_map, List.length_map, symmetricMerge_map same, merge]

theorem mergePairs_map : ∀ blocks : List (List α),
    mergePairs image (blocks.map (List.map f)) =
      (mergePairs before blocks).map (List.map (List.map f))
  | [] => rfl
  | [_] => rfl
  | left :: right :: rest => by
      rw [List.map_cons, List.map_cons, mergePairs, mergePairs, merge_map same, mergePairs_map rest]
      cases merge before left right with
      | none => rfl
      | some merged => cases mergePairs before rest <;> rfl

theorem mergeRounds_map (bound : Nat) (blocks : List (List α)) :
    mergeRounds image bound (blocks.map (List.map f)) =
      (mergeRounds before bound blocks).map (List.map f) := by
  induction bound generalizing blocks with
  | zero => exact congrArg some List.map_flatten.symm
  | succ bound inductionHypothesis =>
      match blocks with
      | [] => rfl
      | [_] => rfl
      | left :: right :: rest =>
          calc mergeRounds image (bound + 1) ((left :: right :: rest).map (List.map f))
              = mergePairs image ((left :: right :: rest).map (List.map f)) >>=
                  mergeRounds image bound := rfl
            _ = (mergePairs before (left :: right :: rest)).map (List.map (List.map f)) >>=
                  mergeRounds image bound := by rw [mergePairs_map same]
            _ = (mergePairs before (left :: right :: rest) >>= mergeRounds before bound).map
                  (List.map f) := by
                cases mergePairs before (left :: right :: rest) with
                | none => rfl
                | some blocks => exact inductionHypothesis blocks

omit same in
theorem blocksOf_map (size bound : Nat) (items : List α) :
    blocksOf size bound (items.map f) = (blocksOf size bound items).map (List.map f) := by
  induction bound generalizing items with
  | zero => rfl
  | succ bound inductionHypothesis =>
      cases items with
      | nil => rfl
      | cons first rest =>
          have later := inductionHypothesis ((first :: rest).drop size)
          rw [List.map_drop] at later
          rw [blocksOf, blocksOf, later]
          exact congrArg (· :: _) List.map_take.symm

/-- The images of elements are sorted as the elements are. -/
theorem sortStable_map (items : List α) :
    sortStable image (items.map f) = (sortStable before items).map (List.map f) := by
  have sorted (blocks : List (List α)) :
      (blocks.map (List.map f)).mapM (insertionSort image) =
        (blocks.mapM (insertionSort before)).map (List.map (List.map f)) := by
    induction blocks with
    | nil => rfl
    | cons block rest inductionHypothesis =>
        rw [List.map_cons, List.mapM_cons, List.mapM_cons, insertionSort_map same, inductionHypothesis]
        cases insertionSort before block with
        | none => rfl
        | some sorted => cases rest.mapM (insertionSort before) <;> rfl
  rw [sortStable, sortStable, List.length_map, blocksOf_map, sorted]
  cases (blocksOf blockLength items.length items).mapM (insertionSort before) with
  | none => rfl
  | some blocks =>
      have long : (blocks.map (List.map f)).length = blocks.length := List.length_map _
      calc mergeRounds image (blocks.map (List.map f)).length (blocks.map (List.map f))
          = mergeRounds image blocks.length (blocks.map (List.map f)) := by rw [long]
        _ = _ := mergeRounds_map same blocks.length blocks

/-- The best of the images is the image of the best element. -/
theorem best_map (items : List α) :
    best image (items.map f) = (best before items).map (Option.map f) := by
  cases items with
  | nil => rfl
  | cons first rest =>
      have beaten (top : α) :
          (rest.map f).foldlM (fun top x => do return if ← image x top then x else top) (f top) =
            (rest.foldlM (fun top x => do return if ← before x top then x else top) top).map f := by
        induction rest generalizing top with
        | nil => rfl
        | cons x rest inductionHypothesis =>
            rw [List.map_cons, List.foldlM_cons, List.foldlM_cons, same]
            cases before x top with
            | none => rfl
            | some beats => cases beats <;> exact inductionHypothesis _
      rw [List.map_cons, best, best, beaten]
      cases rest.foldlM (fun top x => do return if ← before x top then x else top) first <;> rfl

end Images

/-! ## Functions on values -/

open FollowM

variable {inserted : Insertion}

theorem holds_past {op : Cascade} (moves : op.Moves inserted) {store : Store}
    (fits : inserted.Fits store) (x y : Value) :
    holds (store.past inserted) op (x.past inserted) (y.past inserted) = holds store op x y := by
  rw [holds, holds, (Cascade.carries_apply moves x y).same store fits]
  rcases (op.apply x y).run.run store with ⟨found, after⟩
  cases found with
  | none => rfl
  | some result => exact congrArg some (after.isTruthy_past result)

theorem carries_sort (value : Value) :
    Carries inserted (Value.past inserted) (sort (value.past inserted)) (sort value) := by
  refine carries_get fun store fits => ?_
  rw [store.elements?_past]
  cases store.elements? value with
  | none => exact carries_pure _ value
  | some elements =>
      dsimp only [Option.map_some]
      rw [sortStable_map (holds_past Operator.moves_less fits)]
      refine (carries_getM _).bind fun sorted => ?_
      cases value with
      | matrix matrix =>
          dsimp only [Value.past_matrix]
          rw [Matrix.rowVector?_past]
          exact carries_fixed (Matrix.past_orNull _)
      | _ => exact carries_newArray sorted

theorem carries_extreme {op : Cascade} (moves : op.Moves inserted) (value : Value) :
    Carries inserted (Value.past inserted) (extreme op (value.past inserted)) (extreme op value) := by
  refine carries_get fun store fits => ?_
  rw [store.elements?_past]
  cases store.elements? value with
  | none => exact carries_pure _ value
  | some elements =>
      dsimp only [Option.map_some]
      rw [best_map (holds_past moves fits)]
      refine (carries_getM _).bind fun found => ?_
      cases found with
      | none => exact carries_pure (Value.past inserted) Value.null
      | some top => exact carries_pure _ top

theorem carries_joinPair (left right : Value) :
    StoreM.Carries inserted (Value.past inserted)
      (joinPair (left.past inserted) (right.past inserted)) (joinPair left right) := by
  cases left with
  | string text =>
      have joined : StoreM.Carries inserted (Value.past inserted)
          (do return .string (text ++ (← get).textOf (right.past inserted)))
          (do return .string (text ++ (← get).textOf right)) :=
        StoreM.carries_get fun store fits => by
          rw [store.textOf_past fits]
          exact StoreM.carries_pure (Value.past inserted) (Value.string _)
      cases right with
      | number _ | boolean _ | string _ => exact joined
      | _ => exact StoreM.carries_pure (Value.past inserted) Value.null
  | matrix a =>
      cases right with
      | matrix b => exact StoreM.carries_fixed (Matrix.past_orNull _)
      | _ => exact StoreM.carries_pure (Value.past inserted) Value.null
  | map a =>
      cases right with
      | map b =>
          refine StoreM.Carries.record a fun x => StoreM.Carries.record b fun y => ?_
          rw [Record.isArray_past, Record.isArray_past, Record.values_past, Record.values_past,
            Record.union_past, ← List.map_append]
          split
          · exact StoreM.carries_newArray (x.values ++ y.values)
          · exact StoreM.carries_newMap (x.union y)
      | _ => exact StoreM.carries_pure (Value.past inserted) Value.null
  | _ => exact StoreM.carries_pure (Value.past inserted) Value.null

theorem carries_join (values : List Value) :
    StoreM.Carries inserted (Value.past inserted) (join (values.map (Value.past inserted)))
      (join values) := by
  cases values with
  | nil => exact StoreM.carries_pure (Value.past inserted) Value.null
  | cons first rest => exact (StoreM.carrying inserted).foldlM carries_joinPair rest first

theorem keyed?_past (store : Store) (value : Value) :
    keyed? (store.past inserted) (value.past inserted) =
      (keyed? store value).map (Record.past inserted) := by
  cases value with
  | map ref =>
      simp only [Value.past_map, keyed?, store.record_past, Record.isArray_past]
      split <;> rfl
  | _ => rfl

theorem carries_pairs (store : Store) (left right : Value) :
    StoreM.Carries inserted (Value.past inserted)
      (match (store.elements? left).map (List.map (Value.past inserted)),
          (store.elements? right).map (List.map (Value.past inserted)) with
        | some xs, some ys => do
            StoreM.newArray (← (xs.zip ys).mapM fun (x, y) => StoreM.newArray [x, y])
        | _, _ => StoreM.newArray [left.past inserted, right.past inserted])
      (match store.elements? left, store.elements? right with
        | some xs, some ys => do
            StoreM.newArray (← (xs.zip ys).mapM fun (x, y) => StoreM.newArray [x, y])
        | _, _ => StoreM.newArray [left, right]) := by
  cases store.elements? left with
  | none => exact StoreM.carries_newArray [left, right]
  | some xs =>
      cases store.elements? right with
      | none => exact StoreM.carries_newArray [left, right]
      | some ys =>
          dsimp only [Option.map_some]
          rw [List.zip_map]
          refine ((StoreM.carrying inserted).mapM (Value.past inserted) ?_
            (xs.zip ys)).bind StoreM.carries_newArray
          rintro ⟨x, y⟩
          exact StoreM.carries_newArray [x, y]

theorem carries_zip (left right : Value) :
    StoreM.Carries inserted (Value.past inserted) (zip (left.past inserted) (right.past inserted))
      (zip left right) := by
  refine StoreM.carries_get fun store _ => ?_
  rw [keyed?_past, keyed?_past, store.elements?_past, store.elements?_past]
  have pairs : StoreM.Carries inserted (Value.past inserted) _ _ := carries_pairs store left right
  cases keyed? store left with
  | none => exact pairs
  | some a =>
      cases keyed? store right with
      | none => exact pairs
      | some b =>
          exact StoreM.Carries.bind ((StoreM.carrying inserted).sharedEntries
            (fun x y => StoreM.newArray [x, y]) (fun x y => StoreM.newArray [x, y])
            (fun x y => StoreM.carries_newArray [x, y]) a b) StoreM.carries_ofEntries

theorem carries_collectionOf (values : List Value) :
    StoreM.Carries inserted (Value.past inserted) (collectionOf (values.map (Value.past inserted)))
      (collectionOf values) := by
  match values with
  | [] => exact StoreM.carries_newArray []
  | [value] => exact StoreM.carries_pure _ value
  | first :: second :: rest => exact StoreM.carries_newArray (first :: second :: rest)

theorem carries_sum (value : Value) :
    Carries inserted (Value.past inserted) (sum (value.past inserted)) (sum value) := by
  refine carries_get fun store _ => ?_
  rw [store.elements?_past]
  cases store.elements? value with
  | none => exact Cascade.carries_apply Operator.moves_add (Value.real 0) value
  | some elements =>
      exact (carrying inserted).foldlM (Cascade.carries_apply Operator.moves_add) elements
        (Value.real 0)

theorem carries_values (value : Value) :
    StoreM.Carries inserted (Value.past inserted) (values (value.past inserted)) (values value) := by
  refine StoreM.carries_get fun store _ => ?_
  rw [store.elements?_past]
  cases store.elements? value with
  | none => exact StoreM.carries_newArray [value]
  | some elements => exact StoreM.carries_newArray elements

theorem carries_foldOperator {op : Value → Value → FollowM Value}
    (carried : ∀ x y, Carries inserted (Value.past inserted) (op (x.past inserted) (y.past inserted))
      (op x y)) (args : List Value) :
    Carries inserted (Value.past inserted) (foldOperator op (args.map (Value.past inserted)))
      (foldOperator op args) := by
  cases args with
  | nil => exact carries_pure (Value.past inserted) Value.null
  | cons first rest => exact (carrying inserted).foldlM carried rest first

theorem carries_elementary {f : Elementary}
    (onReal : ∀ x, (f.onReal x).past inserted = f.onReal x)
    (onComplex : ∀ z, (f.onComplex z).past inserted = f.onComplex z) (value : Value) :
    Carries inserted (Value.past inserted) (f.apply (value.past inserted)) (f.apply value) := by
  refine carries_lift (fun scalar => ?_) value
  cases scalar with
  | number n =>
      cases n with
      | real x => exact (onReal x).symm
      | complex z => exact (onComplex z).symm
  | boolean truth => exact (onReal _).symm
  | _ => rfl

theorem carries_onTexts (f : String → String) (value : Value) :
    Carries inserted (Value.past inserted) (onTexts f (value.past inserted)) (onTexts f value) := by
  refine carries_lift (fun scalar => ?_) value
  cases scalar <;> rfl

theorem getD_past (args : List Value) (index : Nat) :
    (args.map (Value.past inserted)).getD index .null = (args.getD index .null).past inserted := by
  rw [List.getD_eq_getElem?_getD, List.getElem?_map, List.getD_eq_getElem?_getD]
  cases args[index]? <;> rfl

theorem carries_filled (cell : Nat → Nat → Float) (args : List Value) :
    Carries inserted (Value.past inserted) (pure (filled cell (args.map (Value.past inserted))))
      (pure (filled cell args)) := by
  have sides : dimensions? (args.map (Value.past inserted)) = dimensions? args := by
    have side (value : Value) : dimension? (value.past inserted) = dimension? value := by
      rw [dimension?, dimension?, Value.asReal?_past]
    match args with
    | [] => rfl
    | [value] => rw [List.map_singleton, dimensions?, dimensions?, side]
    | rows :: cols :: rest =>
        rw [List.map_cons, List.map_cons, dimensions?, dimensions?, side, side]
  rw [filled, filled, sides]
  cases dimensions? args with
  | none => exact carries_fixed rfl
  | some shape =>
      dsimp only
      split <;> exact carries_fixed rfl

theorem carries_reading {first second : Store → Value}
    (same : ∀ store, inserted.Fits store → first (store.past inserted) = (second store).past inserted) :
    Carries inserted (Value.past inserted) (do return first (← get)) (do return second (← get)) :=
  carries_get fun store fits => by
    rw [same store fits]
    exact carries_pure _ (second store)

/-- The built-in functions that call no function carry an insertion along. -/
theorem carries_pure? (function : Builtin) (args : List Value) :
    Option.Rel (Carries inserted (Value.past inserted))
      (pure? function (args.map (Value.past inserted))) (pure? function args) := by
  unfold pure?
  simp only [getD_past]
  generalize args.getD 0 .null = x
  cases function with
  | add => exact .some (carries_foldOperator (Cascade.carries_apply Operator.moves_add) args)
  | subtract | multiply | divide =>
      exact .some (carries_foldOperator
        (Cascade.carries_apply (Operator.moves_arithmetic fun _ _ => rfl)) args)
  | mod => exact .some (carries_foldOperator (Cascade.carries_apply Operator.moves_remainder) args)
  | pow => exact .some (carries_foldOperator (Cascade.carries_apply Operator.moves_power) args)
  | equal => exact .some (carries_foldOperator Operator.carries_equal args)
  | unequal => exact .some (carries_foldOperator Operator.carries_notEqual args)
  | less | lessEq | greater | greaterEq =>
      refine .some ?_
      rw [compareWith, getD_past, getD_past]
      exact Cascade.carries_apply (Operator.moves_comparison _ _) _ _
  | negate => exact .some (Operator.carries_negate x)
  | not => exact .some (Operator.carries_not x)
  | factorial => exact .some (Operator.carries_factorial x)
  | sqrt | log =>
      refine .some (carries_elementary (fun y => ?_) (fun _ => rfl) x)
      dsimp only [Elementary.sqrt, Elementary.log]
      split <;> rfl
  | abs | exp | sin | cos | tan | floor | ceil | round | re | im | conj | arg =>
      exact .some (carries_elementary (fun _ => rfl) (fun _ => rfl) x)
  | upper | lower => exact .some (carries_onTexts _ x)
  | and | or =>
      refine .some (carries_reading fun store _ => congrArg Value.boolean ?_)
      simp [Function.comp_def]
  | size =>
      refine .some (carries_reading fun store _ => ?_)
      cases x <;> simp [size]
  | length =>
      refine .some (carries_reading fun store _ => ?_)
      cases x <;> simp [length]
  | first =>
      refine .some (carries_reading fun store _ => ?_)
      rw [first, first, store.elements?_past]
      cases store.elements? x with
      | none => rfl
      | some elements => cases elements <;> rfl
  | last =>
      refine .some (carries_reading fun store _ => ?_)
      rw [last, last, store.elements?_past]
      cases store.elements? x with
      | none => rfl
      | some elements =>
          dsimp only [Option.map_some]
          rw [List.getLast?_map]
          cases elements.getLast? <;> rfl
  | string =>
      refine .some (carries_reading fun store fits => ?_)
      rw [store.textOf_past fits]
      rfl
  | transpose =>
      refine .some ?_
      cases x <;> exact carries_fixed rfl
  | zeros | ones | eye => exact .some (carries_filled _ args)
  | number =>
      refine .some ?_
      cases x <;> exact carries_fixed rfl
  | typeOf =>
      refine .some ?_
      rw [Value.kind_past]
      exact carries_fixed rfl
  | zip => exact .some (carries_liftM (carries_zip x _))
  | sum => exact .some (Carries.bind (carries_liftM (carries_collectionOf args)) carries_sum)
  | min =>
      exact .some (Carries.bind (carries_liftM (carries_collectionOf args))
        (carries_extreme Operator.moves_less))
  | max =>
      exact .some (Carries.bind (carries_liftM (carries_collectionOf args))
        (carries_extreme Operator.moves_greater))
  | sort => exact .some (carries_sort x)
  | values => exact .some (carries_liftM (carries_values x))
  | concat => exact .some (carries_liftM (carries_join args))
  | map | reduce | filter | anyOf | allOf | raise | rescue | sleep | resolve | range | keys
  | formatNumber => exact .none

end Reckon.Library
