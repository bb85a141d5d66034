import Reckon.Proofs.Definition.Agreement
import Reckon.Proofs.Library.Selection
import Reckon.Session.Apply

/-!
# Folding

The sum folds addition, and folding over two collections put together folds over one after the other, as
long as the calls for the first one leave the second one as it is.
-/

namespace Reckon

namespace Eval

variable {α β : Type}

theorem follow_bind (action : FollowM α) (next : α → FollowM β) :
    follow (action >>= next) = follow action >>= fun result => follow (next result) := by
  funext machine
  change (follow (action >>= next)).run machine =
    (follow action >>= fun result => follow (next result)).run machine
  rw [EStateM.run_bind, run_follow, run_follow, FollowM.run_bind]
  rcases action.run.run machine.store with ⟨_ | result, after⟩
  · rfl
  · dsimp only
    rw [run_follow]

theorem run_follow_get_bind {next : Store → FollowM α} {machine : Machine} :
    (follow (do next (← get))).run machine = (follow (next machine.store)).run machine := by
  rw [run_follow, run_follow, FollowM.run_get_bind]

theorem follow_foldlM (step : β → α → FollowM β) (items : List α) (start : β) :
    follow (items.foldlM step start) = items.foldlM (fun acc item => follow (step acc item)) start := by
  induction items generalizing start with
  | nil => rfl
  | cons first rest inductionHypothesis =>
      rw [List.foldlM_cons, List.foldlM_cons, follow_bind]
      simp only [inductionHypothesis]

theorem addsMaps_of_follow {action : FollowM α} {machine after : Machine} {result : α} (adds : action.Adds)
    (succeeded : (follow action).run machine = .ok result after) : machine.store.AddsMaps after.store := by
  rw [run_follow] at succeeded
  rcases ran : action.run.run machine.store with ⟨_ | found, store⟩
  · rw [ran] at succeeded
    cases succeeded
  · rw [ran] at succeeded
    cases succeeded
    exact adds.of_run (congrArg Prod.snd ran)

theorem call_add (depth : Nat) (x y : Value) :
    callFunction (applyTo (depth + 1)) (.function (.builtin .add)) [x, y] =
      follow (Operator.add.apply x y) := by
  change follow (Operator.add.apply x y >>= pure) = _
  rw [bind_pure]

end Eval

namespace Library

open Eval

variable {call : Caller} {f initial source : Value} {machine : Machine} {xs ys : List Value}

/-! ## The sum -/

/-- The sum of a value is what adding folds it to. -/
theorem sum_eq_reduce_add (depth : Nat) (source : Value) :
    run (callFunction (applyTo (depth + 1))) .sum [source] =
      run (callFunction (applyTo (depth + 1))) .reduce
        [.function (.builtin .add), .real 0, source] := by
  let call := callFunction (applyTo (depth + 1))
  funext machine
  change (follow (sum source)).run machine =
    (reduce call (.function (.builtin .add)) (.real 0) source).run machine
  rw [sum, run_follow_get_bind, reduce, run_store_bind]
  cases machine.store.elements? source with
  | none => simp only [call, call_add]
  | some elements => simp only [follow_foldlM, call, call_add]

/-! ## Collections put together -/

/-- Folding over elements that follow others goes on with what these gave. -/
theorem run_reduce_append {joined first second : Value}
    (both : machine.store.elements? joined = some (xs ++ ys))
    (left : machine.store.elements? first = some xs)
    (right : ∀ acc between, (run call .reduce [f, initial, first]).run machine = .ok acc between →
      between.store.elements? second = some ys) :
    (run call .reduce [f, initial, joined]).run machine =
      (do run call .reduce [f, ← run call .reduce [f, initial, first], second]).run machine := by
  have folded : (run call .reduce [f, initial, first]).run machine = _ := run_reduce left
  rw [run_reduce both, List.foldlM_append, EStateM.run_bind, EStateM.run_bind, folded]
  rw [folded] at right
  rcases ran : (xs.foldlM (fun acc element => call f [acc, element]) initial).run machine with
    ⟨acc, between⟩ | ⟨failure, between⟩
  · exact (run_reduce (right acc between ran)).symm
  · rfl

/-- Folding leaves the maps in the store as they are if each call does. -/
theorem addsMaps_of_run_reduce {acc : Value} {between : Machine}
    (found : machine.store.elements? source = some xs)
    (adds : ∀ acc element before result after, (call f [acc, element]).run before = .ok result after →
      before.store.AddsMaps after.store)
    (folded : (run call .reduce [f, initial, source]).run machine = .ok acc between) :
    machine.store.AddsMaps between.store := by
  rw [run_reduce found] at folded
  clear found
  induction xs generalizing initial machine with
  | nil =>
      cases folded
      exact .refl _
  | cons first rest inductionHypothesis =>
      rw [List.foldlM_cons, bind_succeeds_iff] at folded
      obtain ⟨middle, after, ran, folded⟩ := folded
      exact (adds initial first machine middle after ran).trans (inductionHypothesis folded)

theorem addsMaps_of_run_reduce_add {depth : Nat} {acc : Value} {between : Machine}
    (found : machine.store.elements? source = some xs)
    (folded : (run (callFunction (applyTo (depth + 1))) .reduce
      [.function (.builtin .add), initial, source]).run machine = .ok acc between) :
    machine.store.AddsMaps between.store := by
  refine addsMaps_of_run_reduce found (fun acc element before result after called => ?_) folded
  rw [call_add] at called
  exact addsMaps_of_follow (Operator.add.adds_apply acc element) called

theorem run_concat_arrays (call : Caller) {a b : MapRef} (arrayA : (machine.store.record a).isArray = true)
    (arrayB : (machine.store.record b).isArray = true) :
    ∃ joined, ∃ after : Machine, (run call .concat [.map a, .map b]).run machine = .ok joined after ∧
      machine.store.AddsMaps after.store ∧
      after.store.elements? joined =
        some ((machine.store.record a).values ++ (machine.store.record b).values) := by
  let items := (machine.store.record a).values ++ (machine.store.record b).values
  have unfolded : (run call .concat [.map a, .map b]).run machine =
      (onStore (if (machine.store.record a).isArray && (machine.store.record b).isArray
        then StoreM.newArray items
        else StoreM.newMap ((machine.store.record a).union (machine.store.record b)))).run machine := rfl
  rw [unfolded, if_pos (by rw [arrayA, arrayB]; rfl), run_onStore_eq]
  refine ⟨_, _, rfl, machine.store.addsMaps_newMap _, ?_⟩
  exact elements?_of_inLine (inLine_newArray a items)

/-- The cells of a matrix with one row. -/
theorem values_eq_of_row {matrix : Matrix} (filled : matrix.IsFilled) (row : matrix.rows = 1) :
    matrix.values = (List.range matrix.cols).map fun col => .number (matrix.cellAt 0 col) := by
  rw [Matrix.values, filled.toList_cells, row, Matrix.grid_succ]
  simp [Matrix.grid]

theorem run_concat_rows (call : Caller) {left right : Matrix} (whole : left.IsWhole) (whole' : right.IsWhole)
    (row : left.rows = 1) (row' : right.rows = 1) :
    ∃ joined, (run call .concat [.matrix left, .matrix right]).run machine = .ok joined machine ∧
      machine.store.elements? joined = some (left.values ++ right.values) := by
  have fits : left.cols + right.cols < 2 ^ 63 := by
    have sizes := Nat.add_lt_add whole.size_lt whole'.size_lt
    rw [whole.isFilled, whole'.isFilled, row, row'] at sizes
    omega
  have unfolded : run call .concat [.matrix left, .matrix right] =
      onStore (join [.matrix left, .matrix right]) := rfl
  rw [unfolded, whole.join_eq whole' (row.trans row'.symm) fits, row]
  refine ⟨_, rfl, congrArg some ?_⟩
  rw [values_eq_of_row Matrix.isFilled_ofCells rfl, values_eq_of_row whole.isFilled row,
    values_eq_of_row whole'.isFilled row']
  have beside := congrArg (List.map Value.number) (Matrix.map_cellBeside left right 0)
  rw [List.map_append, List.map_map, List.map_map, List.map_map] at beside
  rw [Matrix.cols_ofCells]
  refine Eq.trans (List.map_congr_left fun col inCols => ?_) beside.symm
  rw [Matrix.cellAt_ofCells (by decide) (List.mem_range.mp inCols)]
  rfl

/-- Folding over two arrays put together, or over two rows put together, goes on from one to the other. -/
structure FoldsOn (call : Caller) (machine : Machine) : Prop where
  arrays (a b : MapRef) : a.index < machine.store.maps.size → b.index < machine.store.maps.size →
    (machine.store.record a).isArray = true → (machine.store.record b).isArray = true →
    ∃ joined, ∃ after : Machine, (run call .concat [.map a, .map b]).run machine = .ok joined after ∧
      ∀ f initial,
        (∀ acc between, (run call .reduce [f, initial, .map a]).run after = .ok acc between →
          between.store.record b = after.store.record b) →
        (run call .reduce [f, initial, joined]).run after =
          (do run call .reduce [f, ← run call .reduce [f, initial, .map a], .map b]).run after
  rows (left right : Matrix) : left.IsWhole → right.IsWhole → left.rows = 1 → right.rows = 1 →
    ∃ joined, (run call .concat [.matrix left, .matrix right]).run machine = .ok joined machine ∧
      ∀ f initial, (run call .reduce [f, initial, joined]).run machine =
        (do run call .reduce [f, ← run call .reduce [f, initial, .matrix left], .matrix right]).run machine

theorem foldsOn (call : Caller) (machine : Machine) : FoldsOn call machine where
  arrays a b stored stored' arrayA arrayB := by
    obtain ⟨joined, after, ran, adds, both⟩ := run_concat_arrays call arrayA arrayB
    refine ⟨joined, after, ran, fun f initial leaves => ?_⟩
    refine run_reduce_append both ?_ fun acc between folded => ?_
    · rw [Store.elements?, adds.record_eq stored]
    · rw [Store.elements?, leaves acc between folded, adds.record_eq stored']
  rows left right whole whole' row row' := by
    obtain ⟨joined, ran, both⟩ := run_concat_rows call whole whole' row row'
    exact ⟨joined, ran, fun f initial => run_reduce_append both rfl fun _ _ _ => rfl⟩

/-! ## Agreement -/

/-- The functions on collections agree with each other: on what a pure predicate selects, on the sum, on
folding over collections that are put together, and on where they stop. -/
theorem collection_functions_agree (call : Caller) (machine : Machine) :
    (∀ p source truth stays elements, IsPure call p source truth stays machine →
      machine.store.elements? source = some elements →
      (∀ matrix, source = .matrix matrix → matrix.IsShaped) →
      ∃ result after selected, (run call .filter [p, source]).run machine = .ok result after ∧
        Selects machine after source result truth ∧
        after.store.elements? result = some selected ∧ selected = elements.filter truth ∧
        (∃ any last, (run call .anyOf [p, source]).run machine = .ok (.boolean any) last ∧
          (any = true ↔ selected ≠ [])) ∧
        ∃ all last, (run call .allOf [p, source]).run machine = .ok (.boolean all) last ∧
          (all = true ↔ selected.length = elements.length)) ∧
    (∀ depth source, run (callFunction (applyTo (depth + 1))) .sum [source] =
      run (callFunction (applyTo (depth + 1))) .reduce
        [.function (.builtin .add), .real 0, source]) ∧
    FoldsOn call machine ∧
    ∀ f source elements, machine.store.elements? source = some elements →
      StopsAtFailure call f source elements machine := by
  refine ⟨fun p source truth stays elements pure found shaped => ?_, sum_eq_reduce_add,
    foldsOn call machine, fun f source elements found => stopsAtFailure found⟩
  refine pure.selection_agrees found ?_
  rintro matrix rfl
  rw [length_of_elements found]
  exact Matrix.size_lt_of_counted (shaped matrix rfl)

/-- What `not` is true of, among truth values. -/
def isUntrue : Value → Bool
  | .boolean truth => !truth
  | _ => true

theorem isPure_not : IsPure (callFunction (applyTo 1)) (.function (.builtin .not)) (.map ⟨0⟩) isUntrue
    (· = twoArrays) twoArrays where
  start := rfl
  unchanged between same ref _ := by rw [same]
  answers elements found element member between same := by
    have listed : elements = [.boolean true, .boolean false] :=
      (Option.some_inj.mp found).symm.trans (Record.values_ofList _)
    rw [listed, List.mem_cons, List.mem_singleton] at member
    rcases member with rfl | rfl
    · exact ⟨_, _, rfl, same, rfl⟩
    · exact ⟨_, _, rfl, same, rfl⟩

theorem collection_functions_agree_twoArrays :
    let call := callFunction (applyTo 1)
    let p := Value.function (.builtin .not)
    let fold (start source : Value) := run call .reduce [.function (.builtin .add), start, source]
    let row : Matrix := ⟨1, 1, #[.real 1]⟩
    (∃ result after, (run call .filter [p, .map ⟨0⟩]).run twoArrays = .ok result after ∧
      after.store.elements? result = some [.boolean false]) ∧
    (∃ joined, ∃ after : Machine,
      (run call .concat [.map ⟨0⟩, .map ⟨1⟩]).run twoArrays = .ok joined after ∧
      (fold (.real 0) joined).run after =
        (do fold (← fold (.real 0) (.map ⟨0⟩)) (.map ⟨1⟩)).run after) ∧
    (∃ joined, (run call .concat [.matrix row, .matrix row]).run twoArrays = .ok joined twoArrays ∧
      (fold (.real 0) joined).run twoArrays =
        (do fold (← fold (.real 0) (.matrix row)) (.matrix row)).run twoArrays) ∧
    StopsAtFailure call (.function (.builtin .raise)) (.map ⟨1⟩) [.real 2] twoArrays := by
  intro call p fold row
  obtain ⟨selection, -, folds, stops⟩ := collection_functions_agree call twoArrays
  refine ⟨?_, ?_, ?_, ?_⟩
  · obtain ⟨result, after, selected, ran, -, held, rfl, -⟩ :=
      selection p (.map ⟨0⟩) isUntrue (· = twoArrays) _ isPure_not rfl fun _ impossible => nomatch impossible
    refine ⟨result, after, ran, held.trans ?_⟩
    have listed : (twoArrays.store.record ⟨0⟩).values = [.boolean true, .boolean false] :=
      Record.values_ofList _
    rw [listed]
    rfl
  · have first : (twoArrays.store.record ⟨0⟩).isArray = true := by decide +kernel
    have second : (twoArrays.store.record ⟨1⟩).isArray = true := by decide +kernel
    obtain ⟨joined, after, ran, foldsOn⟩ := folds.arrays ⟨0⟩ ⟨1⟩ (by decide) (by decide) first second
    obtain ⟨_, _, ran', adds, -⟩ := run_concat_arrays call first second
    cases ran.symm.trans ran'
    have stored : 1 < after.store.maps.size := Nat.lt_of_lt_of_le (by decide) adds.size_le
    refine ⟨joined, after, ran, foldsOn _ (.real 0) fun acc between folded => ?_⟩
    exact (addsMaps_of_run_reduce_add rfl folded).record_eq stored
  · have whole : row.IsWhole := ⟨rfl, by decide, by decide, by decide⟩
    obtain ⟨joined, ran, foldsOn⟩ := folds.rows row row whole whole rfl rfl
    exact ⟨joined, ran, foldsOn _ (.real 0)⟩
  · have listed : twoArrays.store.elements? (.map ⟨1⟩) = some [.real 2] :=
      congrArg some (Record.values_ofList _)
    exact stops _ _ _ listed

/-- A function that changes an array which is still to be folded over. -/
def changingLater : String :=
  "a = values([1])\nb = values([2])\nf = (acc, x) => \x7b b.y = 100; return acc + x \x7d\n"

/-- Folding over one array may change the next one, which was read before if they were put together. -/
theorem folding_changes_later_array :
    printedBy (changingLater ++ "print(reduce(f, 0, concat(a, b)))") = "3\n" ∧
      printedBy (changingLater ++ "print(reduce(f, reduce(f, 0, a), b))") = "103\n" := by
  decide +kernel

end Library

end Reckon
