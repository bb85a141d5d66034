import Reckon.Proofs.Data.Basic
import Reckon.Proofs.Session.Keeping
import Reckon.Proofs.Value.Matrix

/-!
# Trees that denote data

A tree denotes data if evaluating it gives a value that holds the data, on any machine.  Evaluating such a
tree changes nothing but the store, to which it only adds maps.
-/

namespace Reckon

/-! ## Runs that add maps -/

namespace Eval

variable {α β : Type} {action : Eval α} {machine : Machine}

/-- A run gives a result that is related to the store, and at most adds maps to the store. -/
def Forms (action : Eval α) (machine : Machine) (post : α → Store → Prop) : Prop :=
  ∃ result after, action.run machine = .ok result { machine with store := after } ∧
    machine.store.AddsMaps after ∧ post result after

theorem forms_pure {result : α} {post : α → Store → Prop} (satisfied : post result machine.store) :
    Forms (pure result) machine post :=
  ⟨result, machine.store, rfl, .refl _, satisfied⟩

theorem Forms.bind {next : α → Eval β} {middle : α → Store → Prop} {post : β → Store → Prop}
    (forms : Forms action machine middle)
    (goOn : ∀ result store, machine.store.AddsMaps store → middle result store →
      Forms (next result) { machine with store } post) :
    Forms (action >>= next) machine post := by
  obtain ⟨result, store, ran, adds, satisfied⟩ := forms
  obtain ⟨last, after, ranOn, addsMore, finished⟩ := goOn result store adds satisfied
  refine ⟨last, after, ?_, adds.trans addsMore, finished⟩
  rw [EStateM.run_bind, ran]
  exact ranOn

theorem forms_newMap {record : Record} {post : Value → Store → Prop}
    (satisfied : post (.map (machine.store.newMap record).1) (machine.store.newMap record).2) :
    Forms (newMap record) machine post :=
  ⟨_, _, rfl, machine.store.addsMaps_newMap record, satisfied⟩

end Eval

open Eval

/-- Evaluating a tree gives a value that holds some data. -/
structure Expr.Denotes (tree : Expr) (data : Data) : Prop where
  present : tree.isEmpty = false
  forms : ∀ apply machine, (tree.eval apply).Forms machine fun value store => store.Holds data value

/-! ## Lists of trees -/

variable {α : Type} {items : List α} {meaning : α → Data}

theorem forms_evalAll {trees : List Expr}
    (denote : List.Forall₂ (fun item tree => tree.Denotes (meaning item)) items trees)
    (apply : Applier) (machine : Machine) :
    (Expr.evalAll apply trees).Forms machine fun values store =>
      List.Forall₂ (fun item value => store.Holds (meaning item) value) items values := by
  induction denote generalizing machine with
  | nil =>
      exact forms_pure .nil
  | cons first _ inductionHypothesis =>
      rw [Expr.evalAll]
      refine (first.forms apply machine).bind fun value store _ held => ?_
      refine (inductionHypothesis _).bind fun values later adds heldRest => ?_
      exact forms_pure (.cons (held.of_addsMaps adds) heldRest)

theorem forms_evalRows {rows : List (List α)} {trees : List (List Expr)}
    (denote : List.Forall₂ (List.Forall₂ fun item tree => tree.Denotes (meaning item)) rows trees)
    (apply : Applier) (machine : Machine) :
    (Expr.evalRows apply trees).Forms machine fun values store =>
      List.Forall₂ (List.Forall₂ fun item value => store.Holds (meaning item) value) rows values := by
  induction denote generalizing machine with
  | nil =>
      exact forms_pure .nil
  | cons first _ inductionHypothesis =>
      rw [Expr.evalRows]
      refine (forms_evalAll first apply machine).bind fun value store _ held => ?_
      refine (inductionHypothesis _).bind fun values later adds heldRest => ?_
      refine forms_pure (.cons (held.imp fun _ _ cell => cell.of_addsMaps adds) heldRest)

theorem forms_evalEntries {key : α → String} {entries : List Entry}
    (denote : List.Forall₂ (fun item entry => ∃ span tree,
      entry = .property span (key item) tree ∧ tree.Denotes (meaning item)) items entries)
    (apply : Applier) (machine : Machine) :
    (Entry.evalAll apply entries).Forms machine fun pairs store =>
      List.Forall₂ (fun item pair => pair.1 = key item ∧ store.Holds (meaning item) pair.2)
        items pairs := by
  induction denote generalizing machine with
  | nil =>
      exact forms_pure .nil
  | cons first _ inductionHypothesis =>
      obtain ⟨span, tree, rfl, denotes⟩ := first
      rw [Entry.evalAll]
      refine (denotes.forms apply machine).bind fun value store _ held => ?_
      refine (inductionHypothesis _).bind fun pairs later adds heldRest => ?_
      exact forms_pure (.cons ⟨rfl, held.of_addsMaps adds⟩ heldRest)

/-! ## Literals -/

namespace Expr

/-- The data that a literal other than a number denotes. -/
theorem denotes_constant {data : Data} {value : Literal} (span : Span)
    (held : ∀ store : Store, store.Holds data (literal value)) :
    (constant span value).Denotes data where
  present := rfl
  forms _ _ := forms_pure (held _)

theorem denotes_ofNat (span : Span) {whole : Whole} {size : Nat} (same : whole.value = size) :
    (constant span (.number (Decimal.ofNat size))).Denotes (.whole whole) := by
  have small := Decimal.lt_of_lt_wholeBound whole.small
  refine denotes_constant span fun store => .whole ⟨_, rfl, ?_⟩
  rw [same, Decimal.toInt?_ofNat (by omega)]

/-- The opposite of a whole number. -/
theorem denotes_negate (span : Span) {operand : Expr} {whole opposite : Whole}
    (denotes : operand.Denotes (.whole whole)) (same : opposite.value = -whole.value) :
    (unary span .negate operand).Denotes (.whole opposite) where
  present := rfl
  forms apply machine := by
    rw [eval]
    refine (denotes.forms apply machine).bind fun value store _ held => ?_
    cases held with
    | whole isNumber =>
        obtain ⟨x, rfl, isWhole⟩ := isNumber
        have opposed := Decimal.toInt?_neg isWhole (Decimal.lt_of_lt_wholeBound whole.small)
        exact ⟨.real (-x), store, rfl, .refl store, .whole ⟨-x, rfl, by rw [opposed, same]⟩⟩

end Expr

/-! ## Matrices -/

theorem exists_numbers_of_holds {store : Store} {row : List Whole} {values : List Value}
    (held : List.Forall₂ (fun whole value => store.Holds (.whole whole) value) row values) :
    ∃ numbers : List Number, values = numbers.map .number ∧
      List.Forall₂ Whole.IsNumber row numbers := by
  induction held with
  | nil =>
      exact ⟨[], rfl, .nil⟩
  | cons first _ inductionHypothesis =>
      obtain ⟨numbers, rfl, same⟩ := inductionHypothesis
      cases first with
      | @whole _ number isNumber => exact ⟨number :: numbers, rfl, .cons isNumber same⟩

theorem exists_rows_of_holds {store : Store} {rows : List (List Whole)}
    {values : List (List Value)}
    (held : List.Forall₂ (List.Forall₂ fun whole value => store.Holds (.whole whole) value)
      rows values) :
    ∃ numbers : List (List Number), values = numbers.map (List.map .number) ∧
      List.Forall₂ (List.Forall₂ Whole.IsNumber) rows numbers := by
  induction held with
  | nil =>
      exact ⟨[], rfl, .nil⟩
  | cons first _ inductionHypothesis =>
      obtain ⟨numbers, rfl, same⟩ := inductionHypothesis
      obtain ⟨row, rfl, sameRow⟩ := exists_numbers_of_holds first
      exact ⟨row :: numbers, rfl, .cons sameRow same⟩

theorem flatMap_spliced_numbers (row : List Number) :
    (row.map Value.number).flatMap spliced = row.map .number := by
  induction row with
  | nil =>
      rfl
  | cons number rest inductionHypothesis =>
      rw [List.map_cons, List.flatMap_cons, inductionHypothesis]
      rfl

theorem length_flatten_of_forall {rows : List (List α)} {cols : Nat}
    (length : ∀ row ∈ rows, row.length = cols) : rows.flatten.length = rows.length * cols := by
  induction rows with
  | nil =>
      simp
  | cons row rest inductionHypothesis =>
      obtain ⟨rowLength, restLength⟩ := List.forall_mem_cons.mp length
      rw [List.flatten_cons, List.length_append, rowLength, inductionHypothesis restLength,
        List.length_cons, Nat.succ_mul, Nat.add_comm]

/-- Rows of numbers that all have the same length are a matrix. -/
theorem matrixLiteral_numbers {rows : List (List Number)} {cols : Nat} (nonempty : rows ≠ [])
    (length : ∀ row ∈ rows, row.length = cols) (countable : rows.length * cols < Nat.pow 2 63) :
    matrixLiteral (rows.map (List.map .number)) =
      pure (.matrix ⟨rows.length, cols, rows.flatten.toArray⟩) := by
  have spliced : (rows.map (List.map Value.number)).map (fun row => row.flatMap spliced) =
      rows.map (List.map .number) := by
    rw [List.map_map]
    exact List.map_congr_left fun row _ => flatMap_spliced_numbers row
  have whole := Matrix.ofValues?_numbers (length_flatten_of_forall length) countable
  rw [List.map_flatten] at whole
  cases rows with
  | nil =>
      exact absurd rfl nonempty
  | cons first rest =>
      obtain ⟨firstLength, restLength⟩ := List.forall_mem_cons.mp length
      have numeric : ((first :: rest).map (List.map Value.number)).all (·.all Value.isNumeric) =
          true := by
        simp [Value.isNumeric]
      have even : (rest.map (List.map Value.number)).all (·.length == cols) = true := by
        simp only [List.all_map, List.all_eq_true, Function.comp, List.length_map, beq_iff_eq]
        exact restLength
      rw [matrixLiteral, spliced]
      simp only [List.map_cons, List.length_cons, List.length_map, firstLength] at numeric whole ⊢
      simp only [numeric, even, Bool.and_self, if_true, whole]

theorem length_of_forall₂ {wholes : List (List Whole)} {numbers : List (List Number)} {cols : Nat}
    (same : List.Forall₂ (List.Forall₂ Whole.IsNumber) wholes numbers)
    (length : ∀ row ∈ wholes, row.length = cols) : ∀ row ∈ numbers, row.length = cols := by
  induction same with
  | nil =>
      simp
  | cons first _ inductionHypothesis =>
      obtain ⟨firstLength, restLength⟩ := List.forall_mem_cons.mp length
      have sameLength := first.length_eq
      exact List.forall_mem_cons.mpr ⟨by omega, inductionHypothesis restLength⟩

theorem Expr.denotes_matrix (span : Span) {grid : Grid} {rows : List (List Expr)}
    (denote : List.Forall₂ (List.Forall₂ fun whole tree => tree.Denotes (.whole whole))
      grid.rows rows) : (matrix span rows).Denotes (.matrix grid) where
  present := rfl
  forms apply machine := by
    rw [eval]
    refine (forms_evalRows denote apply machine).bind fun values store _ held => ?_
    obtain ⟨numbers, rfl, same⟩ := exists_rows_of_holds held
    have sameLength := same.length_eq
    have nonempty : numbers ≠ [] := by
      have some := List.length_pos_of_ne_nil grid.rows_ne_nil
      exact List.ne_nil_of_length_pos (by omega)
    have length := length_of_forall₂ same grid.length_of_mem
    have literal := matrixLiteral_numbers nonempty length (sameLength ▸ grid.countable)
    rw [literal]
    exact ⟨.matrix ⟨numbers.length, grid.cols, numbers.flatten.toArray⟩, store, rfl, .refl store,
      .matrix sameLength.symm rfl (List.rel_flatten same)⟩

/-- An object with different keys. -/
theorem Expr.denotes_object (span : Span) {keys : List Key} (distinct : (keys.map Key.text).Nodup)
    {data : {key // key ∈ keys} → Data} {entries : List Entry}
    (denote : List.Forall₂ (fun key entry => ∃ place tree,
      entry = .property place key.1.text tree ∧ tree.Denotes (data key)) keys.attach entries) :
    (object span entries).Denotes (.map keys distinct data) where
  present := rfl
  forms apply machine := by
    rw [eval]
    refine (forms_evalEntries denote apply machine).bind fun pairs store _ held => ?_
    have listed : keys.map Key.text = keys.attach.map fun key => key.1.text := by simp
    have sameKeys : pairs.map Prod.fst = keys.map Key.text := by
      rw [listed, map_eq_of_forall₂ held fun _ _ pair => pair.1]
    have pairsDistinct : (pairs.map Prod.fst).Nodup := by rwa [sameKeys]
    have stored : (Record.ofEntries pairs).entries = pairs := Record.entries_ofEntries pairsDistinct
    have recordKeys : (Record.ofEntries pairs).keys = keys.map Key.text := by
      rw [← Record.keys_entries, stored, sameKeys]
    refine forms_newMap (.map ?_ ?_ fun key => ?_)
    · simp [Store.newMap]
    · rw [Store.record_newMap, recordKeys]
    · have adds := store.addsMaps_newMap (Record.ofEntries pairs)
      rw [Store.record_newMap]
      refine Store.Holds.of_addsMaps ?_ adds
      rw [← stored, Record.entries, recordKeys, listed, List.map_map, List.forall₂_map_right_iff,
        List.forall₂_same] at held
      exact (held key (List.mem_attach _ key)).2

end Reckon
