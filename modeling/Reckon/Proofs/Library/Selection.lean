import Reckon.Proofs.Library.Ordering
import Reckon.Proofs.Library.Turns

/-!
# Selection by a pure predicate

A predicate is pure on a collection if its calls leave the collection as it is, and say the same of an
element however often and in whatever order they are made.  The elements that such a predicate selects are
those that it is true of, and the functions that look for an element agree with that.
-/

namespace Reckon

namespace Eval

variable {α β : Type} {machine : Machine} {stays : Machine → Prop}

/-- Actions that give their values from all machines that stay as they should do so one after the other. -/
theorem run_mapM_of_stays {action : α → Eval β} {value : α → β} {items : List α}
    (each : ∀ item ∈ items, ∀ between, stays between →
      ∃ after, (action item).run between = .ok (value item) after ∧ stays after)
    (start : stays machine) :
    ∃ after, (items.mapM action).run machine = .ok (items.map value) after ∧ stays after := by
  induction items generalizing machine with
  | nil => exact ⟨machine, rfl, start⟩
  | cons first rest inductionHypothesis =>
      rw [List.forall_mem_cons] at each
      obtain ⟨between, ran, stayed⟩ := each.1 machine start
      obtain ⟨after, others, last⟩ := inductionHypothesis each.2 stayed
      refine ⟨after, ?_, last⟩
      rw [List.mapM_cons, bind_succeeds_iff]
      exact ⟨_, between, ran, bind_succeeds_iff.mpr ⟨_, after, others, rfl⟩⟩

end Eval

namespace Library

open Eval

/-- A predicate is pure on a collection: from all machines that stay as they should, it says of an element
what is true of it, and leaves such a machine again, on which the collection is the same. -/
structure IsPure (call : Caller) (p source : Value) (truth : Value → Bool) (stays : Machine → Prop)
    (machine : Machine) : Prop where
  start : stays machine
  unchanged : ∀ between, stays between →
    ∀ ref, source = .map ref → between.store.record ref = machine.store.record ref
  answers : ∀ elements, machine.store.elements? source = some elements → ∀ element ∈ elements,
    ∀ between, stays between → ∃ result after, (call p [element]).run between = .ok result after ∧
      stays after ∧ after.store.isTruthy result = truth element

/-- A value holds the selected elements of a collection, in order: in a row for a matrix, in an array for an
array, and under their keys for any other map. -/
def Selects (machine after : Machine) (source result : Value) (truth : Value → Bool) : Prop :=
  match source with
  | .matrix matrix => after.store.InLine source result (matrix.values.filter truth)
  | .map ref =>
      let record := machine.store.record ref
      if record.isArray then after.store.InLine source result (record.values.filter truth)
      else ∃ made, result = .map made ∧
        (after.store.record made).entries = record.entries.filter fun entry => truth entry.2
  | _ => False

variable {call : Caller} {p source result : Value} {truth : Value → Bool} {stays : Machine → Prop}
  {machine after : Machine} {elements : List Value}

theorem filterMap_zip_map {α : Type} (keep : α → Bool) (items : List α) :
    (items.zip (items.map keep)).filterMap (fun pair => if pair.2 then some pair.1 else none) =
      items.filter keep := by
  induction items with
  | nil => rfl
  | cons first rest inductionHypothesis =>
      cases kept : keep first with
      | false => simpa [kept] using inductionHypothesis
      | true => simpa [kept] using inductionHypothesis

theorem values_filter_entries (record : Record) (truth : Value → Bool) :
    (record.entries.filter fun entry => truth entry.2).map Prod.snd = record.values.filter truth := by
  rw [← record.values_entries, List.filter_map]
  rfl

theorem entries_ofEntries_filter (record : Record) (keep : String × Value → Bool) :
    (Record.ofEntries (record.entries.filter keep)).entries = record.entries.filter keep := by
  refine Record.entries_ofEntries (List.Nodup.sublist ?_ record.nodup_keys)
  rw [← record.keys_entries]
  exact (List.filter_sublist).map Prod.fst

/-- What a selection holds are the elements that were selected. -/
theorem elements?_of_selects (found : machine.store.elements? source = some elements)
    (selects : Selects machine after source result truth) :
    after.store.elements? result = some (elements.filter truth) := by
  cases source with
  | matrix matrix =>
      cases found
      have line : after.store.InLine (.matrix matrix) result (matrix.values.filter truth) := selects
      exact elements?_of_inLine line
  | map ref =>
      cases found
      rw [Selects] at selects
      split at selects
      · exact elements?_of_inLine selects
      · obtain ⟨made, rfl, entries⟩ := selects
        rw [Store.elements?, ← Record.values_entries, entries, values_filter_entries]
  | _ => cases found

namespace IsPure

/-- A predicate that is pure says what is true, at its turn. -/
theorem judges (pure : IsPure call p source truth stays machine)
    (found : machine.store.elements? source = some elements) {element : Value}
    (member : element ∈ elements) {between : Machine} (stayed : stays between) :
    ∃ after, (do isTruthy (← call p [element])).run between = .ok (truth element) after ∧
      stays after := by
  obtain ⟨result, after, ran, stayed, said⟩ := pure.answers elements found element member between stayed
  exact ⟨after, judged_succeeds_iff.mpr ⟨result, ran, said⟩, stayed⟩

theorem run_judge {ref : MapRef} (pure : IsPure call p (.map ref) truth stays machine) :
    ∃ after, (judge call p ref).run machine =
      .ok ((machine.store.record ref).entries.map fun entry => (entry.1, entry.2, truth entry.2))
        after ∧ stays after := by
  let record := machine.store.record ref
  let turn (key : String) : Eval (String × Value × Bool) := do
    let value := ((← Eval.store).record ref).get? key |>.getD .null
    return (key, value, ← isTruthy (← call p [value]))
  have each : ∀ key ∈ record.keys, ∀ between, stays between → ∃ after,
      (turn key).run between = .ok (key, record.valueAt key, truth (record.valueAt key)) after ∧
        stays after := by
    intro key member between stayed
    have inElements : record.valueAt key ∈ record.values := List.mem_map_of_mem member
    obtain ⟨after, said, stayed'⟩ := pure.judges rfl inElements stayed
    refine ⟨after, ?_, stayed'⟩
    have same : ((between.store.record ref).get? key).getD .null = record.valueAt key := by
      rw [pure.unchanged between stayed ref rfl]
      rfl
    have asked : turn key = (do
        let value := ((← Eval.store).record ref).get? key |>.getD .null
        let truth ← (do isTruthy (← call p [value]))
        return (key, value, truth)) := by
      simp only [turn, bind_assoc]
    rw [asked, bind_succeeds_iff]
    refine ⟨between.store, between, rfl, ?_⟩
    rw [same, bind_succeeds_iff]
    exact ⟨_, after, said, rfl⟩
  have start : (judge call p ref).run machine = (record.keys.mapM turn).run machine := rfl
  obtain ⟨after, ran, stayed⟩ := run_mapM_of_stays each pure.start
  refine ⟨after, ?_, stayed⟩
  rw [start, ran, Record.entries, List.map_map]
  rfl

theorem run_filter_matrix {matrix : Matrix} (pure : IsPure call p (.matrix matrix) truth stays machine)
    (few : matrix.values.length < 2 ^ 63) :
    ∃ result after, (filter call p (.matrix matrix)).run machine = .ok result after ∧
      Selects machine after (.matrix matrix) result truth := by
  obtain ⟨after, judged, -⟩ := run_mapM_of_stays (fun element member between stayed =>
    pure.judges rfl member stayed) pure.start
  refine ⟨Matrix.orNull (Matrix.rowVector? (matrix.values.filter truth)), after, ?_, ?_⟩
  · rw [filter, filterM_eq, bind_assoc, bind_succeeds_iff]
    refine ⟨matrix.values.map truth, after, judged, ?_⟩
    rw [pure_bind, filterMap_zip_map]
    rfl
  · have numeric : ∀ x ∈ matrix.values.filter truth, ∃ number, x = .number number := by
      intro x member
      obtain ⟨number, -, same⟩ := List.mem_map.mp (List.mem_filter.mp member).1
      exact ⟨number, same.symm⟩
    have line : after.store.InLine (.matrix matrix) _ (matrix.values.filter truth) :=
      inLine_row numeric ((List.length_filter_le truth _).trans_lt few)
    exact line

theorem run_filter_map {ref : MapRef} (pure : IsPure call p (.map ref) truth stays machine) :
    ∃ result after, (filter call p (.map ref)).run machine = .ok result after ∧
      Selects machine after (.map ref) result truth := by
  obtain ⟨middle, judged, -⟩ := pure.run_judge
  let record := machine.store.record ref
  let selected := record.entries.filter fun entry => truth entry.2
  have chosen : ((record.entries.map fun entry => (entry.1, entry.2, truth entry.2)).filterMap
      fun entry => if entry.2.2 then some (entry.1, entry.2.1) else none) = selected := by
    rw [List.filterMap_map]
    exact congrFun List.filterMap_eq_filter record.entries
  have gathered : (filter call p (.map ref)).run machine =
      (if record.isArray then Eval.newArray (selected.map Prod.snd)
        else newMap (.ofEntries selected) : Eval Value).run middle := by
    rw [Library.run_filter_map, EStateM.run_bind, judged, ← chosen]
    rfl
  rw [gathered]
  by_cases array : record.isArray = true
  · rw [if_pos array]
    refine ⟨_, _, rfl, ?_⟩
    rw [Selects, if_pos array, ← values_filter_entries]
    exact inLine_newArray ref _
  · rw [if_neg array]
    refine ⟨_, _, rfl, ?_⟩
    rw [Selects, if_neg array]
    refine ⟨_, rfl, ?_⟩
    have stored := Store.record_newMap middle.store (.ofEntries selected)
    exact (congrArg Record.entries stored).trans (entries_ofEntries_filter _ _)

theorem run_filter (pure : IsPure call p source truth stays machine)
    (found : machine.store.elements? source = some elements)
    (few : ∀ matrix, source = .matrix matrix → elements.length < 2 ^ 63) :
    ∃ result after, (run call .filter [p, source]).run machine = .ok result after ∧
      Selects machine after source result truth := by
  cases source with
  | matrix matrix =>
      cases found
      exact pure.run_filter_matrix (few matrix rfl)
  | map ref => exact pure.run_filter_map
  | _ => cases found

theorem run_decidedBy (pure : IsPure call p source truth stays machine)
    (found : machine.store.elements? source = some elements) (wanted : Bool) {listed : List Value}
    (within : ∀ element ∈ listed, element ∈ elements) {between : Machine} (stayed : stays between) :
    ∃ after, (decidedBy call p wanted listed).run between =
      .ok (listed.any fun element => truth element == wanted) after := by
  induction listed generalizing between with
  | nil => exact ⟨between, rfl⟩
  | cons first rest inductionHypothesis =>
      rw [List.forall_mem_cons] at within
      obtain ⟨result, after, ran, stayed', said⟩ :=
        pure.answers elements found first within.1 between stayed
      rw [run_decidedBy_cons, ran]
      dsimp only
      rw [said, List.any_cons]
      by_cases decided : truth first = wanted
      · rw [if_pos decided, decided, beq_self_eq_true, Bool.true_or]
        exact ⟨after, rfl⟩
      · rw [if_neg decided, beq_false_of_ne decided, Bool.false_or]
        exact inductionHypothesis within.2 stayed'

theorem run_quantifier (pure : IsPure call p source truth stays machine)
    (found : machine.store.elements? source = some elements) (wanted : Bool) :
    ∃ after, (run call (quantifier wanted) [p, source]).run machine =
      .ok (.boolean ((elements.any fun element => truth element == wanted) == wanted)) after := by
  obtain ⟨after, decided⟩ := pure.run_decidedBy found wanted (fun _ member => member) pure.start
  refine ⟨after, ?_⟩
  rw [Library.run_quantifier found, bind_succeeds_iff]
  exact ⟨_, after, decided, rfl⟩

/-- The functions that ask a pure predicate about elements agree on those that it selects. -/
theorem selection_agrees (pure : IsPure call p source truth stays machine)
    (found : machine.store.elements? source = some elements)
    (few : ∀ matrix, source = .matrix matrix → elements.length < 2 ^ 63) :
    ∃ result after selected, (run call .filter [p, source]).run machine = .ok result after ∧
      Selects machine after source result truth ∧
      after.store.elements? result = some selected ∧ selected = elements.filter truth ∧
      (∃ any last, (run call .anyOf [p, source]).run machine = .ok (.boolean any) last ∧
        (any = true ↔ selected ≠ [])) ∧
      ∃ all last, (run call .allOf [p, source]).run machine = .ok (.boolean all) last ∧
        (all = true ↔ selected.length = elements.length) := by
  obtain ⟨result, after, ran, selects⟩ := pure.run_filter found few
  obtain ⟨anyEnd, any⟩ := pure.run_quantifier found true
  obtain ⟨allEnd, all⟩ := pure.run_quantifier found false
  refine ⟨result, after, _, ran, selects, elements?_of_selects found selects, rfl,
    ⟨_, anyEnd, any, ?_⟩, _, allEnd, all, ?_⟩
  · rw [beq_true, ne_eq, List.filter_eq_nil_iff]
    simp
  · rw [List.length_filter_eq_length_iff]
    simp

end IsPure

end Library

end Reckon
