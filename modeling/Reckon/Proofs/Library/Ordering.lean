import Mathlib.Data.Set.List
import Mathlib.Data.String.Basic
import Reckon.Proofs.Decimal.Ordering
import Reckon.Proofs.Library.Arrays
import Reckon.Proofs.Operator.Verdict
import Reckon.Proofs.Value.Matrix

/-!
# Sorted collections and their extremes

Sorting, the least and the greatest element compare with the operators of the language.  On texts, and on
reals other than NaN, these operators compare ranks, so that sorting is stable and agrees with the scan for
the extremes.  On other elements sorting still only moves them around, if every comparison has an end.
-/

namespace Reckon

/-! ## Elements that can be compared -/

namespace Value

/-- A text that is not behind another text, or a real that is not above another real. -/
def AtMost : Value → Value → Prop
  | .string a, .string b => a ≤ b
  | .number (.real a), .number (.real b) => a ≤ b
  | _, _ => False

/-- Two texts or two reals compare equal. -/
def ties : Value → Value → Bool
  | .string a, .string b => a == b
  | .number (.real a), .number (.real b) => a == b
  | _, _ => false

/-- The elements are all texts, or all reals other than NaN. -/
def Comparable (elements : List Value) : Prop :=
  (∀ x ∈ elements, ∃ text, x = .string text) ∨
    ∀ x ∈ elements, ∃ number : Float, x = .real number ∧ number.isNaN = false

end Value

/-- A value has these items in line as its elements: it is a matrix with one row if it comes from a matrix,
and an array if it comes from a map. -/
def Store.InLine (store : Store) (source result : Value) (items : List Value) : Prop :=
  match source with
  | .matrix _ => ∃ numbers : List Number,
      result = .matrix ⟨1, numbers.length, numbers.toArray⟩ ∧ items = numbers.map .number
  | .map _ => ∃ ref, result = .map ref ∧ (store.record ref).isArray = true ∧
      (store.record ref).values = items
  | _ => False

namespace Library

variable {store : Store}

section Comparing

variable (onReals : Float → Float → Bool) (onStrings : String → String → Bool)

theorem holds_comparison_strings (a b : String) :
    holds store (Operator.comparison onReals onStrings) (.string a) (.string b) =
      some (onStrings a b) :=
  rfl

theorem holds_comparison_reals (a b : Float) :
    holds store (Operator.comparison onReals onStrings) (.real a) (.real b) =
      some (onReals a b) :=
  rfl

end Comparing

/-- How elements are ranked: both comparisons, the order and equality go by the ranks. -/
structure RanksValues {β : Type} [LinearOrder β] (store : Store) (rank : Value → β)
    (elements : List Value) : Prop where
  less : Ranks (holds store Operator.less) rank elements
  greater : Ranks (holds store Operator.greater) (OrderDual.toDual ∘ rank) elements
  atMost : ∀ x ∈ elements, ∀ y ∈ elements, x.AtMost y ↔ rank x ≤ rank y
  ties : ∀ x ∈ elements, ∀ y ∈ elements, x.ties y = decide (rank y = rank x)

theorem RanksValues.mono {β : Type} [LinearOrder β] {rank : Value → β} {elements others : List Value}
    (ranks : RanksValues store rank elements) (within : ∀ x ∈ others, x ∈ elements) :
    RanksValues store rank others where
  less := ranks.less.mono within
  greater := ranks.greater.mono within
  atMost x member y member' := ranks.atMost x (within x member) y (within y member')
  ties x member y member' := ranks.ties x (within x member) y (within y member')

/-- The place of a text in the order of all texts. -/
def textRank : Value → String
  | .string text => text
  | _ => ""

/-- The place of a real in the order of all reals. -/
def realRank : Value → ℤ ×ₗ ℤ ×ₗ ℤ
  | .number (.real number) => Decimal.rank number
  | _ => Decimal.rank 0

theorem ranksValues_texts {elements : List Value} (texts : ∀ x ∈ elements, ∃ text, x = .string text) :
    RanksValues store textRank elements where
  less x member y member' := by
    obtain ⟨a, rfl⟩ := texts x member
    obtain ⟨b, rfl⟩ := texts y member'
    exact holds_comparison_strings _ _ a b
  greater x member y member' := by
    obtain ⟨a, rfl⟩ := texts x member
    obtain ⟨b, rfl⟩ := texts y member'
    exact holds_comparison_strings _ _ a b
  atMost x member y member' := by
    obtain ⟨a, rfl⟩ := texts x member
    obtain ⟨b, rfl⟩ := texts y member'
    exact Iff.rfl
  ties x member y member' := by
    obtain ⟨a, rfl⟩ := texts x member
    obtain ⟨b, rfl⟩ := texts y member'
    rw [Value.ties, Bool.beq_eq_decide_eq]
    exact decide_eq_decide.mpr eq_comm

theorem ranksValues_reals {elements : List Value}
    (reals : ∀ x ∈ elements, ∃ number : Float, x = .real number ∧ number.isNaN = false) :
    RanksValues store realRank elements where
  less x member y member' := by
    obtain ⟨a, rfl, defined⟩ := reals x member
    obtain ⟨b, rfl, defined'⟩ := reals y member'
    rw [Operator.less, holds_comparison_reals]
    exact congrArg some (decide_eq_decide.mpr (Decimal.lt_iff_rank_lt defined defined'))
  greater x member y member' := by
    obtain ⟨a, rfl, defined⟩ := reals x member
    obtain ⟨b, rfl, defined'⟩ := reals y member'
    rw [Operator.greater, holds_comparison_reals]
    exact congrArg some (decide_eq_decide.mpr (Decimal.lt_iff_rank_lt defined' defined))
  atMost x member y member' := by
    obtain ⟨a, rfl, defined⟩ := reals x member
    obtain ⟨b, rfl, defined'⟩ := reals y member'
    exact Decimal.le_iff_rank_le defined defined'
  ties x member y member' := by
    obtain ⟨a, rfl, defined⟩ := reals x member
    obtain ⟨b, rfl, defined'⟩ := reals y member'
    rw [Bool.eq_iff_iff, decide_eq_true_iff]
    exact (Decimal.beq_iff_rank_eq defined defined').trans eq_comm

/-! ## Running -/

open Eval

section Running

variable {call : Caller} {machine : Machine} {source result : Value} {items elements : List Value}

theorem elements?_of_inLine (inLine : store.InLine source result items) :
    store.elements? result = some items := by
  cases source with
  | matrix _ =>
      obtain ⟨numbers, rfl, rfl⟩ := inLine
      rfl
  | map _ =>
      obtain ⟨ref, rfl, -, values⟩ := inLine
      exact congrArg some values
  | _ => cases inLine

/-- Numbers that come from a matrix make a row. -/
theorem inLine_row {matrix : Matrix} (numeric : ∀ x ∈ items, ∃ number, x = .number number)
    (few : items.length < 2 ^ 63) :
    store.InLine (.matrix matrix) (Matrix.orNull (Matrix.rowVector? items)) items := by
  have allNumbers : items ∈ {listed : List Value | ∀ x ∈ listed, x ∈ Set.range Value.number} :=
    fun x member => (numeric x member).imp fun _ same => same.symm
  rw [← Set.range_list_map] at allNumbers
  obtain ⟨numbers, rfl⟩ := allNumbers
  rw [List.length_map] at few
  have row := Matrix.ofValues?_numbers (Nat.one_mul numbers.length).symm
    ((Nat.one_mul numbers.length).trans_lt few)
  refine ⟨numbers, ?_, rfl⟩
  rw [Matrix.rowVector?, List.length_map]
  exact congrArg Matrix.orNull row

/-- Values that come from a map make a new array. -/
theorem inLine_newArray (ref : MapRef) (items : List Value) :
    ((StoreM.newArray items).run store).2.InLine (.map ref) ((StoreM.newArray items).run store).1
      items := by
  have stored : (store.newMap (.ofList items)).2.record (store.newMap (.ofList items)).1 =
      .ofList items :=
    Store.record_newMap _ _
  refine ⟨(store.newMap (.ofList items)).1, rfl, ?_, ?_⟩
  · exact (congrArg Record.isArray stored).trans (Record.isArray_ofList items)
  · exact (congrArg Record.values stored).trans (Record.values_ofList items)

theorem run_first (found : machine.store.elements? source = some elements) :
    (run call .first [source]).run machine = .ok (elements.head?.getD .null) machine := by
  have first : first machine.store source = elements.head?.getD .null := by
    rw [Library.first, found]
  exact congrArg (EStateM.Result.ok · machine) first

theorem run_last (found : machine.store.elements? source = some elements) :
    (run call .last [source]).run machine = .ok (elements.getLast?.getD .null) machine := by
  have last : last machine.store source = elements.getLast?.getD .null := by
    rw [Library.last, found]
  exact congrArg (EStateM.Result.ok · machine) last

theorem run_extreme {op : Cascade} {top : Option Value}
    (found : machine.store.elements? source = some elements)
    (scanned : best (holds machine.store op) elements = some top) :
    (follow (do extreme op (← collectionOf [source]))).run machine = .ok (top.getD .null) machine := by
  have ran : (do extreme op (← collectionOf [source]) : FollowM Value).run.run machine.store =
      (some (top.getD .null), machine.store) := by
    change (extreme op source).run.run machine.store = _
    rw [extreme, FollowM.run_get_bind]
    simp only [found, scanned]
    rfl
  rw [run_follow, ran]

theorem run_sort_follow (source : Value) :
    (run call .sort [source]).run machine = (follow (sort source)).run machine :=
  rfl

/-- Sorting gives the sorted elements, in a row for a matrix and in an array for a map. -/
theorem run_sort (found : machine.store.elements? source = some elements)
    (few : ∀ matrix, source = .matrix matrix → elements.length < 2 ^ 63)
    (sorts : sortStable (holds machine.store Operator.less) elements = some items) :
    ∃ result after, (run call .sort [source]).run machine = .ok result after ∧
      after.store.InLine source result items := by
  have permuted := sortStable_perm sorts
  rw [run_sort_follow, run_follow, run_sort_eq found, sorts]
  cases source with
  | matrix matrix =>
      obtain rfl : matrix.values = elements := Option.some_inj.mp found
      have numeric : ∀ x ∈ items, ∃ number, x = .number number := by
        intro x member
        obtain ⟨number, -, same⟩ := List.mem_map.mp (permuted.mem_iff.mp member)
        exact ⟨number, same.symm⟩
      exact ⟨_, _, rfl, inLine_row numeric (permuted.length_eq.trans_lt (few matrix rfl))⟩
  | map ref => exact ⟨_, _, rfl, inLine_newArray ref items⟩
  | _ => cases found

/-- Whatever its elements are, a collection that is sorted keeps them.  Sorting fails only by comparing two
elements for ever. -/
theorem ends_sortElements (found : machine.store.elements? source = some elements)
    (few : ∀ matrix, source = .matrix matrix → elements.length < 2 ^ 63) :
    Ends (run call .sort [source]) machine
      (fun result after => ∃ sorted, after.store.InLine source result sorted ∧ sorted.Perm elements)
      (RunsOut machine.store elements) := by
  have moved : Gives (sortStable (holds machine.store Operator.less) elements) _ _ :=
    gives_sortStable elements
  rcases sorts : sortStable (holds machine.store Operator.less) elements with _ | sorted
  · rw [sorts] at moved
    rw [Ends, run_sort_follow, run_follow, run_sort_eq found, sorts]
    exact ⟨rfl, exists_infinite_of_endless moved⟩
  · obtain ⟨result, after, ran, inLine⟩ := run_sort found few sorts
    rw [Ends, ran]
    exact ⟨sorted, inLine, sortStable_perm sorts⟩

/-- Sorting elements that can be compared: they are in order, those that compare equal keep their order,
sorting them again gives the same, the first one is the least element, and the last one ties with the
greatest.  Without elements, all these are null. -/
structure SortsWell (call : Caller) (machine : Machine) (source : Value) (elements : List Value)
    (result : Value) (after : Machine) (sorted : List Value) : Prop where
  inOrder : sorted.Pairwise Value.AtMost
  stable : ∀ x ∈ elements, sorted.filter x.ties = elements.filter x.ties
  again : ∃ again later, (run call .sort [result]).run after = .ok again later ∧
    later.store.InLine source again sorted
  least : ∃ least, (run call .min [source]).run machine = .ok least machine ∧
    (run call .first [result]).run after = .ok least after ∧ (elements = [] → least = .null)
  greatest : ∃ greatest last, (run call .max [source]).run machine = .ok greatest machine ∧
    (run call .last [result]).run after = .ok last after ∧
    if elements = [] then greatest = .null ∧ last = .null
    else greatest ∈ elements ∧ greatest.ties last = true

theorem inLine_trans {again : Value} {others : List Value} {later : Store}
    (first : store.InLine source result items) (second : later.InLine result again others) :
    later.InLine source again others := by
  cases source with
  | matrix matrix =>
      obtain ⟨numbers, rfl, -⟩ := first
      exact second
  | map ref =>
      obtain ⟨made, rfl, -⟩ := first
      exact second
  | _ => cases first

theorem exists_sortsWell {β : Type} [LinearOrder β] {rank : Value → β}
    (ranks : ∀ store, RanksValues store rank elements)
    (found : machine.store.elements? source = some elements)
    (few : ∀ matrix, source = .matrix matrix → elements.length < 2 ^ 63) :
    ∃ result after sorted, (run call .sort [source]).run machine = .ok result after ∧
      after.store.InLine source result sorted ∧ sorted.Perm elements ∧
      SortsWell call machine source elements result after sorted := by
  obtain ⟨sorted, sorts, arranged⟩ := (arranges_sortStable (ranks machine.store).less).exists
  obtain ⟨result, after, ran, inLine⟩ : ∃ result after,
      (run call .sort [source]).run machine = .ok result after ∧ after.store.InLine source result sorted :=
    run_sort found few sorts
  have permuted := sortStable_perm sorts
  have sortedRanks := (ranks after.store).mono fun x => permuted.mem_iff.mp
  have foundSorted := elements?_of_inLine inLine
  refine ⟨result, after, sorted, ran, inLine, permuted, ?inOrder, ?stable, ?again, ?least, ?greatest⟩
  case inOrder =>
    exact arranged.inOrder.imp_of_mem fun member member' =>
      (sortedRanks.atMost _ member _ member').mpr
  case stable =>
    intro x member
    have same : ∀ y ∈ elements, x.ties y = decide (rank y = rank x) :=
      fun y => (ranks machine.store).ties x member y
    rw [List.filter_congr same,
      List.filter_congr fun y inSorted => same y (permuted.mem_iff.mp inSorted)]
    exact arranged.keepsTies (rank x)
  case again =>
    have fewSorted : ∀ matrix, result = .matrix matrix → sorted.length < 2 ^ 63 := by
      rintro matrix rfl
      rw [permuted.length_eq]
      cases source with
      | matrix source => exact few source rfl
      | map _ =>
          obtain ⟨ref, impossible, -⟩ := inLine
          cases impossible
      | _ => cases inLine
    obtain ⟨again, later, ran, inLine'⟩ :=
      run_sort foundSorted fewSorted (sortStable_eq_self sortedRanks.less arranged.inOrder)
    exact ⟨again, later, ran, inLine_trans inLine inLine'⟩
  case least =>
    refine ⟨_, run_extreme found (best_eq_head? (ranks machine.store).less arranged),
      run_first foundSorted, ?_⟩
    rintro rfl
    rw [List.perm_nil.mp permuted]
    rfl
  case greatest =>
    rcases eq_or_ne elements [] with rfl | nonempty
    · obtain rfl := List.perm_nil.mp permuted
      exact ⟨.null, .null, run_extreme found rfl, run_last foundSorted, by simp⟩
    · have nonempty' : sorted ≠ [] := fun none => nonempty (List.perm_nil.mp (none ▸ permuted.symm))
      obtain ⟨last, atEnd⟩ := Option.ne_none_iff_exists'.mp (mt List.getLast?_eq_none_iff.mp nonempty')
      obtain ⟨top, greatest, member, level⟩ :=
        rank_best_eq_rank_getLast (ranks machine.store).greater arranged atEnd
      have lastMember := permuted.mem_iff.mp (List.mem_of_getLast? atEnd)
      refine ⟨top, last, run_extreme found greatest, ?_, ?_⟩
      · rw [run_last foundSorted, atEnd]
        rfl
      · rw [if_neg nonempty, (ranks machine.store).ties top member last lastMember]
        exact ⟨member, decide_eq_true level.symm⟩

/-- Sorting a matrix or a map gives its elements in line, unless one of them is not finite, and sorts them
well if they can be compared. -/
theorem sorting_agrees_with_extremes (call : Caller) (machine : Machine) {source : Value}
    {elements : List Value} (found : machine.store.elements? source = some elements)
    (shaped : ∀ matrix, source = .matrix matrix → matrix.IsShaped) :
    Ends (run call .sort [source]) machine
      (fun result after => ∃ sorted, after.store.InLine source result sorted ∧ sorted.Perm elements)
      (RunsOut machine.store elements) ∧
    (Value.Comparable elements → ∃ result after sorted,
      (run call .sort [source]).run machine = .ok result after ∧
      after.store.InLine source result sorted ∧ sorted.Perm elements ∧
      SortsWell call machine source elements result after sorted) := by
  have few : ∀ matrix, source = .matrix matrix → elements.length < 2 ^ 63 := by
    rintro matrix rfl
    rw [length_of_elements found]
    exact Matrix.size_lt_of_counted (shaped matrix rfl)
  refine ⟨ends_sortElements found few, ?_⟩
  rintro (texts | reals)
  · exact exists_sortsWell (fun _ => ranksValues_texts texts) found few
  · exact exists_sortsWell (fun _ => ranksValues_reals reals) found few

/-- The two zeros compare equal, so the greatest element of the row need not be the one that sorting puts
last. -/
theorem sorting_agrees_with_extremes_zeros :
    let zeros : Matrix := ⟨1, 3, #[.real 0, .real (-1), .real (-0)]⟩
    zeros.IsShaped ∧ Value.Comparable zeros.values ∧
      ∃ result after sorted,
        (run (fun _ _ => return .null) .sort [.matrix zeros]).run {} = .ok result after ∧
        after.store.InLine (.matrix zeros) result sorted ∧
        SortsWell (fun _ _ => return .null) {} (.matrix zeros) zeros.values result after sorted := by
  intro zeros
  have shaped : zeros.IsShaped := (Matrix.word_of_lt (by decide) (by decide)).symm
  have comparable : Value.Comparable zeros.values := by
    refine .inr fun x member => ?_
    have listed : x ∈ [Value.real 0, .real (-1), .real (-0)] := member
    rw [List.mem_cons, List.mem_cons, List.mem_singleton] at listed
    rcases listed with rfl | rfl | rfl
    · exact ⟨0, rfl, by decide⟩
    · exact ⟨-1, rfl, by decide⟩
    · exact ⟨-0, rfl, by decide⟩
  have found : ({} : Machine).store.elements? (.matrix zeros) = some zeros.values := rfl
  obtain ⟨-, sorts⟩ := sorting_agrees_with_extremes (fun _ _ => return .null) {} found
    fun matrix same => Value.matrix.inj same ▸ shaped
  obtain ⟨result, after, sorted, ran, inLine, -, sortsWell⟩ := sorts comparable
  exact ⟨shaped, comparable, result, after, sorted, ran, inLine, sortsWell⟩

end Running

end Library

end Reckon
