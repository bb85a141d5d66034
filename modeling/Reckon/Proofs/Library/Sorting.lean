import Mathlib.Order.Lattice
import Mathlib.Order.OrderDual
import Reckon.Library.Sorting

/-!
# Sorting permutes and is stable

Whatever the order is, and however it treats undecided pairs, sorting only moves elements around: each
step of it, from the insertion of one element to the rounds of merging, gives a permutation, unless it
compares two elements for ever.

Where the test compares ranks, each step of sorting puts its elements in the order of their ranks, and
elements of one rank keep the order they had.  A list that is in order and has the elements of each rank
in a given order is the only one, so sorting a sorted list changes nothing.
-/

namespace Reckon.Library

/-! ## Results -/

section Results

variable {α β : Type} {endless : Prop}

/-- A result is good, and there is none only if something has no end. -/
def Gives (found : Option α) (endless : Prop) (good : α → Prop) : Prop :=
  match found with
  | some result => good result
  | none => endless

theorem Gives.imp {found : Option α} {other : Prop} {good better : α → Prop}
    (gives : Gives found endless good) (still : endless → other)
    (implies : ∀ result, good result → better result) : Gives found other better := by
  cases found with
  | none => exact still gives
  | some result => exact implies result gives

theorem Gives.bind {found : Option α} {next : α → Option β} {middle : α → Prop} {good : β → Prop}
    (gives : Gives found endless middle) (goOn : ∀ result, middle result → Gives (next result) endless good) :
    Gives (found >>= next) endless good := by
  cases found with
  | none => exact gives
  | some result => exact goOn result gives

theorem Gives.exists {found : Option α} {good : α → Prop} (gives : Gives found False good) :
    ∃ result, found = some result ∧ good result := by
  cases found with
  | none => exact gives.elim
  | some result => exact ⟨result, rfl, gives⟩

end Results

/-! ## Permutations -/

section Permuting

variable {α : Type} (before : α → α → Option Bool)

/-- Comparing some two of the elements has no end. -/
def Endless (items : List α) : Prop :=
  ∃ x ∈ items, ∃ y ∈ items, before x y = none

variable {before}

theorem Endless.mono {items others : List α} (within : items ⊆ others) (endless : Endless before items) :
    Endless before others := by
  obtain ⟨x, member, y, member', noEnd⟩ := endless
  exact ⟨x, within member, y, within member', noEnd⟩

theorem Gives.within {β : Type} {found : Option β} {items others : List α} {good : β → Prop}
    (gives : Gives found (Endless before items) good) (within : items ⊆ others) :
    Gives found (Endless before others) good :=
  gives.imp (Endless.mono within) fun _ => id

theorem gives_compared {items : List α} {x y : α} (member : x ∈ items) (member' : y ∈ items) :
    Gives (before x y) (Endless before items) fun _ => True := by
  rcases compared : before x y with _ | answer
  · exact ⟨x, member, y, member', compared⟩
  · trivial

theorem gives_insertBackwards (x : α) (sorted : List α) :
    Gives (insertBackwards before x sorted) (Endless before (x :: sorted)) (·.Perm (x :: sorted)) := by
  induction sorted with
  | nil => exact List.Perm.refl _
  | cons y rest inductionHypothesis =>
      rw [insertBackwards]
      refine (gives_compared List.mem_cons_self (by simp)).bind fun answer _ => ?_
      cases answer with
      | false => exact List.Perm.refl _
      | true =>
          refine (inductionHypothesis.within ?_).bind fun inserted permuted => ?_
          · exact List.cons_subset_cons x (List.subset_cons_self y rest)
          · exact (permuted.cons y).trans (.swap x y rest)

theorem gives_insertionSort (items : List α) :
    Gives (insertionSort before items) (Endless before items) (·.Perm items) := by
  have onto (sorted : List α) :
      Gives (items.foldlM (fun sorted x => insertBackwards before x sorted) sorted)
        (Endless before (items ++ sorted)) (·.Perm (items ++ sorted)) := by
    induction items generalizing sorted with
    | nil => exact List.Perm.refl _
    | cons x rest inductionHypothesis =>
        rw [List.foldlM_cons]
        refine ((gives_insertBackwards x sorted).within ?_).bind fun inserted permuted => ?_
        · exact List.cons_subset_cons x (List.subset_append_right rest sorted)
        · have moved : (rest ++ inserted).Perm (x :: rest ++ sorted) :=
            (permuted.append_left rest).trans List.perm_middle
          exact (inductionHypothesis inserted).imp (Endless.mono moved.subset) fun _ => (·.trans moved)
  have all := onto []
  rw [List.append_nil] at all
  exact all.bind fun sorted permuted => (List.reverse_perm sorted).trans permuted

theorem take_cons_drop_perm (x : α) (items : List α) (place : Nat) :
    (items.take place ++ x :: items.drop place).Perm (x :: items) := by
  refine List.perm_middle.trans (.cons x ?_)
  rw [List.take_append_drop]

theorem halves_perm {firstLeft firstRight left right : List α} {cut rest : Nat}
    (first : firstLeft.Perm (left.take cut ++ right.take rest))
    (second : firstRight.Perm (left.drop cut ++ right.drop rest)) :
    (firstLeft ++ firstRight).Perm (left ++ right) := by
  refine (first.append second).trans ?_
  calc left.take cut ++ right.take rest ++ (left.drop cut ++ right.drop rest)
      = left.take cut ++ (right.take rest ++ left.drop cut ++ right.drop rest) := by
        simp only [List.append_assoc]
    List.Perm _ (left.take cut ++ (left.drop cut ++ right.take rest ++ right.drop rest)) :=
        .append_left _ (.append_right _ List.perm_append_comm)
    _ = left ++ right := by
        rw [List.append_assoc, List.take_append_drop, ← List.append_assoc, List.take_append_drop]

theorem gives_bisect {test : Nat → Option Bool} {endless : Prop}
    (answers : ∀ i, Gives (test i) endless fun _ => True) (low high : Nat) :
    Gives (bisect test low high) endless fun _ => True := by
  fun_induction bisect test low high with
  | case1 low high less middle first second =>
      refine (answers middle).bind fun answer _ => ?_
      cases answer with
      | false => exact second
      | true => exact first
  | case2 low high notLess => trivial

theorem gives_precedesAt {left right items : List α} (within : left ⊆ items) (within' : right ⊆ items)
    (i j : Nat) : Gives (precedesAt before left i right j) (Endless before items) fun _ => True := by
  rw [precedesAt]
  split
  · next found found' =>
    exact gives_compared (within (List.mem_of_getElem? found)) (within' (List.mem_of_getElem? found'))
  · trivial

theorem gives_symmetricMerge (bound : Nat) (left right : List α) :
    Gives (symmetricMerge before bound left right) (Endless before (left ++ right))
      (·.Perm (left ++ right)) := by
  have inLeft (left right : List α) : left ⊆ left ++ right := List.subset_append_left left right
  have inRight (left right : List α) : right ⊆ left ++ right := List.subset_append_right left right
  fun_induction symmetricMerge before bound left right with
  | case1 left right => exact List.Perm.refl _
  | case2 _ right => exact List.Perm.refl _
  | case3 _ left _ =>
      rw [List.append_nil]
      exact List.Perm.refl left
  | case4 _ x right _ =>
      refine Gives.bind (gives_bisect (fun i => ?_) _ _) fun place _ => take_cons_drop_perm x right place
      exact (gives_precedesAt (inRight _ _) (inLeft _ _) i 0).bind fun _ _ => trivial
  | case5 _ left y _ _ =>
      refine Gives.bind (gives_bisect (fun i => ?_) _ _) fun place _ => ?_
      · exact gives_precedesAt (inRight _ _) (inLeft _ _) 0 i
      · exact (take_cons_drop_perm y left place).trans (List.perm_append_singleton y left).symm
  | case6 bound left right _ _ _ _ first second =>
      refine Gives.bind (gives_bisect (fun i => ?_) _ _) fun cut _ => ?_
      · exact gives_precedesAt (inRight _ _) (inLeft _ _) _ i
      · refine ((first cut).within ?_).bind fun one permuted => ?_
        · exact List.append_subset.mpr ⟨List.subset_append_of_subset_left _ (List.take_subset _ _),
            List.subset_append_of_subset_right _ (List.take_subset _ _)⟩
        refine ((second cut).within ?_).bind fun other permuted' => ?_
        · exact List.append_subset.mpr ⟨List.subset_append_of_subset_left _ (List.drop_subset _ _),
            List.subset_append_of_subset_right _ (List.drop_subset _ _)⟩
        exact halves_perm permuted permuted'

theorem gives_merge (left right : List α) :
    Gives (merge before left right) (Endless before (left ++ right)) (·.Perm (left ++ right)) :=
  gives_symmetricMerge _ left right

theorem gives_mergePairs (blocks : List (List α)) :
    Gives (mergePairs before blocks) (Endless before blocks.flatten) (·.flatten.Perm blocks.flatten) := by
  fun_induction mergePairs before blocks with
  | case1 left right rest inductionHypothesis =>
      rw [List.flatten_cons, List.flatten_cons, ← List.append_assoc]
      refine ((gives_merge left right).within ?_).bind fun one permuted => ?_
      · exact List.subset_append_left _ _
      refine (inductionHypothesis.within ?_).bind fun others permuted' => ?_
      · exact List.subset_append_right _ _
      exact permuted.append permuted'
  | case2 blocks _ => exact List.Perm.refl _

theorem gives_mergeRounds (bound : Nat) (blocks : List (List α)) :
    Gives (mergeRounds before bound blocks) (Endless before blocks.flatten) (·.Perm blocks.flatten) := by
  fun_induction mergeRounds before bound blocks with
  | case1 blocks => exact List.Perm.refl _
  | case2 _ => exact List.Perm.refl _
  | case3 _ block =>
      rw [List.flatten_singleton]
      exact List.Perm.refl block
  | case4 bound blocks _ _ inductionHypothesis =>
      refine (gives_mergePairs blocks).bind fun pairs permuted => ?_
      exact (inductionHypothesis pairs).imp (Endless.mono permuted.subset) fun _ => (·.trans permuted)

theorem flatten_blocksOf {size : Nat} (positive : 0 < size) {bound : Nat} {items : List α}
    (enough : items.length ≤ bound) : (blocksOf size bound items).flatten = items := by
  induction bound generalizing items with
  | zero => rw [List.length_eq_zero_iff.mp (Nat.le_zero.mp enough), blocksOf, List.flatten_nil]
  | succ bound inductionHypothesis =>
      rw [blocksOf]
      split
      · next empty => rw [List.isEmpty_iff.mp empty, List.flatten_nil]
      · have shorter : (items.drop size).length ≤ bound := by
          rw [List.length_drop]
          omega
        rw [List.flatten_cons, inductionHypothesis shorter, List.take_append_drop]

theorem gives_blocks (blocks : List (List α)) :
    Gives (blocks.mapM (insertionSort before)) (Endless before blocks.flatten)
      (·.flatten.Perm blocks.flatten) := by
  induction blocks with
  | nil => exact List.Perm.refl _
  | cons block rest inductionHypothesis =>
      rw [List.mapM_cons, List.flatten_cons]
      refine ((gives_insertionSort block).within ?_).bind fun one permuted => ?_
      · exact List.subset_append_left _ _
      refine (inductionHypothesis.within ?_).bind fun others permuted' => ?_
      · exact List.subset_append_right _ _
      exact permuted.append permuted'

/-- Sorting only moves elements around, unless it compares two of them for ever. -/
theorem gives_sortStable (items : List α) :
    Gives (sortStable before items) (Endless before items) (·.Perm items) := by
  let blocks := blocksOf blockLength items.length items
  have whole : blocks.flatten = items := flatten_blocksOf (by decide) (Nat.le_refl _)
  have sorted : Gives (blocks.mapM (insertionSort before)) (Endless before blocks.flatten)
      (·.flatten.Perm blocks.flatten) := gives_blocks blocks
  rw [whole] at sorted
  refine sorted.bind fun blocks permuted => ?_
  exact (gives_mergeRounds blocks.length blocks).imp (Endless.mono permuted.subset) fun _ =>
    (·.trans permuted)

theorem sortStable_perm {items sorted : List α} (sorts : sortStable before items = some sorted) :
    sorted.Perm items := by
  have moved : Gives (sortStable before items) (Endless before items) (·.Perm items) :=
    gives_sortStable items
  rwa [sorts] at moved

end Permuting

variable {α β : Type} [LinearOrder β] {before : α → α → Option Bool} {rank : α → β}

/-! ## Arrangements -/

/-- Of these elements, one comes before another when it has the lower rank. -/
def Ranks (before : α → α → Option Bool) (rank : α → β) (items : List α) : Prop :=
  ∀ x ∈ items, ∀ y ∈ items, before x y = some (decide (rank x < rank y))

/-- The elements stand in the order of their ranks. -/
def InOrder (rank : α → β) (items : List α) : Prop :=
  items.Pairwise fun x y => rank x ≤ rank y

/-- The elements of each rank are the same in two lists, in the same order. -/
def KeepsTies (rank : α → β) (items others : List α) : Prop :=
  ∀ place, others.filter (rank · = place) = items.filter (rank · = place)

/-- A list has the elements of another one in order, with those of one rank left in their order. -/
structure Arranges (rank : α → β) (items arranged : List α) : Prop where
  inOrder : InOrder rank arranged
  keepsTies : KeepsTies rank items arranged

theorem Ranks.mono {items others : List α} (ranks : Ranks before rank items)
    (within : ∀ x ∈ others, x ∈ items) : Ranks before rank others :=
  fun x member y member' => ranks x (within x member) y (within y member')

namespace KeepsTies

variable {a b c d : List α}

theorem refl (a : List α) : KeepsTies rank a a :=
  fun _ => rfl

theorem trans (first : KeepsTies rank a b) (second : KeepsTies rank b c) : KeepsTies rank a c :=
  fun place => (second place).trans (first place)

theorem append (left : KeepsTies rank a b) (right : KeepsTies rank c d) :
    KeepsTies rank (a ++ c) (b ++ d) := by
  intro place
  rw [List.filter_append, List.filter_append, left, right]

/-- Parts without an element of the same rank can change places. -/
theorem append_comm (apart : ∀ x ∈ a, ∀ y ∈ b, rank x ≠ rank y) :
    KeepsTies rank (a ++ b) (b ++ a) := by
  intro place
  rw [List.filter_append, List.filter_append]
  rcases leftEmpty : a.filter (rank · = place) with _ | ⟨x, rest⟩
  · rw [List.append_nil, List.nil_append]
  · have inLeft : x ∈ a ∧ rank x = place := by
      simpa using List.mem_filter.mp (leftEmpty ▸ List.mem_cons_self : x ∈ a.filter (rank · = place))
    have none : b.filter (rank · = place) = [] := by
      rw [List.filter_eq_nil_iff]
      intro y member same
      exact apart x inLeft.1 y member (inLeft.2.trans (of_decide_eq_true same).symm)
    rw [none, List.append_nil, List.nil_append]

theorem mem_iff (same : KeepsTies rank a b) (x : α) : x ∈ b ↔ x ∈ a := by
  have filtered := congrArg (x ∈ ·) (same (rank x))
  simpa using filtered

theorem of_cons {x : α} (same : KeepsTies rank (x :: a) (x :: b)) : KeepsTies rank a b := by
  intro place
  have filtered := same place
  rw [List.filter_cons, List.filter_cons] at filtered
  split at filtered
  · exact List.cons.inj filtered |>.2
  · exact filtered

/-- Two lists in order with the same elements of each rank are the same. -/
theorem eq_of_inOrder (same : KeepsTies rank a b) (ordered : InOrder rank a)
    (ordered' : InOrder rank b) : b = a := by
  induction a generalizing b with
  | nil => exact List.eq_nil_iff_forall_not_mem.mpr fun x member => nomatch (same.mem_iff x).mp member
  | cons x rest inductionHypothesis =>
      rcases b with _ | ⟨y, others⟩
      · exact nomatch (same.mem_iff x).mpr List.mem_cons_self
      · rw [InOrder, List.pairwise_cons] at ordered ordered'
        have above : rank x ≤ rank y := by
          rcases List.mem_cons.mp ((same.mem_iff y).mp List.mem_cons_self) with rfl | later
          · exact le_rfl
          · exact ordered.1 y later
        have below : rank y ≤ rank x := by
          rcases List.mem_cons.mp ((same.mem_iff x).mpr List.mem_cons_self) with rfl | later
          · exact le_rfl
          · exact ordered'.1 x later
        have level : rank y = rank x := le_antisymm below above
        have heads := same (rank x)
        simp only [List.filter_cons, level, decide_true, if_true] at heads
        obtain rfl := (List.cons.inj heads).1
        rw [inductionHypothesis same.of_cons ordered.2 ordered'.2]

end KeepsTies

namespace Arranges

variable {a b c : List α}

theorem refl (ordered : InOrder rank a) : Arranges rank a a :=
  ⟨ordered, .refl a⟩

theorem of_keepsTies (same : KeepsTies rank a b) (arranges : Arranges rank b c) :
    Arranges rank a c :=
  ⟨arranges.inOrder, same.trans arranges.keepsTies⟩

end Arranges

/-! ## Insertion -/

theorem inserts_insertBackwards {x : α} {sorted : List α} (ranks : Ranks before rank (x :: sorted))
    (ordered : sorted.Pairwise fun y z => rank z ≤ rank y) :
    Gives (insertBackwards before x sorted) False fun inserted =>
      (inserted.Pairwise fun y z => rank z ≤ rank y) ∧ KeepsTies rank (x :: sorted) inserted := by
  induction sorted with
  | nil => exact ⟨List.pairwise_singleton _ _, .refl _⟩
  | cons y rest inductionHypothesis =>
      rw [insertBackwards, ranks x List.mem_cons_self y (List.mem_cons_of_mem _ List.mem_cons_self)]
      rw [List.pairwise_cons] at ordered
      by_cases below : rank x < rank y
      · rw [decide_eq_true below]
        have inner := inductionHypothesis (ranks.mono fun z => by simpa using .imp_right .inr) ordered.2
        change Gives (do return y :: (← insertBackwards before x rest)) False _
        refine inner.bind fun inserted ⟨ordered', kept⟩ => ⟨?_, ?_⟩
        · refine .cons (fun z member => ?_) ordered'
          rcases List.mem_cons.mp ((kept.mem_iff z).mp member) with rfl | old
          · exact below.le
          · exact ordered.1 z old
        · have swapped : KeepsTies rank ([x] ++ [y] ++ rest) ([y] ++ [x] ++ rest) :=
            (KeepsTies.append_comm (by simpa using below.ne)).append (.refl rest)
          exact swapped.trans ((KeepsTies.refl [y]).append kept)
      · rw [decide_eq_false below]
        refine ⟨.cons (fun z member => ?_) (List.pairwise_cons.mpr ordered), .refl _⟩
        rcases List.mem_cons.mp member with rfl | old
        · exact not_lt.mp below
        · exact (ordered.1 z old).trans (not_lt.mp below)

theorem inserts_foldlM {items sorted : List α} (ranks : Ranks before rank (items ++ sorted))
    (ordered : sorted.Pairwise fun y z => rank z ≤ rank y) :
    Gives (items.foldlM (fun sorted x => insertBackwards before x sorted) sorted) False fun inserted =>
      (inserted.Pairwise fun y z => rank z ≤ rank y) ∧
        KeepsTies rank (items.reverse ++ sorted) inserted := by
  induction items generalizing sorted with
  | nil => exact ⟨ordered, .refl _⟩
  | cons x rest inductionHypothesis =>
      have inner : Ranks before rank (x :: sorted) :=
        ranks.mono fun z => by simpa using .imp_right .inr
      rw [List.foldlM_cons]
      refine (inserts_insertBackwards inner ordered).bind fun inserted ⟨ordered', kept⟩ => ?_
      have within : ∀ z ∈ rest ++ inserted, z ∈ x :: rest ++ sorted := by
        intro z member
        rw [List.mem_append, kept.mem_iff, List.mem_cons] at member
        rw [List.cons_append, List.mem_cons, List.mem_append]
        exact or_left_comm.mp member
      refine (inductionHypothesis (ranks.mono within) ordered').imp id fun last ⟨ordered, keptMore⟩ => ?_
      refine ⟨ordered, ?_⟩
      rw [List.reverse_cons, List.append_assoc]
      exact ((KeepsTies.refl _).append kept).trans keptMore

theorem arranges_insertionSort {items : List α} (ranks : Ranks before rank items) :
    Gives (insertionSort before items) False (Arranges rank items) := by
  have inserted := inserts_foldlM ((List.append_nil items).symm ▸ ranks) List.Pairwise.nil
  refine inserted.bind fun sorted ⟨ordered, kept⟩ =>
    ⟨List.pairwise_reverse.mpr ordered, fun place => ?_⟩
  rw [List.filter_reverse, kept place, List.append_nil, List.filter_reverse, List.reverse_reverse]

/-! ## Searching by halving -/

/-- If a test that is once passed stays so, the search finds the point from which on it is passed. -/
theorem finds_bisect (test : Nat → Option Bool) {low high : Nat} (bounds : low ≤ high)
    (answers : ∀ i, low ≤ i → i < high → test i ≠ none)
    (stays : ∀ i j, low ≤ i → i ≤ j → j < high → test i = some true → test j = some true) :
    Gives (bisect test low high) False fun place => low ≤ place ∧ place ≤ high ∧
      (∀ i, low ≤ i → i < place → test i = some false) ∧
      ∀ i, place ≤ i → i < high → test i = some true := by
  fun_induction bisect test low high with
  | case1 low high less middle first second =>
      rcases answered : test middle with _ | answer
      · exact absurd answered (answers middle (by omega) (by omega))
      cases answer with
      | true =>
          refine (first (by omega) (fun i least below => answers i least (by omega)) fun i j least le below =>
            stays i j least le (by omega)).imp id fun place ⟨atLeast, atMost, failed, found⟩ => ?_
          refine ⟨atLeast, by omega, failed, fun i behind below => ?_⟩
          by_cases inFirst : i < middle
          · exact found i behind inFirst
          · exact stays middle i (by omega) (by omega) below answered
      | false =>
          have behind := second (by omega) (fun i least below => answers i (by omega) below)
            fun i j least le below => stays i j (by omega) le below
          refine behind.imp id fun place ⟨atLeast, atMost, failed, found⟩ => ?_
          refine ⟨by omega, atMost, fun i least below => ?_, found⟩
          by_cases inFirst : i ≤ middle
          · rcases here : test i with _ | answer
            · exact absurd here (answers i least (by omega))
            · cases answer with
              | false => rfl
              | true => exact absurd (stays i middle least inFirst (by omega) here) (by rw [answered]; nofun)
          · exact failed i (by omega) below
  | case2 low high notLess =>
      exact ⟨Nat.le_refl low, by omega, fun i _ _ => by omega, fun i _ _ => by omega⟩

theorem precedesAt_eq {left right : List α} {i j : Nat} (inLeft : i < left.length)
    (inRight : j < right.length) : precedesAt before left i right j = before left[i] right[j] := by
  rw [precedesAt, List.getElem?_eq_getElem inLeft, List.getElem?_eq_getElem inRight]

theorem InOrder.getElem_le {items : List α} (ordered : InOrder rank items) {i j : Nat} (le : i ≤ j)
    (below : j < items.length) : rank items[i] ≤ rank items[j] := by
  rcases Nat.eq_or_lt_of_le le with rfl | less
  · exact le_rfl
  · exact List.pairwise_iff_getElem.mp ordered i j _ _ less

/-! ## Merging -/

section Merging

variable {left right : List α} {cut rest : Nat}

theorem InOrder.sublist {items others : List α} (ordered : InOrder rank items)
    (within : others.Sublist items) : InOrder rank others :=
  List.Pairwise.sublist within ordered

theorem InOrder.take_le_drop {items : List α} (ordered : InOrder rank items) (n : Nat) :
    ∀ x ∈ items.take n, ∀ y ∈ items.drop n, rank x ≤ rank y := by
  rw [InOrder, ← List.take_append_drop n items, List.pairwise_append] at ordered
  exact ordered.2.2

theorem InOrder.insert {items : List α} (ordered : InOrder rank items) {x : α} {place : Nat}
    (lower : ∀ y ∈ items.take place, rank y ≤ rank x)
    (upper : ∀ y ∈ items.drop place, rank x ≤ rank y) :
    InOrder rank (items.take place ++ x :: items.drop place) := by
  refine List.pairwise_append.mpr ⟨ordered.sublist (List.take_sublist _ _),
    .cons upper (ordered.sublist (List.drop_sublist _ _)), fun y inTake z inRest => ?_⟩
  rcases List.mem_cons.mp inRest with rfl | inDrop
  · exact lower y inTake
  · exact ordered.take_le_drop place y inTake z inDrop

/-- A single element goes behind all elements of the right list that come before it. -/
theorem arranges_single_left {x : α} (ranks : Ranks before rank ([x] ++ right))
    (ordered : InOrder rank right) :
    let test (i : Nat) : Option Bool := do return !(← precedesAt before right i [x] 0)
    Gives (do
      let place ← bisect test 0 right.length
      return right.take place ++ x :: right.drop place) False (Arranges rank ([x] ++ right)) := by
  intro test
  have decided (i : Nat) (below : i < right.length) :
      test i = some (decide (rank x ≤ rank right[i])) := by
    have compared : precedesAt before right i [x] 0 = some (decide (rank right[i] < rank x)) := by
      rw [precedesAt_eq below (by simp)]
      exact ranks _ (by simp) _ (by simp)
    have answer : test i = some !decide (rank right[i] < rank x) :=
      congrArg (fun found : Option Bool => do return !(← found)) compared
    rw [answer, ← decide_not]
    exact congrArg some (decide_eq_decide.mpr not_lt)
  have searched := finds_bisect test (Nat.zero_le right.length)
    (fun i _ below => by rw [decided i below]; exact Option.some_ne_none _)
    fun i j _ le below passed => by
      rw [decided i (by omega), Option.some_inj, decide_eq_true_iff] at passed
      rw [decided j below, Option.some_inj, decide_eq_true_iff]
      exact passed.trans (ordered.getElem_le le below)
  refine searched.bind fun place ⟨_, _, failed, found⟩ => ?_
  have lower : ∀ y ∈ right.take place, rank y < rank x := by
    intro y inTake
    obtain ⟨i, less, rfl⟩ := List.mem_take_iff_getElem.mp inTake
    have notPassed := failed i (Nat.zero_le i) (by omega)
    rw [decided i (by omega), Option.some_inj, decide_eq_false_iff_not] at notPassed
    exact not_le.mp notPassed
  have upper : ∀ y ∈ right.drop place, rank x ≤ rank y := by
    intro y inDrop
    obtain ⟨i, less, rfl⟩ := List.mem_drop_iff_getElem.mp inDrop
    have passed := found (place + i) (Nat.le_add_right place i) (by omega)
    rwa [decided _ (by omega), Option.some_inj, decide_eq_true_iff] at passed
  refine ⟨ordered.insert (fun y inTake => (lower y inTake).le) upper, ?_⟩
  have moved : KeepsTies rank ([x] ++ right.take place ++ right.drop place)
      (right.take place ++ [x] ++ right.drop place) :=
    (KeepsTies.append_comm fun y single z inTake =>
      (List.mem_singleton.mp single ▸ lower z inTake).ne').append (.refl _)
  rwa [List.append_assoc, List.take_append_drop, List.append_assoc] at moved

/-- A single element goes before all elements of the left list that it comes before. -/
theorem arranges_single_right {y : α} (ranks : Ranks before rank (left ++ [y]))
    (ordered : InOrder rank left) :
    Gives (do
      let place ← bisect (fun i => precedesAt before [y] 0 left i) 0 left.length
      return left.take place ++ y :: left.drop place) False (Arranges rank (left ++ [y])) := by
  have decided (i : Nat) (below : i < left.length) :
      precedesAt before [y] 0 left i = some (decide (rank y < rank left[i])) := by
    rw [precedesAt_eq (by simp) below]
    exact ranks _ (by simp) _ (by simp)
  have searched := finds_bisect (fun i => precedesAt before [y] 0 left i) (Nat.zero_le left.length)
    (fun i _ below => by rw [decided i below]; exact Option.some_ne_none _)
    fun i j _ le below passed => by
      rw [decided i (by omega), Option.some_inj, decide_eq_true_iff] at passed
      rw [decided j below, Option.some_inj, decide_eq_true_iff]
      exact passed.trans_le (ordered.getElem_le le below)
  refine searched.bind fun place ⟨_, _, failed, found⟩ => ?_
  have lower : ∀ x ∈ left.take place, rank x ≤ rank y := by
    intro x inTake
    obtain ⟨i, less, rfl⟩ := List.mem_take_iff_getElem.mp inTake
    have notPassed := failed i (Nat.zero_le i) (by omega)
    rw [decided i (by omega), Option.some_inj, decide_eq_false_iff_not] at notPassed
    exact not_lt.mp notPassed
  have upper : ∀ x ∈ left.drop place, rank y < rank x := by
    intro x inDrop
    obtain ⟨i, less, rfl⟩ := List.mem_drop_iff_getElem.mp inDrop
    have passed := found (place + i) (Nat.le_add_right place i) (by omega)
    rwa [decided _ (by omega), Option.some_inj, decide_eq_true_iff] at passed
  refine ⟨ordered.insert lower fun x inDrop => (upper x inDrop).le, ?_⟩
  have moved : KeepsTies rank (left.take place ++ (left.drop place ++ [y]))
      (left.take place ++ ([y] ++ left.drop place)) :=
    (KeepsTies.refl _).append (.append_comm fun x inDrop z single =>
      (List.mem_singleton.mp single ▸ upper x inDrop).ne')
  rwa [← List.append_assoc, List.take_append_drop] at moved

/-- Two lists cut so that the first parts can stand before the second parts. -/
structure Separates (rank : α → β) (left right : List α) (cut rest : Nat) : Prop where
  above : ∀ x ∈ left.take cut, ∀ y ∈ right.drop rest, rank x ≤ rank y
  below : ∀ y ∈ right.take rest, ∀ x ∈ left.drop cut, rank y < rank x

/-- Two lists are arranged when their first parts and their second parts are. -/
theorem Separates.arranges (separates : Separates rank left right cut rest)
    (leftOrdered : InOrder rank left) (rightOrdered : InOrder rank right) {first second : List α}
    (firstArranged : Arranges rank (left.take cut ++ right.take rest) first)
    (secondArranged : Arranges rank (left.drop cut ++ right.drop rest) second) :
    Arranges rank (left ++ right) (first ++ second) where
  inOrder := by
    refine List.pairwise_append.mpr
      ⟨firstArranged.inOrder, secondArranged.inOrder, fun x inFirst y inSecond => ?_⟩
    rw [firstArranged.keepsTies.mem_iff, List.mem_append] at inFirst
    rw [secondArranged.keepsTies.mem_iff, List.mem_append] at inSecond
    rcases inFirst with inFirst | inFirst <;> rcases inSecond with inSecond | inSecond
    · exact leftOrdered.take_le_drop cut x inFirst y inSecond
    · exact separates.above x inFirst y inSecond
    · exact (separates.below x inFirst y inSecond).le
    · exact rightOrdered.take_le_drop rest x inFirst y inSecond
  keepsTies := by
    have apart : ∀ x ∈ left.drop cut, ∀ y ∈ right.take rest, rank x ≠ rank y :=
      fun x inLeft y inRight => (separates.below y inRight x inLeft).ne'
    have moved : KeepsTies rank
        (left.take cut ++ (left.drop cut ++ right.take rest) ++ right.drop rest)
        (left.take cut ++ (right.take rest ++ left.drop cut) ++ right.drop rest) :=
      ((KeepsTies.refl _).append (.append_comm apart)).append (.refl _)
    have parts : KeepsTies rank _ (first ++ second) := moved.trans (by
      simpa only [List.append_assoc] using firstArranged.keepsTies.append secondArranged.keepsTies)
    rwa [← List.append_assoc, List.take_append_drop, List.append_assoc, List.take_append_drop]
      at parts

/-- The cut of two longer lists: the elements that come from each of them make up the first half. -/
theorem separates_mergeCut (ranks : Ranks before rank (left ++ right))
    (leftOrdered : InOrder rank left) (rightOrdered : InOrder rank right) :
    Gives (mergeCut before left right) False fun cut =>
      cut ≤ (left.length + right.length) / 2 ∧
        Separates rank left right cut ((left.length + right.length) / 2 - cut) := by
  let half := (left.length + right.length) / 2
  have decided (count : Nat) (inRight : half - 1 - count < right.length)
      (inLeft : count < left.length) :
      precedesAt before right (half - 1 - count) left count =
        some (decide (rank right[half - 1 - count] < rank left[count])) := by
    rw [precedesAt_eq inRight inLeft]
    exact ranks _ (by simp) _ (by simp)
  have searched := finds_bisect (fun count => precedesAt before right (half - 1 - count) left count)
    (show half - right.length ≤ min half left.length by omega)
    (fun i least below => by
      rw [decided i (by omega) (by omega)]
      exact Option.some_ne_none _)
    fun i j least le below passed => by
      have inRight : half - 1 - i < right.length := by omega
      have inLeft : i < left.length := by omega
      have inRight' : half - 1 - j < right.length := by omega
      have inLeft' : j < left.length := by omega
      rw [decided i inRight inLeft, Option.some_inj, decide_eq_true_iff] at passed
      rw [decided j inRight' inLeft', Option.some_inj, decide_eq_true_iff]
      calc rank right[half - 1 - j]
          ≤ rank right[half - 1 - i] := rightOrdered.getElem_le (by omega) inRight
        _ < rank left[i] := passed
        _ ≤ rank left[j] := leftOrdered.getElem_le le inLeft'
  refine searched.imp id fun cut ⟨atLeast, atMost, failed, found⟩ => ?_
  refine ⟨by omega, fun x inTake y inDrop => ?_, fun y inTake x inDrop => ?_⟩
  · obtain ⟨i, less, rfl⟩ := List.mem_take_iff_getElem.mp inTake
    obtain ⟨j, less', rfl⟩ := List.mem_drop_iff_getElem.mp inDrop
    have inLeft : cut - 1 < left.length := by omega
    have inRight : half - 1 - (cut - 1) < right.length := by omega
    have notPassed := failed (cut - 1) (by omega) (by omega)
    rw [decided (cut - 1) inRight inLeft, Option.some_inj, decide_eq_false_iff_not, not_lt] at notPassed
    calc rank left[i] ≤ rank left[cut - 1] := leftOrdered.getElem_le (by omega) inLeft
      _ ≤ rank right[half - 1 - (cut - 1)] := notPassed
      _ ≤ rank right[half - cut + j] := rightOrdered.getElem_le (by omega) _
  · obtain ⟨j, less, rfl⟩ := List.mem_take_iff_getElem.mp inTake
    obtain ⟨i, less', rfl⟩ := List.mem_drop_iff_getElem.mp inDrop
    have inLeft : cut < left.length := by omega
    have inRight : half - 1 - cut < right.length := by omega
    have passed := found cut (Nat.le_refl cut) (by omega)
    rw [decided cut inRight inLeft, Option.some_inj, decide_eq_true_iff] at passed
    calc rank right[j] ≤ rank right[half - 1 - cut] := rightOrdered.getElem_le (by omega) inRight
      _ < rank left[cut] := passed
      _ ≤ rank left[cut + i] := leftOrdered.getElem_le (by omega) _

theorem arranges_symmetricMerge {bound : Nat} (enough : left.length + right.length ≤ bound)
    (ranks : Ranks before rank (left ++ right)) (leftOrdered : InOrder rank left)
    (rightOrdered : InOrder rank right) :
    Gives (symmetricMerge before bound left right) False (Arranges rank (left ++ right)) := by
  fun_induction symmetricMerge before bound left right with
  | case1 left right =>
      obtain rfl : left = [] := List.length_eq_zero_iff.mp (by omega)
      exact Arranges.refl rightOrdered
  | case2 _ right => exact Arranges.refl rightOrdered
  | case3 _ left _ =>
      rw [List.append_nil]
      exact Arranges.refl leftOrdered
  | case4 _ x right _ => exact arranges_single_left ranks rightOrdered
  | case5 _ left y _ _ => exact arranges_single_right ranks leftOrdered
  | case6 bound left right notNil notNil' notSingle notSingle' first second =>
      have long : 2 ≤ left.length := by
        rcases left with _ | ⟨x, _ | ⟨y, others⟩⟩
        · exact absurd rfl notNil
        · exact absurd rfl (notSingle x)
        · simp
      have long' : 2 ≤ right.length := by
        rcases right with _ | ⟨x, _ | ⟨y, others⟩⟩
        · exact absurd rfl notNil'
        · exact absurd rfl (notSingle' x)
        · simp
      refine (separates_mergeCut ranks leftOrdered rightOrdered).bind fun cut ⟨within, separates⟩ => ?_
      refine Gives.bind (first cut ?_ ?_ ?_ ?_) fun one arranged => ?_
      · simp only [List.length_take]
        omega
      · exact ranks.mono (List.append_subset.mpr
          ⟨fun x member => List.mem_append_left _ (List.mem_of_mem_take member),
            fun x member => List.mem_append_right _ (List.mem_of_mem_take member)⟩)
      · exact leftOrdered.sublist (List.take_sublist _ _)
      · exact rightOrdered.sublist (List.take_sublist _ _)
      refine Gives.bind (second cut ?_ ?_ ?_ ?_) fun other arranged' => ?_
      · simp only [List.length_drop]
        omega
      · exact ranks.mono (List.append_subset.mpr
          ⟨fun x member => List.mem_append_left _ (List.mem_of_mem_drop member),
            fun x member => List.mem_append_right _ (List.mem_of_mem_drop member)⟩)
      · exact leftOrdered.sublist (List.drop_sublist _ _)
      · exact rightOrdered.sublist (List.drop_sublist _ _)
      exact separates.arranges leftOrdered rightOrdered arranged arranged'

theorem arranges_merge (ranks : Ranks before rank (left ++ right)) (leftOrdered : InOrder rank left)
    (rightOrdered : InOrder rank right) :
    Gives (merge before left right) False (Arranges rank (left ++ right)) :=
  arranges_symmetricMerge (Nat.le_refl _) ranks leftOrdered rightOrdered

end Merging

/-! ## Rounds of merging -/

/-- Blocks in order take the place of other blocks, with half as many of them, rounded up. -/
structure Merged (rank : α → β) (blocks merged : List (List α)) : Prop where
  ordered : ∀ block ∈ merged, InOrder rank block
  keepsTies : KeepsTies rank blocks.flatten merged.flatten
  length_eq : merged.length = (blocks.length + 1) / 2

theorem merged_mergePairs {blocks : List (List α)} (ranks : Ranks before rank blocks.flatten)
    (ordered : ∀ block ∈ blocks, InOrder rank block) :
    Gives (mergePairs before blocks) False (Merged rank blocks) := by
  fun_induction mergePairs before blocks with
  | case1 left right rest inductionHypothesis =>
      simp only [List.flatten_cons, ← List.append_assoc] at ranks
      simp only [List.mem_cons, forall_eq_or_imp] at ordered
      have merged := arranges_merge (ranks.mono fun x => List.mem_append_left _) ordered.1 ordered.2.1
      refine merged.bind fun one arranged => ?_
      have others := inductionHypothesis (ranks.mono fun x => List.mem_append_right _) ordered.2.2
      refine others.bind fun pairs ⟨restOrdered, restKept, length⟩ => ⟨?_, ?_, ?_⟩
      · exact List.forall_mem_cons.mpr ⟨arranged.inOrder, restOrdered⟩
      · simp only [List.flatten_cons, ← List.append_assoc]
        exact arranged.keepsTies.append restKept
      · simp only [List.length_cons, length]
        omega
  | case2 blocks notTwo =>
      refine ⟨ordered, .refl _, ?_⟩
      rcases blocks with _ | ⟨left, _ | ⟨right, rest⟩⟩
      · simp
      · simp
      · exact absurd rfl (notTwo left right rest)

theorem arranges_mergeRounds {bound : Nat} {blocks : List (List α)} (enough : blocks.length ≤ bound)
    (ranks : Ranks before rank blocks.flatten) (ordered : ∀ block ∈ blocks, InOrder rank block) :
    Gives (mergeRounds before bound blocks) False (Arranges rank blocks.flatten) := by
  fun_induction mergeRounds before bound blocks with
  | case1 blocks =>
      rw [List.length_eq_zero_iff.mp (Nat.le_zero.mp enough)]
      exact Arranges.refl .nil
  | case2 _ => exact Arranges.refl .nil
  | case3 _ block =>
      rw [List.flatten_singleton]
      exact Arranges.refl (ordered block List.mem_cons_self)
  | case4 bound blocks notNil notSingle inductionHypothesis =>
      refine (merged_mergePairs ranks ordered).bind fun pairs ⟨pairsOrdered, kept, length⟩ => ?_
      have shorter : pairs.length ≤ bound := by
        rw [length]
        rcases blocks with _ | ⟨left, _ | ⟨right, rest⟩⟩
        · exact absurd rfl notNil
        · exact absurd rfl (notSingle left)
        · simp only [List.length_cons] at enough ⊢
          omega
      exact (inductionHypothesis pairs shorter (ranks.mono fun x => (kept.mem_iff x).mp) pairsOrdered).imp id
        fun _ => .of_keepsTies kept

theorem ordered_blocks {blocks : List (List α)} (ranks : Ranks before rank blocks.flatten) :
    Gives (blocks.mapM (insertionSort before)) False fun sorted =>
      (∀ block ∈ sorted, InOrder rank block) ∧ KeepsTies rank blocks.flatten sorted.flatten := by
  induction blocks with
  | nil => exact ⟨fun _ => nofun, .refl _⟩
  | cons block rest inductionHypothesis =>
      rw [List.flatten_cons] at ranks
      rw [List.mapM_cons]
      refine (arranges_insertionSort (ranks.mono fun x => List.mem_append_left _)).bind fun one arranged => ?_
      have others := inductionHypothesis (ranks.mono fun x => List.mem_append_right _)
      refine others.bind fun sorted ⟨ordered, kept⟩ => ⟨?_, ?_⟩
      · exact List.forall_mem_cons.mpr ⟨arranged.inOrder, ordered⟩
      · exact arranged.keepsTies.append kept

/-- Sorting puts the elements in order and leaves those of one rank in the order they had. -/
theorem arranges_sortStable {items : List α} (ranks : Ranks before rank items) :
    Gives (sortStable before items) False (Arranges rank items) := by
  let blocks := blocksOf blockLength items.length items
  have whole : blocks.flatten = items := flatten_blocksOf (by decide) (Nat.le_refl _)
  rw [← whole] at ranks
  refine (ordered_blocks ranks).bind fun sorted ⟨ordered, kept⟩ => ?_
  refine (arranges_mergeRounds (Nat.le_refl _) (ranks.mono fun x => (kept.mem_iff x).mp) ordered).imp id
    fun result arranged => ?_
  rw [← whole]
  exact arranged.of_keepsTies kept

/-- Sorting a list that is in order changes nothing. -/
theorem sortStable_eq_self {items : List α} (ranks : Ranks before rank items)
    (ordered : InOrder rank items) : sortStable before items = some items := by
  obtain ⟨sorted, ran, arranged⟩ := (arranges_sortStable ranks).exists
  rw [ran, arranged.keepsTies.eq_of_inOrder ordered arranged.inOrder]

/-! ## Extremes -/

/-- The first element of the lowest rank. -/
structure IsFirstLowest (rank : α → β) (items : List α) (top : α) : Prop where
  lowest : ∀ x ∈ items, rank top ≤ rank x
  first : (items.filter (rank · = rank top)).head? = some top

theorem IsFirstLowest.mem {items : List α} {top : α} (isFirstLowest : IsFirstLowest rank items top) :
    top ∈ items :=
  (List.mem_filter.mp (List.mem_of_mem_head? isFirstLowest.first)).1

theorem isFirstLowest_foldlM {top : α} {rest : List α} (ranks : Ranks before rank (top :: rest)) :
    Gives (rest.foldlM (fun top x => do return if ← before x top then x else top) top) False
      (IsFirstLowest rank (top :: rest)) := by
  induction rest generalizing top with
  | nil => exact ⟨by simp, by simp⟩
  | cons x rest inductionHypothesis =>
      rw [List.foldlM_cons, ranks x (by simp) top (by simp)]
      by_cases below : rank x < rank top
      · rw [decide_eq_true below]
        refine (inductionHypothesis (ranks.mono fun y => List.mem_cons_of_mem top)).imp id
          fun least ⟨lowest, first⟩ => ?_
        have under := (lowest x List.mem_cons_self).trans_lt below
        refine ⟨fun y member => ?_, ?_⟩
        · rcases List.mem_cons.mp member with rfl | later
          · exact under.le
          · exact lowest y later
        · rwa [List.filter_cons_of_neg (by simpa using under.ne')]
      · rw [decide_eq_false below]
        have within : ∀ y ∈ top :: rest, y ∈ top :: x :: rest := by
          simp +contextual [or_imp]
        refine (inductionHypothesis (ranks.mono within)).imp id fun least ⟨lowest, first⟩ => ?_
        have under := lowest top List.mem_cons_self
        refine ⟨fun y member => ?_, ?_⟩
        · rcases List.mem_cons.mp member with rfl | later
          · exact under
          · rcases List.mem_cons.mp later with rfl | last
            · exact under.trans (not_lt.mp below)
            · exact lowest y (List.mem_cons_of_mem _ last)
        · by_cases level : rank top = rank least
          · rw [List.filter_cons_of_pos (by simpa using level)] at first ⊢
            exact first
          · have higher := (under.lt_of_ne' level).trans_le (not_lt.mp below)
            rw [List.filter_cons_of_neg (by simpa using level)] at first ⊢
            rwa [List.filter_cons_of_neg (by simpa using higher.ne')]

theorem isFirstLowest_best {items : List α} (ranks : Ranks before rank items) (nonempty : items ≠ []) :
    ∃ top, best before items = some (some top) ∧ IsFirstLowest rank items top := by
  cases items with
  | nil => exact absurd rfl nonempty
  | cons first rest =>
      obtain ⟨top, found, isFirstLowest⟩ := (isFirstLowest_foldlM ranks).exists
      exact ⟨top, by rw [best, found]; rfl, isFirstLowest⟩

/-- The element that no later one beats is the first one in order. -/
theorem best_eq_head? {items arranged : List α} (ranks : Ranks before rank items)
    (arranges : Arranges rank items arranged) : best before items = some arranged.head? := by
  rcases eq_or_ne items [] with rfl | nonempty
  · have nothing := arranges.keepsTies
    rw [List.eq_nil_iff_forall_not_mem.mpr fun x member => nomatch (nothing.mem_iff x).mp member]
    rfl
  · obtain ⟨top, found, isFirstLowest⟩ := isFirstLowest_best ranks nonempty
    have member := (arranges.keepsTies.mem_iff top).mpr isFirstLowest.mem
    obtain ⟨lowest, first⟩ := isFirstLowest
    rw [← arranges.keepsTies] at first
    rcases arranged with _ | ⟨head, others⟩
    · cases first
    · have level : rank head = rank top := by
        refine le_antisymm ?_ (lowest head ((arranges.keepsTies.mem_iff head).mp List.mem_cons_self))
        rcases List.mem_cons.mp member with rfl | later
        · exact le_rfl
        · exact (List.pairwise_cons.mp arranges.inOrder).1 top later
      rw [List.filter_cons_of_pos (by simpa using level)] at first
      rw [found]
      exact congrArg some first.symm

/-- An element that no other one beats, in the other direction, has the rank of the last one in order. -/
theorem rank_best_eq_rank_getLast {beats : α → α → Option Bool} {items arranged : List α} {last : α}
    (ranks : Ranks beats (OrderDual.toDual ∘ rank) items) (arranges : Arranges rank items arranged)
    (atEnd : arranged.getLast? = some last) :
    ∃ top, best beats items = some (some top) ∧ top ∈ items ∧ rank top = rank last := by
  obtain ⟨others, rfl⟩ := List.getLast?_eq_some_iff.mp atEnd
  have lastMember := (arranges.keepsTies.mem_iff last).mp (by simp)
  obtain ⟨top, found, isFirstHighest⟩ := isFirstLowest_best ranks (List.ne_nil_of_mem lastMember)
  have member := isFirstHighest.mem
  refine ⟨top, found, member, le_antisymm ?_ (isFirstHighest.lowest last lastMember)⟩
  rcases List.mem_append.mp ((arranges.keepsTies.mem_iff top).mpr member) with inOthers | atLast
  · exact (List.pairwise_append.mp arranges.inOrder).2.2 top inOthers last List.mem_cons_self
  · rw [List.mem_singleton.mp atLast]

end Reckon.Library
