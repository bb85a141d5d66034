import Reckon.Proofs.Operator.Verdict

/-!
# Equality of all values

Equality of two finite values finds a truth value, a matrix of truth values or a map of findings, the same
in both orders, and inequality finds the opposite.  What it has no case for is not equal; but this holds
only of the values as a whole.  Where entries of two maps meet that equality has no case for, it finds
nothing, and the map holds null under their key.
-/

namespace Reckon

/-! ## Findings in a larger store -/

theorem Store.Shows.of_addsMaps {store after : Store} {verdict : Verdict} {value : Value}
    (shows : store.Shows verdict value) (adds : store.AddsMaps after) : after.Shows verdict value := by
  induction verdict generalizing value with
  | entries keys under inductionHypothesis =>
      obtain ⟨ref, rfl, stored, sameKeys, each⟩ := shows
      have sameRecord := adds.record_eq stored
      refine ⟨ref, rfl, Nat.lt_of_lt_of_le stored adds.size_le, by rw [sameRecord, sameKeys], ?_⟩
      intro key member
      rw [sameRecord]
      exact inductionHypothesis key (each key member)
  | _ => exact shows

/-! ## Maps of findings -/

/-- A map of values for keys shows what the values show. -/
theorem FollowM.yields_shown {store : Store} {f : String → FollowM Value} {under : String → Verdict}
    {keys : List String} (distinct : keys.Nodup)
    (each : ∀ key ∈ keys, ∀ after, store.AddsMaps after →
      Yields (f key) after fun value last => last.Shows (under key) value) :
    Yields (tabulate keys f) store fun value last => last.Shows (.entries keys under) value :=
  yields_tabulate (fun _ _ _ _ adds shows => shows.of_addsMaps adds) distinct each

/-! ## Entries that meet -/

namespace Store

variable {store after : Store} {x y : Value} {meeting : Meeting} {depth : Nat}

/-- A tree whose maps are nested no deeper than a depth. -/
structure IsTreeIn (store : Store) (depth : Nat) (value : Value) : Prop where
  tree : store.IsTree value
  fits : store.FitsIn depth value

theorem IsTreeIn.stored {ref : MapRef} (tree : store.IsTreeIn depth (.map ref)) :
    ref.index < store.maps.size := by
  cases tree.tree with
  | map stored _ => exact stored

theorem IsTreeIn.valueAt {ref : MapRef} {key : String} (tree : store.IsTreeIn (depth + 1) (.map ref))
    (member : key ∈ (store.record ref).keys) : store.IsTreeIn depth ((store.record ref).valueAt key) := by
  have known : (store.record ref).valueAt key ∈ (store.record ref).values := List.mem_map_of_mem member
  cases tree.tree with
  | map _ each => exact ⟨each _ known, tree.fits.2 _ known⟩

theorem IsTreeIn.of_scalar (scalar : x.isScalar = true) : store.IsTreeIn depth x := by
  rcases scalar_cases scalar with ⟨number, rfl⟩ | ⟨truth, rfl⟩ | ⟨text, rfl⟩
  · exact ⟨.number number, by cases depth <;> trivial⟩
  · exact ⟨.boolean truth, by cases depth <;> trivial⟩
  · exact ⟨.string text, by cases depth <;> trivial⟩

/-- Entries of trees that meet are trees that are nested less. -/
theorem IsTreeIn.of_meeting (xTree : store.IsTreeIn depth x) (yTree : store.IsTreeIn depth y)
    (meets : store.meeting? x y = some meeting) : ∃ less, depth = less + 1 ∧ meeting.keys.Nodup ∧
      ∀ key ∈ meeting.keys, store.IsTreeIn less (meeting.left key) ∧
        store.IsTreeIn less (meeting.right key) := by
  cases depth with
  | zero =>
      rcases meeting_cases meets with ⟨a, b, rfl, rfl, rfl⟩ | ⟨a, rfl, scalar, rfl⟩ | ⟨b, scalar, rfl, rfl⟩
      · exact xTree.fits.elim
      · exact xTree.fits.elim
      · exact yTree.fits.elim
  | succ less =>
      refine ⟨less, rfl, nodup_keys_of_meeting meets, fun key member => ?_⟩
      rcases meeting_cases meets with ⟨a, b, rfl, rfl, rfl⟩ | ⟨a, rfl, scalar, rfl⟩ | ⟨b, scalar, rfl, rfl⟩
      · obtain ⟨here, there⟩ := List.mem_filter.mp member
        exact ⟨xTree.valueAt here, yTree.valueAt (Record.contains_iff.mp there)⟩
      · exact ⟨xTree.valueAt member, .of_scalar scalar⟩
      · exact ⟨.of_scalar scalar, yTree.valueAt member⟩

end Store

/-! ## Equality entry by entry -/

open Operator (equalEach equalFlat findsSame_of_apart)

/-- What equality finds for two values whose maps are nested no deeper than a depth. -/
def Store.verdict (store : Store) : Nat → Value → Value → Verdict
  | 0, x, y => .ofValue (equalFlat x y)
  | depth + 1, x, y =>
      match store.meeting? x y with
      | some meeting =>
          .entries meeting.keys fun key => store.verdict depth (meeting.left key) (meeting.right key)
      | none => .ofValue (equalFlat x y)

namespace Store

variable {store after : Store} {x y : Value} {meeting : Meeting} {depth : Nat}

theorem verdict_of_meeting (meets : store.meeting? x y = some meeting) (depth : Nat) :
    store.verdict (depth + 1) x y =
      .entries meeting.keys fun key => store.verdict depth (meeting.left key) (meeting.right key) := by
  rw [verdict, meets]

theorem verdict_of_apart (apart : store.meeting? x y = none) :
    store.verdict depth x y = .ofValue (equalFlat x y) := by
  cases depth with
  | zero => rfl
  | succ depth => rw [verdict, apart]

theorem IsTreeIn.isShaped (tree : store.IsTreeIn depth x) :
    ∀ matrix, x = .matrix matrix → matrix.IsShaped := by
  rintro matrix rfl
  cases tree.tree with
  | matrix shaped => exact shaped

/-- Induction along the entries of two trees that meet. -/
theorem IsTreeIn.induction
    {motive : ∀ {x y depth}, store.IsTreeIn depth x → store.IsTreeIn depth y → Prop}
    (apart : ∀ {depth x y} (xTree : store.IsTreeIn depth x) (yTree : store.IsTreeIn depth y),
      store.meeting? x y = none → motive xTree yTree)
    (meets : ∀ {depth x y} {meeting : Meeting} (xTree : store.IsTreeIn (depth + 1) x)
      (yTree : store.IsTreeIn (depth + 1) y), store.meeting? x y = some meeting → meeting.keys.Nodup →
      (∀ key ∈ meeting.keys, ∃ (left : store.IsTreeIn depth (meeting.left key))
        (right : store.IsTreeIn depth (meeting.right key)), motive left right) → motive xTree yTree)
    (xTree : store.IsTreeIn depth x) (yTree : store.IsTreeIn depth y) : motive xTree yTree := by
  induction depth generalizing x y with
  | zero =>
      cases met : store.meeting? x y with
      | none => exact apart xTree yTree met
      | some meeting =>
          obtain ⟨less, none, -⟩ := xTree.of_meeting yTree met
          cases none
  | succ depth inductionHypothesis =>
      cases met : store.meeting? x y with
      | none => exact apart xTree yTree met
      | some meeting =>
          obtain ⟨less, same, distinct, trees⟩ := xTree.of_meeting yTree met
          cases same
          exact meets xTree yTree met distinct fun key member =>
            ⟨(trees key member).1, (trees key member).2, inductionHypothesis _ _⟩

theorem meeting_swap_none (apart : store.meeting? x y = none) : store.meeting? y x = none := by
  cases met : store.meeting? y x with
  | none => rfl
  | some meeting =>
      obtain ⟨swapped, swap, -⟩ := meeting_swap met
      cases apart.symm.trans swap

/-- The findings in both orders agree. -/
theorem verdict_agrees (xTree : store.IsTreeIn depth x) (yTree : store.IsTreeIn depth y) :
    (store.verdict depth x y).Agrees (store.verdict depth y x) := by
  induction xTree, yTree using IsTreeIn.induction with
  | apart xTree yTree apart =>
      rw [verdict_of_apart apart, verdict_of_apart (meeting_swap_none apart)]
      exact (findsSame_of_apart xTree.isShaped yTree.isShaped apart).agrees
  | meets _ _ meets _ inductionHypothesis =>
      obtain ⟨swapped, swap, sameKeys, left, right⟩ := meeting_swap meets
      rw [verdict_of_meeting meets, verdict_of_meeting swap, left, right]
      refine .entries sameKeys fun key member => ?_
      obtain ⟨-, -, agrees⟩ := inductionHypothesis key member
      exact agrees

theorem not_misses_of_meeting (meets : store.meeting? x y = some meeting) : ¬Misses x y := by
  rcases meeting_cases meets with ⟨a, b, rfl, rfl, -⟩ | ⟨a, rfl, scalar, -⟩ | ⟨b, scalar, rfl, -⟩
  · rintro ⟨⟩
  · rintro (_ | _ | _ | _ | ⟨_, numeric⟩)
    · cases scalar
    · cases numeric
  · rintro ⟨⟩
    cases scalar

theorem missesAt_of_meeting (meets : store.meeting? x y = some meeting) : store.MissesAt x y ↔
    ∃ key ∈ meeting.keys, store.MissesAt (meeting.left key) (meeting.right key) := by
  constructor
  · rintro (misses | ⟨met, member, misses⟩)
    · exact absurd misses (not_misses_of_meeting meets)
    · cases meets.symm.trans met
      exact ⟨_, member, misses⟩
  · rintro ⟨key, member, misses⟩
    exact .inside meets member misses

theorem missesAt_of_apart (apart : store.meeting? x y = none) : store.MissesAt x y ↔ Misses x y := by
  refine ⟨?_, .here⟩
  rintro (misses | ⟨met, -, -⟩)
  · exact misses
  · cases apart.symm.trans met

/-- Nothing is missed where nothing misses. -/
theorem isFull_verdict (xTree : store.IsTreeIn depth x) (yTree : store.IsTreeIn depth y) :
    (store.verdict depth x y).IsFull ↔ ¬store.MissesAt x y := by
  induction xTree, yTree using IsTreeIn.induction with
  | apart xTree yTree apart =>
      rw [verdict_of_apart apart, missesAt_of_apart apart]
      exact (findsSame_of_apart xTree.isShaped yTree.isShaped apart).forth.full
  | meets _ _ meets _ inductionHypothesis =>
      rw [verdict_of_meeting meets, missesAt_of_meeting meets, Verdict.IsFull]
      simp only [not_exists, not_and]
      refine forall₂_congr fun key member => ?_
      obtain ⟨-, -, full⟩ := inductionHypothesis key member
      exact full

end Store

/-! ## Running equality -/

section Runs

open FollowM
open Operator (equal notEqual notScalar)

variable {store after : Store} {x y value : Value} {verdict : Verdict} {depth : Nat}

/-- The run of equality shows what it finds. -/
theorem yields_applyTo (xTree : store.IsTreeIn depth x) (yTree : store.IsTreeIn depth y)
    (adds : store.AddsMaps after) :
    Yields (equalEach.applyTo (depth + 1) x y) after fun value last =>
      last.Shows (store.verdict depth x y) value := by
  induction xTree, yTree using Store.IsTreeIn.induction generalizing after with
  | apart xTree yTree apart =>
      have finds := (findsSame_of_apart xTree.isShaped yTree.isShaped apart).forth
      rw [Store.verdict_of_apart apart, equalEach.applyTo_of_apart _ apart]
      exact yields_pure (finds.shows after)
  | meets xTree yTree meets distinct inductionHypothesis =>
      have stored {z : Value} {depth : Nat} (tree : store.IsTreeIn depth z) :
          ∀ ref, z = .map ref → ref.index < store.maps.size := by
        rintro ref rfl
        exact tree.stored
      have meets' := (Store.meeting_of_addsMaps (stored xTree) (stored yTree) adds).trans meets
      rw [Store.verdict_of_meeting meets, Cascade.applyTo, Cascade.onMatrices?_of_meeting equalEach meets]
      refine (yields_shown distinct fun key member last more => ?_).congr
        (Cascade.run_onMaps equalEach _ meets')
      obtain ⟨-, -, yields⟩ := inductionHypothesis key member
      exact yields (adds.trans more)

/-! ## Negation -/

theorem mapCells?_notScalar {rows cols : Nat} {truths : List Bool}
    (shaped : (Matrix.ofTruths rows cols truths).IsShaped) :
    (Matrix.ofTruths rows cols truths).mapCells? (fun cell => notScalar (.number cell)) =
      some (.ofTruths rows cols (truths.map (!·))) := by
  have each : (Matrix.ofTruths rows cols truths).cells.toList.map (fun cell => notScalar (.number cell)) =
      (truths.map (!·)).map .boolean := by
    rw [Matrix.ofTruths, List.toList_toArray, List.map_map, List.map_map]
    refine List.map_congr_left fun truth _ => ?_
    exact congrArg (fun truthy => Value.boolean !truthy) (Number.isTruthy_ofTruth truth)
  rw [Matrix.mapCells?, each]
  refine Operator.ofValues?_booleans shaped ?_
  rw [List.length_map, Operator.size_ofTruths]

/-- The run of negation shows the opposite. -/
theorem yields_liftTo (shows : store.Shows verdict value) (fits : store.FitsIn depth value)
    (adds : store.AddsMaps after) :
    Yields (liftTo notScalar depth value) after fun result last =>
      last.Shows verdict.negated result := by
  induction verdict generalizing depth value after with
  | missed =>
      obtain rfl := shows
      cases depth <;> exact yields_pure rfl
  | truth truth =>
      obtain rfl := shows
      cases depth <;> exact yields_pure rfl
  | cells rows cols truths =>
      obtain ⟨rfl, shaped⟩ := shows
      have step : liftTo notScalar depth (.matrix (.ofTruths rows cols truths)) =
          pure (Matrix.orNull ((Matrix.ofTruths rows cols truths).mapCells? fun cell =>
            notScalar (.number cell))) := by cases depth <;> rfl
      have negated : (Matrix.ofTruths rows cols (truths.map (!·))).IsShaped := by
        rw [Operator.isShaped_ofTruths_iff] at shaped ⊢
        rw [List.length_map, shaped]
      rw [step, mapCells?_notScalar shaped]
      refine yields_pure ?_
      rw [Verdict.negated, Store.shows_cells]
      exact ⟨rfl, negated⟩
  | entries keys under inductionHypothesis =>
      obtain ⟨ref, rfl, stored, rfl, each⟩ := shows
      obtain ⟨less, rfl, fitsEach⟩ := fits.valueAt
      have sameRecord := adds.record_eq stored
      have each := yields_shown (store.record ref).nodup_keys fun key member last more =>
        inductionHypothesis key (each key member) (fitsEach key member) (adds.trans more)
      refine each.congr ?_
      rw [← sameRecord]
      exact Cascade.run_liftTo_map notScalar less ref after

theorem exists_fitsIn_of_shows (shows : store.Shows verdict value) : ∃ depth, store.FitsIn depth value := by
  induction verdict generalizing value with
  | missed =>
      obtain rfl := shows
      exact ⟨0, trivial⟩
  | truth truth =>
      obtain rfl := shows
      exact ⟨0, trivial⟩
  | cells rows cols truths =>
      obtain ⟨rfl, -⟩ := shows
      exact ⟨0, trivial⟩
  | entries keys under inductionHypothesis =>
      obtain ⟨ref, rfl, stored, rfl, each⟩ := shows
      have all : ∀ value ∈ (store.record ref).values, ∃ depth, store.FitsIn depth value := by
        intro value member
        obtain ⟨key, known, rfl⟩ := List.mem_map.mp member
        exact inductionHypothesis key (each key known)
      obtain ⟨depth, fits⟩ := Store.exists_forall_fitsIn all
      exact ⟨depth + 1, stored, fits⟩

/-! ## Equality and inequality -/

/-- Values that equality has no case for are not equal. -/
def Verdict.answer : Verdict → Verdict
  | missed => truth false
  | other => other

theorem Verdict.answer_ne_missed (verdict : Verdict) : verdict.answer ≠ .missed := by
  cases verdict <;> nofun

theorem Verdict.truth?_answer (verdict : Verdict) : verdict.answer.truth? = verdict.truth? := by
  cases verdict <;> rfl

theorem Verdict.isFull_answer_ofValue (value : Value) : (ofValue value).answer.IsFull := by
  cases value <;> trivial

theorem Verdict.Agrees.answer {left right : Verdict} (agrees : left.Agrees right) :
    left.answer.Agrees right.answer := by
  cases agrees with
  | truth leftTruth rightTruth =>
      exact .truth (left.truth?_answer.trans leftTruth) (right.truth?_answer.trans rightTruth)
  | cells rows cols truths => exact .cells rows cols truths
  | entries sameKeys each => exact .entries sameKeys each

/-- Nothing is missed in the answer where nothing misses among the entries that meet. -/
theorem Store.isFull_answer (xTree : store.IsTreeIn depth x) (yTree : store.IsTreeIn depth y) :
    (store.verdict depth x y).answer.IsFull ↔ ∀ meeting, store.meeting? x y = some meeting →
      ∀ key ∈ meeting.keys, ¬store.MissesAt (meeting.left key) (meeting.right key) := by
  cases met : store.meeting? x y with
  | none =>
      rw [verdict_of_apart met]
      exact iff_of_true (Verdict.isFull_answer_ofValue _) nofun
  | some meeting =>
      obtain ⟨less, rfl, -⟩ := xTree.of_meeting yTree met
      have unchanged : (store.verdict (less + 1) x y).answer = store.verdict (less + 1) x y := by
        rw [verdict_of_meeting met]
        rfl
      rw [unchanged, isFull_verdict xTree yTree, missesAt_of_meeting met]
      simp only [not_exists, not_and]
      constructor
      · rintro none _ ⟨⟩
        exact none
      · exact fun none => none meeting rfl

/-- The run of equality. -/
theorem yields_equal (enough : store.pairing = depth + 1) (xTree : store.IsTreeIn depth x)
    (yTree : store.IsTreeIn depth y) :
    Yields (equal x y) store fun value last => last.Shows (store.verdict depth x y).answer value := by
  have run : (equalEach.apply x y).run.run store = (equalEach.applyTo (depth + 1) x y).run.run store := by
    rw [← enough, Cascade.run_apply]
  refine ((yields_applyTo xTree yTree (.refl store)).congr run).bind fun value after adds shows => ?_
  cases found : store.verdict depth x y with
  | missed =>
      rw [found, Store.shows_missed] at shows
      obtain rfl := shows
      exact yields_pure (Store.shows_truth.mpr rfl)
  | truth truth =>
      rw [found, Store.shows_truth] at shows
      obtain rfl := shows
      exact yields_pure (Store.shows_truth.mpr rfl)
  | cells rows cols truths =>
      rw [found] at shows
      obtain ⟨rfl, shaped⟩ := Store.shows_cells.mp shows
      exact yields_pure shows
  | entries keys under =>
      rw [found] at shows
      obtain ⟨ref, rfl, -⟩ := Store.shows_entries.mp shows
      exact yields_pure shows

/-- The run of inequality. -/
theorem yields_notEqual (enough : store.pairing = depth + 1) (xTree : store.IsTreeIn depth x)
    (yTree : store.IsTreeIn depth y) :
    Yields (notEqual x y) store fun value last =>
      last.Shows (store.verdict depth x y).answer.negated value := by
  refine (yields_equal enough xTree yTree).bind fun value after adds shows => ?_
  obtain ⟨_, fits⟩ := exists_fitsIn_of_shows shows
  exact yields_liftTo shows fits.nesting (.refl after)

/-- Equality of two finite values finds something, the same in both orders, and inequality the opposite.
Nothing is missed in it unless entries that meet have no case. -/
theorem equality_finds (xTree : store.IsTree x) (yTree : store.IsTree y) :
    ∃ verdict reversed,
      Yields (equal x y) store (fun value last => last.Shows verdict value) ∧
      Yields (equal y x) store (fun value last => last.Shows reversed value) ∧
      Yields (notEqual x y) store (fun value last => last.Shows verdict.negated value) ∧
      verdict ≠ .missed ∧ verdict.Agrees reversed ∧
      (verdict.IsFull ↔ ∀ meeting, store.meeting? x y = some meeting →
        ∀ key ∈ meeting.keys, ¬store.MissesAt (meeting.left key) (meeting.right key)) := by
  obtain ⟨_, xFits⟩ := xTree.exists_fitsIn
  obtain ⟨_, yFits⟩ := yTree.exists_fitsIn
  obtain ⟨depth, enough, deep⟩ := store.exists_pairing
  have xIn : store.IsTreeIn depth x := ⟨xTree, xFits.size.mono (Nat.le_of_succ_le_succ deep)⟩
  have yIn : store.IsTreeIn depth y := ⟨yTree, yFits.size.mono (Nat.le_of_succ_le_succ deep)⟩
  exact ⟨_, _, yields_equal enough xIn yIn, yields_equal enough yIn xIn, yields_notEqual enough xIn yIn,
    Verdict.answer_ne_missed _, (Store.verdict_agrees xIn yIn).answer, Store.isFull_answer xIn yIn⟩

/-- A map with a number and one with a string under the same key. -/
def numberAndString : Store where
  maps := #[.ofEntries [("a", .number (.real 1))], .ofEntries [("a", .string "x")]]

theorem isTree_numberAndString (ref : MapRef) (stored : ref.index < 2) :
    numberAndString.IsTree (.map ref) := by
  refine .map stored ?_
  obtain ⟨index⟩ := ref
  match index, stored with
  | 0, _ =>
      have values : (numberAndString.record ⟨0⟩).values = [.number (.real 1)] := by rfl
      rw [values, List.forall_mem_singleton]
      exact .number _
  | 1, _ =>
      have values : (numberAndString.record ⟨1⟩).values = [.string "x"] := by rfl
      rw [values, List.forall_mem_singleton]
      exact .string _

/-- Equality of two maps misses an entry from one side and finds it unequal from the other. -/
theorem equality_misses_entry :
    let shown (left right : Nat) :=
      let (found, after) := (equal (.map ⟨left⟩) (.map ⟨right⟩)).run.run numberAndString
      found.map after.render
    (∀ index < 2, numberAndString.IsTree (.map ⟨index⟩)) ∧
      shown 0 1 = some "\x7ba: null\x7d" ∧ shown 1 0 = some "\x7ba: false\x7d" :=
  ⟨fun index stored => isTree_numberAndString ⟨index⟩ stored, by decide +kernel, by decide +kernel⟩

end Runs

end Reckon
