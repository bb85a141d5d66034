import Reckon.Proofs.Operator.Verdict

/-!
# Sameness of values

Two finite values are the same when they are built in the same way from the same numbers, texts and
references, whatever the order of keys.  Sameness is symmetric and transitive.  It is reflexive but for
complex numbers with an undefined part, which differ from themselves, while undefined reals do not.
-/

namespace Reckon

/-! ## Numbers -/

namespace Number

/-- No part of a complex number is undefined. -/
def HasDefinedParts : Number → Prop
  | real _ => True
  | complex z => z.re.isNaN = false ∧ z.im.isNaN = false

variable {x y z : Number}

theorem isNaN_eq_false_iff {x : Float} : x.isNaN = false ↔ (x == x) = true := by
  rw [Float.isNaN_eq_decide_eq_nan, decide_eq_false_iff_not, Float.beq_self_iff]

theorem isNaN_of_beq {x y : Float} (equal : (x == y) = true) : x.isNaN = false ∧ y.isNaN = false := by
  obtain ⟨left, right, -⟩ := Float.beq_iff_ne_nan_and_eq.mp equal
  simp [Float.isNaN_eq_decide_eq_nan, left, right]

theorem identical_self_iff (x : Number) : x.identical x = true ↔ x.HasDefinedParts := by
  cases x with
  | real x =>
      rw [identical, HasDefinedParts, iff_true]
      by_cases undefined : x.isNaN = true
      · rw [undefined, Bool.and_self, Bool.or_true]
      · rw [isNaN_eq_false_iff.mp (Bool.eq_false_of_not_eq_true undefined), Bool.true_or]
  | complex z =>
      rw [identical, HasDefinedParts, Complex.isEqual, Bool.and_eq_true, isNaN_eq_false_iff,
        isNaN_eq_false_iff]

theorem identical_symm (same : x.identical y = true) : y.identical x = true := by
  cases x <;> cases y
  · rwa [identical, BEq.comm, Bool.and_comm]
  · cases same
  · cases same
  · rwa [identical, Complex.isEqual_comm]

/-- Two numbers that are the same are both real or both complex. -/
theorem identical_cases (same : x.identical y = true) :
    (∃ a b, x = real a ∧ y = real b ∧ ((a == b) = true ∨ a.isNaN = true ∧ b.isNaN = true)) ∨
      ∃ a b : Complex, x = complex a ∧ y = complex b ∧ (a.re == b.re) = true ∧ (a.im == b.im) = true := by
  cases x <;> cases y
  · rw [identical, Bool.or_eq_true, Bool.and_eq_true] at same
    exact .inl ⟨_, _, rfl, rfl, same⟩
  · cases same
  · cases same
  · rw [identical, Complex.isEqual, Bool.and_eq_true] at same
    exact .inr ⟨_, _, rfl, rfl, same⟩

theorem identical_trans (first : x.identical y = true) (second : y.identical z = true) :
    x.identical z = true := by
  rcases identical_cases first with ⟨a, b, rfl, rfl, left⟩ | ⟨a, b, rfl, rfl, left⟩ <;>
    rcases identical_cases second with ⟨_, c, same, rfl, right⟩ | ⟨_, c, same, rfl, right⟩ <;>
    cases same
  · rw [identical, Bool.or_eq_true, Bool.and_eq_true]
    rcases left with equal | ⟨aUndefined, bUndefined⟩ <;>
      rcases right with equal' | ⟨bUndefined', cUndefined⟩
    · exact .inl (BEq.trans equal equal')
    · cases (isNaN_of_beq equal).2.symm.trans bUndefined'
    · cases (isNaN_of_beq equal').1.symm.trans bUndefined
    · exact .inr ⟨aUndefined, cUndefined⟩
  · rw [identical, Complex.isEqual, Bool.and_eq_true]
    exact ⟨BEq.trans left.1 right.1, BEq.trans left.2 right.2⟩

end Number

/-! ## Values -/

/-- Values that hold no other values and are compared as they are. -/
def Value.IsPlain : Value → Prop
  | null | boolean _ | string _ | function _ | future _ => True
  | number _ | matrix _ | map _ => False

/-- Two values are built in the same way from the same parts. -/
inductive Store.Same (store : Store) : Value → Value → Prop
  | plain {value : Value} : value.IsPlain → Same store value value
  | number {x y : Number} : x.identical y = true → Same store (.number x) (.number y)
  | matrix {left right : Matrix} : left.sameShape right = true →
      List.Forall₂ (fun x y => x.identical y = true) left.cells.toList right.cells.toList →
      Same store (.matrix left) (.matrix right)
  | map {left right : MapRef} : (store.record left).size = (store.record right).size →
      (∀ key ∈ (store.record left).keys, key ∈ (store.record right).keys) →
      (∀ key ∈ (store.record left).keys,
        Same store ((store.record left).valueAt key) ((store.record right).valueAt key)) →
      Same store (.map left) (.map right)

/-- A number occurs in a value. -/
inductive Store.Contains (store : Store) : Value → Number → Prop
  | number (number : Number) : Contains store (.number number) number
  | cell {matrix : Matrix} {number : Number} : number ∈ matrix.cells.toList →
      Contains store (.matrix matrix) number
  | entry {ref : MapRef} {key : String} {number : Number} : key ∈ (store.record ref).keys →
      Contains store ((store.record ref).valueAt key) number → Contains store (.map ref) number

/-! ## Sameness as a relation -/

theorem Record.keys_subset_of_size {left right : Record} (size : left.size = right.size)
    (among : ∀ key ∈ left.keys, key ∈ right.keys) : ∀ key ∈ right.keys, key ∈ left.keys := by
  have shorter : right.keys.length ≤ left.keys.length := by rw [length_keys, length_keys, size]
  have perm := (left.nodup_keys.subperm among).perm_of_length_le shorter
  exact fun key => perm.mem_iff.mpr

theorem forall₂_identical_trans {first second third : List Number}
    (left : List.Forall₂ (fun x y => x.identical y = true) first second)
    (right : List.Forall₂ (fun x y => x.identical y = true) second third) :
    List.Forall₂ (fun x y => x.identical y = true) first third := by
  induction left generalizing third with
  | nil => exact right
  | cons here _ inductionHypothesis =>
      cases right with
      | cons there rest => exact .cons (Number.identical_trans here there) (inductionHypothesis rest)

namespace Store.Same

variable {store : Store} {x y z : Value}

theorem symm (same : store.Same x y) : store.Same y x := by
  induction same with
  | plain plain => exact .plain plain
  | number same => exact .number (Number.identical_symm same)
  | matrix shape cells =>
      refine .matrix ?_ (List.Forall₂.flip (cells.imp fun _ _ => Number.identical_symm))
      simp only [Matrix.sameShape, Bool.and_eq_true, beq_iff_eq] at shape ⊢
      exact ⟨shape.1.symm, shape.2.symm⟩
  | map size among _ inductionHypothesis =>
      have back := Record.keys_subset_of_size size among
      exact .map size.symm back fun key known => inductionHypothesis key (back key known)

theorem trans (first : store.Same x y) (second : store.Same y z) : store.Same x z := by
  induction first generalizing z with
  | plain plain => exact second
  | number same =>
      cases second with
      | plain plain => cases plain
      | number same' => exact .number (Number.identical_trans same same')
  | matrix shape cells =>
      cases second with
      | plain plain => cases plain
      | matrix shape' cells' =>
          simp only [Matrix.sameShape, Bool.and_eq_true, beq_iff_eq] at shape shape'
          refine .matrix ?_ (forall₂_identical_trans cells cells')
          simp [Matrix.sameShape, shape, shape']
  | map size among _ inductionHypothesis =>
      cases second with
      | plain plain => cases plain
      | map size' among' each =>
          refine .map (size.trans size') (fun key known => among' key (among key known)) fun key known => ?_
          exact inductionHypothesis key known (each key (among key known))

theorem plain_iff (plain : x.IsPlain) : store.Same x y ↔ x = y := by
  refine ⟨fun same => ?_, fun same => same ▸ .plain plain⟩
  cases same with
  | plain => rfl
  | _ => cases plain

theorem numbers_iff {a b : Number} : store.Same (.number a) (.number b) ↔ a.identical b = true := by
  refine ⟨?_, .number⟩
  rintro (plain | same)
  · cases plain
  · exact same

theorem matrices_iff {left right : Matrix} : store.Same (.matrix left) (.matrix right) ↔
    left.sameShape right = true ∧
      List.Forall₂ (fun x y => x.identical y = true) left.cells.toList right.cells.toList := by
  refine ⟨?_, fun ⟨shape, cells⟩ => .matrix shape cells⟩
  rintro (plain | _ | ⟨shape, cells⟩)
  · cases plain
  · exact ⟨shape, cells⟩

theorem maps_iff {left right : MapRef} : store.Same (.map left) (.map right) ↔
    (store.record left).size = (store.record right).size ∧ ∀ key ∈ (store.record left).keys,
      key ∈ (store.record right).keys ∧
        store.Same ((store.record left).valueAt key) ((store.record right).valueAt key) := by
  refine ⟨?_, fun ⟨size, each⟩ =>
    .map size (fun key known => (each key known).1) fun key known => (each key known).2⟩
  rintro (plain | _ | _ | ⟨size, among, each⟩)
  · cases plain
  · exact ⟨size, fun key known => ⟨among key known, each key known⟩⟩

/-- A finite value is the same as itself unless a complex number in it has an undefined part. -/
theorem self_iff (tree : store.IsTree x) :
    store.Same x x ↔ ∀ number, store.Contains x number → number.HasDefinedParts := by
  induction tree with
  | number n =>
      rw [numbers_iff, Number.identical_self_iff]
      constructor
      · rintro defined number ⟨⟩
        exact defined
      · intro each
        exact each n (.number n)
  | @matrix matrix _ =>
      have shape : matrix.sameShape matrix = true := by simp [Matrix.sameShape]
      rw [matrices_iff, and_iff_right shape, List.forall₂_same]
      simp only [Number.identical_self_iff]
      constructor
      · rintro each number (_ | known)
        exact each number known
      · intro each number known
        exact each number (.cell known)
  | @map ref _ _ inductionHypothesis =>
      have inside {key : String} (known : key ∈ (store.record ref).keys) :=
        inductionHypothesis _ (List.mem_map_of_mem (f := (store.record ref).valueAt) known)
      rw [maps_iff, and_iff_right rfl]
      constructor
      · rintro each number (_ | _ | ⟨known, contains⟩)
        exact (inside known).mp (each _ known).2 number contains
      · intro each key known
        exact ⟨known, (inside known).mpr fun number contains => each number (.entry known contains)⟩
  | _ =>
      refine iff_of_true (.plain trivial) ?_
      rintro number ⟨⟩

end Store.Same

/-! ## Sameness as it is computed -/

namespace Store

variable {store : Store} {x y : Value} {depth : Nat}

theorem identicalTo_map_iff {left right : MapRef} :
    store.identicalTo (depth + 1) (.map left) (.map right) = true ↔
      (store.record left).size = (store.record right).size ∧
        ∀ key ∈ (store.record left).keys, key ∈ (store.record right).keys ∧
          store.identicalTo depth ((store.record left).valueAt key)
            ((store.record right).valueAt key) = true := by
  simp only [identicalTo, Record.entries, List.all_map, Bool.and_eq_true, beq_iff_eq, List.all_eq_true,
    Function.comp_apply]
  refine and_congr_right fun _ => forall₂_congr fun key _ => ?_
  by_cases known : key ∈ (store.record right).keys
  · simp [Record.get?_eq_some known, known]
  · simp [Record.get?_eq_none known, known]

theorem identicalTo_plain_iff (plain : x.IsPlain) : store.identicalTo depth x y = true ↔ x = y := by
  cases x <;> first | exact plain.elim | skip
  all_goals cases y <;> cases depth <;> simp [identicalTo]

theorem all_identical_iff {left right : List Number} (length : left.length = right.length) :
    (List.zipWith Number.identical left right).all id = true ↔
      List.Forall₂ (fun x y => x.identical y = true) left right := by
  induction left generalizing right with
  | nil =>
      obtain rfl := List.length_eq_zero_iff.mp length.symm
      simp
  | cons x left inductionHypothesis =>
      obtain ⟨y, right, rfl⟩ := List.exists_cons_of_length_eq_add_one length.symm
      rw [List.zipWith_cons_cons, List.all_cons, Bool.and_eq_true, List.forall₂_cons,
        inductionHypothesis (Nat.succ.inj length)]
      rfl

/-- Matrices of the same shape have as many cells. -/
theorem length_cells_of_sameShape {left right : Matrix} (leftShaped : left.IsShaped)
    (rightShaped : right.IsShaped) (shape : left.sameShape right = true) :
    left.cells.toList.length = right.cells.toList.length := by
  simp only [Matrix.sameShape, Bool.and_eq_true, beq_iff_eq] at shape
  rw [Matrix.IsShaped, shape.1, shape.2, ← rightShaped] at leftShaped
  exact_mod_cast leftShaped

/-- The computation, with enough depth for the left value, decides the relation. -/
theorem identicalTo_iff_same (xTree : store.IsTree x) (yTree : store.IsTree y)
    (fits : store.FitsIn depth x) : store.identicalTo depth x y = true ↔ store.Same x y := by
  induction xTree generalizing y depth with
  | number n =>
      cases yTree with
      | number other =>
          rw [Same.numbers_iff]
          cases depth <;> exact Iff.rfl
      | _ => exact iff_of_false (by cases depth <;> nofun) nofun
  | @matrix matrix shaped =>
      cases yTree with
      | @matrix other otherShaped =>
          have computed : store.identicalTo depth (.matrix matrix) (.matrix other) =
              matrix.identical other := by
            cases depth <;> rfl
          rw [computed, Same.matrices_iff, Matrix.identical, Bool.and_eq_true]
          exact and_congr_right fun shape =>
            all_identical_iff (length_cells_of_sameShape shaped otherShaped shape)
      | _ => exact iff_of_false (by cases depth <;> nofun) nofun
  | @map ref stored _ inductionHypothesis =>
      obtain ⟨less, rfl, fitsEach⟩ := fits.valueAt
      cases yTree with
      | @map other _ otherTrees =>
          rw [identicalTo_map_iff, Same.maps_iff]
          refine and_congr_right fun _ => forall₂_congr fun key known => and_congr_right fun shared => ?_
          exact inductionHypothesis _ (List.mem_map_of_mem known)
            (otherTrees _ (List.mem_map_of_mem shared)) (fitsEach key known)
      | _ => exact iff_of_false nofun nofun
  | _ => exact (identicalTo_plain_iff (by trivial)).trans (Same.plain_iff (by trivial)).symm

theorem identical_iff_same (xTree : store.IsTree x) (yTree : store.IsTree y) :
    store.identical x y = true ↔ store.Same x y :=
  xTree.exists_fitsIn.elim fun _ fits => identicalTo_iff_same xTree yTree fits.nesting

variable {z : Value}

/-- On finite values sameness is symmetric and transitive.  A value is the same as itself exactly if each
complex number in it has two defined parts. -/
theorem sameness_is_partial_equivalence (xTree : store.IsTree x) (yTree : store.IsTree y)
    (zTree : store.IsTree z) :
    (store.identical x x = true ↔ ∀ number, store.Contains x number → number.HasDefinedParts) ∧
      (store.identical x y = true → store.identical y x = true) ∧
      (store.identical x y = true → store.identical y z = true → store.identical x z = true) := by
  rw [identical_iff_same xTree xTree, identical_iff_same xTree yTree, identical_iff_same yTree xTree,
    identical_iff_same yTree zTree, identical_iff_same xTree zTree]
  exact ⟨Same.self_iff xTree, Same.symm, Same.trans⟩

/-- An undefined real is the same as itself, and a complex number with an undefined part is not. -/
theorem undefined_complex_differs_from_itself :
    ({} : Store).identical (.real Float.nan) (.real Float.nan) = true ∧
      ({} : Store).identical (.complex ⟨Float.nan, 0⟩) (.complex ⟨Float.nan, 0⟩) = false := by
  decide +kernel

end Store

end Reckon
