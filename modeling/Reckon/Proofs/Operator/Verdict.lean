import Reckon.Proofs.Operator.Following

/-!
# What equality finds

Equality of two values is a truth value, a matrix of truth values, or a map of such findings.  This module
has the findings, and what equality finds for two values that it does not compare entry by entry: it is
the same in both orders, but for a string, which it compares with a number or a matrix only from the left.
-/

namespace Reckon

/-! ## Findings -/

/-- What equality finds: nothing, a truth value, truth values of cells, or findings for keys. -/
inductive Verdict where
  | missed
  | truth (value : Bool)
  | cells (rows cols : Nat) (truths : List Bool)
  | entries (keys : List String) (under : String → Verdict)

namespace Verdict

/-- Nothing is missed. -/
def IsFull : Verdict → Prop
  | missed => False
  | truth _ | cells _ _ _ => True
  | entries keys under => ∀ key ∈ keys, (under key).IsFull

/-- Each truth value negated. What is missed counts as false. -/
def negated : Verdict → Verdict
  | missed => truth true
  | truth value => truth !value
  | cells rows cols truths => cells rows cols (truths.map (!·))
  | entries keys under => entries keys fun key => (under key).negated

/-- A single truth value. What is missed counts as false. -/
def truth? : Verdict → Option Bool
  | missed => some false
  | truth value => some value
  | cells _ _ _ | entries _ _ => none

/-- Two findings have the same truth values at the same cells and keys, in any order of the keys. -/
inductive Agrees : Verdict → Verdict → Prop
  | truth {left right : Verdict} {value : Bool} : left.truth? = some value → right.truth? = some value →
      Agrees left right
  | cells (rows cols : Nat) (truths : List Bool) :
      Agrees (.cells rows cols truths) (.cells rows cols truths)
  | entries {keys others : List String} {left right : String → Verdict} : keys.Perm others →
      (∀ key ∈ keys, Agrees (left key) (right key)) → Agrees (.entries keys left) (.entries others right)

end Verdict

/-- The matrix of zeros and ones for truth values. -/
def Matrix.ofTruths (rows cols : Nat) (truths : List Bool) : Matrix :=
  ⟨rows, cols, (truths.map fun truth => .real (Value.ofTruth truth)).toArray⟩

/-- A matrix has as many cells as its rows and columns ask for. -/
def Matrix.IsShaped (matrix : Matrix) : Prop :=
  (matrix.size : Int) = cellCount matrix.rows matrix.cols

/-- A value in a store is a finding. What is missed is null. -/
def Store.Shows (store : Store) : Verdict → Value → Prop
  | .missed, value => value = .null
  | .truth truth, value => value = .boolean truth
  | .cells rows cols truths, value =>
      value = .matrix (.ofTruths rows cols truths) ∧ (Matrix.ofTruths rows cols truths).IsShaped
  | .entries keys under, value => ∃ ref, value = .map ref ∧ ref.index < store.maps.size ∧
      (store.record ref).keys = keys ∧
        ∀ key ∈ keys, store.Shows (under key) ((store.record ref).valueAt key)

section Shows

variable {store : Store} {value : Value}

theorem Store.shows_missed : store.Shows .missed value ↔ value = .null :=
  Iff.rfl

theorem Store.shows_truth {truth : Bool} : store.Shows (.truth truth) value ↔ value = .boolean truth :=
  Iff.rfl

theorem Store.shows_cells {rows cols : Nat} {truths : List Bool} :
    store.Shows (.cells rows cols truths) value ↔
      value = .matrix (.ofTruths rows cols truths) ∧ (Matrix.ofTruths rows cols truths).IsShaped :=
  Iff.rfl

theorem Store.shows_entries {keys : List String} {under : String → Verdict} :
    store.Shows (.entries keys under) value ↔
      ∃ ref, value = .map ref ∧ ref.index < store.maps.size ∧ (store.record ref).keys = keys ∧
        ∀ key ∈ keys, store.Shows (under key) ((store.record ref).valueAt key) :=
  Iff.rfl

end Shows

/-! ## Values that are trees -/

/-- A value in a store is a finite tree: its maps, which are stored, do not hold themselves. -/
inductive Store.IsTree (store : Store) : Value → Prop
  | null : IsTree store .null
  | number (number : Number) : IsTree store (.number number)
  | boolean (truth : Bool) : IsTree store (.boolean truth)
  | string (text : String) : IsTree store (.string text)
  | matrix {matrix : Matrix} : matrix.IsShaped → IsTree store (.matrix matrix)
  | map {ref : MapRef} : ref.index < store.maps.size →
      (∀ value ∈ (store.record ref).values, IsTree store value) → IsTree store (.map ref)
  | function (ref : FunctionRef) : IsTree store (.function ref)
  | future (ref : FutureRef) : IsTree store (.future ref)

theorem Store.IsTree.exists_fitsIn {store : Store} {value : Value} (tree : store.IsTree value) :
    ∃ depth, store.FitsIn depth value := by
  induction tree with
  | map stored _ inductionHypothesis =>
      obtain ⟨depth, fits⟩ := exists_forall_fitsIn inductionHypothesis
      exact ⟨depth + 1, stored, fits⟩
  | _ => exact ⟨0, trivial⟩

/-! ## Pairs of values -/

/-- Pairs of values that equality has no case for. -/
inductive Misses : Value → Value → Prop
  | shapes {left right : Matrix} : left.sameShape right = false → Misses (.matrix left) (.matrix right)
  | matrixMap (matrix : Matrix) (ref : MapRef) : Misses (.matrix matrix) (.map ref)
  | mapMatrix (ref : MapRef) (matrix : Matrix) : Misses (.map ref) (.matrix matrix)
  | matrixString (matrix : Matrix) (text : String) : Misses (.matrix matrix) (.string text)
  | numericString {value : Value} (text : String) : value.isNumeric = true → Misses value (.string text)

/-- Equality has no case for two values, or for entries of them that meet. -/
inductive Store.MissesAt (store : Store) : Value → Value → Prop
  | here {x y : Value} : Misses x y → MissesAt store x y
  | inside {x y : Value} {meeting : Meeting} {key : String} : store.meeting? x y = some meeting →
      key ∈ meeting.keys → MissesAt store (meeting.left key) (meeting.right key) → MissesAt store x y

/-! ## Numbers -/

/-- Whether two numbers are equal, as complex numbers if one of them is complex. -/
def Number.agrees : Number → Number → Bool
  | .real a, .real b => a == b
  | .real a, .complex b => (Complex.ofReal a).isEqual b
  | .complex a, .real b => a.isEqual (.ofReal b)
  | .complex a, .complex b => a.isEqual b

theorem Complex.isEqual_comm (a b : Complex) : a.isEqual b = b.isEqual a := by
  rw [isEqual, isEqual, BEq.comm (a := a.re), BEq.comm (a := a.im)]

theorem Number.agrees_comm (a b : Number) : a.agrees b = b.agrees a := by
  cases a <;> cases b
  · exact BEq.comm
  · exact Complex.isEqual_comm _ _
  · exact Complex.isEqual_comm _ _
  · exact Complex.isEqual_comm _ _

theorem Number.isTruthy_ofTruth (truth : Bool) : (Number.real (Value.ofTruth truth)).isTruthy = truth := by
  cases truth <;> decide +kernel

/-! ## Pairs that are not compared entry by entry -/

namespace Operator

/-- What equality gives for two values without looking into maps. -/
def equalFlat (x y : Value) : Value :=
  (equalEach.onMatrices? x y).getD (equalEach.onScalars x y)

variable {x y : Value} {a b : Number} {left right matrix : Matrix}

theorem exists_of_cell (cell : x.asCell? = some a) :
    (∃ number, x = .number number) ∨ ∃ truth, x = .boolean truth := by
  cases x with
  | number number => exact .inl ⟨number, rfl⟩
  | boolean truth => exact .inr ⟨truth, rfl⟩
  | _ => cases cell

theorem onScalars_of_cells (cell : x.asCell? = some a) (cell' : y.asCell? = some b) :
    equalEach.onScalars x y = .boolean (a.agrees b) := by
  unfold Value.asCell? at cell cell'
  split at cell <;> cases cell <;> split at cell' <;> cases cell'
  · cases a <;> cases b <;> rfl
  · cases a <;> rfl
  · cases b <;> rfl
  · rfl

theorem isNumeric_of_cell (cell : x.asCell? = some a) : x.isNumeric = true := by
  rcases exists_of_cell cell with ⟨_, rfl⟩ | ⟨_, rfl⟩ <;> rfl

theorem mapM_asCell?_booleans (truths : List Bool) :
    (truths.map Value.boolean).mapM Value.asCell? =
      some (truths.map fun truth => .real (Value.ofTruth truth)) := by
  induction truths with
  | nil => rfl
  | cons first rest inductionHypothesis =>
      rw [List.map_cons, List.mapM_cons, inductionHypothesis]
      rfl

theorem size_ofTruths (rows cols : Nat) (truths : List Bool) :
    (Matrix.ofTruths rows cols truths).size = truths.length := by
  simp [Matrix.ofTruths, Matrix.size]

theorem isShaped_ofTruths_iff {rows cols : Nat} {truths : List Bool} :
    (Matrix.ofTruths rows cols truths).IsShaped ↔
      (truths.length : Int) = Matrix.cellCount rows cols := by
  rw [Matrix.IsShaped, size_ofTruths]
  rfl

theorem isShaped_ofTruths {truths : List Bool} (shaped : matrix.IsShaped)
    (length : truths.length = matrix.size) :
    (Matrix.ofTruths matrix.rows matrix.cols truths).IsShaped := by
  rw [isShaped_ofTruths_iff, length]
  exact shaped

/-- Truth values for the cells of a matrix are a matrix. -/
theorem ofValues?_booleans {truths : List Bool} (shaped : matrix.IsShaped)
    (length : truths.length = matrix.size) :
    Matrix.ofValues? matrix.rows matrix.cols (truths.map .boolean) =
      some (.ofTruths matrix.rows matrix.cols truths) := by
  have fits : ¬((matrix.rows : Int) < 0 ∨ (matrix.cols : Int) < 0 ∨
      ((truths.map Value.boolean).length : Int) ≠ Matrix.cellCount matrix.rows matrix.cols) := by
    rw [List.length_map, length, shaped]
    omega
  rw [Matrix.ofValues?, if_neg fits, mapM_asCell?_booleans]
  rfl

theorem equalFlat_of_cells (cell : x.asCell? = some a) (cell' : y.asCell? = some b) :
    equalFlat x y = .boolean (a.agrees b) := by
  have noMatrices : equalEach.onMatrices? x y = none := by
    rcases exists_of_cell cell with ⟨_, rfl⟩ | ⟨_, rfl⟩ <;>
      rcases exists_of_cell cell' with ⟨_, rfl⟩ | ⟨_, rfl⟩ <;> rfl
  rw [equalFlat, noMatrices]
  exact onScalars_of_cells cell cell'

theorem length_zipWith_agrees (sameSize : left.size = right.size) :
    (List.zipWith Number.agrees left.cells.toList right.cells.toList).length = left.size := by
  simpa [Matrix.size] using sameSize.le

theorem equalFlat_matrices (shaped : left.IsShaped) (sameSize : left.size = right.size)
    (sameShape : left.sameShape right = true) :
    equalFlat (.matrix left) (.matrix right) = .matrix (.ofTruths left.rows left.cols
      (List.zipWith Number.agrees left.cells.toList right.cells.toList)) := by
  have each : List.zipWith equalEach.onNumbers left.cells.toList right.cells.toList =
      (List.zipWith Number.agrees left.cells.toList right.cells.toList).map .boolean := by
    rw [List.map_zipWith]
    exact congrArg (List.zipWith · _ _) (funext₂ fun _ _ => onScalars_of_cells rfl rfl)
  have whole := ofValues?_booleans shaped (length_zipWith_agrees sameSize)
  rw [← each] at whole
  simp only [equalFlat, Cascade.onMatrices?, sameShape, if_true, Matrix.zipCells?, whole]
  rfl

theorem equalFlat_matrices_of_shapes (shapes : left.sameShape right = false) :
    equalFlat (.matrix left) (.matrix right) = .null := by
  simp [equalFlat, Cascade.onMatrices?, shapes]

theorem ofValues?_agrees (shaped : matrix.IsShaped) (number : Number) :
    Matrix.ofValues? matrix.rows matrix.cols ((matrix.cells.toList.map (·.agrees number)).map .boolean) =
      some (.ofTruths matrix.rows matrix.cols (matrix.cells.toList.map (·.agrees number))) :=
  ofValues?_booleans shaped (List.length_map _)

theorem equalFlat_matrix_cell (shaped : matrix.IsShaped) (cell : y.asCell? = some b) :
    equalFlat (.matrix matrix) y = .matrix (.ofTruths matrix.rows matrix.cols
      (matrix.cells.toList.map (·.agrees b))) := by
  have each : matrix.cells.toList.map (fun cell => equalEach.onScalars (.number cell) y) =
      (matrix.cells.toList.map (·.agrees b)).map .boolean := by
    rw [List.map_map]
    exact List.map_congr_left fun _ _ => onScalars_of_cells rfl cell
  have whole := ofValues?_agrees shaped b
  rw [← each] at whole
  have broadcast : equalEach.onMatrices? (.matrix matrix) y =
      some (Matrix.orNull (matrix.mapCells? fun cell => equalEach.onScalars (.number cell) y)) := by
    rcases exists_of_cell cell with ⟨_, rfl⟩ | ⟨_, rfl⟩ <;> rfl
  rw [equalFlat, broadcast, Matrix.mapCells?, whole]
  rfl

theorem equalFlat_cell_matrix (shaped : matrix.IsShaped) (cell : x.asCell? = some a) :
    equalFlat x (.matrix matrix) = .matrix (.ofTruths matrix.rows matrix.cols
      (matrix.cells.toList.map (·.agrees a))) := by
  have each : matrix.cells.toList.map (fun cell => equalEach.onScalars x (.number cell)) =
      (matrix.cells.toList.map (·.agrees a)).map .boolean := by
    rw [List.map_map]
    refine List.map_congr_left fun other _ => ?_
    rw [onScalars_of_cells cell rfl, Function.comp_apply, Number.agrees_comm]
  have whole := ofValues?_agrees shaped a
  rw [← each] at whole
  have broadcast : equalEach.onMatrices? x (.matrix matrix) =
      some (Matrix.orNull (matrix.mapCells? fun cell => equalEach.onScalars x (.number cell))) := by
    rcases exists_of_cell cell with ⟨_, rfl⟩ | ⟨_, rfl⟩ <;> rfl
  rw [equalFlat, broadcast, Matrix.mapCells?, whole]
  rfl

/-- A value without contents. -/
def IsAtom (value : Value) : Prop :=
  value = .null ∨ (∃ ref, value = .function ref) ∨ ∃ ref, value = .future ref

theorem kinds (x : Value) : (∃ a, x.asCell? = some a) ∨ (∃ text, x = .string text) ∨
    (∃ matrix, x = .matrix matrix) ∨ (∃ ref, x = .map ref) ∨ IsAtom x := by
  cases x with
  | null => exact .inr (.inr (.inr (.inr (.inl rfl))))
  | number n => exact .inl ⟨n, rfl⟩
  | boolean truth => exact .inl ⟨_, rfl⟩
  | string text => exact .inr (.inl ⟨text, rfl⟩)
  | matrix matrix => exact .inr (.inr (.inl ⟨matrix, rfl⟩))
  | map ref => exact .inr (.inr (.inr (.inl ⟨ref, rfl⟩)))
  | function ref => exact .inr (.inr (.inr (.inr (.inr (.inl ⟨ref, rfl⟩)))))
  | future ref => exact .inr (.inr (.inr (.inr (.inr (.inr ⟨ref, rfl⟩)))))

theorem equalFlat_atom (atom : IsAtom x) (y : Value) :
    equalFlat x y = .boolean (({} : Store).identical x y) := by
  rcases atom with rfl | ⟨ref, rfl⟩ | ⟨ref, rfl⟩ <;> cases y <;> rfl

theorem equalFlat_of_atom (atom : IsAtom y) (x : Value) :
    equalFlat x y = .boolean (({} : Store).identical x y) := by
  rcases atom with rfl | ⟨ref, rfl⟩ | ⟨ref, rfl⟩ <;> cases x <;> rfl

theorem identical_comm_of_atom (atom : IsAtom x) (y : Value) :
    ({} : Store).identical x y = ({} : Store).identical y x := by
  rcases atom with rfl | ⟨ref, rfl⟩ | ⟨ref, rfl⟩ <;> cases y <;> first | rfl | exact BEq.comm

end Operator

/-- The finding that a value is, maps apart. -/
def Verdict.ofValue : Value → Verdict
  | .boolean value => .truth value
  | .matrix matrix => .cells matrix.rows matrix.cols (matrix.cells.toList.map Number.isTruthy)
  | _ => .missed

theorem Verdict.ofValue_ofTruths (rows cols : Nat) (truths : List Bool) :
    ofValue (.matrix (.ofTruths rows cols truths)) = .cells rows cols truths := by
  have same : (fun truth => (Number.real (Value.ofTruth truth)).isTruthy) = id :=
    funext Number.isTruthy_ofTruth
  rw [ofValue, Matrix.ofTruths, List.toList_toArray, List.map_map, Function.comp_def, same, List.map_id]

theorem Verdict.Agrees.symm {left right : Verdict} (agrees : left.Agrees right) : right.Agrees left := by
  induction agrees with
  | truth left right => exact .truth right left
  | cells rows cols truths => exact .cells rows cols truths
  | entries same _ inductionHypothesis =>
      exact .entries same.symm fun key member => inductionHypothesis key (same.mem_iff.mpr member)

namespace Operator

variable {x y : Value} {a b : Number} {left right matrix : Matrix} {store : Store}

/-- What equality finds for two values without looking into maps is a finding, and one that is not full
only if it has no case for the values. -/
structure Finds (x y : Value) : Prop where
  shows : ∀ store : Store, store.Shows (.ofValue (equalFlat x y)) (equalFlat x y)
  full : (Verdict.ofValue (equalFlat x y)).IsFull ↔ ¬Misses x y

/-- It finds the same in both orders. -/
structure FindsSame (x y : Value) : Prop where
  forth : Finds x y
  back : Finds y x
  agrees : (Verdict.ofValue (equalFlat x y)).Agrees (.ofValue (equalFlat y x))

theorem FindsSame.symm (same : FindsSame x y) : FindsSame y x :=
  ⟨same.back, same.forth, same.agrees.symm⟩

theorem finds_truth {truth : Bool} (value : equalFlat x y = .boolean truth) (known : ¬Misses x y) :
    Finds x y := by
  constructor
  · rw [value]
    exact fun _ => rfl
  · rw [value]
    exact iff_of_true trivial known

theorem finds_cells {rows cols : Nat} {truths : List Bool}
    (shaped : (Matrix.ofTruths rows cols truths).IsShaped)
    (value : equalFlat x y = .matrix (.ofTruths rows cols truths)) (known : ¬Misses x y) : Finds x y := by
  constructor
  · rw [value, Verdict.ofValue_ofTruths]
    exact fun _ => ⟨rfl, shaped⟩
  · rw [value, Verdict.ofValue_ofTruths]
    exact iff_of_true trivial known

theorem finds_nothing (value : equalFlat x y = .null) (misses : Misses x y) : Finds x y := by
  constructor
  · rw [value]
    exact fun _ => rfl
  · rw [value]
    exact iff_of_false id (not_not_intro misses)

theorem findsSame_truth {truth : Bool} (value : equalFlat x y = .boolean truth)
    (value' : equalFlat y x = .boolean truth) (known : ¬Misses x y) (known' : ¬Misses y x) :
    FindsSame x y := by
  refine ⟨finds_truth value known, finds_truth value' known', ?_⟩
  rw [value, value']
  exact .truth rfl rfl

theorem findsSame_cells {rows cols : Nat} {truths : List Bool}
    (shaped : (Matrix.ofTruths rows cols truths).IsShaped)
    (value : equalFlat x y = .matrix (.ofTruths rows cols truths))
    (value' : equalFlat y x = .matrix (.ofTruths rows cols truths)) (known : ¬Misses x y)
    (known' : ¬Misses y x) : FindsSame x y := by
  refine ⟨finds_cells shaped value known, finds_cells shaped value' known', ?_⟩
  rw [value, value', Verdict.ofValue_ofTruths]
  exact .cells rows cols truths

theorem findsSame_nothing (value : equalFlat x y = .null) (value' : equalFlat y x = .null)
    (misses : Misses x y) (misses' : Misses y x) : FindsSame x y := by
  refine ⟨finds_nothing value misses, finds_nothing value' misses', ?_⟩
  rw [value, value']
  exact .truth rfl rfl

/-- A string is not equal to anything else, but on the right of a number or a matrix equality has no case
for it. -/
theorem findsSame_string {text : String} (value : equalFlat x (.string text) = .null)
    (value' : equalFlat (.string text) x = .boolean false) (misses : Misses x (.string text))
    (known : ¬Misses (.string text) x) : FindsSame x (.string text) := by
  refine ⟨finds_nothing value misses, finds_truth value' known, ?_⟩
  rw [value, value']
  exact .truth rfl rfl

theorem findsSame_atom (atom : IsAtom x) (y : Value) : FindsSame x y := by
  have same := equalFlat_of_atom atom y
  rw [← identical_comm_of_atom atom] at same
  refine findsSame_truth (equalFlat_atom atom y) same ?_ ?_
  · rintro misses
    cases misses <;> rcases atom with atom | ⟨_, atom⟩ | ⟨_, atom⟩ <;> simp_all [Value.isNumeric]
  · rintro misses
    cases misses <;> rcases atom with atom | ⟨_, atom⟩ | ⟨_, atom⟩ <;> simp_all

theorem findsSame_cell_cell (cell : x.asCell? = some a) (cell' : y.asCell? = some b) : FindsSame x y := by
  have noString {x y : Value} {b : Number} (cell : y.asCell? = some b) : ¬Misses x y := by
    rcases exists_of_cell cell with ⟨_, rfl⟩ | ⟨_, rfl⟩ <;> rintro ⟨⟩
  refine findsSame_truth (equalFlat_of_cells cell cell') ?_ (noString cell') (noString cell)
  rw [equalFlat_of_cells cell' cell, Number.agrees_comm]

theorem findsSame_cell_string (cell : x.asCell? = some a) (text : String) :
    FindsSame x (.string text) := by
  have value : equalFlat x (.string text) = .null := by
    rcases exists_of_cell cell with ⟨number, rfl⟩ | ⟨_, rfl⟩
    · cases number <;> rfl
    · rfl
  have value' : equalFlat (.string text) x = .boolean false := by
    rcases exists_of_cell cell with ⟨_, rfl⟩ | ⟨_, rfl⟩ <;> rfl
  refine findsSame_string value value' (.numericString text (isNumeric_of_cell cell)) ?_
  rcases exists_of_cell cell with ⟨_, rfl⟩ | ⟨_, rfl⟩ <;> rintro ⟨⟩

theorem findsSame_cell_matrix (cell : x.asCell? = some a) (shaped : matrix.IsShaped) :
    FindsSame x (.matrix matrix) := by
  refine findsSame_cells (isShaped_ofTruths shaped (List.length_map _))
    (equalFlat_cell_matrix shaped cell) (equalFlat_matrix_cell shaped cell) ?_ ?_
  · rintro ⟨⟩ <;> cases cell
  · rcases exists_of_cell cell with ⟨_, rfl⟩ | ⟨_, rfl⟩ <;> rintro ⟨⟩

theorem findsSame_string_string (text other : String) : FindsSame (.string text) (.string other) := by
  have strings : ∀ text other, ¬Misses (.string text) (.string other) := by
    rintro text other (_ | _ | _ | _ | ⟨_, numeric⟩)
    cases numeric
  refine findsSame_truth rfl ?_ (strings _ _) (strings _ _)
  exact congrArg Value.boolean BEq.comm

theorem findsSame_matrix_string (matrix : Matrix) (text : String) :
    FindsSame (.matrix matrix) (.string text) :=
  findsSame_string rfl rfl (.matrixString matrix text) (by rintro ⟨⟩)

theorem findsSame_matrix_matrix (shaped : left.IsShaped) (shaped' : right.IsShaped) :
    FindsSame (.matrix left) (.matrix right) := by
  have turned : right.sameShape left = left.sameShape right := by
    rw [Matrix.sameShape, Matrix.sameShape, BEq.comm (a := right.rows), BEq.comm (a := right.cols)]
  cases sameShape : left.sameShape right with
  | false =>
      exact findsSame_nothing (equalFlat_matrices_of_shapes sameShape)
        (equalFlat_matrices_of_shapes (turned.trans sameShape)) (.shapes sameShape)
        (.shapes (turned.trans sameShape))
  | true =>
      have known {left right : Matrix} (sameShape : left.sameShape right = true) :
          ¬Misses (.matrix left) (.matrix right) := by
        rintro (shapes | _ | _ | _ | _)
        rw [sameShape] at shapes
        cases shapes
      obtain ⟨rows, cols⟩ : left.rows = right.rows ∧ left.cols = right.cols := by
        simpa [Matrix.sameShape] using sameShape
      have sameSize : left.size = right.size := by
        have sizes : (left.size : Int) = right.size := by rw [shaped, shaped', rows, cols]
        exact Int.ofNat_inj.mp sizes
      have value' := equalFlat_matrices shaped' sameSize.symm (turned.trans sameShape)
      rw [List.zipWith_comm, ← rows, ← cols] at value'
      simp only [Number.agrees_comm] at value'
      refine findsSame_cells (isShaped_ofTruths shaped ?_) (equalFlat_matrices shaped sameSize sameShape)
        value' (known sameShape) (known (turned.trans sameShape))
      exact length_zipWith_agrees sameSize

theorem findsSame_matrix_map (matrix : Matrix) (ref : MapRef) :
    FindsSame (.matrix matrix) (.map ref) :=
  findsSame_nothing rfl rfl (.matrixMap matrix ref) (.mapMatrix ref matrix)

/-- Values that are not compared entry by entry. -/
theorem findsSame_of_apart (shaped : ∀ matrix, x = .matrix matrix → matrix.IsShaped)
    (shaped' : ∀ matrix, y = .matrix matrix → matrix.IsShaped) (apart : store.meeting? x y = none) :
    FindsSame x y := by
  have meets {x : Value} {a : Number} (cell : x.asCell? = some a) (ref : MapRef) :
      store.meeting? x (.map ref) ≠ none ∧ store.meeting? (.map ref) x ≠ none := by
    rcases exists_of_cell cell with ⟨_, rfl⟩ | ⟨_, rfl⟩ <;> exact ⟨nofun, nofun⟩
  rcases kinds x with ⟨a, cell⟩ | ⟨text, rfl⟩ | ⟨matrix, rfl⟩ | ⟨ref, rfl⟩ | atom
  · rcases kinds y with ⟨b, cell'⟩ | ⟨text, rfl⟩ | ⟨matrix, rfl⟩ | ⟨ref, rfl⟩ | atom
    · exact findsSame_cell_cell cell cell'
    · exact findsSame_cell_string cell text
    · exact findsSame_cell_matrix cell (shaped' matrix rfl)
    · exact absurd apart (meets cell ref).1
    · exact (findsSame_atom atom x).symm
  · rcases kinds y with ⟨b, cell⟩ | ⟨other, rfl⟩ | ⟨matrix, rfl⟩ | ⟨ref, rfl⟩ | atom
    · exact (findsSame_cell_string cell text).symm
    · exact findsSame_string_string text other
    · exact (findsSame_matrix_string matrix text).symm
    · cases apart
    · exact (findsSame_atom atom _).symm
  · rcases kinds y with ⟨b, cell⟩ | ⟨text, rfl⟩ | ⟨other, rfl⟩ | ⟨ref, rfl⟩ | atom
    · exact (findsSame_cell_matrix cell (shaped matrix rfl)).symm
    · exact findsSame_matrix_string matrix text
    · exact findsSame_matrix_matrix (shaped matrix rfl) (shaped' other rfl)
    · exact findsSame_matrix_map matrix ref
    · exact (findsSame_atom atom _).symm
  · rcases kinds y with ⟨b, cell⟩ | ⟨text, rfl⟩ | ⟨matrix, rfl⟩ | ⟨other, rfl⟩ | atom
    · exact absurd apart (meets cell ref).2
    · cases apart
    · exact (findsSame_matrix_map matrix ref).symm
    · cases apart
    · exact (findsSame_atom atom _).symm
  · exact findsSame_atom atom y

end Operator

end Reckon
