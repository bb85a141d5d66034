import Reckon.Proofs.Operator.Following
import Reckon.Proofs.Value.Matrix

/-!
# Operators on matrices

An operator on matrices is the operator on their cells, whatever it does to these: a binary operator where a
matrix meets a matrix of its shape or a number, and a function on scalars that is lifted to a matrix.  So
exchanging rows and columns before or after makes no difference.
-/

namespace Reckon

open Library (transpose)

/-! ## Matrices of results -/

namespace Matrix

variable {rows cols : Nat} {result : Nat → Nat → Value}

/-- The matrix of results, if all of them are numeric. -/
def ofResults? (rows cols : Nat) (result : Nat → Nat → Value) : Option Matrix :=
  if ∀ row < rows, ∀ col < cols, (result row col).asCell?.isSome then
    some (ofCells rows cols fun row col => ((result row col).asCell?).getD default)
  else none

theorem ofValues?_grid (small : rows * cols < 2 ^ 63) :
    ofValues? rows cols (grid rows cols result) = ofResults? rows cols result := by
  rw [ofResults?]
  split
  case isTrue numeric =>
    rw [ofValues?_eq_some]
    refine ⟨by omega, by omega, ?_, _, mapM_asCell?_eq_some.mpr ?_, rfl⟩
    · rw [length_grid, cellCount, ← Int.natCast_mul, word_of_lt (by omega) (by omega)]
    · rw [map_grid, map_grid]
      refine grid_congr fun row inRows col inCols => ?_
      obtain ⟨cell, found⟩ := Option.isSome_iff_exists.mp (numeric row inRows col inCols)
      rw [found, Option.getD_some]
  case isFalse missing =>
    push Not at missing
    obtain ⟨row, inRows, col, inCols, nothing⟩ := missing
    have member : result row col ∈ grid rows cols result :=
      List.mem_of_getElem? (getElem?_grid inRows inCols)
    have broken := mapM_asCell?_eq_none.mpr ⟨_, member, by simpa using nothing⟩
    rw [ofValues?, broken]
    split <;> rfl

theorem ofResults?_congr {other : Nat → Nat → Value}
    (same : ∀ row < rows, ∀ col < cols, result row col = other row col) :
    ofResults? rows cols result = ofResults? rows cols other := by
  refine if_congr ?_ (congrArg some (ofCells_congr fun row inRows col inCols => ?_)) rfl
  · exact forall₂_congr fun row inRows => forall₂_congr fun col inCols => by rw [same row inRows col inCols]
  · rw [same row inRows col inCols]

theorem map_transpose_ofResults? :
    (ofResults? rows cols result).map Matrix.transpose =
      ofResults? cols rows fun col row => result row col := by
  rw [ofResults?, ofResults?]
  by_cases numeric : ∀ row < rows, ∀ col < cols, (result row col).asCell?.isSome
  · rw [if_pos numeric, if_pos fun col inCols row inRows => numeric row inRows col inCols, Option.map_some,
      transpose_ofCells]
  · rw [if_neg numeric, Option.map_none,
      if_neg fun others => numeric fun row inRows col inCols => others col inCols row inRows]

variable {matrix left right : Matrix}

theorem IsWhole.mapCells?_eq (whole : matrix.IsWhole) (f : Number → Value) :
    matrix.mapCells? f = ofResults? matrix.rows matrix.cols fun row col => f (matrix.cellAt row col) := by
  rw [mapCells?, whole.isFilled.toList_cells, map_grid, ofValues?_grid whole.product_lt]

theorem zipWith_grid {α β γ : Type} (f : α → β → γ) (first : Nat → Nat → α) (second : Nat → Nat → β) :
    List.zipWith f (grid rows cols first) (grid rows cols second) =
      grid rows cols fun row col => f (first row col) (second row col) := by
  refine eq_grid (by simp [length_grid]) fun row inRows col inCols => ?_
  simp [List.getElem?_zipWith, getElem?_grid inRows inCols]

theorem sameShape_iff : left.sameShape right = true ↔ left.rows = right.rows ∧ left.cols = right.cols := by
  simp [sameShape]

theorem IsWhole.zipCells?_eq (whole : left.IsWhole) (whole' : right.IsWhole)
    (shapes : left.sameShape right = true) (f : Number → Number → Value) :
    left.zipCells? f right =
      ofResults? left.rows left.cols fun row col => f (left.cellAt row col) (right.cellAt row col) := by
  obtain ⟨sameRows, sameCols⟩ := sameShape_iff.mp shapes
  rw [zipCells?, whole.isFilled.toList_cells, whole'.isFilled.toList_cells, ← sameRows, ← sameCols,
    zipWith_grid, ofValues?_grid whole.product_lt]

theorem IsWhole.transpose (whole : matrix.IsWhole) : matrix.transpose.IsWhole where
  isFilled := whole.isFilled.transpose
  rows_lt := whole.cols_lt
  cols_lt := whole.rows_lt
  size_lt := by simpa [size, Matrix.transpose] using whole.size_lt

theorem sameShape_transpose : left.transpose.sameShape right.transpose = left.sameShape right := by
  simp only [sameShape, Matrix.transpose, Bool.and_comm]

theorem transpose_orNull (found : Option Matrix) :
    Library.transpose (orNull found) = orNull (found.map Matrix.transpose) := by
  cases found <;> rfl

/-- What is computed from the cells of a transposed matrix is transposed. -/
theorem IsWhole.transpose_mapCells? (whole : matrix.IsWhole) (f : Number → Value) :
    Library.transpose (orNull (matrix.mapCells? f)) = orNull (matrix.transpose.mapCells? f) := by
  rw [transpose_orNull, whole.mapCells?_eq, map_transpose_ofResults?, whole.transpose.mapCells?_eq]
  refine congrArg orNull (ofResults?_congr fun col inCols row inRows => ?_)
  rw [whole.isFilled.cellAt_transpose inRows inCols]

theorem IsWhole.transpose_zipCells? (whole : left.IsWhole) (whole' : right.IsWhole)
    (shapes : left.sameShape right = true) (f : Number → Number → Value) :
    Library.transpose (orNull (left.zipCells? f right)) =
      orNull (left.transpose.zipCells? f right.transpose) := by
  rw [transpose_orNull, whole.zipCells?_eq whole' shapes, map_transpose_ofResults?,
    whole.transpose.zipCells?_eq whole'.transpose (sameShape_transpose.trans shapes)]
  obtain ⟨sameRows, sameCols⟩ := sameShape_iff.mp shapes
  refine congrArg orNull (ofResults?_congr fun col inCols row inRows => ?_)
  rw [whole.isFilled.cellAt_transpose inRows inCols,
    whole'.isFilled.cellAt_transpose (sameRows ▸ inRows) (sameCols ▸ inCols)]

/-- What a position of a matrix holds, as a value. -/
def valueAt (matrix : Matrix) (row col : Nat) : Value :=
  match matrix.at? row col with
  | .ok found => Eval.cellOrNull found
  | .error _ => .null

theorem IsWhole.valueAt_eq (whole : matrix.IsWhole) {row col : Nat} (inRows : row < matrix.rows)
    (inCols : col < matrix.cols) : matrix.valueAt row col = .number (matrix.cellAt row col) := by
  rw [valueAt, whole.isFilled.at?_eq whole.bounded inRows inCols]
  rfl

end Matrix

/-! ## Operators and cells -/

namespace FollowM

/-- A computed value is the matrix of computed results: a matrix of the given shape that holds each of them,
truth values as numbers, or null where one is not numeric.  Nothing happens to the store. -/
def IsTable (whole : FollowM Value) (rows cols : Nat) (each : Nat → Nat → FollowM Value) : Prop :=
  ∃ result : Nat → Nat → Value,
    (∀ row < rows, ∀ col < cols, each row col = pure (result row col)) ∧
      ((whole = pure .null ∧ ∃ row < rows, ∃ col < cols, (result row col).asCell? = none) ∨
        ∃ matrix : Matrix, whole = pure (.matrix matrix) ∧ matrix.rows = rows ∧ matrix.cols = cols ∧
          ∀ row < rows, ∀ col < cols, ∃ cell,
            (result row col).asCell? = some cell ∧ matrix.at? row col = .ok (some cell))

theorem isTable_ofResults? {rows cols : Nat} {each : Nat → Nat → FollowM Value} {result : Nat → Nat → Value}
    (small : rows * cols < 2 ^ 63)
    (computed : ∀ row < rows, ∀ col < cols, each row col = pure (result row col)) :
    IsTable (pure (Matrix.orNull (Matrix.ofResults? rows cols result))) rows cols each := by
  refine ⟨result, computed, ?_⟩
  rw [Matrix.ofResults?]
  by_cases numeric : ∀ row < rows, ∀ col < cols, (result row col).asCell?.isSome
  · rw [if_pos numeric]
    refine .inr ⟨_, rfl, rfl, rfl, fun row inRows col inCols => ?_⟩
    obtain ⟨cell, found⟩ := Option.isSome_iff_exists.mp (numeric row inRows col inCols)
    refine ⟨cell, found, ?_⟩
    rw [Matrix.isFilled_ofCells.at?_eq (Matrix.isFilled_ofCells ▸ small) inRows inCols,
      Matrix.cellAt_ofCells inRows inCols, found, Option.getD_some]
  · rw [if_neg numeric]
    push Not at numeric
    obtain ⟨row, inRows, col, inCols, missing⟩ := numeric
    exact .inl ⟨rfl, row, inRows, col, inCols, by simpa using missing⟩

end FollowM

theorem Matrix.IsWhole.isTable_mapCells? {matrix : Matrix} (whole : matrix.IsWhole) {f : Number → Value}
    (each : Value → FollowM Value) (computed : ∀ number, each (.number number) = pure (f number)) :
    (pure (orNull (matrix.mapCells? f)) : FollowM Value).IsTable matrix.rows matrix.cols fun row col =>
      each (matrix.valueAt row col) := by
  rw [whole.mapCells?_eq]
  refine FollowM.isTable_ofResults? whole.product_lt fun row inRows col inCols => ?_
  rw [whole.valueAt_eq inRows inCols, computed]

section Operators

variable {op : Cascade} {x y : Value} {matrix left right : Matrix} {number : Number}

theorem Cascade.apply_of_onMatrices? {result : Value} (found : op.onMatrices? x y = some result) :
    op.apply x y = pure result := by
  funext store
  obtain ⟨depth, enough, -⟩ := store.exists_pairing
  have run := op.run_apply store x y
  rw [enough, applyTo, found] at run
  exact run

theorem Cascade.apply_numeric (numeric : x.isNumeric = true) (numeric' : y.isNumeric = true) :
    op.apply x y = pure (op.onScalars x y) := by
  cases x <;> cases numeric <;> cases y <;> cases numeric' <;> rfl

theorem Cascade.apply_matrices : op.apply (.matrix left) (.matrix right) =
    pure (if left.sameShape right then Matrix.orNull (left.zipCells? op.onNumbers right) else .null) :=
  apply_of_onMatrices? rfl

theorem Cascade.apply_matrix_numeric (numeric : y.isNumeric = true) : op.apply (.matrix matrix) y =
    pure (Matrix.orNull (matrix.mapCells? fun cell => op.onScalars (.number cell) y)) := by
  refine apply_of_onMatrices? ?_
  cases y <;> cases numeric <;> rfl

theorem Cascade.apply_numeric_matrix (numeric : x.isNumeric = true) : op.apply x (.matrix matrix) =
    pure (Matrix.orNull (matrix.mapCells? fun cell => op.onScalars x (.number cell))) := by
  refine apply_of_onMatrices? ?_
  cases x <;> cases numeric <;> rfl

theorem lift_matrix (f : Value → Value) :
    lift f (.matrix matrix) = pure (Matrix.orNull (matrix.mapCells? fun cell => f (.number cell))) :=
  rfl

theorem lift_number (f : Value → Value) : lift f (.number number) = pure (f (.number number)) :=
  rfl

end Operators

/-! ## Broadcasting -/

/-- Operators on matrices work cell by cell and commute with transposition, whatever they do to scalars. -/
theorem operators_broadcast (op : Cascade) (f : Value → Value) {left right : Matrix} {scalar : Value}
    (whole : left.IsWhole) (whole' : right.IsWhole) (numeric : scalar.isNumeric = true) :
    (left.sameShape right = false → op.apply (.matrix left) (.matrix right) = pure .null) ∧
      (left.sameShape right = true →
        (op.apply (.matrix left) (.matrix right)).IsTable left.rows left.cols fun row col =>
          op.apply (left.valueAt row col) (right.valueAt row col)) ∧
      ((op.apply (.matrix left) scalar).IsTable left.rows left.cols fun row col =>
        op.apply (left.valueAt row col) scalar) ∧
      ((op.apply scalar (.matrix left)).IsTable left.rows left.cols fun row col =>
        op.apply scalar (left.valueAt row col)) ∧
      ((lift f (.matrix left)).IsTable left.rows left.cols fun row col => lift f (left.valueAt row col)) ∧
      transpose <$> op.apply (.matrix left) (.matrix right) =
        op.apply (transpose (.matrix left)) (transpose (.matrix right)) ∧
      transpose <$> op.apply (.matrix left) scalar = op.apply (transpose (.matrix left)) scalar ∧
      transpose <$> op.apply scalar (.matrix left) = op.apply scalar (transpose (.matrix left)) ∧
      transpose <$> lift f (.matrix left) = lift f (transpose (.matrix left)) := by
  refine ⟨fun shapes => ?_, fun shapes => ?_, ?_, ?_, ?_, ?_, ?_, ?_, ?_⟩
  · rw [Cascade.apply_matrices, if_neg (by simp [shapes])]
  · obtain ⟨sameRows, sameCols⟩ := Matrix.sameShape_iff.mp shapes
    rw [Cascade.apply_matrices, if_pos shapes, whole.zipCells?_eq whole' shapes]
    refine FollowM.isTable_ofResults? whole.product_lt fun row inRows col inCols => ?_
    rw [whole.valueAt_eq inRows inCols, whole'.valueAt_eq (sameRows ▸ inRows) (sameCols ▸ inCols),
      Cascade.apply_numeric rfl rfl, Cascade.onNumbers]
  · rw [Cascade.apply_matrix_numeric numeric]
    exact whole.isTable_mapCells? (op.apply · scalar) fun number => Cascade.apply_numeric rfl numeric
  · rw [Cascade.apply_numeric_matrix numeric]
    exact whole.isTable_mapCells? (op.apply scalar) fun number => Cascade.apply_numeric numeric rfl
  · exact whole.isTable_mapCells? (lift f) fun number => lift_number f
  · rw [transpose, transpose, Cascade.apply_matrices, Cascade.apply_matrices, Matrix.sameShape_transpose,
      map_pure]
    by_cases shapes : left.sameShape right = true
    · rw [if_pos shapes, if_pos shapes, whole.transpose_zipCells? whole' shapes]
    · rw [if_neg shapes, if_neg shapes]
      rfl
  · rw [transpose, Cascade.apply_matrix_numeric numeric, Cascade.apply_matrix_numeric numeric, map_pure,
      whole.transpose_mapCells?]
  · rw [transpose, Cascade.apply_numeric_matrix numeric, Cascade.apply_numeric_matrix numeric, map_pure,
      whole.transpose_mapCells?]
  · rw [transpose, lift_matrix, lift_matrix, map_pure, whole.transpose_mapCells?]

/-- A truth value counts as a number where it meets a matrix, and the sums are transposed with the matrix. -/
theorem column_plus_truth_broadcasts :
    transpose <$> Operator.add.apply (.matrix ⟨2, 1, #[.real 1, .real 2]⟩) (.boolean true) =
      Operator.add.apply (.matrix ⟨1, 2, #[.real 1, .real 2]⟩) (.boolean true) := by
  have whole : Matrix.IsWhole ⟨2, 1, #[.real 1, .real 2]⟩ := ⟨rfl, by decide, by decide, by decide⟩
  obtain ⟨-, -, -, -, -, -, commutes, -, -⟩ := operators_broadcast Operator.add Operator.negateScalar
    whole whole (show (Value.boolean true).isNumeric = true from rfl)
  exact commutes

end Reckon
