import Mathlib.Data.Int.ModEq
import Reckon.Library.Shape
import Reckon.Library.Text
import Reckon.Session.Eval
import Reckon.Proofs.Decimal.Whole

/-!
# Cells of matrices

The functions on matrices address one list of cells, row by row, each with an arithmetic of its own.  They
agree as long as a matrix is whole: its shape asks for the cells that it has.
-/

namespace Reckon.Matrix

variable {matrix left right last : Matrix} {rows cols row col : Nat}

/-! ## The arithmetic of 64-bit integers -/

theorem word_of_lt {n : Int} (low : 0 ≤ n) (high : n < 2 ^ 63) : word n = n := by
  refine Int.bmod_eq_of_le ?_ ?_ <;> norm_num <;> omega

theorem word_neg_of_le {n : Int} (low : 2 ^ 63 ≤ n) (high : n < 2 ^ 64) : word n < 0 := by
  have shifted : word n = n - 2 ^ 64 := by
    rw [word, ← Int.sub_bmod_right]
    refine Int.bmod_eq_of_le ?_ ?_ <;> norm_num <;> omega
  omega

theorem word_lt (n : Int) : word n < 2 ^ 63 := by
  have bound : word n < ((Nat.pow 2 64 : Nat) + 1) / 2 := Int.bmod_lt (by decide)
  norm_num at bound
  omega

theorem word_modEq (n : Int) : word n ≡ n [ZMOD 2 ^ 64] :=
  Int.bmod_emod

/-! ## Rows and columns -/

/-- The index of a cell is one of the cells before the end of the last row. -/
theorem index_lt (inRows : row < rows) (inCols : col < cols) : row * cols + col < rows * cols :=
  calc row * cols + col < row * cols + cols := Nat.add_lt_add_left inCols _
    _ = (row + 1) * cols := (Nat.succ_mul row cols).symm
    _ ≤ rows * cols := Nat.mul_le_mul_right cols inRows

/-- Each index belongs to a row and a column. -/
theorem exists_of_lt_mul {index : Nat} (inside : index < rows * cols) :
    ∃ row < rows, ∃ col < cols, index = row * cols + col := by
  have positive : 0 < cols := Nat.pos_of_mul_pos_left (Nat.zero_lt_of_lt inside)
  refine ⟨index / cols, Nat.div_lt_of_lt_mul (Nat.mul_comm rows cols ▸ inside), index % cols,
    Nat.mod_lt index positive, ?_⟩
  rw [Nat.mul_comm, Nat.div_add_mod]

/-- The items for all rows and columns, row by row. -/
def grid {α : Type} (rows cols : Nat) (item : Nat → Nat → α) : List α :=
  (List.range rows).flatMap fun row => (List.range cols).map (item row)

section Grid

variable {α β : Type} {item : Nat → Nat → α}

theorem grid_succ :
    grid (rows + 1) cols item = grid rows cols item ++ (List.range cols).map (item rows) := by
  simp [grid, List.range_succ]

theorem length_grid : (grid rows cols item).length = rows * cols := by
  induction rows with
  | zero => simp [grid]
  | succ rows inductionHypothesis =>
      rw [grid_succ, List.length_append, inductionHypothesis, List.length_map, List.length_range,
        Nat.succ_mul]

theorem getElem?_grid (inRows : row < rows) (inCols : col < cols) :
    (grid rows cols item)[row * cols + col]? = some (item row col) := by
  induction rows with
  | zero => cases inRows
  | succ rows inductionHypothesis =>
      rw [grid_succ]
      rcases Nat.lt_succ_iff_lt_or_eq.mp inRows with before | rfl
      · rw [List.getElem?_append_left (by rw [length_grid]; exact index_lt before inCols)]
        exact inductionHypothesis before
      · rw [List.getElem?_append_right (by rw [length_grid]; exact Nat.le_add_right _ _), length_grid,
          Nat.add_sub_cancel_left]
        simp [inCols]

theorem map_grid (f : α → β) :
    (grid rows cols item).map f = grid rows cols fun row col => f (item row col) := by
  simp [grid, List.map_flatMap, Function.comp_def]

/-- A list is the grid of what it holds at the index of each row and column. -/
theorem eq_grid {items : List α} (length : items.length = rows * cols)
    (each : ∀ row < rows, ∀ col < cols, items[row * cols + col]? = some (item row col)) :
    items = grid rows cols item := by
  refine List.ext_getElem? fun index => ?_
  by_cases inside : index < rows * cols
  · obtain ⟨row, inRows, col, inCols, rfl⟩ := exists_of_lt_mul inside
    rw [each row inRows col inCols, getElem?_grid inRows inCols]
  · rw [List.getElem?_eq_none (by omega), List.getElem?_eq_none (by rw [length_grid]; omega)]

theorem grid_congr {other : Nat → Nat → α}
    (same : ∀ row < rows, ∀ col < cols, item row col = other row col) :
    grid rows cols item = grid rows cols other :=
  eq_grid length_grid fun row inRows col inCols => by
    rw [getElem?_grid inRows inCols, same row inRows col inCols]

end Grid

/-! ## Whole matrices -/

/-- The number of cells is the number that the shape asks for. -/
def IsFilled (matrix : Matrix) : Prop :=
  matrix.size = matrix.rows * matrix.cols

/-- A matrix with all its cells: there is one in each row and column, the numbers of rows and columns are
64-bit integers, and the cells, of sixteen bytes each, fit into the memory that these can address.  Where the
product of rows and columns wraps, a matrix can be made that is not whole. -/
structure IsWhole (matrix : Matrix) : Prop where
  isFilled : matrix.IsFilled
  rows_lt : matrix.rows < 2 ^ 63
  cols_lt : matrix.cols < 2 ^ 63
  size_lt : matrix.size < 2 ^ 59

theorem IsWhole.bounded (whole : matrix.IsWhole) : matrix.size < 2 ^ 63 :=
  Nat.lt_trans whole.size_lt (by decide)

theorem IsWhole.product_lt (whole : matrix.IsWhole) : matrix.rows * matrix.cols < 2 ^ 63 :=
  whole.isFilled.symm.trans_lt whole.bounded

/-- The cell in a row and a column of a filled matrix. -/
def cellAt (matrix : Matrix) (row col : Nat) : Number :=
  matrix.cells.getD (row * matrix.cols + col) default

/-- The matrix with given cells. -/
def ofCells (rows cols : Nat) (cell : Nat → Nat → Number) : Matrix :=
  ⟨rows, cols, (grid rows cols cell).toArray⟩

section Cells

variable {cell : Nat → Nat → Number}

theorem isFilled_ofCells : (ofCells rows cols cell).IsFilled := by
  simp [IsFilled, ofCells, size, length_grid]

theorem rows_ofCells : (ofCells rows cols cell).rows = rows :=
  rfl

theorem cols_ofCells : (ofCells rows cols cell).cols = cols :=
  rfl

theorem cellAt_ofCells (inRows : row < rows) (inCols : col < cols) :
    (ofCells rows cols cell).cellAt row col = cell row col := by
  have found : (grid rows cols cell)[row * cols + col]? = some (cell row col) := getElem?_grid inRows inCols
  simp [cellAt, ofCells, found]

theorem IsFilled.getElem?_toList (filled : matrix.IsFilled) (inRows : row < matrix.rows)
    (inCols : col < matrix.cols) :
    matrix.cells.toList[row * matrix.cols + col]? = some (matrix.cellAt row col) := by
  have inside : row * matrix.cols + col < matrix.cells.size :=
    Nat.lt_of_lt_of_eq (index_lt inRows inCols) filled.symm
  simp [cellAt, inside]

theorem IsFilled.toList_cells (filled : matrix.IsFilled) :
    matrix.cells.toList = grid matrix.rows matrix.cols matrix.cellAt :=
  eq_grid filled fun _ inRows _ inCols => filled.getElem?_toList inRows inCols

/-- A filled matrix is determined by its shape and the cells in it. -/
theorem IsFilled.eq_ofCells (filled : matrix.IsFilled) :
    matrix = ofCells matrix.rows matrix.cols matrix.cellAt := by
  rw [ofCells, ← filled.toList_cells]

theorem ofCells_congr {other : Nat → Nat → Number}
    (same : ∀ row < rows, ∀ col < cols, cell row col = other row col) :
    ofCells rows cols cell = ofCells rows cols other := by
  rw [ofCells, grid_congr same, ofCells]

/-- A position outside of the shape has no cell. -/
theorem at?_of_outside {row col : Int}
    (outside : ¬(0 ≤ row ∧ 0 ≤ col ∧ row < matrix.rows ∧ col < matrix.cols)) :
    matrix.at? row col = .ok none :=
  if_neg outside

theorem index?_natCast (index : Nat) : matrix.index? index = matrix.cells[index]? := by
  simp [index?]

/-- Inside of the shape, reading a cell looks at the row-major index. -/
theorem at?_of_inside (inRows : row < matrix.rows) (inCols : col < matrix.cols)
    (fits : row * matrix.cols + col < 2 ^ 63) :
    matrix.at? row col =
      match matrix.cells[row * matrix.cols + col]? with
      | some cell => .ok (some cell)
      | none => .error (.badIndex (row * matrix.cols + col) matrix.size) := by
  have indexed : matrix.indexOf row col = ((row * matrix.cols + col : Nat) : Int) := by
    rw [indexOf, word_of_lt] <;> push_cast <;> omega
  rw [at?, if_pos (by omega), indexed, index?_natCast]
  push_cast
  rfl

theorem IsFilled.at?_eq (filled : matrix.IsFilled) (bounded : matrix.size < 2 ^ 63)
    (inRows : row < matrix.rows) (inCols : col < matrix.cols) :
    matrix.at? row col = .ok (some (matrix.cellAt row col)) := by
  have before := index_lt inRows inCols
  rw [at?_of_inside inRows inCols (by rw [IsFilled] at filled; omega), ← Array.getElem?_toList,
    filled.getElem?_toList inRows inCols]

end Cells

/-! ## Building matrices -/

section Building

variable {values : List Value} {numbers : List Number}

theorem mapM_asCell?_eq_some :
    values.mapM Value.asCell? = some numbers ↔ values.map Value.asCell? = numbers.map some := by
  induction values generalizing numbers with
  | nil => cases numbers <;> simp
  | cons first rest inductionHypothesis =>
      cases cell : first.asCell? with
      | none => cases numbers <;> simp [cell]
      | some number =>
          cases numbers with
          | nil => cases others : rest.mapM Value.asCell? <;> simp [cell, others]
          | cons other more =>
              cases others : rest.mapM Value.asCell? <;> simp [cell, others, ← inductionHypothesis]

theorem mapM_asCell?_eq_none :
    values.mapM Value.asCell? = none ↔ ∃ value ∈ values, value.asCell? = none := by
  induction values with
  | nil => simp
  | cons first rest inductionHypothesis =>
      cases cell : first.asCell? with
      | none => simp [cell]
      | some number =>
          cases others : rest.mapM Value.asCell? <;> simp [cell, others, ← inductionHypothesis]

theorem mapM_asCell?_numbers : (numbers.map Value.number).mapM Value.asCell? = some numbers :=
  mapM_asCell?_eq_some.mpr (by rw [List.map_map]; rfl)

/-- A matrix is built when its shape has no negative side and asks, in 64-bit arithmetic, for the cells that
are given, and these are numeric. -/
theorem ofValues?_eq_some {rows cols : Int} :
    ofValues? rows cols values = some matrix ↔
      0 ≤ rows ∧ 0 ≤ cols ∧ (values.length : Int) = cellCount rows cols ∧
        ∃ numbers, values.mapM Value.asCell? = some numbers ∧
          matrix = ⟨rows.toNat, cols.toNat, numbers.toArray⟩ := by
  rw [ofValues?]
  split
  case isTrue wrong =>
    refine ⟨nofun, fun ⟨highRows, highCols, counted, _⟩ => ?_⟩
    omega
  case isFalse right =>
    have fits : 0 ≤ rows ∧ 0 ≤ cols ∧ (values.length : Int) = cellCount rows cols := by omega
    simp [fits, eq_comm]

theorem ofValues?_numbers (length : numbers.length = rows * cols) (countable : rows * cols < 2 ^ 63) :
    ofValues? rows cols (numbers.map .number) = some ⟨rows, cols, numbers.toArray⟩ := by
  rw [ofValues?_eq_some]
  refine ⟨by omega, by omega, ?_, _, mapM_asCell?_numbers, rfl⟩
  rw [List.length_map, length, cellCount, ← Int.natCast_mul, word_of_lt (by omega) (by omega)]

theorem size_of_mapM {rows cols : Nat} (cells : values.mapM Value.asCell? = some numbers) :
    (⟨rows, cols, numbers.toArray⟩ : Matrix).size = values.length := by
  have same := congrArg List.length (mapM_asCell?_eq_some.mp cells)
  simpa [size] using same.symm

end Building

/-- Every position in the shape has a cell exactly if the matrix is filled, unless it has too many cells. -/
theorem readable_iff_isFilled (few : matrix.size ≤ matrix.rows * matrix.cols)
    (bounded : matrix.size < 2 ^ 63) :
    (∀ row < matrix.rows, ∀ col < matrix.cols, ∃ cell, matrix.at? row col = .ok (some cell)) ↔
      matrix.IsFilled := by
  refine ⟨fun readable => ?_,
    fun filled row inRows col inCols => ⟨_, filled.at?_eq bounded inRows inCols⟩⟩
  by_contra fewer
  -- The index after the last cell is still inside of the shape.
  obtain ⟨row, inRows, col, inCols, index⟩ := exists_of_lt_mul (Nat.lt_of_le_of_ne few fewer)
  obtain ⟨cell, found⟩ := readable row inRows col inCols
  rw [at?_of_inside inRows inCols (index ▸ bounded), ← index, size, Array.getElem?_size] at found
  cases found

section Counted

variable (counted : (matrix.size : Int) = cellCount matrix.rows matrix.cols)

include counted

theorem size_lt_of_counted : matrix.size < 2 ^ 63 := by
  have bound := word_lt (matrix.rows * matrix.cols)
  rw [← cellCount, ← counted] at bound
  omega

/-- The count that wraps around is the product exactly if the product is a 64-bit integer. -/
theorem isFilled_iff_of_counted : matrix.IsFilled ↔ matrix.rows * matrix.cols < 2 ^ 63 := by
  have bounded := size_lt_of_counted counted
  rw [IsFilled]
  refine ⟨fun filled => by omega, fun small => ?_⟩
  rw [cellCount, ← Int.natCast_mul, word_of_lt (by omega) (by omega)] at counted
  exact Int.ofNat_inj.mp counted

theorem size_le_of_counted : matrix.size ≤ matrix.rows * matrix.cols := by
  by_cases small : matrix.rows * matrix.cols < 2 ^ 63
  · exact ((isFilled_iff_of_counted counted).mpr small).le
  · have bounded := size_lt_of_counted counted
    omega

end Counted

/-- What is true of every matrix that is built: its sides are not negative, it has the cells that are given,
and their number is the product of the sides up to a multiple of 2 to the power 64.  It is the product, and
every position in the shape has a cell, exactly if the product is a 64-bit integer. -/
theorem built_matrix_has_its_cells {rows cols : Int} {values : List Value} {matrix : Matrix}
    (built : ofValues? rows cols values = some matrix) :
    (0 ≤ rows ∧ 0 ≤ cols ∧ matrix.rows = rows ∧ matrix.cols = cols ∧ matrix.size = values.length) ∧
      matrix.size ≡ rows * cols [ZMOD 2 ^ 64] ∧
      (matrix.size = rows * cols ↔ rows * cols < 2 ^ 63) ∧
      ((∀ row col : Int, 0 ≤ row → row < rows → 0 ≤ col → col < cols →
          ∃ cell, matrix.at? row col = .ok (some cell)) ↔ rows * cols < 2 ^ 63) := by
  obtain ⟨highRows, highCols, counted, numbers, cells, same⟩ := ofValues?_eq_some.mp built
  obtain ⟨rows, rfl⟩ := Int.eq_ofNat_of_zero_le highRows
  obtain ⟨cols, rfl⟩ := Int.eq_ofNat_of_zero_le highCols
  obtain ⟨sameRows, sameCols⟩ : matrix.rows = rows ∧ matrix.cols = cols := by
    rw [same]
    exact ⟨rfl, rfl⟩
  have sized : matrix.size = values.length := by rw [same, size_of_mapM cells]
  rw [← sized, ← sameRows, ← sameCols] at counted
  have filled := isFilled_iff_of_counted counted
  have readable := readable_iff_isFilled (size_le_of_counted counted) (size_lt_of_counted counted)
  rw [filled] at readable
  rw [IsFilled] at filled
  rw [← sameRows, ← sameCols]
  refine ⟨⟨Int.natCast_nonneg _, Int.natCast_nonneg _, rfl, rfl, sized⟩, ?_, by exact_mod_cast filled,
    fun each => ?_, fun small row col lowRow inRows lowCol inCols => ?_⟩
  · rw [counted, cellCount]
    exact word_modEq _
  · exact_mod_cast readable.mp fun row inRows col inCols =>
      each row col (by omega) (by omega) (by omega) (by omega)
  · lift row to Nat using lowRow
    lift col to Nat using lowCol
    exact readable.mpr (by exact_mod_cast small) row (by omega) col (by omega)

theorem built_row_has_its_cells :
    ∃ matrix, ofValues? 1 2 [.boolean true, .boolean false] = some matrix ∧ matrix.size = 2 ∧
      ∀ row col : Int, 0 ≤ row → row < 1 → 0 ≤ col → col < 2 →
        ∃ cell, matrix.at? row col = .ok (some cell) := by
  have built : ofValues? 1 2 [.boolean true, .boolean false] = some ⟨1, 2, #[.real 1, .real 0]⟩ := rfl
  obtain ⟨⟨-, -, -, -, sized⟩, -, -, readable⟩ := built_matrix_has_its_cells built
  exact ⟨_, built, sized, readable.mpr (by decide)⟩

/-- A shape whose product wraps around to zero is built without cells, and then a position in it has none. -/
theorem overflowing_shape_is_built :
    ∃ matrix, ofValues? 4 4611686018427387904 [] = some matrix ∧
      matrix.size ≠ 4 * 4611686018427387904 ∧ matrix.at? 0 0 = .error (.badIndex 0 0) :=
  ⟨⟨4, 4611686018427387904, #[]⟩, rfl, by decide, rfl⟩

/-! ## Transposition -/

section Transposition

variable {cell : Nat → Nat → Number}

theorem IsFilled.transpose (filled : matrix.IsFilled) : matrix.transpose.IsFilled := by
  rw [IsFilled, size] at *
  simp [Matrix.transpose, filled, Nat.mul_comm]

theorem IsFilled.cellAt_transpose (filled : matrix.IsFilled) (inRows : row < matrix.rows)
    (inCols : col < matrix.cols) : matrix.transpose.cellAt col row = matrix.cellAt row col := by
  have inside : col * matrix.rows + row < matrix.cells.size := by
    rw [IsFilled, size, Nat.mul_comm] at filled
    exact filled ▸ index_lt inCols inRows
  have column : (col * matrix.rows + row) / matrix.rows = col := by
    rw [Nat.mul_comm, Nat.mul_add_div (by omega), Nat.div_eq_of_lt inRows, Nat.add_zero]
  simp [cellAt, Matrix.transpose, inside, column, Nat.mod_eq_of_lt inRows]

theorem IsFilled.transpose_eq (filled : matrix.IsFilled) :
    matrix.transpose = ofCells matrix.cols matrix.rows fun col row => matrix.cellAt row col := by
  rw [filled.transpose.eq_ofCells]
  exact ofCells_congr fun col inCols row inRows => filled.cellAt_transpose inRows inCols

theorem transpose_ofCells :
    (ofCells rows cols cell).transpose = ofCells cols rows fun col row => cell row col := by
  rw [isFilled_ofCells.transpose_eq]
  exact ofCells_congr fun col inCols row inRows => cellAt_ofCells inRows inCols

theorem IsFilled.transpose_transpose (filled : matrix.IsFilled) : matrix.transpose.transpose = matrix := by
  rw [filled.transpose_eq, transpose_ofCells, ← filled.eq_ofCells]

end Transposition

/-! ## Side by side -/

section Beside

theorem IsFilled.row_eq (filled : matrix.IsFilled) (inRows : row < matrix.rows) :
    matrix.row row = (List.range matrix.cols).map (matrix.cellAt row) := by
  refine List.ext_getElem? fun col => ?_
  have upTo : (row + 1) * matrix.cols ≤ matrix.cells.size :=
    (Nat.mul_le_mul_right matrix.cols inRows).trans_eq filled.symm
  have width : (row + 1) * matrix.cols - row * matrix.cols = matrix.cols := by
    rw [Nat.succ_mul, Nat.add_sub_cancel_left]
  by_cases inCols : col < matrix.cols
  · have found := filled.getElem?_toList inRows inCols
    simp_all [Matrix.row]
  · simp_all [Matrix.row]

/-- The cell of two matrices side by side. -/
def cellBeside (left right : Matrix) (row col : Nat) : Number :=
  if col < left.cols then left.cellAt row col else right.cellAt row (col - left.cols)

theorem cellBeside_of_lt (first : col < left.cols) : left.cellBeside right row col = left.cellAt row col :=
  if_pos first

theorem cellBeside_of_le (second : left.cols ≤ col) :
    left.cellBeside right row col = right.cellAt row (col - left.cols) :=
  if_neg (Nat.not_lt.mpr second)

theorem map_cellBeside (left right : Matrix) (row : Nat) :
    (List.range left.cols).map (left.cellAt row) ++ (List.range right.cols).map (right.cellAt row) =
      (List.range (left.cols + right.cols)).map (left.cellBeside right row) := by
  rw [List.range_add, List.map_append, List.map_map]
  congr 1
  · exact List.map_congr_left fun col inCols => by simp_all [cellBeside]
  · exact List.map_congr_left fun col _ => by simp [cellBeside]

theorem flatMap_rows (filled : left.IsFilled) (filled' : right.IsFilled)
    (sameRows : left.rows = right.rows) :
    ((List.range left.rows).flatMap fun index => left.row index ++ right.row index) =
      grid left.rows (left.cols + right.cols) (left.cellBeside right) := by
  refine List.flatMap_congr fun row inRows => ?_
  have inLeft := List.mem_range.mp inRows
  rw [filled.row_eq inLeft, filled'.row_eq (sameRows ▸ inLeft), map_cellBeside]

/-- Two matrices side by side are the matrix of the cells of both, unless the number of rows differs or there
are too many columns for a 64-bit integer. -/
theorem beside?_eq (filled : left.IsFilled) (filled' : right.IsFilled) (narrow : left.cols < 2 ^ 63)
    (narrow' : right.cols < 2 ^ 63) (bounded : left.size + right.size < 2 ^ 63) :
    left.beside? right =
      if left.rows = right.rows ∧ left.cols + right.cols < 2 ^ 63 then
        some (ofCells left.rows (left.cols + right.cols) (left.cellBeside right))
      else none := by
  by_cases sameRows : left.rows = right.rows
  case neg => simp [beside?, sameRows]
  rw [beside?, if_pos sameRows, flatMap_rows filled filled' sameRows]
  rw [IsFilled] at filled filled'
  by_cases fits : left.cols + right.cols < 2 ^ 63
  · have sized : left.rows * (left.cols + right.cols) < 2 ^ 63 := by
      rw [Nat.mul_add, ← filled, sameRows, ← filled']
      exact bounded
    rw [if_pos ⟨sameRows, fits⟩, word_of_lt (by omega) (by omega), ← Int.natCast_add,
      ofValues?_numbers length_grid sized, ofCells]
  · have negative : word (left.cols + right.cols) < 0 := word_neg_of_le (by omega) (by omega)
    rw [if_neg (by omega), ofValues?, if_pos (.inr (.inl negative))]

theorem size_cellBeside (filled : left.IsFilled) (filled' : right.IsFilled)
    (sameRows : left.rows = right.rows) :
    (ofCells left.rows (left.cols + right.cols) (left.cellBeside right)).size = left.size + right.size := by
  rw [IsFilled] at filled filled'
  rw [isFilled_ofCells, filled, filled', ← sameRows]
  exact Nat.mul_add left.rows left.cols right.cols

variable (filled : left.IsFilled) (filled' : right.IsFilled) (filled'' : last.IsFilled)
  (narrow : left.cols < 2 ^ 63) (narrow' : right.cols < 2 ^ 63) (narrow'' : last.cols < 2 ^ 63)
  (bounded : left.size + right.size + last.size < 2 ^ 63)

include filled filled' filled'' narrow narrow' narrow'' bounded

theorem beside?_then_last :
    (left.beside? right).bind (·.beside? last) =
      if left.rows = right.rows ∧ right.rows = last.rows ∧ left.cols + right.cols + last.cols < 2 ^ 63 then
        some (ofCells left.rows (left.cols + right.cols + last.cols) fun row col =>
          if col < left.cols then left.cellAt row col else right.cellBeside last row (col - left.cols))
      else none := by
  rw [beside?_eq filled filled' narrow narrow' (by omega)]
  by_cases joined : left.rows = right.rows ∧ left.cols + right.cols < 2 ^ 63
  case neg =>
    rw [if_neg joined, if_neg (by omega)]
    rfl
  have sized := size_cellBeside filled filled' joined.1
  rw [if_pos joined, Option.bind_some,
    beside?_eq isFilled_ofCells filled'' joined.2 narrow'' (by omega)]
  simp only [rows_ofCells, cols_ofCells]
  refine if_congr (by omega) (congrArg some (ofCells_congr fun row inRows col inCols => ?_)) rfl
  by_cases early : col < left.cols + right.cols
  · rw [cellBeside_of_lt early, cellAt_ofCells inRows early]
    by_cases first : col < left.cols
    · rw [cellBeside_of_lt first, if_pos first]
    · rw [cellBeside_of_le (by omega), if_neg first, cellBeside_of_lt (by omega)]
  · rw [cellBeside_of_le (Nat.not_lt.mp early), if_neg (by omega), cellBeside_of_le (by omega),
      cols_ofCells, Nat.sub_sub]

theorem first_then_beside? :
    (right.beside? last).bind (left.beside? ·) =
      if left.rows = right.rows ∧ right.rows = last.rows ∧ left.cols + right.cols + last.cols < 2 ^ 63 then
        some (ofCells left.rows (left.cols + right.cols + last.cols) fun row col =>
          if col < left.cols then left.cellAt row col else right.cellBeside last row (col - left.cols))
      else none := by
  rw [beside?_eq filled' filled'' narrow' narrow'' (by omega)]
  by_cases joined : right.rows = last.rows ∧ right.cols + last.cols < 2 ^ 63
  case neg =>
    rw [if_neg joined, if_neg (by omega)]
    rfl
  have sized := size_cellBeside filled' filled'' joined.1
  rw [if_pos joined, Option.bind_some,
    beside?_eq filled isFilled_ofCells narrow joined.2 (by omega)]
  simp only [rows_ofCells, cols_ofCells, ← Nat.add_assoc]
  by_cases all : left.rows = right.rows ∧ left.cols + right.cols + last.cols < 2 ^ 63
  case neg => rw [if_neg all, if_neg (by omega)]
  rw [if_pos all, if_pos (by omega)]
  refine congrArg some (ofCells_congr fun row inRows col inCols => ?_)
  by_cases first : col < left.cols
  · rw [cellBeside_of_lt first, if_pos first]
  · rw [cellBeside_of_le (Nat.not_lt.mp first), if_neg first]
    exact cellAt_ofCells (by omega) (by omega)

/-- Putting matrices side by side is associative. -/
theorem beside?_assoc :
    (left.beside? right).bind (·.beside? last) = (right.beside? last).bind (left.beside? ·) := by
  rw [beside?_then_last filled filled' filled'' narrow narrow' narrow'' bounded,
    first_then_beside? filled filled' filled'' narrow narrow' narrow'' bounded]

end Beside

/-! ## Matrices in programs -/

section Programs

open Eval (checkCancelled)

/-- A call of a matrix gives a value, unless the context is cancelled. -/
def CallGives (matrix : Matrix) (args : List Value) (result : Value) : Prop :=
  ∀ apply, Eval.call apply (.matrix matrix) args = do checkCancelled; return result

theorem callGives_of_index {args : List Value} {result : Value}
    (indexed : Eval.indexMatrix matrix args = .ok result) : matrix.CallGives args result := by
  intro apply
  rw [Eval.call, indexed]
  rfl

/-- Whichever way a program or the host reads the position, it finds the cell. -/
structure Finds (matrix : Matrix) (row col : Nat) (cell : Number) : Prop where
  at_eq : matrix.at? row col = .ok (some cell)
  index_eq : matrix.index? (row * matrix.cols + col) = some cell
  call_position {x y : Value} : Eval.index? x = some row → Eval.index? y = some col →
    matrix.CallGives [x, y] (.number cell)
  call_index {x : Value} : Eval.index? x = some (row * matrix.cols + col) →
    matrix.CallGives [x] (.number cell)

theorem IsFilled.finds (filled : matrix.IsFilled) (bounded : matrix.size < 2 ^ 63)
    (inRows : row < matrix.rows) (inCols : col < matrix.cols) :
    matrix.Finds row col (matrix.cellAt row col) := by
  have read := filled.at?_eq bounded inRows inCols
  have indexed : matrix.index? ((row * matrix.cols + col : Nat) : Int) = some (matrix.cellAt row col) := by
    rw [index?_natCast, ← Array.getElem?_toList, filled.getElem?_toList inRows inCols]
  refine ⟨read, by exact_mod_cast indexed, fun isRow isCol => ?_, fun isIndex => ?_⟩
  · refine callGives_of_index ?_
    simp only [Eval.indexMatrix, List.map_cons, List.map_nil, isRow, isCol, read]
    rfl
  · refine callGives_of_index ?_
    simp only [Eval.indexMatrix, List.map_cons, List.map_nil, isIndex, indexed]
    rfl

/-- A position with a side that is no index, or outside of the shape, has no cell. -/
theorem callGives_of_outside {x y : Value}
    (outside : ∀ row col, Eval.index? x = some row → Eval.index? y = some col →
      ¬(row < matrix.rows ∧ col < matrix.cols)) : matrix.CallGives [x, y] .null := by
  refine callGives_of_index ?_
  simp only [Eval.indexMatrix, List.map_cons, List.map_nil]
  cases isRow : Eval.index? x with
  | none => rfl
  | some row =>
      cases isCol : Eval.index? y with
      | none => rfl
      | some col =>
          have outside := outside row col isRow isCol
          simp only [at?_of_outside (show ¬(0 ≤ (row : Int) ∧ 0 ≤ (col : Int) ∧ (row : Int) < matrix.rows ∧
            (col : Int) < matrix.cols) by omega)]
          rfl

theorem index?_of_outside {index : Int} (outside : ¬(0 ≤ index ∧ index < matrix.size)) :
    matrix.index? index = none := by
  rw [index?]
  split
  case isTrue low => exact Array.getElem?_eq_none (by rw [size] at outside; omega)
  case isFalse => rfl

/-- What is no index, or one after the last cell, has no cell. -/
theorem callGives_of_last {x : Value}
    (outside : ∀ index, Eval.index? x = some index → matrix.size ≤ index) :
    matrix.CallGives [x] .null := by
  refine callGives_of_index ?_
  simp only [Eval.indexMatrix, List.map_cons, List.map_nil]
  cases isIndex : Eval.index? x with
  | none => rfl
  | some index =>
      have outside := outside index isIndex
      simp only [index?_of_outside (show ¬(0 ≤ (index : Int) ∧ (index : Int) < matrix.size) by omega)]
      rfl

/-- The whole numbers up to the limit are indices. -/
theorem index?_ofNat {index : Nat} (small : index ≤ Eval.indexLimit) :
    Eval.index? (.real (Decimal.ofNat index)) = some index := by
  have limit : Eval.indexLimit = 2 ^ 31 - 1 := rfl
  rw [Eval.index?]
  simp only [Value.real, Value.asReal?, Decimal.toInt?_ofNat (show index < 2 ^ 53 by omega)]
  rw [if_pos (by omega), Int.toNat_natCast]

theorem join_matrices : Library.join [.matrix left, .matrix right] = pure (orNull (left.beside? right)) :=
  rfl

theorem join_orNull_matrix (found : Option Matrix) :
    Library.join [orNull found, .matrix last] = pure (orNull (found.bind (·.beside? last))) := by
  cases found <;> rfl

theorem join_matrix_orNull (found : Option Matrix) :
    Library.join [.matrix left, orNull found] = pure (orNull (found.bind (left.beside? ·))) := by
  cases found <;> rfl

theorem IsWhole.join_eq (whole : left.IsWhole) (whole' : right.IsWhole) (sameRows : left.rows = right.rows)
    (fits : left.cols + right.cols < 2 ^ 63) :
    Library.join [.matrix left, .matrix right] =
      pure (.matrix (ofCells left.rows (left.cols + right.cols) (left.cellBeside right))) := by
  have sizes := Nat.add_lt_add whole.size_lt whole'.size_lt
  rw [join_matrices, beside?_eq whole.isFilled whole'.isFilled whole.cols_lt whole'.cols_lt (by omega),
    if_pos ⟨sameRows, fits⟩, orNull]

theorem IsWhole.at?_cellBeside (whole : left.IsWhole) (whole' : right.IsWhole)
    (sameRows : left.rows = right.rows) (inRows : row < left.rows) (inCols : col < left.cols + right.cols) :
    (ofCells left.rows (left.cols + right.cols) (left.cellBeside right)).at? row col =
      if col < left.cols then left.at? row col else right.at? row (col - left.cols) := by
  have sizes := Nat.add_lt_add whole.size_lt whole'.size_lt
  have bounded : (ofCells left.rows (left.cols + right.cols) (left.cellBeside right)).size < 2 ^ 63 := by
    rw [size_cellBeside whole.isFilled whole'.isFilled sameRows]
    omega
  rw [isFilled_ofCells.at?_eq bounded inRows inCols, cellAt_ofCells inRows inCols]
  by_cases first : col < left.cols
  · rw [if_pos first, cellBeside_of_lt first, whole.isFilled.at?_eq whole.bounded inRows first]
  · rw [if_neg first, cellBeside_of_le (by omega), ← Int.natCast_sub (by omega),
      whole'.isFilled.at?_eq whole'.bounded (sameRows ▸ inRows) (by omega)]

/-- The functions that address the cells of whole matrices agree with each other.  Matrices are put side by
side unless there are more columns than a 64-bit integer can count. -/
theorem matrix_positions_agree (whole : matrix.IsWhole) (wholeLeft : left.IsWhole)
    (wholeRight : right.IsWhole) (wholeLast : last.IsWhole) :
    (∀ row < matrix.rows, ∀ col < matrix.cols, ∃ cell,
        matrix.Finds row col cell ∧ matrix.transpose.Finds col row cell) ∧
      (∀ row col : Int, ¬(0 ≤ row ∧ 0 ≤ col ∧ row < matrix.rows ∧ col < matrix.cols) →
        matrix.at? row col = .ok none) ∧
      (∀ x y : Value, (∀ row col, Eval.index? x = some row → Eval.index? y = some col →
        ¬(row < matrix.rows ∧ col < matrix.cols)) → matrix.CallGives [x, y] .null) ∧
      (∀ index : Int, ¬(0 ≤ index ∧ index < matrix.size) → matrix.index? index = none) ∧
      (∀ x : Value, (∀ index, Eval.index? x = some index → matrix.size ≤ index) →
        matrix.CallGives [x] .null) ∧
      (∀ index ≤ Eval.indexLimit, Eval.index? (.real (Decimal.ofNat index)) = some index) ∧
      (matrix.transpose.rows = matrix.cols ∧ matrix.transpose.cols = matrix.rows ∧
        matrix.transpose.transpose = matrix) ∧
      (left.rows = right.rows → left.cols + right.cols < 2 ^ 63 → ∃ both,
        Library.join [.matrix left, .matrix right] = pure (.matrix both) ∧
          both.rows = left.rows ∧ both.cols = left.cols + right.cols ∧
          ∀ row < both.rows, ∀ col < both.cols, both.at? row col =
            if col < left.cols then left.at? row col else right.at? row (col - left.cols)) ∧
      (2 ^ 63 ≤ left.cols + right.cols → Library.join [.matrix left, .matrix right] = pure .null) ∧
      (do Library.join [← Library.join [.matrix left, .matrix right], .matrix last]) =
        (do Library.join [.matrix left, ← Library.join [.matrix right, .matrix last]]) := by
  have sizes := Nat.add_lt_add (Nat.add_lt_add wholeLeft.size_lt wholeRight.size_lt) wholeLast.size_lt
  refine ⟨fun row inRows col inCols => ?_, fun row col => at?_of_outside,
    fun x y => callGives_of_outside, fun index => index?_of_outside, fun x => callGives_of_last,
    fun index => index?_ofNat,
    ⟨rfl, rfl, whole.isFilled.transpose_transpose⟩, fun sameRows fits => ?_, fun wide => ?_, ?_⟩
  · have transposed := whole.isFilled.transpose
    have sameSize : matrix.transpose.size = matrix.size := by
      rw [transposed, whole.isFilled]
      exact Nat.mul_comm _ _
    refine ⟨_, whole.isFilled.finds whole.bounded inRows inCols, ?_⟩
    rw [← whole.isFilled.cellAt_transpose inRows inCols]
    exact transposed.finds (sameSize ▸ whole.bounded) inCols inRows
  · exact ⟨_, wholeLeft.join_eq wholeRight sameRows fits, rfl, rfl, fun row inRows col inCols =>
      wholeLeft.at?_cellBeside wholeRight sameRows inRows inCols⟩
  · rw [join_matrices, beside?_eq wholeLeft.isFilled wholeRight.isFilled wholeLeft.cols_lt
      wholeRight.cols_lt (by omega), if_neg (by omega), orNull]
  · have assoc := beside?_assoc wholeLeft.isFilled wholeRight.isFilled wholeLast.isFilled
      wholeLeft.cols_lt wholeRight.cols_lt wholeLast.cols_lt (by omega)
    simp only [join_matrices, pure_bind, join_orNull_matrix, join_matrix_orNull, assoc]

theorem small_positions_agree :
    ∃ cell, Finds ⟨2, 1, #[.real 1, .real 2]⟩ 1 0 cell ∧
      Finds (Matrix.transpose ⟨2, 1, #[.real 1, .real 2]⟩) 0 1 cell := by
  have whole : IsWhole ⟨2, 1, #[.real 1, .real 2]⟩ := ⟨rfl, by decide, by decide, by decide⟩
  exact (matrix_positions_agree whole whole whole whole).1 1 (by decide) 0 (by decide)

/-- Two matrices without rows have the same number of rows, but may have too many columns together. -/
theorem wide_matrices_are_not_joined :
    ¬∀ left right : Matrix, left.IsWhole → right.IsWhole → left.rows = right.rows → ∃ both,
      Library.join [.matrix left, .matrix right] = pure (.matrix both) ∧
        both.cols = left.cols + right.cols := by
  intro joined
  have whole : IsWhole ⟨0, 2 ^ 62, #[]⟩ := ⟨rfl, by decide, by decide, by decide⟩
  obtain ⟨both, same, -⟩ := joined _ _ whole whole rfl
  have nothing : Library.join [.matrix ⟨0, 2 ^ 62, #[]⟩, .matrix ⟨0, 2 ^ 62, #[]⟩] = pure .null := by
    rw [join_matrices]
    rfl
  rw [nothing] at same
  cases congrFun same {}

end Programs

end Reckon.Matrix
