import Mathlib.Data.List.Forall2
import Reckon.Proofs.Decimal.Whole
import Reckon.Proofs.Value.Record
import Reckon.Value.Display

/-!
# Data

Data is what a store holds apart from functions, futures and numbers that are not whole: null, truth
values, small whole numbers, texts, matrices of whole numbers, and maps of data.  It is a finite tree,
while a value is a tree only through the store, in which the same map may stand in many places.

Showing and comparing follow maps down to a depth, the number of maps in the store.  Maps that hold data
do not hold themselves, so this depth is never reached.
-/

namespace Reckon

/-! ## Data -/

/-- A whole number that is written in full. -/
structure Whole where
  value : Int
  small : value.natAbs < Decimal.wholeBound

/-- Whether a character is printable or has an escape that reads back. -/
def Text.isWritable (c : Char) : Bool :=
  isPrintable c || c == '\n' || c == '\t' || c == '\r'

/-- A text of such characters. -/
structure Wording where
  text : String
  isWritable_text : ∀ c ∈ text.toList, Text.isWritable c = true

/-- A key that stands for itself in an object: a name, or the digits of an index. -/
inductive Key where
  | name (name : Name)
  | index (numeral : Numeral)

namespace Key

/-- The text of a key. -/
def text : Key → String
  | name word => word.text
  | index numeral => numeral.text

end Key

/-- Rows of whole numbers, all of the same length and none of them empty. There are no more of them
than a 64-bit integer can count. -/
structure Grid where
  rows : List (List Whole)
  cols : Nat
  rows_ne_nil : rows ≠ []
  cols_pos : 0 < cols
  length_of_mem : ∀ row ∈ rows, row.length = cols
  countable : rows.length * cols < Nat.pow 2 63

/-- Data. -/
inductive Data where
  | null
  | boolean (value : Bool)
  | whole (value : Whole)
  | text (value : Wording)
  | matrix (value : Grid)
  | map (keys : List Key) (distinct : (keys.map Key.text).Nodup)
    (value : {key // key ∈ keys} → Data)

/-! ## Data in a store -/

/-- Whether a number of the language is a whole number. -/
def Whole.IsNumber (whole : Whole) (number : Number) : Prop :=
  ∃ x, number = .real x ∧ Decimal.toInt? x = some whole.value

/-- A value of a store is some data. The keys of a map have the same order. -/
inductive Store.Holds (store : Store) : Data → Value → Prop
  | null : Holds store .null .null
  | boolean (truth : Bool) : Holds store (.boolean truth) (.boolean truth)
  | whole {whole : Whole} {number : Number} (same : whole.IsNumber number) :
      Holds store (.whole whole) (.number number)
  | text (wording : Wording) : Holds store (.text wording) (.string wording.text)
  | matrix {grid : Grid} {matrix : Matrix} (rows : matrix.rows = grid.rows.length)
      (cols : matrix.cols = grid.cols)
      (cells : List.Forall₂ Whole.IsNumber grid.rows.flatten matrix.cells.toList) :
      Holds store (.matrix grid) (.matrix matrix)
  | map {keys : List Key} {distinct : (keys.map Key.text).Nodup}
      {data : {key // key ∈ keys} → Data} {ref : MapRef}
      (stored : ref.index < store.maps.size)
      (sameKeys : (store.record ref).keys = keys.map Key.text)
      (values : ∀ key, Holds store (data key) ((store.record ref).valueAt key.1.text)) :
      Holds store (.map keys distinct data) (.map ref)

theorem Whole.IsNumber.identical {whole : Whole} {left right : Number} (leftSame : whole.IsNumber left)
    (rightSame : whole.IsNumber right) : left.identical right = true := by
  obtain ⟨x, rfl, leftWhole⟩ := leftSame
  obtain ⟨y, rfl, rightWhole⟩ := rightSame
  have equal := Decimal.beq_of_toInt? leftWhole rightWhole (Decimal.lt_of_lt_wholeBound whole.small)
  rw [Number.identical, equal, Bool.true_or]

theorem Grid.all_identical {wholes : List Whole} {left right : List Number}
    (leftSame : List.Forall₂ Whole.IsNumber wholes left)
    (rightSame : List.Forall₂ Whole.IsNumber wholes right) :
    (List.zipWith Number.identical left right).all id = true := by
  induction leftSame generalizing right with
  | nil =>
      rfl
  | cons same _ inductionHypothesis =>
      cases rightSame with
      | cons otherSame rest =>
          simp [same.identical otherSame, inductionHypothesis rest]

theorem map_eq_of_forall₂ {α β γ : Type} {relation : α → β → Prop} {left : List α}
    {right : List β} {onLeft : α → γ} {onRight : β → γ} (related : List.Forall₂ relation left right)
    (same : ∀ a b, relation a b → onRight b = onLeft a) : right.map onRight = left.map onLeft := by
  induction related with
  | nil =>
      rfl
  | cons first _ inductionHypothesis =>
      rw [List.map_cons, List.map_cons, same _ _ first, inductionHypothesis]

namespace Store

/-- The maps in a value are nested no deeper than a depth. -/
def FitsIn (store : Store) : Nat → Value → Prop
  | 0, .map _ => False
  | depth + 1, .map ref =>
      ref.index < store.maps.size ∧ ∀ value ∈ (store.record ref).values, store.FitsIn depth value
  | _, _ => True

variable {store : Store} {value : Value}

theorem FitsIn.mono {small large : Nat} (le : small ≤ large) (fits : store.FitsIn small value) :
    store.FitsIn large value := by
  induction small generalizing large value with
  | zero =>
      cases value with
      | map ref => exact fits.elim
      | _ => cases large <;> trivial
  | succ depth inductionHypothesis =>
      obtain ⟨more, rfl⟩ := Nat.exists_eq_add_of_le le
      cases value with
      | map ref =>
          rw [Nat.add_right_comm]
          exact ⟨fits.1, fun value member => inductionHypothesis (by omega) (fits.2 value member)⟩
      | _ => cases depth + 1 + more <;> trivial

/-- The values of a map fit in one level less. -/
theorem FitsIn.valueAt {depth : Nat} {ref : MapRef} (fits : store.FitsIn depth (.map ref)) :
    ∃ less, depth = less + 1 ∧
      ∀ key ∈ (store.record ref).keys, store.FitsIn less ((store.record ref).valueAt key) := by
  cases depth with
  | zero => exact fits.elim
  | succ less => exact ⟨less, rfl, fun key member => fits.2 _ (List.mem_map_of_mem member)⟩

theorem length_le_of_stored {refs : List MapRef} (distinct : refs.Nodup)
    (stored : ∀ ref ∈ refs, ref.index < store.maps.size) : refs.length ≤ store.maps.size := by
  have injective : Function.Injective MapRef.index := by
    rintro ⟨left⟩ ⟨right⟩ same
    exact congrArg MapRef.mk same
  have within : refs.map MapRef.index ⊆ List.range store.maps.size := by
    intro index member
    obtain ⟨ref, known, rfl⟩ := List.mem_map.mp member
    exact List.mem_range.mpr (stored ref known)
  have fewer := (List.subperm_of_subset (distinct.map injective) within).length_le
  rwa [List.length_map, List.length_range] at fewer

/-- A value that fits in some depth fits in the number of maps. The maps above a value are all
different, because they do not fit in the depth that is left for it. -/
theorem FitsIn.of_visited {depth : Nat} (fits : store.FitsIn depth value)
    {visited : List MapRef} (distinct : visited.Nodup)
    (stored : ∀ ref ∈ visited, ref.index < store.maps.size)
    (above : ∀ ref ∈ visited, ¬store.FitsIn depth (.map ref)) :
    store.FitsIn (store.maps.size - visited.length) value := by
  induction depth generalizing value visited with
  | zero =>
      cases value with
      | map ref => exact fits.elim
      | _ => cases store.maps.size - visited.length <;> trivial
  | succ depth inductionHypothesis =>
      have stillAbove : ∀ ref ∈ visited, ¬store.FitsIn depth (.map ref) :=
        fun ref member lower => above ref member (lower.mono (Nat.le_succ depth))
      cases value with
      | map ref =>
          by_cases lower : store.FitsIn depth (.map ref)
          · exact inductionHypothesis lower distinct stored stillAbove
          · have new : ref ∉ visited := fun member => above ref member fits
            have moreDistinct : (ref :: visited).Nodup := List.nodup_cons.mpr ⟨new, distinct⟩
            have moreStored : ∀ other ∈ ref :: visited, other.index < store.maps.size :=
              List.forall_mem_cons.mpr ⟨fits.1, stored⟩
            have moreAbove : ∀ other ∈ ref :: visited, ¬store.FitsIn depth (.map other) :=
              List.forall_mem_cons.mpr ⟨lower, stillAbove⟩
            have room : store.maps.size - visited.length =
                store.maps.size - (ref :: visited).length + 1 := by
              have fewer := length_le_of_stored moreDistinct moreStored
              rw [List.length_cons] at fewer ⊢
              omega
            rw [room]
            exact ⟨fits.1, fun value member =>
              inductionHypothesis (fits.2 value member) moreDistinct moreStored moreAbove⟩
      | _ => cases store.maps.size - visited.length <;> trivial

/-- The number of maps bounds how deep they are nested. -/
theorem FitsIn.size {depth : Nat} (fits : store.FitsIn depth value) :
    store.FitsIn store.maps.size value :=
  fits.of_visited List.nodup_nil (by simp) (by simp)

theorem FitsIn.nesting {depth : Nat} (fits : store.FitsIn depth value) :
    store.FitsIn store.nesting value :=
  fits.size.mono (Nat.le_succ _)

/-- The maps in a value are nested to some depth only, so that none of them holds itself. -/
def IsFinite (store : Store) (value : Value) : Prop :=
  ∃ depth, store.FitsIn depth value

theorem isFinite_of_flat (flat : ∀ ref, value ≠ .map ref) : store.IsFinite value := by
  cases value with
  | map ref => exact absurd rfl (flat ref)
  | _ => exact ⟨0, trivial⟩

/-! ## Data is nested finitely -/

theorem exists_forall_fitsIn {values : List Value}
    (each : ∀ value ∈ values, ∃ depth, store.FitsIn depth value) :
    ∃ depth, ∀ value ∈ values, store.FitsIn depth value := by
  induction values with
  | nil =>
      exact ⟨0, by simp⟩
  | cons first rest inductionHypothesis =>
      obtain ⟨firstEach, restEach⟩ := List.forall_mem_cons.mp each
      obtain ⟨firstDepth, firstFits⟩ := firstEach
      obtain ⟨restDepth, restFits⟩ := inductionHypothesis restEach
      refine ⟨max firstDepth restDepth, List.forall_mem_cons.mpr ⟨?_, ?_⟩⟩
      · exact firstFits.mono (Nat.le_max_left _ _)
      · exact fun value member => (restFits value member).mono (Nat.le_max_right _ _)

variable {data : Data}

theorem Holds.exists_fitsIn (held : store.Holds data value) : ∃ depth, store.FitsIn depth value := by
  induction held with
  | @map keys distinct data ref stored sameKeys values inductionHypothesis =>
      have each : ∀ value ∈ (store.record ref).values, ∃ depth, store.FitsIn depth value := by
        rw [Record.values, sameKeys, List.map_map]
        intro value member
        obtain ⟨key, known, rfl⟩ := List.mem_map.mp member
        exact inductionHypothesis ⟨key, known⟩
      obtain ⟨depth, fits⟩ := exists_forall_fitsIn each
      exact ⟨depth + 1, stored, fits⟩
  | _ =>
      exact ⟨0, trivial⟩

theorem Holds.fitsIn_nesting (held : store.Holds data value) : store.FitsIn store.nesting value :=
  held.exists_fitsIn.elim fun _ fits => fits.nesting

/-! ## Sameness -/

theorem Holds.identicalTo {other : Value} {depth : Nat} (held : store.Holds data value)
    (otherHeld : store.Holds data other) (fits : store.FitsIn depth value) :
    store.identicalTo depth value other = true := by
  induction held generalizing other depth with
  | null =>
      cases otherHeld
      cases depth <;> rfl
  | boolean truth =>
      cases otherHeld
      cases depth <;> simp [Store.identicalTo]
  | whole same =>
      cases otherHeld with
      | whole otherSame => cases depth <;> exact same.identical otherSame
  | text wording =>
      cases otherHeld
      cases depth <;> simp [Store.identicalTo]
  | @matrix grid left rows cols cells =>
      cases otherHeld with
      | @matrix _ right otherRows otherCols otherCells =>
          have shape : left.sameShape right = true := by
            simp [Matrix.sameShape, rows, cols, otherRows, otherCols]
          cases depth <;>
            exact Bool.and_eq_true_iff.mpr ⟨shape, Grid.all_identical cells otherCells⟩
  | @map keys distinct data ref stored sameKeys values inductionHypothesis =>
      cases otherHeld with
      | @map _ _ _ right _ otherKeys otherValues =>
          obtain ⟨depth, rfl, below⟩ := fits.valueAt
          rw [sameKeys] at below
          have sizes : (store.record ref).size = (store.record right).size := by
            rw [← Record.length_keys, ← Record.length_keys, sameKeys, otherKeys]
          simp only [Store.identicalTo, sizes, beq_self_eq_true, Bool.true_and, Record.entries,
            sameKeys, List.all_map, List.all_eq_true]
          intro key known
          have present : key.text ∈ (store.record right).keys := by
            rw [otherKeys]
            exact List.mem_map_of_mem known
          have found : (store.record right).get? key.text =
              some ((store.record right).valueAt key.text) := Record.get?_eq_some present
          simp only [Function.comp, found]
          exact inductionHypothesis ⟨key, known⟩ (otherValues ⟨key, known⟩)
            (below key.text (List.mem_map_of_mem known))

/-- Two values that are the same data are the same. -/
theorem Holds.identical {other : Value} (held : store.Holds data value)
    (otherHeld : store.Holds data other) : store.identical value other = true :=
  held.identicalTo otherHeld held.fitsIn_nesting

/-! ## New maps -/

/-- A store in which there are more maps, and nothing else is different. -/
def AddsMaps (before after : Store) : Prop :=
  ∃ more : Array Record, after = { before with maps := before.maps ++ more }

theorem AddsMaps.refl (store : Store) : store.AddsMaps store :=
  ⟨#[], by simp⟩

theorem AddsMaps.trans {first second third : Store} (left : first.AddsMaps second)
    (right : second.AddsMaps third) : first.AddsMaps third := by
  obtain ⟨more, rfl⟩ := left
  obtain ⟨others, rfl⟩ := right
  exact ⟨more ++ others, by simp [Array.append_assoc]⟩

theorem addsMaps_newMap (store : Store) (record : Record) :
    store.AddsMaps (store.newMap record).2 :=
  ⟨#[record], by rw [newMap, Array.append_singleton]⟩

theorem record_newMap (store : Store) (record : Record) :
    (store.newMap record).2.record (store.newMap record).1 = record := by
  simp [newMap, Store.record]

theorem AddsMaps.record_eq {after : Store} (adds : store.AddsMaps after) {ref : MapRef}
    (stored : ref.index < store.maps.size) : after.record ref = store.record ref := by
  obtain ⟨more, rfl⟩ := adds
  simp [Store.record, Array.getElem?_append_left stored]

theorem AddsMaps.size_le {after : Store} (adds : store.AddsMaps after) :
    store.maps.size ≤ after.maps.size := by
  obtain ⟨more, rfl⟩ := adds
  simp

theorem FitsIn.of_addsMaps {after : Store} {depth : Nat} (fits : store.FitsIn depth value)
    (adds : store.AddsMaps after) : after.FitsIn depth value := by
  induction depth generalizing value with
  | zero =>
      cases value with
      | map ref => exact fits.elim
      | _ => trivial
  | succ depth inductionHypothesis =>
      cases value with
      | map ref =>
          refine ⟨Nat.lt_of_lt_of_le fits.1 adds.size_le, fun inner member => ?_⟩
          rw [adds.record_eq fits.1] at member
          exact inductionHypothesis (fits.2 inner member)
      | _ => trivial

/-- What a value holds stays the same when there are more maps. -/
theorem Holds.of_addsMaps {after : Store} (held : store.Holds data value)
    (adds : store.AddsMaps after) : after.Holds data value := by
  induction held with
  | null => exact .null
  | boolean truth => exact .boolean truth
  | whole same => exact .whole same
  | text wording => exact .text wording
  | matrix rows cols cells => exact .matrix rows cols cells
  | map stored sameKeys values inductionHypothesis =>
      have sameRecord := adds.record_eq stored
      refine .map (Nat.lt_of_lt_of_le stored adds.size_le) ?_ fun key => ?_
      · rw [sameRecord, sameKeys]
      · rw [sameRecord]
        exact inductionHypothesis key

end Store

/-! ## The text of data

Data determines its text: whatever value holds it, the store shows the same characters. -/

open Piece

/-! ## Characters -/

/-- The characters of a whole number. -/
def Whole.chars (whole : Whole) : List Char :=
  (toString whole.value).toList

/-- The characters of a row. -/
def Whole.listed (row : List Whole) : List Char :=
  List.intercalate [',', ' '] (row.map Whole.chars)

/-- The characters of a matrix. -/
def Grid.chars (grid : Grid) : List Char :=
  '[' :: (List.intercalate [';', ' '] (grid.rows.map Whole.listed) ++ [']'])

/-- The characters of data. -/
def Data.chars : Data → List Char
  | .null => (sign .kwNull).lit.toList
  | .boolean true => (sign .kwTrue).lit.toList
  | .boolean false => (sign .kwFalse).lit.toList
  | .whole n => n.chars
  | .text wording => (Text.quote wording.text).toList
  | .matrix grid => grid.chars
  | .map keys _ value =>
      '\x7b' :: (List.intercalate [',', ' '] (keys.attach.map fun key =>
        key.1.text.toList ++ ':' :: ' ' :: (value key).chars) ++ ['\x7d'])

/-! ## Matrices -/

/-- Cutting the cells into rows of the same length gives back the rows. -/
theorem forall₂_chunks {α β : Type} {relation : α → β → Prop} {rows : List (List α)}
    {cells : List β} {cols : Nat} (length : ∀ row ∈ rows, row.length = cols)
    (related : List.Forall₂ relation rows.flatten cells) :
    List.Forall₂ (List.Forall₂ relation) rows
      ((List.range rows.length).map fun index => (cells.drop (index * cols)).take cols) := by
  induction rows generalizing cells with
  | nil =>
      exact .nil
  | cons row rest inductionHypothesis =>
      obtain ⟨rowLength, restLength⟩ := List.forall_mem_cons.mp length
      have front : List.Forall₂ relation row (cells.take cols) := by
        have taken := List.forall₂_take cols related
        rwa [List.flatten_cons, ← rowLength, List.take_left, rowLength] at taken
      have back : List.Forall₂ relation rest.flatten (cells.drop cols) := by
        have dropped := List.forall₂_drop cols related
        rwa [List.flatten_cons, ← rowLength, List.drop_left, rowLength] at dropped
      have later := inductionHypothesis restLength back
      rw [List.length_cons, List.range_succ_eq_map, List.map_cons, List.map_map, Nat.zero_mul,
        List.drop_zero]
      refine .cons front ?_
      simpa only [Function.comp_def, Nat.succ_mul, Nat.add_comm _ cols, List.drop_drop] using later

theorem Whole.IsNumber.toList_render {whole : Whole} {number : Number}
    (same : whole.IsNumber number) : number.render.toList = whole.chars := by
  obtain ⟨x, rfl, isWhole⟩ := same
  rw [Number.render, Decimal.render_of_toInt? isWhole whole.small, Whole.chars]

theorem toList_render_row {row : List Whole} {numbers : List Number}
    (same : List.Forall₂ Whole.IsNumber row numbers) :
    (", ".intercalate (numbers.map Number.render)).toList = Whole.listed row := by
  rw [String.toList_intercalate, List.map_map]
  exact congrArg (List.intercalate [',', ' '])
    (map_eq_of_forall₂ same fun _ _ cell => cell.toList_render)

theorem Matrix.row_eq (matrix : Matrix) (index : Nat) :
    matrix.row index = (matrix.cells.toList.drop (index * matrix.cols)).take matrix.cols := by
  have width : (index + 1) * matrix.cols - index * matrix.cols = matrix.cols := by
    rw [Nat.succ_mul, Nat.add_sub_cancel_left]
  rw [row, Array.toList_extract, List.extract_eq_take_drop, width]

theorem Matrix.toList_render {grid : Grid} {matrix : Matrix}
    (rows : matrix.rows = grid.rows.length) (cols : matrix.cols = grid.cols)
    (cells : List.Forall₂ Whole.IsNumber grid.rows.flatten matrix.cells.toList) :
    matrix.render.toList = grid.chars := by
  have chunks := forall₂_chunks grid.length_of_mem cells
  have texts := map_eq_of_forall₂ chunks fun _ _ same => toList_render_row same
  have joined : ((List.range matrix.rows).map fun index =>
      ", ".intercalate ((matrix.row index).map Number.render)).map String.toList =
        grid.rows.map Whole.listed := by
    simp only [Matrix.row_eq, rows, cols, ← texts, List.map_map, Function.comp_def]
  rw [Matrix.render, String.toList_append, String.toList_append, String.toList_intercalate, joined]
  rfl

/-! ## Values -/

/-- The text of a value is the text of the data it holds. -/
theorem Store.Holds.toList_renderTo {store : Store} {data : Data} {value : Value} {depth : Nat}
    (held : store.Holds data value) (fits : store.FitsIn depth value) :
    (store.renderTo depth value).toList = data.chars := by
  induction held generalizing depth with
  | null =>
      cases depth <;> rfl
  | boolean truth =>
      cases truth <;> cases depth <;> rfl
  | whole same =>
      cases depth <;> exact same.toList_render
  | text wording =>
      cases depth <;> rfl
  | matrix rows cols cells =>
      cases depth <;> exact Matrix.toList_render rows cols cells
  | @map keys distinct data ref stored sameKeys values inductionHypothesis =>
      obtain ⟨depth, rfl, below⟩ := fits.valueAt
      rw [sameKeys] at below
      have entries : ((store.record ref).entries.map fun entry =>
          entry.1 ++ ": " ++ store.renderTo depth entry.2).map String.toList =
            keys.attach.map fun key => key.1.text.toList ++ ':' :: ' ' :: (data key).chars := by
        have listed : keys.map Key.text = keys.attach.map fun key => key.1.text := by simp
        rw [Record.entries, sameKeys, listed, List.map_map, List.map_map, List.map_map]
        refine List.map_congr_left fun key _ => ?_
        simp only [Function.comp, String.toList_append,
          inductionHypothesis key (below key.1.text (List.mem_map_of_mem key.2)),
          List.append_assoc]
        rfl
      rw [Store.renderTo, String.toList_append, String.toList_append, String.toList_intercalate,
        entries]
      rfl

theorem Store.Holds.toList_render {store : Store} {data : Data} {value : Value}
    (held : store.Holds data value) : (store.render value).toList = data.chars :=
  held.toList_renderTo held.fitsIn_nesting

end Reckon
