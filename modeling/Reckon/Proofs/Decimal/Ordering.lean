import Mathlib.Data.Prod.Lex
import Mathlib.Order.Compare
import Reckon.Proofs.Decimal.Operations

/-!
# The order of doubles

Comparing two doubles that are numbers compares their ranks, which are triples of integers in
lexicographic order: what kind of number it is, then its exponent, then its mantissa.  So the doubles other
than NaN are in line, up to the two zeros, which have one rank.
-/

namespace Reckon.Decimal

open Float.Model (UnpackedFloat)

/-- The place of a double in the order of all doubles.  Below zero, a greater exponent and a greater mantissa
come first. -/
def rankOf : UnpackedFloat → ℤ ×ₗ ℤ ×ₗ ℤ
  | .infinity .negative => toLex (-2, toLex (0, 0))
  | .finite .negative mantissa exponent _ => toLex (-1, toLex (-exponent, -(mantissa : ℤ)))
  | .zero _ | .notANumber => toLex (0, toLex (0, 0))
  | .finite .positive mantissa exponent _ => toLex (1, toLex (exponent, (mantissa : ℤ)))
  | .infinity .positive => toLex (2, toLex (0, 0))

/-- The place of a double in the order of all doubles other than NaN. -/
def rank (x : Float) : ℤ ×ₗ ℤ ×ₗ ℤ :=
  rankOf x.toModel.unpack

theorem compare_neg (a b : ℤ) : compare (-a) (-b) = (compare a b).swap := by
  rw [← cmp_eq_compare, ← cmp_eq_compare, cmp_swap]
  have descending : StrictAnti fun n : ℤ => -n := fun _ _ => neg_lt_neg
  exact descending.cmp_map_eq a b

theorem compare_natCast (m n : ℕ) : compare (m : ℤ) n = compare m n := by
  rw [← cmp_eq_compare, ← cmp_eq_compare]
  have ascending : StrictMono fun k : ℕ => (k : ℤ) := fun _ _ => Int.ofNat_lt.mpr
  exact ascending.cmp_map_eq m n

theorem compare_toLex (a b c d e f : ℤ) :
    compare (toLex (a, toLex (b, c))) (toLex (d, toLex (e, f))) =
      (compare a d).then ((compare b e).then (compare c f)) :=
  rfl

theorem compare_eq_compare_rankOf {u v : UnpackedFloat} (defined : u ≠ .notANumber)
    (defined' : v ≠ .notANumber) : u.compare v = some (compare (rankOf u) (rankOf v)) := by
  cases u with
  | notANumber => exact absurd rfl defined
  | infinity s =>
      cases v with
      | notANumber => exact absurd rfl defined'
      | infinity t => cases s <;> cases t <;> rfl
      | zero t => cases s <;> rfl
      | finite t m e positive => cases s <;> cases t <;> rfl
  | zero s =>
      cases v with
      | notANumber => exact absurd rfl defined'
      | infinity t => cases t <;> rfl
      | zero t => rfl
      | finite t m e positive => cases t <;> rfl
  | finite s m e positive =>
      cases v with
      | notANumber => exact absurd rfl defined'
      | infinity t => cases s <;> cases t <;> rfl
      | zero t => cases s <;> rfl
      | finite t n f positive' =>
          cases s with
          | negative =>
              cases t with
              | negative =>
                  simp only [UnpackedFloat.compare, rankOf, compare_toLex, compare_neg, compare_natCast,
                    Ordering.swap_then]
                  rfl
              | positive => rfl
          | positive =>
              cases t with
              | negative => rfl
              | positive =>
                  simp only [UnpackedFloat.compare, rankOf, compare_toLex, compare_natCast]
                  rfl

variable {x y : Float}

theorem unpack_ne_of_isNaN (defined : x.isNaN = false) : x.toModel.unpack ≠ .notANumber := by
  rw [Float.isNaN_eq_decide_eq_nan, decide_eq_false_iff_not, eq_nan_iff] at defined
  exact defined

theorem lt_iff_rank_lt (defined : x.isNaN = false) (defined' : y.isNaN = false) :
    x < y ↔ rank x < rank y := by
  rw [lt_iff, compare_eq_compare_rankOf (unpack_ne_of_isNaN defined) (unpack_ne_of_isNaN defined'),
    Option.some_inj, compare_lt_iff_lt, rank, rank]

theorem le_iff_rank_le (defined : x.isNaN = false) (defined' : y.isNaN = false) :
    x ≤ y ↔ rank x ≤ rank y := by
  have unfolded : x ≤ y ↔ decide (x.toModel.unpack.le y.toModel.unpack = true) = true := Iff.rfl
  rw [unfolded, decide_eq_true_iff, UnpackedFloat.le,
    compare_eq_compare_rankOf (unpack_ne_of_isNaN defined) (unpack_ne_of_isNaN defined'),
    Option.any_some, ← compare_le_iff_le, Ordering.isLE_iff_ne_gt, rank, rank]

theorem beq_iff_rank_eq (defined : x.isNaN = false) (defined' : y.isNaN = false) :
    (x == y) = true ↔ rank x = rank y := by
  have unfolded : (x == y) = x.toModel.unpack.beq y.toModel.unpack := rfl
  rw [unfolded, UnpackedFloat.beq, beq_iff_eq,
    compare_eq_compare_rankOf (unpack_ne_of_isNaN defined) (unpack_ne_of_isNaN defined'),
    Option.some_inj, compare_eq_iff_eq, rank, rank]

end Reckon.Decimal
