import Reckon.Operator.Arithmetic
import Reckon.Proofs.Decimal.Operations

/-!
# Ranges

A range is null or a row of at most as many cells as the limit allows, and the number of cells that room is
made for is a natural number, unless the span of the range is undefined.  The guards look at the bounds and
the step, but not at the span, which is undefined when both the distance of the bounds and the step are
infinite, or the bounds are the same infinity.
-/

namespace Reckon.Operator

open Decimal

/-! ## Rounding down -/

section Floor

variable {mantissa size : Nat} {exponent : Int}

theorem toInt?_of_mod_eq_zero (isDouble : IsDouble mantissa exponent)
    (whole : mantissa % 2 ^ (-exponent).toNat = 0) :
    ∃ size : Nat, toInt? (double false mantissa exponent) = some (size : Int) := by
  rw [toInt?, isDouble.ofFloat?_eq]
  by_cases large : 0 ≤ exponent
  · exact ⟨mantissa * 2 ^ exponent.toNat, by simp [large]⟩
  · exact ⟨mantissa / 2 ^ (-exponent).toNat, by simp [large, whole]⟩

/-- A positive double is rounded down to a natural number. -/
theorem exists_toInt?_floor (isDouble : IsDouble mantissa exponent) :
    ∃ size : Nat, toInt? (Numeric.floor (double false mantissa exponent)) = some (size : Int) := by
  rw [Numeric.floor, isDouble.ofFloat?_eq]
  by_cases whole : mantissa % 2 ^ (-exponent).toNat = 0
  · simp only [Nat.pow_eq, whole, if_true]
    exact toInt?_of_mod_eq_zero isDouble whole
  · have small : mantissa / 2 ^ (-exponent).toNat < 2 ^ 53 :=
      Nat.lt_of_le_of_lt (Nat.div_le_self _ _) isDouble.mantissa_lt
    simp only [Nat.pow_eq, whole, if_false]
    exact ⟨_, toInt?_ofNat small⟩

theorem floor_infinity : Numeric.floor Numeric.infinity = Numeric.infinity :=
  rfl

end Floor

/-! ## Spans -/

section Span

variable {x : Float}

/-- The little that is added to the number of steps. -/
theorem little_eq : (1e-10 : Float) = double false 7737125245533627 (-86) :=
  rfl

/-- A span that is defined and not negative stays so when a little is added. -/
theorem add_little (defined : x ≠ Float.nan) (up : ¬x < 0) :
    x + 1e-10 = Numeric.infinity ∨
      ∃ mantissa exponent, IsDouble mantissa exponent ∧ x + 1e-10 = double false mantissa exponent := by
  have little : IsDouble 7737125245533627 (-86) := ⟨by decide, by decide, by decide, .inl (by decide)⟩
  rw [little_eq]
  rcases exists_double x with undefined | ⟨sign, infinite⟩ | ⟨negative, mantissa, exponent, isDouble, rfl⟩
  · exact absurd (eq_nan_iff.mpr undefined) defined
  · cases sign with
    | negative =>
        rw [lt_iff, infinite, unpack_zero] at up
        exact absurd rfl up
    | positive =>
        left
        rw [add_eq, infinite, ← little_eq]
        rfl
  · by_cases positive : 0 < mantissa
    · cases negative with
      | true => exact absurd (isDouble.lt_zero positive) up
      | false => exact isDouble.exists_add little positive (by decide)
    · right
      refine ⟨_, _, little, ?_⟩
      rw [add_eq, isDouble.unpack_eq, dif_neg positive, little.unpack_of_pos (by decide)]
      exact little.ofModel_pack false (by decide)

end Span

/-! ## Numbers of cells -/

namespace Progression

variable {progression : Progression}

/-- The limit for the number of cells as a double. -/
theorem cellLimit_eq : Float.ofNat cellLimit = double false (2 ^ 52) (-28) :=
  rfl

/-- The number of cells for a span that is defined and not negative is too large, or a natural number that is
not zero. -/
theorem count_of_defined (defined : progression.span ≠ Float.nan) (up : ¬progression.span < 0) :
    Float.ofNat cellLimit < progression.count ∨
      ∃ cells : Nat, 1 ≤ cells ∧ cells ≤ cellLimit ∧ progression.count = Decimal.ofNat cells := by
  rw [count, cellLimit_eq]
  rcases add_little defined up with infinite | ⟨mantissa, exponent, isDouble, same⟩
  · left
    rw [infinite, floor_infinity]
    decide +kernel
  · obtain ⟨steps, whole⟩ := exists_toInt?_floor isDouble
    rw [same]
    rcases Nat.lt_or_ge steps cellLimit with few | many
    · have limit : cellLimit = 2 ^ 24 := rfl
      exact .inr ⟨steps + 1, by omega, by omega, add_one_of_toInt? whole (by omega)⟩
    · exact .inl (lt_add_one_of_toInt? whole many)

theorem wholeCount_ofNat {cells : Nat} (small : cells ≤ cellLimit) :
    wholeCount (Decimal.ofNat cells) = cells := by
  have limit : cellLimit = 2 ^ 24 := rfl
  have bound : wordBound = 2 ^ 63 := rfl
  have inside : -wordBound ≤ (cells : Int) ∧ (cells : Int) < wordBound := by omega
  rw [wholeCount, toInt?_ofNat (by omega)]
  exact if_pos inside

theorem row_of_defined (defined : progression.span ≠ Float.nan) (up : ¬progression.span < 0) :
    (Float.ofNat cellLimit < progression.count ∧ progression.row = .ok .null) ∨
      ∃ count : Nat, 1 ≤ count ∧ count ≤ cellLimit ∧ progression.count = Decimal.ofNat count ∧
        ∃ cells : Array Float, cells.size = count ∧
          progression.row = .ok (.matrix (Matrix.realRow cells)) := by
  by_cases tooMany : Float.ofNat cellLimit < progression.count
  · refine .inl ⟨tooMany, ?_⟩
    rw [row, if_neg up, if_pos tooMany]
  · obtain ⟨count, some, few, same⟩ := (count_of_defined defined up).resolve_left tooMany
    refine .inr ⟨count, some, few, same, progression.cells count, by simp [cells], ?_⟩
    rw [row, if_neg up, if_neg tooMany]
    simp only [same, wholeCount_ofNat few]
    rw [if_neg (by omega), Int.toNat_natCast]

/-- When the span is undefined, every guard is passed, and room is asked for that cannot be made. -/
theorem row_of_undefined (undefined : progression.span = Float.nan) :
    progression.row = .error .badLength := by
  have counted : progression.count = Float.nan := by
    rw [count, undefined]
    rfl
  have negative : wholeCount Float.nan < 0 := by decide
  rw [row, undefined, counted, if_neg (by decide), if_neg (by decide)]
  exact if_pos negative

/-! ## Undefined spans -/

/-- The bounds are the same infinity, or their distance and the step are both infinite. -/
def IsSpanless (progression : Progression) : Prop :=
  (progression.bound.isInf ∧ progression.bound = progression.first) ∨
    ((progression.bound - progression.first).isInf ∧ progression.step.isInf)

/-- The bounds and the step of a progression are defined, and the step is not zero. -/
theorem defined_of_ofValues? {first step bound : Value}
    (found : ofValues? first step bound = some progression) :
    progression.first ≠ Float.nan ∧ progression.bound ≠ Float.nan ∧ progression.step ≠ Float.nan ∧
      (progression.step == 0) = false := by
  simp only [ofValues?, Option.bind_eq_bind, Option.bind_eq_some_iff] at found
  obtain ⟨a, -, b, -, found⟩ := found
  obtain ⟨s, guarded⟩ : ∃ s : Float,
      (if s == 0 || a.isNaN || b.isNaN || s.isNaN then none else some (⟨a, s, b⟩ : Progression)) =
        some progression := by
    split at found
    · exact ⟨_, found⟩
    · obtain ⟨s, -, guarded⟩ := Option.bind_eq_some_iff.mp found
      exact ⟨s, guarded⟩
  obtain ⟨passed, same⟩ := Option.ite_none_left_eq_some.mp guarded
  cases same
  simpa [and_assoc, and_comm, and_left_comm] using passed

theorem span_eq_nan_iff {first step bound : Value} (found : ofValues? first step bound = some progression) :
    progression.span = Float.nan ↔ progression.IsSpanless := by
  obtain ⟨defined, defined', defined'', nonzero⟩ := defined_of_ofValues? found
  rw [span, IsSpanless, ← sub_eq_nan_iff defined' defined]
  by_cases distance : progression.bound - progression.first = Float.nan
  · refine iff_of_true ?_ (.inl distance)
    rw [distance]
    rfl
  · rw [div_eq_nan_iff distance defined'' nonzero]
    simp [distance]

end Progression

/-- A range is null or a row of at most as many cells as the limit allows, and room is made for a natural
number of cells, except where the span of the range is undefined: then room is asked for that cannot be
made. -/
theorem range_outcome (first step bound : Value) :
    (Progression.ofValues? first step bound = none → range first step bound = .ok .null) ∧
      ∀ progression, Progression.ofValues? first step bound = some progression →
        (progression.IsSpanless → range first step bound = .error .badLength) ∧
          (¬progression.IsSpanless → progression.span < 0 →
            range first step bound = .ok (.matrix (Matrix.realRow #[]))) ∧
          (¬progression.IsSpanless → ¬progression.span < 0 →
            (Float.ofNat cellLimit < progression.count ∧ range first step bound = .ok .null) ∨
              ∃ count : Nat, 1 ≤ count ∧ count ≤ cellLimit ∧ progression.count = Decimal.ofNat count ∧
                ∃ cells : Array Float, cells.size = count ∧
                  range first step bound = .ok (.matrix (Matrix.realRow cells))) := by
  refine ⟨fun nothing => by rw [range, nothing], fun progression found => ?_⟩
  have ranged : range first step bound = progression.row := by rw [range, found]
  rw [ranged, ← Progression.span_eq_nan_iff found]
  refine ⟨Progression.row_of_undefined, fun _ down => ?_, fun defined => Progression.row_of_defined defined⟩
  rw [Progression.row, if_pos down]

/-- A range from infinity to infinity passes every guard. -/
theorem range_between_infinities :
    range (.real Numeric.infinity) .null (.real Numeric.infinity) = .error .badLength :=
  rfl

end Reckon.Operator
