import Mathlib
import Reckon.Decimal.Notation
import Reckon.Proofs.RoundTrip.Numerals

/-!
# Whole numbers as doubles

A whole number below `2 ^ 53` is a double, and up to the sign of zero it is only one.  So reading,
negating and showing a whole number below the bound for numbers that are written in full loses nothing.

The bit pattern of a finite double is a sign and a magnitude, and negation flips the sign.  The magnitude
of a whole number has the number as its mantissa, moved up to 53 places.
-/

namespace Reckon.Decimal

open Float.Model.UnpackedFloat

theorem infinityBits_eq : infinityBits = 2047 * 2 ^ 52 :=
  rfl

theorem lt_of_lt_wholeBound {size : Nat} (small : size < wholeBound) : size < 2 ^ 53 := by
  have bound : wholeBound = 10 ^ 15 := rfl
  omega

/-! ## Bit patterns -/

/-- The bit pattern with a sign and a magnitude. -/
def pattern (negative : Bool) (magnitude : Nat) : BitVec 64 :=
  BitVec.ofNat 64 (if negative then Nat.pow 2 63 + magnitude else magnitude)

section Pattern

variable {magnitude : Nat} (finite : magnitude < infinityBits) (negative : Bool)

include finite

theorem toNat_pattern :
    (pattern negative magnitude).toNat = if negative then 2 ^ 63 + magnitude else magnitude := by
  rw [infinityBits_eq] at finite
  rw [pattern, BitVec.toNat_ofNat, Nat.pow_eq]
  apply Nat.mod_eq_of_lt
  split <;> omega

theorem unpackMantissa_pattern :
    @unpackMantissa .binary64 (pattern negative magnitude) = BitVec.ofNat 52 magnitude := by
  have field : (pattern negative magnitude).toNat % 2 ^ 52 = magnitude % 2 ^ 52 := by
    rw [toNat_pattern finite]
    split <;> omega
  rw [unpackMantissa_def]
  apply BitVec.eq_of_toNat_eq
  rw [BitVec.extractLsb'_toNat, Nat.shiftRight_zero]
  exact field

theorem unpackExponent_pattern :
    @unpackExponent .binary64 (pattern negative magnitude) =
      BitVec.ofNat 11 (magnitude / 2 ^ 52) := by
  have field : (pattern negative magnitude).toNat / 2 ^ 52 % 2 ^ 11 =
      magnitude / 2 ^ 52 % 2 ^ 11 := by
    rw [toNat_pattern finite]
    split <;> omega
  rw [unpackExponent_def]
  apply BitVec.eq_of_toNat_eq
  rw [BitVec.extractLsb'_toNat, Nat.shiftRight_eq_div_pow]
  exact field

theorem unpackSign_pattern :
    @unpackSign .binary64 (pattern negative magnitude) = BitVec.ofBool negative := by
  have field : (pattern negative magnitude).toNat / 2 ^ 63 % 2 = negative.toNat := by
    rw [toNat_pattern finite]
    rw [infinityBits_eq] at finite
    cases negative <;>
      simp only [Bool.toNat, cond, if_true, Bool.false_eq_true, if_false] <;> omega
  rw [unpackSign_def]
  apply BitVec.eq_of_toNat_eq
  rw [BitVec.extractLsb'_toNat, Nat.shiftRight_eq_div_pow, BitVec.toNat_ofBool]
  exact field

theorem toBits_ofBits : (ofBits negative magnitude).toBits.toBitVec = pattern negative magnitude := by
  have notAll : @unpackExponent .binary64 (pattern negative magnitude) ≠ -1#11 := by
    rw [unpackExponent_pattern finite]
    intro all
    have exponent : magnitude / 2 ^ 52 % 2 ^ 11 = 2047 := congrArg BitVec.toNat all
    rw [infinityBits_eq] at finite
    omega
  have defined : @isNaNBits .binary64 (pattern negative magnitude) = false :=
    decide_eq_false fun undefined => notAll undefined.1
  have packed := @pack_unpack .binary64 (pattern negative magnitude) (by decide)
  rw [defined] at packed
  exact packed

theorem neg_unpack_pattern :
    (unpack .binary64 (pattern negative magnitude)).neg =
      unpack .binary64 (pattern (!negative) magnitude) := by
  have opposite : -Sign.ofBitVec (BitVec.ofBool negative) =
      Sign.ofBitVec (BitVec.ofBool !negative) := by
    cases negative <;> rfl
  simp only [unpack, unpackMantissa_pattern finite, unpackExponent_pattern finite,
    unpackSign_pattern finite, ← opposite]
  split
  · split <;> rfl
  · split
    · split <;> rfl
    · rfl

theorem neg_ofBits : -ofBits negative magnitude = ofBits (!negative) magnitude := by
  have negated : -ofBits negative magnitude =
      ⟨Float.Model.pack (unpack .binary64 (ofBits negative magnitude).toBits.toBitVec).neg⟩ := rfl
  rw [negated, toBits_ofBits finite, neg_unpack_pattern finite]
  rfl

end Pattern

/-- The magnitude of a finite double has an exponent field and a fraction field. -/
theorem ofFloat?_ofBits {exponent fraction : Nat} (negative : Bool) (below : exponent < 2047)
    (part : fraction < 2 ^ 52) :
    Binary.ofFloat? (ofBits negative (exponent * 2 ^ 52 + fraction)) =
      if exponent = 0 then some ⟨negative, fraction, leastExponent⟩
      else some ⟨negative, 2 ^ 52 + fraction, exponent - 1075⟩ := by
  have finite : exponent * 2 ^ 52 + fraction < infinityBits := by
    rw [infinityBits_eq]
    omega
  have bits : (ofBits negative (exponent * 2 ^ 52 + fraction)).toBits.toNat =
      if negative then 2 ^ 63 + (exponent * 2 ^ 52 + fraction)
      else exponent * 2 ^ 52 + fraction := by
    rw [← toNat_pattern finite, ← toBits_ofBits finite, UInt64.toNat_toBitVec]
  have parts : fields (ofBits negative (exponent * 2 ^ 52 + fraction)).toBits.toNat =
      (negative, exponent, fraction) := by
    rw [bits]
    cases negative <;>
      simp only [fields, Nat.pow_eq, if_true, Bool.false_eq_true, if_false, Prod.mk.injEq,
        decide_eq_true_eq, decide_eq_false_iff_not] <;> omega
  rw [Binary.ofFloat?, Binary.ofBits?, parts]
  simp only [Nat.ne_of_lt below, if_false]
  rfl

theorem exists_eq_ofBits {x : Float} {binary : Binary}
    (finite : Binary.ofFloat? x = some binary) :
    ∃ negative exponent fraction, exponent < 2047 ∧ fraction < 2 ^ 52 ∧
      x = ofBits negative (exponent * 2 ^ 52 + fraction) := by
  have range := x.toBits.toNat_lt
  have notAll : x.toBits.toNat / 2 ^ 52 % 2 ^ 11 ≠ 2047 := by
    intro all
    rw [Binary.ofFloat?, Binary.ofBits?, fields] at finite
    simp only [Nat.pow_eq, all, if_true] at finite
    cases finite
  have below : x.toBits.toNat / 2 ^ 52 % 2 ^ 11 < 2047 := by omega
  have part : x.toBits.toNat % 2 ^ 52 < 2 ^ 52 := by omega
  refine ⟨decide (2 ^ 63 ≤ x.toBits.toNat), _, _, below, part, ?_⟩
  have small : x.toBits.toNat / 2 ^ 52 % 2 ^ 11 * 2 ^ 52 + x.toBits.toNat % 2 ^ 52 <
      infinityBits := by
    rw [infinityBits_eq]
    omega
  rw [← Float.toBits_inj, ← UInt64.toBitVec_inj, toBits_ofBits small]
  apply BitVec.eq_of_toNat_eq
  rw [toNat_pattern small, UInt64.toNat_toBitVec]
  by_cases negative : 2 ^ 63 ≤ x.toBits.toNat
  · simp only [negative, decide_true, if_true]
    omega
  · simp only [negative, decide_false, Bool.false_eq_true, if_false]
    omega

/-! ## Magnitudes of whole numbers -/

/-- How many places a whole number below `2 ^ 53` is moved up to become a mantissa. -/
def shiftOf (size : Nat) : Nat :=
  52 - Nat.log2 size

section Magnitude

variable {size shift : Nat}

theorem shiftOf_add_log2 (small : size < 2 ^ 53) : shiftOf size + Nat.log2 size = 52 := by
  have atMost : Nat.log2 size ≤ 52 := by
    by_cases zero : size = 0
    · rw [zero]
      decide
    · have below := (Nat.log2_lt zero).mpr small
      omega
  unfold shiftOf
  omega

theorem moved_up (positive : size ≠ 0) (small : size < 2 ^ 53) :
    2 ^ 52 ≤ size * 2 ^ shiftOf size ∧ size * 2 ^ shiftOf size < 2 ^ 53 := by
  have places := shiftOf_add_log2 small
  have low : 2 ^ Nat.log2 size ≤ size := Nat.log2_self_le positive
  have high : size < 2 ^ (Nat.log2 size + 1) := Nat.lt_log2_self
  constructor
  · calc 2 ^ 52 = 2 ^ Nat.log2 size * 2 ^ shiftOf size := by
          rw [← Nat.pow_add, Nat.add_comm, places]
      _ ≤ size * 2 ^ shiftOf size := Nat.mul_le_mul_right _ low
  · calc size * 2 ^ shiftOf size < 2 ^ (Nat.log2 size + 1) * 2 ^ shiftOf size :=
          Nat.mul_lt_mul_of_pos_right high (Nat.pow_pos (by decide))
      _ = 2 ^ 53 := by rw [← Nat.pow_add, Nat.add_right_comm, Nat.add_comm (Nat.log2 size), places]

theorem shiftOf_eq (low : 2 ^ 52 ≤ size * 2 ^ shift) (high : size * 2 ^ shift < 2 ^ 53) :
    shiftOf size = shift := by
  have positive : size ≠ 0 := by
    intro zero
    rw [zero] at low
    omega
  have unit : 0 < 2 ^ shift := Nat.pow_pos (by decide)
  have atMost : shift ≤ 52 := by
    have below : 2 ^ shift < 2 ^ 53 :=
      Nat.lt_of_le_of_lt (Nat.le_mul_of_pos_left _ (Nat.pos_of_ne_zero positive)) high
    have fewer := (Nat.pow_lt_pow_iff_right (by decide)).mp below
    omega
  have places : Nat.log2 size = 52 - shift := by
    rw [Nat.log2_eq_iff positive]
    constructor
    · apply Nat.le_of_mul_le_mul_right _ unit
      rwa [← Nat.pow_add, Nat.sub_add_cancel atMost]
    · apply Nat.lt_of_mul_lt_mul_right (a := 2 ^ shift)
      have sum : 52 - shift + 1 + shift = 53 := by omega
      rwa [← Nat.pow_add, sum]
  rw [shiftOf, places]
  omega

theorem nearestBits_of_small (positive : size ≠ 0) (small : size < 2 ^ 53) :
    nearestBits size 1 = (1074 - shiftOf size) * 2 ^ 52 + size * 2 ^ shiftOf size := by
  have places := shiftOf_add_log2 small
  have exponent : max (floorLog2 size 1 - 52) leastExponent = -(shiftOf size : Int) := by
    rw [floorLog2_one positive, leastExponent]
    omega
  have shifted : (-(shiftOf size : Int) - leastExponent).toNat = 1074 - shiftOf size := by
    rw [leastExponent]
    omega
  have exact : scaled size 1 (-(shiftOf size : Int)) = (size * 2 ^ shiftOf size, 1) := by
    by_cases none : shiftOf size = 0
    · simp [scaled, none]
    · rw [scaled, if_neg (by omega), Int.neg_neg, Int.toNat_natCast, Nat.pow_eq]
  have rounded : roundDiv (size * 2 ^ shiftOf size) 1 = size * 2 ^ shiftOf size := by
    simp [roundDiv, Nat.mod_one]
  obtain ⟨_, high⟩ := moved_up positive small
  have fits : (1074 - shiftOf size) * 2 ^ 52 + size * 2 ^ shiftOf size ≤ infinityBits := by
    rw [infinityBits_eq]
    omega
  rw [nearestBits, if_neg positive]
  simp only [exponent, exact, rounded, shifted, Nat.pow_eq]
  exact Nat.min_eq_right fits

theorem nearestBits_lt_infinityBits (small : size < 2 ^ 53) :
    nearestBits size 1 < infinityBits := by
  by_cases zero : size = 0
  · rw [zero]
    decide
  · obtain ⟨_, high⟩ := moved_up zero small
    rw [nearestBits_of_small zero small, infinityBits_eq]
    omega

theorem nearestBits_eq_of_mantissa {exponent fraction : Nat} (part : fraction < 2 ^ 52)
    (mantissa : 2 ^ 52 + fraction = size * 2 ^ shift) (place : exponent + shift = 1075)
    (normal : exponent ≠ 0) (small : size < 2 ^ 53) :
    exponent * 2 ^ 52 + fraction = nearestBits size 1 := by
  have positive : size ≠ 0 := by
    intro zero
    rw [zero] at mantissa
    omega
  have sameShift : shiftOf size = shift := shiftOf_eq (by omega) (by omega)
  rw [nearestBits_of_small positive small, sameShift, ← mantissa]
  omega

end Magnitude

/-! ## Whole numbers -/

/-- The whole number with a sign and a size. -/
def signed (negative : Bool) (size : Nat) : Int :=
  if negative then -(size : Int) else size

@[simp]
theorem natAbs_signed (negative : Bool) (size : Nat) : (signed negative size).natAbs = size := by
  cases negative <;> simp [signed]

@[simp]
theorem signed_not (negative : Bool) (size : Nat) : signed (!negative) size = -signed negative size := by
  cases negative <;> simp [signed]

theorem toInt?_ofBits {size : Nat} (small : size < 2 ^ 53) (negative : Bool) :
    toInt? (ofBits negative (nearestBits size 1)) = some (signed negative size) := by
  by_cases zero : size = 0
  · have apart := ofFloat?_ofBits negative (by decide : 0 < 2047) (by decide : 0 < 2 ^ 52)
    have none : nearestBits size 1 = 0 * 2 ^ 52 + 0 := by
      rw [zero]
      rfl
    have tiny : ¬0 ≤ leastExponent := by decide
    rw [toInt?, none, apart, zero]
    simp [tiny, signed]
  · obtain ⟨low, high⟩ := moved_up zero small
    have places := shiftOf_add_log2 small
    have parts : nearestBits size 1 =
        (1075 - shiftOf size) * 2 ^ 52 + (size * 2 ^ shiftOf size - 2 ^ 52) := by
      rw [nearestBits_of_small zero small]
      omega
    have apart := ofFloat?_ofBits negative (by omega : 1075 - shiftOf size < 2047)
      (by omega : size * 2 ^ shiftOf size - 2 ^ 52 < 2 ^ 52)
    have normal : 1075 - shiftOf size ≠ 0 := by omega
    have mantissa : 2 ^ 52 + (size * 2 ^ shiftOf size - 2 ^ 52) = size * 2 ^ shiftOf size := by
      omega
    have exponent : ((1075 - shiftOf size : Nat) : Int) - 1075 = -(shiftOf size : Int) := by omega
    rw [toInt?, parts, apart, if_neg normal, mantissa, exponent]
    by_cases whole : shiftOf size = 0
    · simp [whole, signed]
    · have unit : 0 < 2 ^ shiftOf size := Nat.pow_pos (by decide)
      simp [whole, signed, Nat.mul_mod_left, Nat.mul_div_cancel _ unit]

section Whole

variable {x y : Float} {n : Int}

theorem exists_signed_of_toInt? {negative : Bool} {mantissa : Nat} {exponent : Int}
    (finite : Binary.ofFloat? x = some ⟨negative, mantissa, exponent⟩)
    (whole : toInt? x = some n) :
    ∃ size, n = signed negative size ∧
      if 0 ≤ exponent then size = mantissa * 2 ^ exponent.toNat
      else mantissa = size * 2 ^ (-exponent).toNat := by
  rw [toInt?, finite] at whole
  by_cases large : 0 ≤ exponent
  · simp only [large, if_true, Option.some.injEq] at whole ⊢
    exact ⟨_, whole.symm, rfl⟩
  · simp only [large, if_false, Option.ite_none_right_eq_some, Option.some.injEq] at whole ⊢
    obtain ⟨divides, same⟩ := whole
    exact ⟨_, same.symm, (Nat.div_mul_cancel (Nat.dvd_of_mod_eq_zero divides)).symm⟩

theorem exists_ofFloat?_of_toInt? (whole : toInt? x = some n) :
    ∃ binary, Binary.ofFloat? x = some binary := by
  cases found : Binary.ofFloat? x with
  | none =>
      rw [toInt?, found] at whole
      cases whole
  | some binary =>
      exact ⟨binary, rfl⟩

/-- A double that is a small whole number is the nearest double to it, up to the sign of zero. -/
theorem exists_ofBits_of_toInt? (whole : toInt? x = some n) (small : n.natAbs < 2 ^ 53) :
    ∃ negative, x = ofBits negative (nearestBits n.natAbs 1) ∧ n = signed negative n.natAbs := by
  obtain ⟨binary, finite⟩ := exists_ofFloat?_of_toInt? whole
  obtain ⟨negative, exponent, fraction, below, part, rfl⟩ := exists_eq_ofBits finite
  have apart := ofFloat?_ofBits negative below part
  by_cases subnormal : exponent = 0
  · -- Numbers this small are no whole numbers, but for zero.
    rw [if_pos subnormal] at apart
    obtain ⟨size, rfl, sized⟩ := exists_signed_of_toInt? apart whole
    rw [if_neg (by decide)] at sized
    have zero : size = 0 := by
      by_contra some
      have many : 2 ^ 52 ≤ 2 ^ (-leastExponent).toNat :=
        Nat.pow_le_pow_right (by decide) (by decide)
      have atLeast :=
        Nat.le_mul_of_pos_left (2 ^ (-leastExponent).toNat) (Nat.pos_of_ne_zero some)
      omega
    have nothing : fraction = 0 := by rw [sized, zero, Nat.zero_mul]
    refine ⟨negative, ?_, by rw [natAbs_signed]⟩
    rw [natAbs_signed, zero, nothing, subnormal]
    rfl
  · rw [if_neg subnormal] at apart
    obtain ⟨size, rfl, sized⟩ := exists_signed_of_toInt? apart whole
    rw [natAbs_signed] at small ⊢
    refine ⟨negative, ?_, rfl⟩
    congr 1
    by_cases large : 0 ≤ (exponent : Int) - 1075
    · rw [if_pos large] at sized
      have none : ((exponent : Int) - 1075).toNat = 0 := by
        by_contra some
        have twice := Nat.pow_le_pow_right (by decide : 0 < 2) (Nat.pos_of_ne_zero some)
        have atLeast := Nat.mul_le_mul_left (2 ^ 52 + fraction) twice
        omega
      have mantissa : 2 ^ 52 + fraction = size * 2 ^ 0 := by
        rw [sized, none]
        omega
      exact nearestBits_eq_of_mantissa part mantissa (by omega) subnormal small
    · rw [if_neg large] at sized
      exact nearestBits_eq_of_mantissa part sized (by omega) subnormal small

theorem toInt?_ofNat {size : Nat} (small : size < 2 ^ 53) :
    toInt? (ofNat size) = some (size : Int) :=
  toInt?_ofBits small false

theorem toInt?_neg (whole : toInt? x = some n) (small : n.natAbs < 2 ^ 53) :
    toInt? (-x) = some (-n) := by
  obtain ⟨negative, rfl, sized⟩ := exists_ofBits_of_toInt? whole small
  rw [neg_ofBits (nearestBits_lt_infinityBits small), toInt?_ofBits small, signed_not, ← sized]

/-- Doubles that are the same small whole number are equal; they differ at most in the sign of zero. -/
theorem beq_of_toInt? (left : toInt? x = some n) (right : toInt? y = some n)
    (small : n.natAbs < 2 ^ 53) : (x == y) = true := by
  have defined {z : Float} (whole : toInt? z = some n) : z ≠ Float.nan := by
    intro same
    have undefined : toInt? Float.nan = none := by decide
    rw [same, undefined] at whole
    cases whole
  obtain ⟨leftNegative, leftBits, leftSized⟩ := exists_ofBits_of_toInt? left small
  obtain ⟨rightNegative, rightBits, rightSized⟩ := exists_ofBits_of_toInt? right small
  refine Float.beq_iff_ne_nan_and_eq.mpr ⟨defined left, defined right, ?_⟩
  by_cases zero : n = 0
  · have plus : ofBits false (nearestBits 0 1) = 0 := by decide
    have minus : ofBits true (nearestBits 0 1) = -0 := by decide
    rw [zero, Int.natAbs_zero] at leftBits rightBits
    cases leftNegative <;> cases rightNegative <;> simp [leftBits, rightBits, plus, minus]
  · left
    have same : leftNegative = rightNegative := by
      cases leftNegative <;> cases rightNegative <;>
        simp only [signed, if_true, Bool.false_eq_true, if_false] at leftSized rightSized <;>
        first | rfl | omega
    rw [leftBits, rightBits, same]

/-- A whole number below the bound is written in full. -/
theorem render_of_toInt? (whole : toInt? x = some n) (small : n.natAbs < wholeBound) :
    render x = toString n := by
  cases finite : Binary.ofFloat? x with
  | none =>
      rw [toInt?, finite] at whole
      cases whole
  | some binary =>
      simp only [render, finite, whole, small, if_true]

end Whole

end Reckon.Decimal
