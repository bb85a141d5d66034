import Reckon.Numeric.Real
import Reckon.Proofs.Decimal.Whole

/-!
# Sums, differences and quotients of doubles

A finite double is a mantissa of at most 53 binary digits and an exponent.  A sum is rounded to a mantissa
that is not below its leading places, so nothing is lost when the sum is a small whole number, and a sum
that is above a double is not rounded below it.  Differences and quotients are undefined only where
infinities meet.
-/

namespace Reckon.Decimal

open Float.Model (Format totalExponent)
open Float.Model.UnpackedFloat

/-! ## Mantissa and exponent -/

/-- A mantissa and an exponent are those of a finite double. -/
structure IsDouble (mantissa : Nat) (exponent : Int) : Prop where
  mantissa_lt : mantissa < 2 ^ 53
  least_le : -1074 ≤ exponent
  le_greatest : exponent ≤ 971
  normal_or_least : 2 ^ 52 ≤ mantissa ∨ exponent = -1074

/-- The double with a sign, a mantissa and an exponent. -/
def double (negative : Bool) (mantissa : Nat) (exponent : Int) : Float :=
  ofBits negative ((exponent + 1074).toNat * 2 ^ 52 + mantissa)

/-- The sign with a sign bit. -/
def signOf (negative : Bool) : Sign :=
  Sign.ofBitVec (BitVec.ofBool negative)

section Double

variable {negative : Bool} {mantissa : Nat} {exponent : Int} {x : Float}

/-- The exponent and the fraction in the bits of a double. -/
theorem IsDouble.exists_fields (isDouble : IsDouble mantissa exponent) :
    ∃ field < 2047, ∃ fraction < 2 ^ 52,
      (exponent + 1074).toNat * 2 ^ 52 + mantissa = field * 2 ^ 52 + fraction ∧
        if field = 0 then mantissa = fraction ∧ exponent = -1074
        else mantissa = 2 ^ 52 + fraction ∧ exponent = field - 1075 := by
  have ⟨high, least, greatest, normal⟩ := isDouble
  by_cases subnormal : mantissa < 2 ^ 52
  · refine ⟨0, by decide, mantissa, subnormal, by omega, ?_⟩
    rw [if_pos rfl]
    omega
  · refine ⟨(exponent + 1075).toNat, by omega, mantissa - 2 ^ 52, by omega, by omega, ?_⟩
    rw [if_neg (by omega)]
    omega

theorem IsDouble.ofFloat?_eq (isDouble : IsDouble mantissa exponent) :
    Binary.ofFloat? (double negative mantissa exponent) = some ⟨negative, mantissa, exponent⟩ := by
  obtain ⟨field, below, fraction, part, bits, parts⟩ := isDouble.exists_fields
  rw [double, bits, ofFloat?_ofBits negative below part]
  by_cases subnormal : field = 0
  · rw [if_pos subnormal] at parts ⊢
    rw [parts.1, parts.2, leastExponent]
  · rw [if_neg subnormal] at parts ⊢
    rw [parts.1, parts.2]

theorem exists_double_of_ofFloat? (finite : Binary.ofFloat? x = some ⟨negative, mantissa, exponent⟩) :
    IsDouble mantissa exponent ∧ x = double negative mantissa exponent := by
  obtain ⟨sign, field, fraction, below, part, rfl⟩ := exists_eq_ofBits finite
  rw [ofFloat?_ofBits sign below part] at finite
  by_cases subnormal : field = 0
  · rw [if_pos subnormal] at finite
    obtain ⟨rfl, rfl, rfl⟩ : sign = negative ∧ fraction = mantissa ∧ leastExponent = exponent := by
      simpa using finite
    refine ⟨⟨by omega, by decide, by decide, .inr rfl⟩, ?_⟩
    rw [double, leastExponent, subnormal]
    congr 1
  · rw [if_neg subnormal] at finite
    obtain ⟨rfl, rfl, rfl⟩ :
        sign = negative ∧ 2 ^ 52 + fraction = mantissa ∧ (field : Int) - 1075 = exponent := by
      simpa using finite
    have bits : field * 2 ^ 52 + fraction =
        ((field : Int) - 1075 + 1074).toNat * 2 ^ 52 + (2 ^ 52 + fraction) := by omega
    exact ⟨⟨by omega, by omega, by omega, .inl (by omega)⟩, congrArg (ofBits sign) bits⟩

theorem toNat_leading (fraction : BitVec 52) : (1#1 ++ fraction).toNat = 2 ^ 52 + fraction.toNat := by
  rw [BitVec.toNat_append, ← Nat.shiftLeft_add_eq_or_of_lt fraction.isLt]
  rfl

theorem finite_congr {sign : Sign} {other : Nat} {otherExponent : Int} {positive : 0 < mantissa}
    {otherPositive : 0 < other} (sameMantissa : mantissa = other) (sameExponent : exponent = otherExponent) :
    finite sign mantissa exponent positive = finite sign other otherExponent otherPositive := by
  subst sameMantissa sameExponent
  rfl

section Fields

variable {field fraction : Nat} (below : field < 2047) (part : fraction < 2 ^ 52)

include part

theorem toNat_fraction : (BitVec.ofNat 52 (field * 2 ^ 52 + fraction)).toNat = fraction := by
  rw [BitVec.toNat_ofNat]
  omega

theorem fraction_eq_iff (bits : BitVec 52) :
    BitVec.ofNat 52 (field * 2 ^ 52 + fraction) = bits ↔ fraction = bits.toNat := by
  rw [← BitVec.toNat_inj, toNat_fraction part]

include below

theorem toNat_field : (BitVec.ofNat 11 ((field * 2 ^ 52 + fraction) / 2 ^ 52)).toNat = field := by
  rw [BitVec.toNat_ofNat]
  omega

theorem field_eq_iff (bits : BitVec 11) :
    BitVec.ofNat 11 ((field * 2 ^ 52 + fraction) / 2 ^ 52) = bits ↔ field = bits.toNat := by
  rw [← BitVec.toNat_inj, toNat_field below part]

/-- The parts of a finite double, from the exponent and the fraction in its bits. -/
theorem unpack_ofBits (negative : Bool) :
    (ofBits negative (field * 2 ^ 52 + fraction)).toModel.unpack =
      if field = 0 then
        if positive : 0 < fraction then .finite (signOf negative) fraction (-1074) positive
        else .zero (signOf negative)
      else .finite (signOf negative) (2 ^ 52 + fraction) (field - 1075) (Nat.add_pos_left (by decide) _) := by
  have finite : field * 2 ^ 52 + fraction < infinityBits := by
    rw [infinityBits_eq]
    omega
  have packed : (ofBits negative (field * 2 ^ 52 + fraction)).toModel.toBits.toBitVec =
      pattern negative (field * 2 ^ 52 + fraction) := toBits_ofBits finite negative
  have notAll : BitVec.ofNat 11 ((field * 2 ^ 52 + fraction) / 2 ^ 52) ≠ -1#11 :=
    mt (field_eq_iff below part _).mp (show field ≠ 2047 by omega)
  have bias : (Format.binary64.exponentBias : Int) + (52 : Nat) = 1075 := by decide
  simp only [Float.Model.unpack, packed, unpack, unpackMantissa_pattern finite, unpackExponent_pattern finite,
    unpackSign_pattern finite, notAll, if_false, signOf, bias]
  by_cases subnormal : field = 0
  · rw [if_pos ((field_eq_iff below part 0#11).mpr subnormal), if_pos subnormal]
    by_cases nothing : fraction = 0
    · rw [dif_pos ((fraction_eq_iff part 0#52).mpr nothing), dif_neg (by omega)]
    · rw [dif_neg (mt (fraction_eq_iff part 0#52).mp nothing), dif_pos (Nat.pos_of_ne_zero nothing)]
      exact finite_congr (toNat_fraction part) (by rw [toNat_field below part, subnormal]; rfl)
  · rw [if_neg (mt (field_eq_iff below part 0#11).mp subnormal), if_neg subnormal]
    exact finite_congr (by rw [toNat_leading, toNat_fraction part]) (by rw [toNat_field below part])

end Fields

theorem IsDouble.unpack_eq (isDouble : IsDouble mantissa exponent) (negative : Bool) :
    (double negative mantissa exponent).toModel.unpack =
      if positive : 0 < mantissa then .finite (signOf negative) mantissa exponent positive
      else .zero (signOf negative) := by
  obtain ⟨field, below, fraction, part, bits, parts⟩ := isDouble.exists_fields
  rw [double, bits, unpack_ofBits below part]
  by_cases subnormal : field = 0
  · rw [if_pos subnormal] at parts ⊢
    obtain ⟨rfl, rfl⟩ := parts
    rfl
  · rw [if_neg subnormal] at parts ⊢
    obtain ⟨rfl, rfl⟩ := parts
    rw [dif_pos (Nat.add_pos_left (by decide) _)]

theorem ofModel_pack_unpack (x : Float) : .ofModel (.pack x.toModel.unpack) = x :=
  x.ofBits_toBits

theorem IsDouble.ofModel_pack (isDouble : IsDouble mantissa exponent) (negative : Bool)
    (positive : 0 < mantissa) :
    Float.ofModel (.pack (.finite (signOf negative) mantissa exponent positive)) =
      double negative mantissa exponent := by
  have apart := isDouble.unpack_eq negative
  rw [dif_pos positive] at apart
  rw [← apart, ofModel_pack_unpack]

/-- A double is undefined, infinite, or has a mantissa and an exponent. -/
theorem exists_double (x : Float) :
    x.toModel.unpack = .notANumber ∨ (∃ sign, x.toModel.unpack = .infinity sign) ∨
      ∃ negative mantissa exponent, IsDouble mantissa exponent ∧ x = double negative mantissa exponent := by
  cases apart : Binary.ofFloat? x with
  | some binary => exact .inr (.inr ⟨_, _, _, exists_double_of_ofFloat? apart⟩)
  | none =>
      have all : x.toBits.toNat / 2 ^ 52 % 2 ^ 11 = 2047 := by
        rw [Binary.ofFloat?, Binary.ofBits?, fields] at apart
        by_contra below
        simp only [Nat.pow_eq, below, if_false] at apart
        split at apart <;> cases apart
      have allOnes : @unpackExponent .binary64 x.toModel.toBits.toBitVec = -1#11 := by
        rw [unpackExponent_def]
        apply BitVec.eq_of_toNat_eq
        rw [BitVec.extractLsb'_toNat, Nat.shiftRight_eq_div_pow]
        exact all
      simp only [Float.Model.unpack, unpack, allOnes, if_true]
      split
      · exact .inr (.inl ⟨_, rfl⟩)
      · exact .inl rfl

end Double

/-! ## Rounding -/

section Rounding

variable {sign : Sign} {size mantissa places : Nat} {exponent : Int}

theorem shiftRight_succ (extended : ExtendedMantissa) (places : Nat) :
    extended >>> (places + 1) = (extended >>> places).shiftRightOne :=
  rfl

theorem mantissa_shiftRight (extended : ExtendedMantissa) (places : Nat) :
    (extended >>> places).mantissa = extended.mantissa / 2 ^ places := by
  induction places with
  | zero => exact (Nat.div_one _).symm
  | succ places inductionHypothesis =>
      rw [shiftRight_succ, ExtendedMantissa.shiftRightOne, inductionHypothesis, Nat.div_div_eq_div_mul,
        Nat.pow_succ]

/-- Places that are all zero can be dropped without rounding. -/
theorem shiftRight_mul (mantissa places : Nat) :
    (⟨mantissa * 2 ^ places, false, false⟩ : ExtendedMantissa) >>> places = ⟨mantissa, false, false⟩ := by
  induction places generalizing mantissa with
  | zero => exact congrArg (ExtendedMantissa.mk · false false) (Nat.mul_one mantissa)
  | succ places inductionHypothesis =>
      rw [shiftRight_succ, Nat.pow_succ, Nat.mul_comm (2 ^ places) 2, ← Nat.mul_assoc, inductionHypothesis]
      simp [ExtendedMantissa.shiftRightOne]

theorem roundedMantissa_bounds (extended : ExtendedMantissa) :
    extended.mantissa ≤ extended.roundedMantissa ∧ extended.roundedMantissa ≤ extended.mantissa + 1 := by
  obtain ⟨mantissa, roundBit, stickyBit⟩ := extended
  cases roundBit <;> cases stickyBit <;>
    simp only [ExtendedMantissa.roundedMantissa, ExtendedMantissa.accuracy, Accuracy.roundToNearestEven] <;>
    omega

theorem targetExponent_eq (size : Nat) (exponent : Int) :
    Format.binary64.targetExponent (totalExponent size exponent) =
      max ((Nat.log2 size : Int) + exponent - 52) (-1074) := by
  simp only [Format.targetExponent, totalExponent, Format.mantissaBits, Format.minExponent]
  norm_num
  omega

theorem shiftToTargetExponent_eq (big : 52 ≤ Nat.log2 size) (least : -1074 ≤ exponent) :
    shiftToTargetExponent .binary64 size exponent .exact =
      ((⟨size, false, false⟩ : ExtendedMantissa) >>> (Nat.log2 size - 52),
        exponent + (Nat.log2 size - 52 : Nat)) := by
  have places : (Format.binary64.targetExponent (totalExponent size exponent) - exponent).toNat =
      Nat.log2 size - 52 := by
    rw [targetExponent_eq]
    omega
  unfold shiftToTargetExponent shiftToExponent
  simp only [places]
  rfl

theorem log2_of_bounds (low : 2 ^ 52 ≤ mantissa) (high : mantissa < 2 ^ 53) : Nat.log2 mantissa = 52 :=
  (Nat.log2_eq_iff (by omega)).mpr ⟨low, high⟩

theorem round_eq_roundWithAccuracy (big : 52 ≤ Nat.log2 size) :
    Float.Model.UnpackedFloat.round .binary64 sign size exponent =
      roundWithAccuracy .binary64 sign size exponent .exact := by
  have none : (exponent - Format.binary64.targetExponent (totalExponent size exponent)).toNat = 0 := by
    rw [targetExponent_eq]
    omega
  unfold Float.Model.UnpackedFloat.round
  simp only [decreaseExponent, none, Nat.shiftLeft_zero, Int.natCast_zero, Int.sub_zero]

/-- A mantissa with 53 places stays as it is. -/
theorem shiftToTargetExponent_of_bounds (low : 2 ^ 52 ≤ mantissa) (high : mantissa < 2 ^ 53)
    (least : -1074 ≤ exponent) :
    shiftToTargetExponent .binary64 mantissa exponent .exact = (⟨mantissa, false, false⟩, exponent) := by
  have log2 := log2_of_bounds low high
  rw [shiftToTargetExponent_eq log2.ge least, log2]
  exact Prod.ext rfl (Int.add_zero exponent)

/-- A mantissa that is rounded up to 54 places drops one of them, which is zero. -/
theorem shiftToTargetExponent_of_eq (least : -1074 ≤ exponent) :
    shiftToTargetExponent .binary64 (2 ^ 53) exponent .exact = (⟨2 ^ 52, false, false⟩, exponent + 1) := by
  have log2 : Nat.log2 (2 ^ 53) = 53 := Nat.log2_two_pow
  rw [shiftToTargetExponent_eq (by omega) least, log2]
  rfl

section Rounded

variable {extended : ExtendedMantissa} {shifted : Int}
  (first : shiftToTargetExponent .binary64 size exponent .exact = (extended, shifted))
  (least : -1074 ≤ shifted)

include first least

theorem roundWithAccuracy_of_lt (low : 2 ^ 52 ≤ extended.roundedMantissa)
    (high : extended.roundedMantissa < 2 ^ 53) :
    roundWithAccuracy .binary64 sign size exponent .exact =
      .finite sign extended.roundedMantissa shifted (by omega) := by
  unfold roundWithAccuracy
  simp only [first, shiftToTargetExponent_of_bounds low high least]
  rw [dif_neg (by omega)]

theorem roundWithAccuracy_of_eq (full : extended.roundedMantissa = 2 ^ 53) :
    roundWithAccuracy .binary64 sign size exponent .exact =
      .finite sign (2 ^ 52) (shifted + 1) (by decide) := by
  unfold roundWithAccuracy
  simp only [first, full, shiftToTargetExponent_of_eq least]
  rfl

end Rounded

/-- A number with at least 53 places is rounded to a mantissa that is not below its leading places. -/
theorem exists_round (sign : Sign) (large : 2 ^ 52 ≤ size) (least : -1074 ≤ exponent) :
    ∃ mantissa shifted, ∃ positive : 0 < mantissa, 2 ^ 52 ≤ mantissa ∧ mantissa < 2 ^ 53 ∧
      Float.Model.UnpackedFloat.round .binary64 sign size exponent = .finite sign mantissa shifted positive ∧
        (shifted = exponent + (Nat.log2 size - 52 : Nat) ∧ size / 2 ^ (Nat.log2 size - 52) ≤ mantissa ∨
          shifted = exponent + (Nat.log2 size - 52 : Nat) + 1) := by
  have big : 52 ≤ Nat.log2 size := (Nat.le_log2 (by omega)).mpr large
  have first := shiftToTargetExponent_eq big least
  have leading : ((⟨size, false, false⟩ : ExtendedMantissa) >>> (Nat.log2 size - 52)).mantissa =
      size / 2 ^ (Nat.log2 size - 52) := mantissa_shiftRight _ _
  obtain ⟨atLeast, atMost⟩ :=
    roundedMantissa_bounds ((⟨size, false, false⟩ : ExtendedMantissa) >>> (Nat.log2 size - 52))
  have low : 2 ^ 52 ≤ size / 2 ^ (Nat.log2 size - 52) := by
    rw [Nat.le_div_iff_mul_le (Nat.pow_pos (by decide)), ← Nat.pow_add, Nat.add_sub_cancel' big]
    exact Nat.log2_self_le (by omega)
  have high : size / 2 ^ (Nat.log2 size - 52) < 2 ^ 53 := by
    rw [Nat.div_lt_iff_lt_mul (Nat.pow_pos (by decide)), ← Nat.pow_add]
    exact Nat.lt_of_lt_of_eq Nat.lt_log2_self (congrArg (2 ^ ·) (by omega))
  rw [leading] at atLeast atMost
  rw [round_eq_roundWithAccuracy big]
  by_cases below :
      ((⟨size, false, false⟩ : ExtendedMantissa) >>> (Nat.log2 size - 52)).roundedMantissa < 2 ^ 53
  · exact ⟨_, _, _, by omega, below, roundWithAccuracy_of_lt first (by omega) (by omega) below,
      .inl ⟨rfl, atLeast⟩⟩
  · exact ⟨_, _, _, by decide, by decide, roundWithAccuracy_of_eq first (by omega) (by omega), .inr rfl⟩

/-- A mantissa is not changed by zeros after its last place. -/
theorem round_mul (low : 2 ^ 52 ≤ mantissa) (high : mantissa < 2 ^ 53) (least : -1074 ≤ exponent) :
    Float.Model.UnpackedFloat.round .binary64 sign (mantissa * 2 ^ places) exponent =
      .finite sign mantissa (exponent + places) (by omega) := by
  have log2 : Nat.log2 (mantissa * 2 ^ places) = 52 + places := by
    rw [Nat.log2_eq_iff (Nat.mul_ne_zero (by omega) (Nat.pow_pos (by decide)).ne'), Nat.add_right_comm,
      Nat.pow_add, Nat.pow_add]
    exact ⟨Nat.mul_le_mul_right _ low, Nat.mul_lt_mul_of_pos_right high (Nat.pow_pos (by decide))⟩
  have first := shiftToTargetExponent_eq (log2 ▸ Nat.le_add_right 52 places) least
  rw [log2, Nat.add_sub_cancel_left, shiftRight_mul] at first
  rw [round_eq_roundWithAccuracy (by omega)]
  exact roundWithAccuracy_of_lt first (by omega) low high

end Rounding

/-! ## Infinity and order -/

section Order

variable {mantissa other : Nat} {exponent otherExponent : Int} {x y : Float}

theorem unpack_zero : (0 : Float).toModel.unpack = .zero .positive :=
  rfl

theorem unpack_one : (1 : Float).toModel.unpack = .finite .positive (2 ^ 52) (-52) (by decide) :=
  rfl

/-- A rounded positive number is a double, or infinity if it is too large for one. -/
theorem ofModel_pack_rounded (low : 2 ^ 52 ≤ mantissa) (high : mantissa < 2 ^ 53) (least : -1074 ≤ exponent)
    (positive : 0 < mantissa) :
    Float.ofModel (.pack (.finite .positive mantissa exponent positive)) =
      if exponent ≤ 971 then double false mantissa exponent else Numeric.infinity := by
  by_cases fits : exponent ≤ 971
  · have isDouble : IsDouble mantissa exponent := ⟨high, least, fits, .inl low⟩
    rw [if_pos fits]
    exact isDouble.ofModel_pack false positive
  · have tooLarge : 2 ^ Format.binary64.exponentBits ≤ (exponent + Format.binary64.exponentBias +
        Format.binary64.mantissaBitsWithoutImplicit).toNat + 1 := by
      change 2 ^ 11 ≤ (exponent + (1023 : Nat) + (52 : Nat)).toNat + 1
      omega
    rw [if_neg fits, Float.Model.pack]
    simp only [pack, tooLarge, if_true]
    rfl

theorem lt_iff : x < y ↔ Float.Model.UnpackedFloat.compare x.toModel.unpack y.toModel.unpack = some .lt := by
  have unfolded : x < y ↔ decide (x.toModel.unpack.lt y.toModel.unpack = true) = true := Iff.rfl
  rw [unfolded, decide_eq_true_iff, Float.Model.UnpackedFloat.lt, beq_iff_eq]

theorem IsDouble.unpack_of_pos (isDouble : IsDouble mantissa exponent) (positive : 0 < mantissa) :
    (double false mantissa exponent).toModel.unpack = .finite .positive mantissa exponent positive := by
  rw [isDouble.unpack_eq, dif_pos positive]
  rfl

theorem IsDouble.lt_zero (isDouble : IsDouble mantissa exponent) (positive : 0 < mantissa) :
    double true mantissa exponent < 0 := by
  rw [lt_iff, unpack_zero, isDouble.unpack_eq, dif_pos positive]
  rfl

theorem IsDouble.lt_infinity (isDouble : IsDouble mantissa exponent) (positive : 0 < mantissa) :
    double false mantissa exponent < Numeric.infinity := by
  rw [lt_iff, isDouble.unpack_of_pos positive]
  rfl

/-- The order of positive doubles is that of their exponents first, and then that of their mantissas. -/
theorem IsDouble.lt_double (isDouble : IsDouble mantissa exponent) (isDouble' : IsDouble other otherExponent)
    (positive : 0 < mantissa) (positive' : 0 < other)
    (before : exponent < otherExponent ∨ exponent = otherExponent ∧ mantissa < other) :
    double false mantissa exponent < double false other otherExponent := by
  have ordered : (compare exponent otherExponent).then (compare mantissa other) = .lt := by
    rcases before with lower | ⟨rfl, smaller⟩
    · rw [Int.compare_eq_lt.mpr lower]
      rfl
    · rw [Int.compare_eq_eq.mpr rfl, Nat.compare_eq_lt.mpr smaller]
      rfl
  rw [lt_iff, isDouble.unpack_of_pos positive, isDouble'.unpack_of_pos positive']
  exact congrArg some ordered

end Order

/-! ## Sums -/

section Sum

variable {mantissa other : Nat} {exponent otherExponent : Int} {x y z : Float} {size : Nat}

theorem add_eq (x y : Float) :
    x + y = .ofModel (.pack (.add .binary64 x.toModel.unpack y.toModel.unpack)) :=
  rfl

theorem normalize_natCast (positive : 0 < size) :
    Float.Model.UnpackedFloat.normalize .binary64 (size : Int) exponent .positive =
      Float.Model.UnpackedFloat.round .binary64 .positive size exponent := by
  have above : compare (size : Int) 0 = .gt := Int.compare_eq_gt.mpr (by omega)
  unfold Float.Model.UnpackedFloat.normalize
  rw [above]
  rfl

theorem add_finite {positive : 0 < mantissa} {positive' : 0 < other} :
    add .binary64 (.finite .positive mantissa exponent positive)
        (.finite .positive other otherExponent positive') =
      Float.Model.UnpackedFloat.round .binary64 .positive
        (mantissa * 2 ^ (exponent - min exponent otherExponent).toNat +
          other * 2 ^ (otherExponent - min exponent otherExponent).toNat) (min exponent otherExponent) := by
  rw [← normalize_natCast (Nat.add_pos_left (Nat.mul_pos positive (Nat.pow_pos (by decide))) _),
    Int.natCast_add, ← Nat.shiftLeft_eq, ← Nat.shiftLeft_eq]
  rfl

/-- A positive double and one with 53 places have a positive double or infinity as their sum. -/
theorem IsDouble.exists_add (isDouble : IsDouble mantissa exponent) (isDouble' : IsDouble other otherExponent)
    (positive : 0 < mantissa) (normal : 2 ^ 52 ≤ other) :
    double false mantissa exponent + double false other otherExponent = Numeric.infinity ∨
      ∃ sum shifted, IsDouble sum shifted ∧
        double false mantissa exponent + double false other otherExponent = double false sum shifted := by
  have ⟨_, least, _, _⟩ := isDouble
  have ⟨_, least', _, _⟩ := isDouble'
  have large : 2 ^ 52 ≤ mantissa * 2 ^ (exponent - min exponent otherExponent).toNat +
      other * 2 ^ (otherExponent - min exponent otherExponent).toNat :=
    calc 2 ^ 52 ≤ other := normal
      _ ≤ other * 2 ^ (otherExponent - min exponent otherExponent).toNat :=
        Nat.le_mul_of_pos_right _ (Nat.pow_pos (by decide))
      _ ≤ _ := Nat.le_add_left _ _
  obtain ⟨sum, shifted, somePlaces, low, high, rounded, up⟩ :=
    exists_round .positive large (show -1074 ≤ min exponent otherExponent by omega)
  rw [add_eq, isDouble.unpack_of_pos positive, isDouble'.unpack_of_pos (by omega), add_finite, rounded,
    ofModel_pack_rounded low high (by omega) somePlaces]
  by_cases fits : shifted ≤ 971
  · rw [if_pos fits]
    exact .inr ⟨sum, shifted, ⟨high, by omega, fits, .inl low⟩, rfl⟩
  · rw [if_neg fits]
    exact .inl rfl

/-- A natural number that is a double is zero, or its mantissa stands no more than 52 places below the
point. -/
theorem exists_of_toInt? (whole : toInt? z = some (size : Int)) :
    ∃ negative mantissa exponent, IsDouble mantissa exponent ∧ z = double negative mantissa exponent ∧
      if size = 0 then mantissa = 0
      else negative = false ∧ 2 ^ 52 ≤ mantissa ∧ -52 ≤ exponent ∧
        mantissa * 2 ^ (exponent + 52).toNat = size * 2 ^ 52 := by
  obtain ⟨⟨negative, mantissa, exponent⟩, finite⟩ := exists_ofFloat?_of_toInt? whole
  obtain ⟨isDouble, same⟩ := exists_double_of_ofFloat? finite
  obtain ⟨found, isSize, sized⟩ := exists_signed_of_toInt? finite whole
  have sameSize : found = size := by rw [← natAbs_signed negative found, ← isSize, Int.natAbs_natCast]
  subst sameSize
  refine ⟨negative, mantissa, exponent, isDouble, same, ?_⟩
  have ⟨high, _, _, normal⟩ := isDouble
  by_cases none : found = 0
  · rw [if_pos none]
    split at sized
    · exact (Nat.mul_eq_zero.mp (sized.symm.trans none)).resolve_right (Nat.pow_pos (by decide)).ne'
    · rw [sized, none, Nat.zero_mul]
  · rw [if_neg none]
    have notNegative : negative = false := by
      cases negative with
      | false => rfl
      | true =>
          simp only [signed, if_true] at isSize
          omega
    have near : -52 ≤ exponent := by
      by_contra far
      rw [if_neg (by omega)] at sized
      have places : 2 ^ 53 ≤ 2 ^ (-exponent).toNat := Nat.pow_le_pow_right (by decide) (by omega)
      have atLeast := Nat.le_mul_of_pos_left (2 ^ (-exponent).toNat) (Nat.pos_of_ne_zero none)
      omega
    refine ⟨notNegative, by omega, near, ?_⟩
    split at sized
    · have moved : (exponent + 52).toNat = exponent.toNat + 52 := by omega
      rw [sized, moved, Nat.pow_add, Nat.mul_assoc]
    · have moved : (-exponent).toNat + (exponent + 52).toNat = 52 := by omega
      rw [sized, Nat.mul_assoc, ← Nat.pow_add, moved]

/-- One more than a natural number is rounded from the exact sum. -/
theorem add_one_eq (whole : toInt? z = some (size : Int)) :
    z + 1 = .ofModel (.pack
      (Float.Model.UnpackedFloat.round .binary64 .positive ((size + 1) * 2 ^ 52) (-52))) := by
  obtain ⟨negative, mantissa, exponent, isDouble, rfl, parts⟩ := exists_of_toInt? whole
  by_cases none : size = 0
  · rw [if_pos none] at parts
    subst parts none
    rw [add_eq, isDouble.unpack_eq]
    rfl
  · rw [if_neg none] at parts
    obtain ⟨rfl, low, near, same⟩ := parts
    have least : min exponent (-52) = -52 := by omega
    have sum : size * 2 ^ 52 + 2 ^ 52 * 2 ^ ((-52 : Int) - -52).toNat = (size + 1) * 2 ^ 52 :=
      (Nat.succ_mul size (2 ^ 52)).symm
    rw [add_eq, isDouble.unpack_of_pos (by omega), unpack_one, add_finite, least, Int.sub_neg, same, sum]

theorem ofNat_eq_double (positive : size ≠ 0) (small : size < 2 ^ 53) :
    ofNat size = double false (size * 2 ^ shiftOf size) (-(shiftOf size)) := by
  have places := shiftOf_add_log2 small
  rw [ofNat, nearest, nearestBits_of_small positive small, double]
  congr 3
  omega

/-- Adding one to a small natural number is exact. -/
theorem add_one_of_toInt? (whole : toInt? z = some (size : Int)) (small : size + 1 < 2 ^ 53) :
    z + 1 = ofNat (size + 1) := by
  obtain ⟨low, high⟩ := moved_up (Nat.succ_ne_zero size) small
  have places := shiftOf_add_log2 small
  have moved : (size + 1) * 2 ^ 52 = (size + 1) * 2 ^ shiftOf (size + 1) * 2 ^ (52 - shiftOf (size + 1)) := by
    rw [Nat.mul_assoc, ← Nat.pow_add, Nat.add_sub_cancel' (by omega)]
  have exponent : (-52 : Int) + (52 - shiftOf (size + 1) : Nat) = -(shiftOf (size + 1)) := by omega
  rw [add_one_eq whole, moved, round_mul low high (by decide), exponent,
    ofModel_pack_rounded low high (by omega) (by omega), if_pos (by omega),
    ofNat_eq_double (Nat.succ_ne_zero size) small]

/-- One more than a natural number from `2 ^ 24` on is above `2 ^ 24`. -/
theorem lt_add_one_of_toInt? (whole : toInt? z = some (size : Int)) (large : 2 ^ 24 ≤ size) :
    double false (2 ^ 52) (-28) < z + 1 := by
  have limit : IsDouble (2 ^ 52) (-28) := ⟨by decide, by decide, by decide, .inl (by decide)⟩
  have above : (2 ^ 24 + 1) * 2 ^ 52 ≤ (size + 1) * 2 ^ 52 := Nat.mul_le_mul_right _ (by omega)
  have log2 : 76 ≤ Nat.log2 ((size + 1) * 2 ^ 52) := (Nat.le_log2 (by omega)).mpr (by omega)
  obtain ⟨mantissa, shifted, positive, low, high, rounded, up⟩ :=
    exists_round .positive (show 2 ^ 52 ≤ (size + 1) * 2 ^ 52 by omega) (show -1074 ≤ (-52 : Int) by decide)
  rw [add_one_eq whole, rounded, ofModel_pack_rounded low high (by omega) positive]
  split
  · refine limit.lt_double ⟨high, by omega, ‹_›, .inl low⟩ (by decide) positive ?_
    rcases Nat.lt_or_eq_of_le log2 with more | same
    · omega
    · rw [← same] at up
      -- The leading places are those of the least sum, which has a one in its last place.
      have leading : 2 ^ 52 < (size + 1) * 2 ^ 52 / 2 ^ (76 - 52) := by omega
      omega
  · exact limit.lt_infinity (by decide)

end Sum

/-! ## Undefined results -/

section Undefined

variable {x y : Float} {unpacked left right : Float.Model.UnpackedFloat}

theorem eq_nan_iff : x = Float.nan ↔ x.toModel.unpack = .notANumber := by
  refine ⟨fun same => by rw [same]; rfl, fun undefined => ?_⟩
  rw [← ofModel_pack_unpack x, undefined]
  rfl

theorem isInf_iff : x.isInf = true ↔ ∃ sign, x.toModel.unpack = .infinity sign := by
  have unfolded : x.isInf = Float.Model.UnpackedFloat.isInf x.toModel.unpack := rfl
  rw [unfolded]
  cases x.toModel.unpack <;> simp [Float.Model.UnpackedFloat.isInf]

theorem eq_of_unpack_eq (same : x.toModel.unpack = y.toModel.unpack) : x = y := by
  rw [← ofModel_pack_unpack x, same, ofModel_pack_unpack]

theorem unpackMantissa_pack (defined : unpacked ≠ .notANumber)
    (all : unpackExponent (pack .binary64 unpacked) = -1#11) :
    unpackMantissa (pack .binary64 unpacked) = 0#52 := by
  revert all
  fun_cases pack .binary64 unpacked with
  | case1 => exact absurd rfl defined
  | case2 sign => simp [packedInfinity]
  | case3 sign => simp [packedZero]
  | case4 => simp [packedInfinity]
  | case5 sign mantissa exponent positive places biased fits normal =>
      intro all
      rw [unpackExponent_packComponents] at all
      have isField : biased % 2 ^ 11 = 2047 := congrArg BitVec.toNat all
      have bits : Format.binary64.exponentBits = 11 := rfl
      rw [bits] at fits
      omega
  | case6 => simp

theorem ofModel_pack_eq_nan_iff : Float.ofModel (.pack unpacked) = Float.nan ↔ unpacked = .notANumber := by
  refine ⟨fun same => ?_, fun undefined => by rw [undefined]; rfl⟩
  by_contra defined
  have bits : pack .binary64 unpacked = packedNaN .binary64 :=
    congrArg (fun x : Float => x.toModel.toBits.toBitVec) same
  have nothing := unpackMantissa_pack defined (by rw [bits]; rfl)
  rw [bits] at nothing
  revert nothing
  decide

theorem roundWithAccuracy_ne (spec : Format) (sign : Sign) (size : Nat) (exponent : Int)
    (accuracy : Accuracy) : roundWithAccuracy spec sign size exponent accuracy ≠ .notANumber := by
  unfold roundWithAccuracy
  dsimp only
  split <;> nofun

theorem normalize_ne (spec : Format) (size exponent : Int) (zeroSign : Sign) :
    Float.Model.UnpackedFloat.normalize spec size exponent zeroSign ≠ .notANumber := by
  unfold Float.Model.UnpackedFloat.normalize Float.Model.UnpackedFloat.round
  dsimp only
  split
  · exact roundWithAccuracy_ne _ _ _ _ _
  · nofun
  · exact roundWithAccuracy_ne _ _ _ _ _

theorem sub_eq_notANumber_iff (defined : left ≠ .notANumber)
    (defined' : right ≠ .notANumber) :
    sub .binary64 left right = .notANumber ↔ ∃ sign, left = .infinity sign ∧ right = .infinity sign := by
  constructor
  · fun_cases sub .binary64 left right with
    | case1 => exact absurd rfl defined
    | case2 => exact absurd rfl defined'
    | case4 sign other different => cases sign <;> cases other <;> simp_all <;> contradiction
    | case10 => exact fun undefined => absurd undefined defined
    | case11 => exact fun undefined => absurd undefined (normalize_ne _ _ _ _)
    | _ => nofun
  · rintro ⟨sign, rfl, rfl⟩
    cases sign <;> rfl

theorem div_eq_notANumber_iff (defined : left ≠ .notANumber)
    (defined' : right ≠ .notANumber) (nonzero : ∀ sign, right ≠ .zero sign) :
    div .binary64 left right = .notANumber ↔
      (∃ sign, left = .infinity sign) ∧ ∃ sign, right = .infinity sign := by
  constructor
  · fun_cases div .binary64 left right with
    | case1 => exact absurd rfl defined
    | case2 => exact absurd rfl defined'
    | case3 sign other => exact fun _ => ⟨⟨sign, rfl⟩, other, rfl⟩
    | case10 _ other => exact absurd rfl (nonzero other)
    | case11 => exact fun undefined => absurd undefined (roundWithAccuracy_ne _ _ _ _ _)
    | _ => nofun
  · rintro ⟨⟨sign, rfl⟩, ⟨other, rfl⟩⟩
    rfl

theorem sub_eq_nan_iff (defined : x ≠ Float.nan) (defined' : y ≠ Float.nan) :
    x - y = Float.nan ↔ x.isInf ∧ x = y := by
  have difference : x - y = .ofModel (.pack (.sub .binary64 x.toModel.unpack y.toModel.unpack)) := rfl
  rw [difference, ofModel_pack_eq_nan_iff, isInf_iff,
    sub_eq_notANumber_iff (mt eq_nan_iff.mpr defined) (mt eq_nan_iff.mpr defined')]
  constructor
  · exact fun ⟨sign, infinite, infinite'⟩ =>
      ⟨⟨sign, infinite⟩, eq_of_unpack_eq (infinite.trans infinite'.symm)⟩
  · rintro ⟨⟨sign, infinite⟩, rfl⟩
    exact ⟨sign, infinite, infinite⟩

theorem div_eq_nan_iff (defined : x ≠ Float.nan) (defined' : y ≠ Float.nan) (nonzero : (y == 0) = false) :
    x / y = Float.nan ↔ x.isInf ∧ y.isInf := by
  have quotient : x / y = .ofModel (.pack (.div .binary64 x.toModel.unpack y.toModel.unpack)) := rfl
  have notZero : ∀ sign, y.toModel.unpack ≠ .zero sign := by
    intro sign zero
    have same : (y == 0) = y.toModel.unpack.beq (0 : Float).toModel.unpack := rfl
    rw [same, zero] at nonzero
    cases nonzero
  rw [quotient, ofModel_pack_eq_nan_iff, isInf_iff, isInf_iff,
    div_eq_notANumber_iff (mt eq_nan_iff.mpr defined) (mt eq_nan_iff.mpr defined') notZero]

end Undefined

end Reckon.Decimal
