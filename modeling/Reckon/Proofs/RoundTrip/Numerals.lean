import Reckon.Proofs.Lexeme.Branches
import Reckon.Proofs.RoundTrip.Term

/-!
# Reading numerals

A numeral is read as the double nearest to its value, which is infinite if the value is too large for
any other.  The reader settles numbers with many digits by their length alone; for whole numbers this
agrees with rounding them.
-/

namespace Reckon

open Text (isDigit hexValue ne_of_passes toNat_of_isDigit)

/-! ## Digits -/

namespace Decimal

theorem lowerAscii_of_isDigit {c : Char} (digit : isDigit c = true) : lowerAscii c = c := by
  have bounds := toNat_of_isDigit digit
  have notUpper : ¬ 'A' ≤ c := by
    intro upper
    have atLeast : 65 ≤ c.toNat := upper
    omega
  simp [lowerAscii, notUpper]

theorem hexValue_of_isDigit {c : Char} (digit : isDigit c = true) :
    hexValue c = c.toNat - '0'.toNat := by
  simp [hexValue, digit]

variable {first : Char} {rest digits : List Char}

theorem splitSign_of_isDigit (digit : isDigit first = true) :
    splitSign (first :: rest) = (false, first :: rest) := by
  have notMinus := ne_of_passes digit (by decide : isDigit '-' = false)
  have notPlus := ne_of_passes digit (by decide : isDigit '+' = false)
  unfold splitSign
  split
  · next same => exact absurd (List.cons.inj same).1 notMinus
  · next same => exact absurd (List.cons.inj same).1 notPlus
  · rfl

theorem digitsValue_of_isDigit (allDigits : ∀ c ∈ digits, isDigit c = true) :
    digitsValue 10 digits =
      digits.foldl (fun value digit => value * 10 + (digit.toNat - '0'.toNat)) 0 := by
  unfold digitsValue
  suffices every : ∀ start, digits.foldl
        (fun value c => if c == '_' then value else value * 10 + hexValue c) start =
      digits.foldl (fun value digit => value * 10 + (digit.toNat - '0'.toNat)) start from every 0
  induction digits with
  | nil =>
      exact fun _ => rfl
  | cons digit later inductionHypothesis =>
      intro start
      have isOne := allDigits digit (by simp)
      have notMark : (digit == '_') = false := by
        simpa using ne_of_passes isOne (by decide : isDigit '_' = false)
      rw [List.foldl_cons, List.foldl_cons, notMark, hexValue_of_isDigit isOne]
      exact inductionHypothesis (fun c member => allDigits c (List.mem_cons_of_mem digit member)) _

theorem digitsCount_of_isDigit (allDigits : ∀ c ∈ digits, isDigit c = true) :
    digitsCount digits = digits.length := by
  have kept : digits.filter (· != '_') = digits := by
    refine List.filter_eq_self.mpr fun c member => ?_
    simpa using ne_of_passes (allDigits c member) (by decide : isDigit '_' = false)
  rw [digitsCount, kept]

/-! ## Rounding whole numbers -/

theorem nearestBits_le_infinityBits (numerator denominator : Nat) :
    nearestBits numerator denominator ≤ infinityBits := by
  unfold nearestBits
  split
  · exact Nat.zero_le _
  · exact Nat.min_le_left _ _

theorem floorLog2_one {value : Nat} (positive : value ≠ 0) : floorLog2 value 1 = Nat.log2 value := by
  have below : 2 ^ Nat.log2 value ≤ value := Nat.log2_self_le positive
  have one : Nat.log2 1 = 0 := by decide
  simp [floorLog2, scaled, one, below]

/-- A whole number beyond the largest double is infinite. -/
theorem nearestBits_of_large {value : Nat} (large : 1024 ≤ Nat.log2 value) :
    nearestBits value 1 = infinityBits := by
  have positive : value ≠ 0 := by
    rintro rfl
    exact absurd large (by decide)
  obtain ⟨shift, sameShift⟩ : ∃ shift, Nat.log2 value = shift + 52 :=
    ⟨Nat.log2 value - 52, by omega⟩
  have exponent : max (floorLog2 value 1 - 52) leastExponent = (shift : Int) := by
    rw [floorLog2_one positive, sameShift, leastExponent]
    omega
  have mantissa : 2 ^ 52 ≤ roundDiv value (1 * Nat.pow 2 shift) := by
    have quotient : 2 ^ 52 ≤ value / (1 * Nat.pow 2 shift) := by
      have positivePower : 0 < Nat.pow 2 shift := Nat.pow_pos (by decide)
      rw [Nat.one_mul, Nat.le_div_iff_mul_le positivePower]
      have below : 2 ^ Nat.log2 value ≤ value := Nat.log2_self_le positive
      rw [sameShift, Nat.pow_add, Nat.mul_comm] at below
      exact below
    unfold roundDiv
    dsimp only
    split
    · exact quotient
    · split <;> omega
  have shifted : ((shift : Int) - leastExponent).toNat = shift + 1074 := by
    rw [leastExponent]
    omega
  have enough : infinityBits ≤ (shift + 1074) * Nat.pow 2 52 +
      roundDiv value (1 * Nat.pow 2 shift) := by
    have pattern : infinityBits = 2046 * Nat.pow 2 52 + 2 ^ 52 := by decide
    have atLeast : 2046 * Nat.pow 2 52 ≤ (shift + 1074) * Nat.pow 2 52 :=
      Nat.mul_le_mul_right _ (by omega)
    omega
  unfold nearestBits
  rw [if_neg positive, exponent]
  simp only [scaled, Int.natCast_nonneg, if_true, Int.toNat_natCast, shifted]
  exact Nat.min_eq_left enough

theorem log2_of_many_digits {value count : Nat} (positive : 0 < count)
    (many : 62 * count < (Nat.toDigits 10 value).length) : 205 * count ≤ Nat.log2 value := by
  have short : (Nat.toDigits 10 value).length ≤ 62 * count ↔ value < 10 ^ (62 * count) :=
    Nat.length_toDigits_le_iff (by decide) (by omega)
  have large : 10 ^ (62 * count) ≤ value :=
    Nat.le_of_not_lt fun small => Nat.not_le_of_lt many (short.mpr small)
  have nonzero : value ≠ 0 := (Nat.lt_of_lt_of_le (Nat.pow_pos (by decide)) large).ne'
  refine (Nat.le_log2 nonzero).mpr ?_
  calc 2 ^ (205 * count) = (2 ^ 205) ^ count := Nat.pow_mul 2 205 count
    _ ≤ (10 ^ 62) ^ count := Nat.pow_le_pow_left (by decide) count
    _ = 10 ^ (62 * count) := (Nat.pow_mul 10 62 count).symm
    _ ≤ value := large

/-- A whole number in decimal notation is rounded like any other. -/
theorem decimalBits_zero (value : Nat) : decimalBits value 0 = nearestBits value 1 := by
  unfold decimalBits
  by_cases zero : value = 0
  · rw [if_pos zero, zero]
    rfl
  · rw [if_neg zero]
    by_cases many : 62 * 5 < (Nat.toDigits 10 value).length
    · have beyond : pointBound < 0 + ((Nat.toDigits 10 value).length : Int) := by
        rw [pointBound]
        omega
      have large : 205 * 5 ≤ Nat.log2 value := log2_of_many_digits (by decide) many
      rw [if_pos beyond, nearestBits_of_large (by omega)]
    · have within : ¬pointBound < 0 + ((Nat.toDigits 10 value).length : Int) := by
        rw [pointBound]
        omega
      have notSmall : ¬0 + ((Nat.toDigits 10 value).length : Int) < -(pointBound + 20) := by
        rw [pointBound]
        omega
      rw [if_neg within, if_neg notSmall]
      simp

/-! ## Texts -/

theorem readWritten_of_isDigit (allDigits : ∀ c ∈ digits, isDigit c = true)
    (nonempty : digits ≠ []) :
    readWritten isDigit 'e' false digits = some ⟨digits, [], 0⟩ := by
  have every : ∀ c ∈ digits, (isDigit c || c == '_') = true := by
    intro c member
    rw [allDigits c member, Bool.true_or]
  have taken : digits.takeWhile (fun c => isDigit c || c == '_') = digits := by
    have whole := @List.takeWhile_append_of_pos _ _ digits [] every
    rwa [List.append_nil, List.takeWhile_nil, List.append_nil] at whole
  have dropped : digits.dropWhile (fun c => isDigit c || c == '_') = [] := by
    have nothing := @List.dropWhile_append_of_pos _ _ digits [] every
    rwa [List.append_nil, List.dropWhile_nil] at nothing
  have count : digitsCount digits ≠ 0 := by
    rw [digitsCount_of_isDigit allDigits]
    exact fun none => nonempty (List.length_eq_zero_iff.mp none)
  simp [readWritten, taken, dropped, count]

theorem readUnsignedBits_of_isDigit (allDigits : ∀ c ∈ first :: rest, isDigit c = true) :
    readUnsignedBits (first :: rest) = some (nearestBits (digitsValue 10 (first :: rest)) 1) := by
  have decimal := readWritten_of_isDigit allDigits (by simp)
  have noFraction : digitsCount [] = 0 := rfl
  unfold readUnsignedBits
  split
  · next mark later same =>
    have markMember : mark ∈ first :: rest := by simp [same]
    have isOne := allDigits mark markMember
    have notLower := ne_of_passes isOne (by decide : isDigit 'x' = false)
    have notUpper := ne_of_passes isOne (by decide : isDigit 'X' = false)
    rw [same] at decimal
    simp [notLower, notUpper, decimal, same, noFraction, decimalBits_zero]
  · simp [decimal, noFraction, decimalBits_zero]

theorem readFloat_of_isDigit {text : String} (chars : text.toList = first :: rest)
    (allDigits : ∀ c ∈ first :: rest, isDigit c = true) :
    readFloat text =
      if nearestBits (digitsValue 10 (first :: rest)) 1 < infinityBits then
        .ok (ofNat (digitsValue 10 (first :: rest)))
      else .error .outOfRange := by
  have isOne := allDigits first (by simp)
  have lower : (first :: rest).map lowerAscii = first :: rest := by
    refine (List.map_congr_left fun c member => ?_).trans (List.map_id _)
    exact lowerAscii_of_isDigit (allDigits c member)
  have notNan : (first :: rest == "nan".toList) = false := by
    have different := ne_of_passes isOne (by decide : isDigit 'n' = false)
    rw [(by decide : "nan".toList = ['n', 'a', 'n'])]
    simp [different]
  have notInf : (first :: rest == "inf".toList) = false := by
    have different := ne_of_passes isOne (by decide : isDigit 'i' = false)
    rw [(by decide : "inf".toList = ['i', 'n', 'f'])]
    simp [different]
  have notInfinity : (first :: rest == "infinity".toList) = false := by
    have different := ne_of_passes isOne (by decide : isDigit 'i' = false)
    rw [(by decide : "infinity".toList = ['i', 'n', 'f', 'i', 'n', 'i', 't', 'y'])]
    simp [different]
  have noMark : underscoresAllowed (first :: rest) = true := by
    have absent : '_' ∉ first :: rest := by
      intro member
      exact absurd (allDigits '_' member) (by decide)
    simp [underscoresAllowed, List.contains_eq_mem, absent]
  simp only [readFloat, chars, splitSign_of_isDigit isOne, lower, notNan, notInf, notInfinity,
    noMark, readUnsignedBits_of_isDigit allDigits, Bool.or_self, Bool.not_true, Bool.false_eq_true,
    if_false]
  rfl

end Decimal

theorem Numeral.toList_text (numeral : Numeral) : numeral.text.toList = numeral.digits :=
  String.toList_ofList

theorem Numeral.isDigit_of_mem (numeral : Numeral) : ∀ c ∈ numeral.digits, isDigit c = true :=
  List.forall_mem_cons.mpr ⟨numeral.isDigit_first, numeral.isDigit_rest⟩

/-- A numeral is read as the double nearest to its value. -/
theorem Decimal.readLiteral_text (numeral : Numeral) :
    readLiteral numeral.text = some (ofNat numeral.value) := by
  have chars : numeral.text.toList = numeral.first :: numeral.rest := numeral.toList_text
  have allDigits := numeral.isDigit_of_mem
  have value : digitsValue 10 (numeral.first :: numeral.rest) = numeral.value :=
    digitsValue_of_isDigit allDigits
  have decimal : readLiteral.readDecimal numeral.text = some (ofNat numeral.value) := by
    rw [readLiteral.readDecimal, readFloat_of_isDigit chars allDigits, value]
    by_cases finite : nearestBits numeral.value 1 < infinityBits
    · rw [if_pos finite]
    · rw [if_neg finite]
      have same : nearestBits numeral.value 1 = infinityBits :=
        Nat.le_antisymm (nearestBits_le_infinityBits _ _) (Nat.le_of_not_lt finite)
      rw [ofNat, nearest, same]
  unfold readLiteral
  split
  · next mark later same =>
    have markMember : mark ∈ numeral.digits := by
      rw [← numeral.toList_text, same]
      simp
    have isOne := allDigits mark markMember
    have notLower := ne_of_passes isOne (by decide : isDigit 'x' = false)
    have notUpper := ne_of_passes isOne (by decide : isDigit 'X' = false)
    simp [notLower, notUpper, decimal]
  · exact decimal

end Reckon
