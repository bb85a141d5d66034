/-!
# Doubles as whole numbers times powers of two

A finite double is `mantissa * 2 ^ exponent` with a sign. This module takes doubles apart and puts
them together, and rounds an exact fraction to the nearest double. All arithmetic is exact, on
natural numbers; the bit pattern of a double is the only thing used of the floating-point type.
-/

namespace Reckon.Decimal

/-- A finite double taken apart: `± mantissa * 2 ^ exponent`. -/
structure Binary where
  /-- Whether the sign bit is set. -/
  negative : Bool
  /-- The whole number, below `2 ^ 53`. -/
  mantissa : Nat
  /-- The power of two, at least `-1074`. -/
  exponent : Int
deriving DecidableEq, Repr

/-- The least exponent of a double. -/
def leastExponent : Int := -1074

/-- The sign, the exponent field and the fraction field of a bit pattern. -/
def fields (bits : Nat) : Bool × Nat × Nat :=
  (Nat.pow 2 63 ≤ bits, bits / Nat.pow 2 52 % Nat.pow 2 11, bits % Nat.pow 2 52)

/-- A bit pattern as a number, if it stands for a finite one. -/
def Binary.ofBits? (bits : Nat) : Option Binary :=
  let (negative, exponent, fraction) := fields bits
  if exponent = 2047 then none
  else if exponent = 0 then some ⟨negative, fraction, leastExponent⟩
  else some ⟨negative, Nat.pow 2 52 + fraction, exponent - 1075⟩

/-- A double as a number, if it is finite. -/
def Binary.ofFloat? (x : Float) : Option Binary :=
  Binary.ofBits? x.toBits.toNat

/-- The quotient of two whole numbers, rounded to the nearest whole number; a half goes to the even
neighbour. -/
def roundDiv (numerator denominator : Nat) : Nat :=
  let quotient := numerator / denominator
  let rest := numerator % denominator
  if 2 * rest < denominator then quotient
  else if denominator < 2 * rest then quotient + 1
  else quotient + quotient % 2

/-- `numerator / denominator` divided by `2 ^ shift`, as a numerator and a denominator. -/
def scaled (numerator denominator : Nat) (shift : Int) : Nat × Nat :=
  if 0 ≤ shift then (numerator, denominator * Nat.pow 2 shift.toNat)
  else (numerator * Nat.pow 2 (-shift).toNat, denominator)

/-- The greatest `k` with `2 ^ k ≤ numerator / denominator`, for a positive fraction. -/
def floorLog2 (numerator denominator : Nat) : Int :=
  let guess : Int := (Nat.log2 numerator : Int) - Nat.log2 denominator
  let (scaledUp, scaledDown) := scaled numerator denominator guess
  if scaledDown ≤ scaledUp then guess else guess - 1

/-- The bit pattern of positive infinity. -/
def infinityBits : Nat := 2047 * Nat.pow 2 52

/-- The bit pattern of the double nearest to a fraction, without its sign. A fraction too large for
any double gives infinity. -/
def nearestBits (numerator denominator : Nat) : Nat :=
  if numerator = 0 then 0
  else
    let exponent := max (floorLog2 numerator denominator - 52) leastExponent
    let (scaledUp, scaledDown) := scaled numerator denominator exponent
    let mantissa := roundDiv scaledUp scaledDown
    min infinityBits ((exponent - leastExponent).toNat * Nat.pow 2 52 + mantissa)

/-- The double with a sign and a bit pattern without sign. -/
def ofBits (negative : Bool) (bits : Nat) : Float :=
  Float.ofBits (UInt64.ofNat (if negative then Nat.pow 2 63 + bits else bits))

/-- The double nearest to `± numerator / denominator`. -/
def nearest (negative : Bool) (numerator denominator : Nat) : Float :=
  ofBits negative (nearestBits numerator denominator)

/-- The double nearest to a whole number. -/
def ofInt (n : Int) : Float :=
  nearest (n < 0) n.natAbs 1

/-- The double nearest to a natural number. -/
def ofNat (n : Nat) : Float :=
  nearest false n 1

/-- A double as a whole number, if it is one. -/
def toInt? (x : Float) : Option Int :=
  match Binary.ofFloat? x with
  | none => none
  | some ⟨negative, mantissa, exponent⟩ =>
      let signed (n : Nat) : Int := if negative then -(n : Int) else n
      if 0 ≤ exponent then some (signed (mantissa * Nat.pow 2 exponent.toNat))
      else
        let unit := Nat.pow 2 (-exponent).toNat
        if mantissa % unit = 0 then some (signed (mantissa / unit)) else none

end Reckon.Decimal
