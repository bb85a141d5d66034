import Reckon.Decimal.Binary

/-!
# How numbers are written

A whole number below `10 ^ 15` is written in full. Any other number is written with the fewest
digits that read back, plainly when its decimal exponent is between `-4` and `5`, and with an
exponent mark otherwise.
-/

/-!
## The shortest decimal that reads back

Of all decimals that round to a given double, the one with the fewest digits is chosen, and of
these the one nearest to the double. A decimal of `n` digits can only round to the double if one of
the two neighbours of the double on the grid of `n`-digit decimals does, so only these are tried.
-/

namespace Reckon.Decimal

/-- A positive decimal: the digits, read as a whole number, times a power of ten. -/
structure Digits where
  /-- The digits as a whole number. -/
  significand : Nat
  /-- The power of ten. -/
  exponent : Int
deriving DecidableEq, Repr

/-- Four times the mantissa at the two ends of the interval of reals that round to
`mantissa * 2 ^ exponent`, and whether the ends belong to it. The gap below a power of two is half
as wide as the gap above. -/
structure Rounding where
  /-- Four times the lower end. -/
  low : Nat
  /-- Four times the upper end. -/
  high : Nat
  /-- Whether the ends round to the double as well. -/
  closed : Bool

/-- The interval of reals that round to a positive double. -/
def Rounding.around (mantissa : Nat) (exponent : Int) : Rounding where
  low :=
    if mantissa = Nat.pow 2 52 ∧ exponent ≠ leastExponent then 4 * mantissa - 1
    else 4 * mantissa - 2
  high := 4 * mantissa + 2
  closed := mantissa % 2 = 0

/-- A fraction `value * 2 ^ twos / 10 ^ tens` as numerator and denominator. -/
def fraction (value : Nat) (twos tens : Int) : Nat × Nat :=
  (value * Nat.pow 2 twos.toNat * Nat.pow 10 (-tens).toNat,
    Nat.pow 2 (-twos).toNat * Nat.pow 10 tens.toNat)

/-- Whether `significand * 10 ^ tens` lies in the interval around a double with this exponent. -/
def Rounding.holds (interval : Rounding) (exponent : Int) (significand : Nat) (tens : Int) : Bool :=
  let (lowTop, lowBottom) := fraction interval.low (exponent - 2) tens
  let (highTop, highBottom) := fraction interval.high (exponent - 2) tens
  if interval.closed then
    lowTop ≤ significand * lowBottom && significand * highBottom ≤ highTop
  else
    lowTop < significand * lowBottom && significand * highBottom < highTop

/-- The power of ten just above a positive fraction: the least `k` with
`numerator / denominator < 10 ^ k`. The first argument bounds the search below one. -/
def decimalPoint : Nat → Nat → Nat → Int
  | 0, _, _ => 0
  | bound + 1, numerator, denominator =>
      if denominator ≤ numerator then ((Nat.toDigits 10 (numerator / denominator)).length : Int)
      else decimalPoint bound (numerator * 10) denominator - 1

/-- The decimal with `count` digits nearest to the double that still rounds to it, if there is one.
Here `point` is the power of ten just above the double. -/
def candidate? (mantissa : Nat) (exponent point : Int) (interval : Rounding) (count : Nat) :
    Option Digits :=
  let tens := point - count
  let (top, bottom) := fraction mantissa exponent tens
  let below := top / bottom
  let rest := top % bottom
  let belowHolds := interval.holds exponent below tens
  let aboveHolds := interval.holds exponent (below + 1) tens
  if belowHolds && aboveHolds then
    some ⟨if bottom < 2 * rest then below + 1 else below, tens⟩
  else if belowHolds then some ⟨below, tens⟩
  else if aboveHolds then some ⟨below + 1, tens⟩
  else none

/-- A decimal without the zeros at the end of its significand. -/
def Digits.trim : Nat → Digits → Digits
  | 0, digits => digits
  | bound + 1, digits =>
      if digits.significand ≠ 0 ∧ digits.significand % 10 = 0 then
        Digits.trim bound ⟨digits.significand / 10, digits.exponent + 1⟩
      else digits

/-- The shortest decimal for a positive double. -/
def shortest (mantissa : Nat) (exponent : Int) : Digits :=
  let interval := Rounding.around mantissa exponent
  let (top, bottom) := fraction mantissa exponent 0
  let point := decimalPoint 400 top bottom
  let found := (List.range 17).findSome? fun n =>
    candidate? mantissa exponent point interval (n + 1)
  Digits.trim 20 (found.getD ⟨0, 0⟩)

/-! ## Full, plain and marked decimals -/

/-- Whole numbers below this bound are written in full. -/
def wholeBound : Nat := Nat.pow 10 15

/-- The least decimal exponent that is written without a mark. -/
def leastPlain : Int := -4

/-- The least decimal exponent, above `leastPlain`, that is written with a mark again. -/
def leastMarked : Int := 6

/-- An exponent with its sign and at least two digits. -/
def exponentText (exponent : Int) : String :=
  let digits := toString exponent.natAbs
  (if exponent < 0 then "e-" else "e+") ++ (if exponent.natAbs < 10 then "0" else "") ++ digits

/-- Digits with a point after the first `place` of them; `place` may lie outside the digits, and
then zeros fill the gap. -/
def plainText (digits : List Char) (place : Int) : String :=
  if place ≤ 0 then
    String.ofList ('0' :: '.' :: (List.replicate (-place).toNat '0' ++ digits))
  else if (digits.length : Int) ≤ place then
    String.ofList (digits ++ List.replicate (place.toNat - digits.length) '0')
  else
    String.ofList (digits.take place.toNat ++ '.' :: digits.drop place.toNat)

/-- The text of a positive decimal. -/
def Digits.render (decimal : Digits) : String :=
  let digits := Nat.toDigits 10 decimal.significand
  let exponent := decimal.exponent + digits.length - 1
  if exponent < leastPlain ∨ leastMarked ≤ exponent then
    let tail := digits.drop 1
    String.ofList (digits.take 1 ++ (if tail.isEmpty then [] else '.' :: tail)) ++
      exponentText exponent
  else plainText digits (exponent + 1)

/-- The text of a number. -/
def render (x : Float) : String :=
  match Binary.ofFloat? x with
  | none =>
      if x.isNaN then "NaN" else if x < 0 then "-Infinity" else "Infinity"
  | some ⟨negative, mantissa, exponent⟩ =>
      match toInt? x with
      | some n => if n.natAbs < wholeBound then toString n else marked negative mantissa exponent
      | none => marked negative mantissa exponent
where
  /-- The text of a number that is not written in full. -/
  marked (negative : Bool) (mantissa : Nat) (exponent : Int) : String :=
    (if negative then "-" else "") ++ (shortest mantissa exponent).render

/-- The text of a complex number. A real part of zero is left out. -/
def renderComplex (re im : Float) : String :=
  if re == 0 then render im ++ "i"
  else if im < 0 || im.isNaN then render re ++ render im ++ "i"
  else render re ++ "+" ++ render im ++ "i"

end Reckon.Decimal
