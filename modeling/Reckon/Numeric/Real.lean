import Reckon.Decimal.Binary

/-!
# Real functions

The functions on doubles that the language offers beyond the basic operations: truncation, the
exact remainder, powers by repeated squaring, and the gamma function.
-/

namespace Reckon.Numeric

open Decimal (Binary)

/-- Infinity. -/
def infinity : Float := 1.0 / 0.0

/-- The undefined number. -/
def undefined : Float := 0.0 / 0.0

/-- The ratio of a circle's circumference to its diameter. -/
def pi : Float := 3.141592653589793

/-- The base of natural logarithms. -/
def euler : Float := 2.718281828459045

/-- Whether the sign bit is set. -/
def isNegative (x : Float) : Bool :=
  Nat.pow 2 63 ≤ x.toBits.toNat

/-- The size of `x` with the sign of `sign`. -/
def copySign (x sign : Float) : Float :=
  Decimal.ofBits (isNegative sign) (x.toBits.toNat % Nat.pow 2 63)

/-- The whole part of a number. -/
def truncate (x : Float) : Float :=
  if x < 0 then x.ceil else x.floor

/-- The greatest whole number that is not above a number. -/
def floor (x : Float) : Float :=
  match Binary.ofFloat? x with
  | none => x
  | some ⟨negative, mantissa, exponent⟩ =>
      let unit := Nat.pow 2 (-exponent).toNat
      if mantissa % unit = 0 then x
      else Decimal.nearest negative (mantissa / unit + if negative then 1 else 0) 1

/-- Whether a number is whole; infinities count as whole. -/
def isWhole (x : Float) : Bool :=
  x == truncate x

/-- The remainder of a division whose quotient is rounded toward zero. It is exact and has the sign
of the dividend. -/
def remainder (x y : Float) : Float :=
  match Binary.ofFloat? x, Binary.ofFloat? y with
  | some dividend, some divisor =>
      if divisor.mantissa = 0 then undefined
      else
        let exponent := min dividend.exponent divisor.exponent
        let top := dividend.mantissa * Nat.pow 2 (dividend.exponent - exponent).toNat
        let bottom := divisor.mantissa * Nat.pow 2 (divisor.exponent - exponent).toNat
        let rest := top % bottom
        if 0 ≤ exponent then Decimal.nearest dividend.negative (rest * Nat.pow 2 exponent.toNat) 1
        else Decimal.nearest dividend.negative rest (Nat.pow 2 (-exponent).toNat)
  | some _, none => if y.isNaN then undefined else x
  | none, _ => undefined

/-- Whether a number is an odd whole number. -/
def isOddWhole (x : Float) : Bool :=
  x.abs < 9007199254740992 && (Decimal.toInt? x).any fun n => n % 2 != 0

/-- `x ^ n` for `x = mantissa * 2 ^ exponent`, by repeated squaring, times `acc * 2 ^ accExponent`.
The first argument bounds the number of binary digits of `n`. Exponents far out of range end the
loop. -/
def squareMultiply : Nat → Nat → Float → Int → Float → Int → Float × Int
  | 0, _, _, _, acc, accExponent => (acc, accExponent)
  | bound + 1, n, mantissa, exponent, acc, accExponent =>
      if n = 0 then (acc, accExponent)
      else if exponent < -4096 ∨ 4096 < exponent then (acc, accExponent + exponent)
      else
        let (acc, accExponent) :=
          if n % 2 = 1 then (acc * mantissa, accExponent + exponent) else (acc, accExponent)
        let squared := mantissa * mantissa
        if squared < 0.5 then
          squareMultiply bound (n / 2) (squared + squared) (2 * exponent - 1) acc accExponent
        else squareMultiply bound (n / 2) squared (2 * exponent) acc accExponent

/-- A power with a finite base other than zero and a finite exponent. The whole part of the exponent
is handled by repeated squaring, the rest by way of the logarithm. -/
def finitePower (x y : Float) : Float :=
  let size := y.abs
  let whole := size.floor
  let part := size - whole
  if part != 0 && x < 0 then undefined
  else if 9223372036854775808.0 ≤ whole then
    if x == -1 then 1
    else if (x.abs < 1) == (0 < y) then 0
    else infinity
  else
    let (whole, part) := if 0.5 < part then (whole + 1, part - 1) else (whole, part)
    let start := if part != 0 then (part * x.log).exp else 1
    let (mantissa, exponent) := x.frExp
    let (acc, accExponent) :=
      squareMultiply 64 ((Decimal.toInt? whole).getD 0).toNat mantissa exponent start 0
    if y < 0 then (1 / acc).scaleB (-accExponent) else acc.scaleB accExponent

/-- The power of zero, whose sign matters for odd exponents. -/
def zeroPower (x y : Float) : Float :=
  if y < 0 then
    if isNegative x && isOddWhole y then -infinity else infinity
  else if isNegative x && isOddWhole y then x
  else 0

/-- `x ^ y`. -/
def power (x y : Float) : Float :=
  if y == 0 || x == 1 then 1
  else if y == 1 then x
  else if x.isNaN || y.isNaN then undefined
  else if x == 0 then zeroPower x y
  else if y.isInf then
    if x == -1 then 1
    else if (x.abs < 1) == (0 < y) then 0
    else infinity
  else if x.isInf then
    if x < 0 then zeroPower (1 / x) (-y)
    else if y < 0 then 0
    else infinity
  else if y == 0.5 then x.sqrt
  else if y == -0.5 then 1 / x.sqrt
  else finitePower x y

/-! ## The gamma function -/

/-- The value of a polynomial, given by its coefficients from the highest power down. -/
def polynomial (coefficients : List Float) (x : Float) : Float :=
  match coefficients with
  | [] => 0
  | first :: rest => rest.foldl (fun acc coefficient => acc * x + coefficient) first

/-- Numerator of the approximation of gamma between two and three. -/
def gammaNumerator : List Float :=
  [1.60119522476751861407e-04, 1.19135147006586384913e-03, 1.04213797561761569935e-02,
    4.76367800457137231464e-02, 2.07448227648435975150e-01, 4.94214826801497100753e-01,
    9.99999999999999996796e-01]

/-- Denominator of the approximation of gamma between two and three. -/
def gammaDenominator : List Float :=
  [-2.31581873324120129819e-05, 5.39605580493303397842e-04, -4.45641913851797240494e-03,
    1.18139785222060435552e-02, 3.58236398605498653373e-02, -2.34591795718243348568e-01,
    7.14304917030273074085e-02, 1.00000000000000000320e+00]

/-- Correction of Stirling's formula. -/
def stirlingCorrection : List Float :=
  [7.87311395793093628397e-04, -2.29549961613378126380e-04, -2.68132617805781232825e-03,
    3.47222221605458667310e-03, 8.33333333333482257126e-02]

/-- Two factors whose product is gamma of a large number, by Stirling's formula. -/
def stirling (x : Float) : Float × Float :=
  if 200 < x then (infinity, 1)
  else
    let inverse := 1 / x
    let correction := 1 + inverse * polynomial stirlingCorrection inverse
    let scale := 2.506628274631000502417 * correction
    if 143.01608 < x then
      let half := power x (0.5 * x - 0.25)
      (half, scale * (half / x.exp))
    else (power x (x - 0.5) / x.exp, scale)

/-- The constant of Euler and Mascheroni. -/
def eulerMascheroni : Float := 0.57721566490153286060651209008240243104215933593992

/-- Gamma near zero, times a factor. -/
def gammaSmall (x factor : Float) : Float :=
  if x == 0 then infinity else factor / ((1 + eulerMascheroni * x) * x)

/-- Shift a number down to below three, collecting the factors. -/
def gammaDown : Nat → Float → Float → Float × Float
  | 0, x, factor => (x, factor)
  | bound + 1, x, factor =>
      if 3 ≤ x then gammaDown bound (x - 1) (factor * (x - 1)) else (x, factor)

/-- Shift a number up to at least two, collecting the factors, and finish. -/
def gammaUp : Nat → Float → Float → Float
  | 0, _, factor => factor
  | bound + 1, x, factor =>
      if x < 0 then
        if -1e-09 < x then gammaSmall x factor else gammaUp bound (x + 1) (factor / x)
      else if x < 2 then
        if x < 1e-09 then gammaSmall x factor else gammaUp bound (x + 1) (factor / x)
      else if x == 2 then factor
      else
        factor * polynomial gammaNumerator (x - 2) / polynomial gammaDenominator (x - 2)

/-- Gamma of a large negative number that is not whole, by reflection. -/
def gammaReflected (size : Float) : Float :=
  let whole := size.floor
  let sign : Float := if ((Decimal.toInt? whole).getD 0) % 2 = 0 then -1 else 1
  let part := if 0.5 < size - whole then size - (whole + 1) else size - whole
  let product := size * (pi * part).sin
  if product == 0 then sign * infinity
  else
    let (left, right) := stirling size
    let denominator := product.abs * left * right
    let quotient :=
      if denominator.isInf then pi / product.abs / left / right else pi / denominator
    sign * quotient

/-- The gamma function. -/
def gamma (x : Float) : Float :=
  if x.isNaN || (x < 0 && isWhole x) then undefined
  else if x.isInf then infinity
  else if x == 0 then (if isNegative x then -infinity else infinity)
  else if 33 < x.abs then
    if 0 ≤ x then
      let (left, right) := stirling x
      left * right
    else gammaReflected x.abs
  else
    let (shifted, factor) := gammaDown 40 x 1
    gammaUp 40 shifted factor

/-- The product of the whole numbers from `next` to `last`, times `acc`. The first argument bounds
their number. -/
def productUpTo : Nat → Float → Float → Float → Float
  | 0, _, _, acc => acc
  | bound + 1, next, last, acc =>
      if next ≤ last then productUpTo bound (next + 1) last (acc * next) else acc

/-- The factorial: a product for whole numbers up to 170, and the gamma function beyond them. -/
def factorial (x : Float) : Float :=
  if x < 0 && isWhole x then undefined
  else if isWhole x && x ≤ 170 then productUpTo 170 2 x 1
  else gamma (x + 1)

end Reckon.Numeric
