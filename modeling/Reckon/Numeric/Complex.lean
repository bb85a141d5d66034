import Reckon.Numeric.Real

/-!
# Complex numbers

Complex arithmetic on pairs of doubles. Division scales by the larger part of the divisor, and
recovers infinities and zeros that scaling turned into undefined parts.
-/

namespace Reckon

/-- A complex number. -/
structure Complex where
  /-- The real part. -/
  re : Float
  /-- The imaginary part. -/
  im : Float
deriving Inhabited

namespace Complex

open Numeric (infinity undefined copySign pi power)

/-- A real number as a complex one. -/
def ofReal (x : Float) : Complex := ⟨x, 0⟩

/-- The imaginary unit. -/
def unit : Complex := ⟨0, 1⟩

/-- Whether two complex numbers have equal parts. -/
def isEqual (x y : Complex) : Bool :=
  x.re == y.re && x.im == y.im

/-- Whether both parts are zero. -/
def isZero (x : Complex) : Bool :=
  x.re == 0 && x.im == 0

/-- The sum. -/
def add (x y : Complex) : Complex := ⟨x.re + y.re, x.im + y.im⟩

/-- The difference. -/
def sub (x y : Complex) : Complex := ⟨x.re - y.re, x.im - y.im⟩

/-- The product. -/
def mul (x y : Complex) : Complex :=
  ⟨x.re * y.re - x.im * y.im, x.re * y.im + x.im * y.re⟩

/-- The opposite. -/
def neg (x : Complex) : Complex := ⟨-x.re, -x.im⟩

/-- The conjugate. -/
def conj (x : Complex) : Complex := ⟨x.re, -x.im⟩

/-- Whether a part is infinite. -/
def isInfinite (x : Complex) : Bool := x.re.isInf || x.im.isInf

/-- Whether both parts are finite. -/
def isFinite (x : Complex) : Bool := x.re.isFinite && x.im.isFinite

/-- One with the sign of `x` if `x` is infinite, and zero with that sign otherwise. -/
def infinityToOne (x : Float) : Float :=
  copySign (if x.isInf then 1 else 0) x

/-- The quotient. -/
def div (n m : Complex) : Complex :=
  let plain : Complex :=
    if m.im.abs ≤ m.re.abs then
      let ratio := m.im / m.re
      let denominator := m.re + ratio * m.im
      ⟨(n.re + n.im * ratio) / denominator, (n.im - n.re * ratio) / denominator⟩
    else
      let ratio := m.re / m.im
      let denominator := m.im + ratio * m.re
      ⟨(n.re * ratio + n.im) / denominator, (n.im * ratio - n.re) / denominator⟩
  if plain.re.isNaN && plain.im.isNaN then
    let a := n.re
    let b := n.im
    let c := m.re
    let d := m.im
    if m.isZero && !(a.isNaN && b.isNaN) then
      ⟨copySign infinity c * a, copySign infinity c * b⟩
    else if n.isInfinite && m.isFinite then
      let a := infinityToOne a
      let b := infinityToOne b
      ⟨infinity * (a * c + b * d), infinity * (b * c - a * d)⟩
    else if m.isInfinite && n.isFinite then
      let c := infinityToOne c
      let d := infinityToOne d
      ⟨0 * (a * c + b * d), 0 * (b * c - a * d)⟩
    else plain
  else plain

/-- The length of the hypotenuse, without needless overflow. -/
def hypotenuse (p q : Float) : Float :=
  if p.isInf || q.isInf then infinity
  else if p.isNaN || q.isNaN then undefined
  else
    let (large, small) := if p.abs < q.abs then (q.abs, p.abs) else (p.abs, q.abs)
    if large == 0 then 0
    else
      let ratio := small / large
      large * (1 + ratio * ratio).sqrt

/-- The absolute value. -/
def abs (x : Complex) : Float := hypotenuse x.re x.im

/-- The angle from the positive real axis. -/
def phase (x : Complex) : Float := Float.atan2 x.im x.re

/-- The natural logarithm. -/
def log (x : Complex) : Complex := ⟨x.abs.log, x.phase⟩

/-- The exponential. -/
def exp (x : Complex) : Complex :=
  let plain : Complex := ⟨x.re.exp * x.im.cos, x.re.exp * x.im.sin⟩
  if x.re.isInf then
    if 0 < x.re && x.im == 0 then x
    else if x.im.isInf || x.im.isNaN then
      if x.re < 0 then ⟨0, copySign 0 x.im⟩ else ⟨infinity, undefined⟩
    else plain
  else if x.re.isNaN && x.im == 0 then ⟨undefined, x.im⟩
  else plain

/-- The square root on the right half plane. -/
def sqrt (x : Complex) : Complex :=
  if x.im == 0 then
    if x.re == 0 then ⟨0, x.im⟩
    else if x.re < 0 then ⟨0, copySign (-x.re).sqrt x.im⟩
    else ⟨x.re.sqrt, x.im⟩
  else if x.im.isInf then ⟨infinity, x.im⟩
  else if x.re == 0 then
    if x.im < 0 then
      let root := (-0.5 * x.im).sqrt
      ⟨root, -root⟩
    else
      let root := (0.5 * x.im).sqrt
      ⟨root, root⟩
  else
    let (factor, scale) : Float × Float :=
      if 4 < x.re.abs || 4 < x.im.abs then (0.25, 2)
      else (18014398509481984, 7.450580596923828125e-9)
    let a := x.re * factor
    let b := x.im * factor
    let r := hypotenuse a b
    let (t, r) :=
      if 0 < a then
        let t := (0.5 * r + 0.5 * a).sqrt
        (t * scale, scale * ((0.5 * b) / t).abs)
      else
        let r := (0.5 * r - 0.5 * a).sqrt
        (scale * ((0.5 * b) / r).abs, r * scale)
    if b < 0 then ⟨t, -r⟩ else ⟨t, r⟩

/-- The hyperbolic sine and cosine. -/
def sinhCosh (x : Float) : Float × Float :=
  if x.abs ≤ 0.5 then (x.sinh, x.cosh)
  else
    let e := x.exp
    (e * 0.5 - 0.5 / e, e * 0.5 + 0.5 / e)

/-- The sine. -/
def sin (x : Complex) : Complex :=
  let (sh, ch) := sinhCosh x.im
  let plain : Complex := ⟨x.re.sin * ch, x.re.cos * sh⟩
  if x.im == 0 && (x.re.isInf || x.re.isNaN) then ⟨undefined, x.im⟩
  else if x.im.isInf then
    if x.re == 0 then x
    else if x.re.isInf || x.re.isNaN then ⟨undefined, x.im⟩
    else plain
  else if x.re == 0 && x.im.isNaN then x
  else plain

/-- The cosine. -/
def cos (x : Complex) : Complex :=
  let (sh, ch) := sinhCosh x.im
  let plain : Complex := ⟨x.re.cos * ch, -x.re.sin * sh⟩
  if x.im == 0 && (x.re.isInf || x.re.isNaN) then ⟨undefined, -x.im * copySign 0 x.re⟩
  else if x.im.isInf then
    if x.re == 0 then ⟨infinity, -x.re * copySign 0 x.im⟩
    else if x.re.isInf || x.re.isNaN then ⟨infinity, undefined⟩
    else plain
  else if x.re == 0 && x.im.isNaN then ⟨undefined, 0⟩
  else plain

/-- The binary digits of the fraction of one over pi, 64 to a word. -/
def inversePiWords : List Nat :=
  [0x517cc1b727220a94, 0xfe13abe8fa9a6ee0, 0x6db14acc9e21c820, 0xff28b1d5ef5de2b0,
    0xdb92371d2126e970, 0x0324977504e8c90e, 0x7f0ef58e5894d39f, 0x74411afa975da242,
    0x74ce38135a2fbf20, 0x9cc8eb1cc1a99cfa, 0x4e422fc5defc941d, 0x8ffc4bffef02cc07,
    0xf79788c5ad05368f, 0xb69b3f6793e584db, 0xa7a31fb34f2ff516, 0xba93dd63f5f2f8bd,
    0x9e839cfbc5294975, 0x35fdafd88fc6ae84, 0x2b0198237e3db5d5]

/-- The first 1216 binary digits of the fraction of one over pi. -/
def inversePiDigits : Nat :=
  inversePiWords.foldl (fun digits word => digits * Nat.pow 2 64 + word) 0

/-- The fraction of `mantissa * 2 ^ exponent` divided by pi, in units of `2 ^ -128`. Of the digits of
one over pi only those count that reach into the fraction, and 192 of them are enough. -/
def fractionOfPi (mantissa : Nat) (exponent : Int) : Nat :=
  let digits := inversePiDigits / Nat.pow 2 (1024 - exponent).toNat % Nat.pow 2 192
  mantissa * digits % Nat.pow 2 192 / Nat.pow 2 64

/-- The first 53 binary digits of a number of units of `2 ^ -128`, as a double. -/
def ofUnits (units : Nat) : Float :=
  let excess := units.log2 - 52
  Decimal.nearest false (units / Nat.pow 2 excess * Nat.pow 2 excess) (Nat.pow 2 128)

/-- The distance of a number to the nearest multiple of pi, with its sign. For numbers of ordinary
size the multiple is subtracted in three steps, of which the first two are exact. -/
def reducePi (x : Float) : Float :=
  if x < 1073741824 then
    let t := Numeric.truncate (x / pi + 0.5)
    ((x - t * 3.141592502593994) - t * 1.5099578831723193e-07) - t * 1.0780605716316238e-14
  else
    match Decimal.Binary.ofFloat? x with
    | none => undefined
    | some binary =>
        let fraction := ofUnits (fractionOfPi binary.mantissa binary.exponent)
        pi * (if 0.5 < fraction then fraction - 1 else fraction)

/-- The terms of the series of `cosh y - cos x`, given the squares of `x` and `y`, up to a term that
no longer matters. -/
def tanSeriesFrom (x y : Float) : Nat → Float → Float → Float → Float → Float → Float
  | 0, _, _, _, _, sum => sum
  | bound + 1, x2, y2, f, n, sum =>
      let f := f * (n + 1) * (n + 2)
      let x2 := x2 * x
      let y2 := y2 * y
      let sum := sum + (y2 + x2) / f
      let f := f * (n + 3) * (n + 4)
      let x2 := x2 * x
      let y2 := y2 * y
      let term := (y2 - x2) / f
      let sum := sum + term
      if 1.1102230246251565e-16 < (term / sum).abs then
        tanSeriesFrom x y bound x2 y2 f (n + 4) sum
      else sum

/-- The denominator of the tangent near its poles. -/
def tanSeries (z : Complex) : Float :=
  let x := reducePi (2 * z.re).abs
  let y := (2 * z.im).abs
  tanSeriesFrom (x * x) (y * y) 1000 1 1 1 0 0

/-- The tangent. -/
def tan (x : Complex) : Complex :=
  if x.im.isInf then
    if x.re.isInf || x.re.isNaN then ⟨copySign 0 x.re, copySign 1 x.im⟩
    else ⟨copySign 0 (2 * x.re).sin, copySign 1 x.im⟩
  else if x.re == 0 && x.im.isNaN then x
  else
    let d := (2 * x.re).cos + (2 * x.im).cosh
    let d := if d.abs < 0.25 then tanSeries x else d
    if d == 0 then ⟨infinity, infinity⟩
    else ⟨(2 * x.re).sin / d, (2 * x.im).sinh / d⟩

/-- The power. -/
def pow (x y : Complex) : Complex :=
  if x.isZero then
    if y.re < 0 then
      if y.im == 0 then ⟨infinity, 0⟩ else ⟨infinity, infinity⟩
    else if 0 < y.re then ⟨0, 0⟩
    else ⟨1, 0⟩
  else
    let modulus := x.abs
    let angle := x.phase
    let r := power modulus y.re
    let theta := y.re * angle
    let (r, theta) :=
      if y.im != 0 then (r * (-y.im * angle).exp, theta + y.im * modulus.log) else (r, theta)
    ⟨r * theta.cos, r * theta.sin⟩

end Complex

end Reckon
