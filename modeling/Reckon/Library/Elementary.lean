import Reckon.Operator.Arithmetic

/-!
# Elementary functions

Functions of one number. Each is given on reals and perhaps on complex numbers; truth values count
as numbers, and matrices and maps are taken entry by entry.
-/

namespace Reckon.Library

/-- A function of one number. -/
structure Elementary where
  /-- On reals. -/
  onReal : Float → Value
  /-- On complex numbers; null where it is not defined. -/
  onComplex : Complex → Value := fun _ => .null

namespace Elementary

/-- The function on a value that is no collection. -/
def onScalar (f : Elementary) : Value → Value
  | .number (.real x) => f.onReal x
  | .number (.complex z) => f.onComplex z
  | .boolean truth => f.onReal (Value.ofTruth truth)
  | _ => .null

/-- The function on any value. -/
def apply (f : Elementary) (value : Value) : FollowM Value :=
  lift f.onScalar value

/-- The square root; that of a negative real is complex. -/
def sqrt : Elementary where
  onReal x := if x < 0 then .complex (Complex.ofReal x).sqrt else .real x.sqrt
  onComplex z := .complex z.sqrt

/-- The absolute value. -/
def abs : Elementary where
  onReal x := .real x.abs
  onComplex z := .real z.abs

/-- The exponential. -/
def exp : Elementary where
  onReal x := .real x.exp
  onComplex z := .complex z.exp

/-- The natural logarithm; that of a negative real is complex. -/
def log : Elementary where
  onReal x := if x < 0 then .complex (Complex.ofReal x).log else .real x.log
  onComplex z := .complex z.log

/-- The sine. -/
def sin : Elementary where
  onReal x := .real x.sin
  onComplex z := .complex z.sin

/-- The cosine. -/
def cos : Elementary where
  onReal x := .real x.cos
  onComplex z := .complex z.cos

/-- The tangent. -/
def tan : Elementary where
  onReal x := .real x.tan
  onComplex z := .complex z.tan

/-- The greatest whole number below. -/
def floor : Elementary where
  onReal x := .real x.floor

/-- The least whole number above. -/
def ceil : Elementary where
  onReal x := .real x.ceil

/-- The nearest whole number; a half goes away from zero. -/
def round : Elementary where
  onReal x := .real x.round

/-- The real part. -/
def re : Elementary where
  onReal x := .real x
  onComplex z := .real z.re

/-- The imaginary part. -/
def im : Elementary where
  onReal _ := .real 0
  onComplex z := .real z.im

/-- The conjugate. -/
def conj : Elementary where
  onReal x := .real x
  onComplex z := .complex z.conj

/-- The angle from the positive real axis. -/
def arg : Elementary where
  onReal x := .real (if x < 0 then Numeric.pi else 0)
  onComplex z := .real z.phase

end Elementary

end Reckon.Library
