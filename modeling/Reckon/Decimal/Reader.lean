import Reckon.Decimal.Binary
import Reckon.Text.Letter

/-!
# Reading numbers

Numbers are read in two grammars. `readFloat` takes decimals with an optional fraction and
exponent, hexadecimal numbers with a binary exponent, and the names of infinity and of the
undefined number. `readInteger` takes whole numbers, with an optional base mark. Both take
underscores between digits. What is read is rounded to the nearest double.
-/

namespace Reckon.Decimal

open Text (isDigit isHexDigit hexValue)

/-- Why a text is no number. -/
inductive ReadError where
  /-- The text is no number at all. -/
  | malformed
  /-- The number is too large. -/
  | outOfRange
deriving DecidableEq, Repr

/-- An ASCII letter in lower case; any other character is kept. -/
def lowerAscii (c : Char) : Char :=
  if 'A' ≤ c && c ≤ 'Z' then Char.ofNat (c.toNat + 32) else c

/-- A leading sign, and what follows it. -/
def splitSign : List Char → Bool × List Char
  | '-' :: rest => (true, rest)
  | '+' :: rest => (false, rest)
  | chars => (false, chars)

/-! ## Underscores -/

/-- What stands just before an underscore, as far as it matters. -/
inductive Neighbour where
  | start
  | digit
  | underscore
  | other
deriving DecidableEq, Repr

/-- Whether every underscore stands between two digits; a base mark counts as a digit. -/
def underscoresFit (hex : Bool) : Neighbour → List Char → Bool
  | seen, [] => seen != .underscore
  | seen, c :: rest =>
      if isDigit c || (hex && isHexDigit c) then underscoresFit hex .digit rest
      else if c == '_' then seen == .digit && underscoresFit hex .underscore rest
      else seen != .underscore && underscoresFit hex .other rest

/-- Whether the underscores of an unsigned number stand where they may. -/
def underscoresOk (chars : List Char) : Bool :=
  match chars with
  | '0' :: mark :: rest =>
      let mark := lowerAscii mark
      if mark == 'b' || mark == 'o' || mark == 'x' then underscoresFit (mark == 'x') .digit rest
      else underscoresFit false .start chars
  | _ => underscoresFit false .start chars

/-- Whether a number either has no underscores or has them only where they may stand. -/
def underscoresAllowed (chars : List Char) : Bool :=
  !chars.contains '_' || underscoresOk chars

/-! ## Floating-point numbers -/

/-- The value of a list of digits in a base; underscores do not count. -/
def digitsValue (base : Nat) (digits : List Char) : Nat :=
  digits.foldl (fun value c => if c == '_' then value else value * base + hexValue c) 0

/-- The number of digits, underscores left out. -/
def digitsCount (digits : List Char) : Nat :=
  (digits.filter (· != '_')).length

/-- An exponent larger than any that matters. -/
def exponentBound : Nat := 10000

/-- The significand and the exponent of a number as they are written. -/
structure Written where
  /-- The digits before the point. -/
  whole : List Char
  /-- The digits after the point. -/
  fraction : List Char
  /-- The written exponent, zero if there is none, kept within bounds. -/
  exponent : Int

/-- Read an exponent after its mark. It has at least one digit and takes the rest of the text. -/
def readExponent (chars : List Char) : Option Int :=
  let (negative, digits) := splitSign chars
  match digits with
  | [] => none
  | first :: _ =>
      if isDigit first && digits.all (fun c => isDigit c || c == '_') then
        let size := min exponentBound (digitsValue 10 digits)
        some (if negative then -(size : Int) else size)
      else none

/-- Read digits, a point and an exponent with the given mark. The exponent is required when
`needExponent` is set. -/
def readWritten (isBaseDigit : Char → Bool) (mark : Char) (needExponent : Bool)
    (chars : List Char) : Option Written :=
  let isPart (c : Char) : Bool := isBaseDigit c || c == '_'
  let whole := chars.takeWhile isPart
  let afterWhole := chars.dropWhile isPart
  let (fraction, rest) :=
    match afterWhole with
    | '.' :: tail => (tail.takeWhile isPart, tail.dropWhile isPart)
    | _ => ([], afterWhole)
  if digitsCount whole + digitsCount fraction = 0 then none
  else
    match rest with
    | [] => if needExponent then none else some ⟨whole, fraction, 0⟩
    | c :: tail =>
        if lowerAscii c == mark then
          (readExponent tail).map fun exponent => ⟨whole, fraction, exponent⟩
        else none

/-- The greatest number of decimal digits before the point of a double. -/
def pointBound : Int := 310

/-- The bit pattern of the double nearest to `significand * 10 ^ exponent`. Numbers far outside the
range of doubles are settled by the place of their point alone. -/
def decimalBits (significand : Nat) (exponent : Int) : Nat :=
  let point := exponent + (Nat.toDigits 10 significand).length
  if significand = 0 then 0
  else if pointBound < point then infinityBits
  else if point < -(pointBound + 20) then 0
  else if 0 ≤ exponent then nearestBits (significand * Nat.pow 10 exponent.toNat) 1
  else nearestBits significand (Nat.pow 10 (-exponent).toNat)

/-- The bit pattern of the double nearest to `significand * 2 ^ exponent`. -/
def binaryBits (significand : Nat) (exponent : Int) : Nat :=
  if significand = 0 then 0
  else if 1100 < exponent + Nat.log2 significand then infinityBits
  else if exponent + Nat.log2 significand < -1100 then 0
  else if 0 ≤ exponent then nearestBits (significand * Nat.pow 2 exponent.toNat) 1
  else nearestBits significand (Nat.pow 2 (-exponent).toNat)

/-- The bit pattern of an unsigned number in decimal or hexadecimal notation. -/
def readUnsignedBits (chars : List Char) : Option Nat :=
  let decimal : Option Nat :=
    (readWritten isDigit 'e' false chars).map fun written =>
      decimalBits (digitsValue 10 (written.whole ++ written.fraction))
        (written.exponent - digitsCount written.fraction)
  match chars with
  | '0' :: mark :: rest =>
      if (mark == 'x' || mark == 'X') && !rest.isEmpty then
        (readWritten isHexDigit 'p' true rest).map fun written =>
          binaryBits (digitsValue 16 (written.whole ++ written.fraction))
            (written.exponent - 4 * digitsCount written.fraction)
      else decimal
  | _ => decimal

/-- The bit pattern of the undefined number. -/
def nanBits : Nat := 0x7FF8000000000001

/-- Read a floating-point number. -/
def readFloat (text : String) : Except ReadError Float :=
  let chars := text.toList
  let (negative, unsigned) := splitSign chars
  let word := unsigned.map lowerAscii
  if chars.map lowerAscii == "nan".toList then .ok (ofBits false nanBits)
  else if word == "inf".toList || word == "infinity".toList then .ok (ofBits negative infinityBits)
  else if !underscoresAllowed unsigned then .error .malformed
  else
    match readUnsignedBits unsigned with
    | none => .error .malformed
    | some bits => if bits < infinityBits then .ok (ofBits negative bits) else .error .outOfRange

/-! ## Whole numbers -/

/-- Split off the base mark of an unsigned whole number. A leading zero alone marks base eight. -/
def splitBase (chars : List Char) : Nat × List Char :=
  match chars with
  | '0' :: mark :: first :: rest =>
      let mark := lowerAscii mark
      if mark == 'b' then (2, first :: rest)
      else if mark == 'o' then (8, first :: rest)
      else if mark == 'x' then (16, first :: rest)
      else (8, chars.drop 1)
  | '0' :: rest => (8, rest)
  | _ => (10, chars)

/-- The digit a character stands for in a base, if it stands for one. -/
def digitIn? (base : Nat) (c : Char) : Option Nat :=
  if isHexDigit c && hexValue c < base then some (hexValue c) else none

/-- Read a whole number that fits in 64 bits with a sign. -/
def readInteger (text : String) : Except ReadError Int :=
  let (negative, unsigned) := splitSign text.toList
  let (base, digits) := splitBase unsigned
  if unsigned.isEmpty || !underscoresAllowed unsigned ||
      !digits.all (fun c => c == '_' || (digitIn? base c).isSome) then
    .error .malformed
  else
    let size := digitsValue base digits
    if negative then
      if size ≤ Nat.pow 2 63 then .ok (-(size : Int)) else .error .outOfRange
    else if size < Nat.pow 2 63 then .ok size
    else .error .outOfRange

/-- The number a literal of the language stands for: a hexadecimal whole number after `0x`, a
decimal otherwise. A decimal that is too large is infinite. -/
def readLiteral (lit : String) : Option Float :=
  match lit.toList with
  | '0' :: mark :: _ =>
      if mark == 'x' || mark == 'X' then
        match readInteger lit with
        | .ok n => some (ofInt n)
        | .error _ => none
      else readDecimal lit
  | _ => readDecimal lit
where
  /-- The number a decimal literal stands for. -/
  readDecimal (lit : String) : Option Float :=
    match readFloat lit with
    | .ok x => some x
    | .error .outOfRange => some (ofBits false infinityBits)
    | .error .malformed => none

end Reckon.Decimal
