import Reckon.Decimal.Binary
import Reckon.Locale.NumberMarks

/-!
# Numbers in the style of a language

A number is written with few digits after the decimal mark, its whole part in groups. The marks, the
digits and the sizes of the groups depend on the variety of the language, and a language tag can ask
for the digits of another numbering system or for the customs of another region.
-/

namespace Reckon.Locale

/-- How numbers are written. -/
structure NumberStyle where
  /-- The marks. -/
  marks : NumberMarks := {}
  /-- What is written for what is no number. -/
  notNumber : String := "NaN"
  /-- The digits. -/
  system : NumberingSystem := .latin
  /-- The size of every group but the last, which has three digits; without one there are no
  groups. -/
  outerGroup : Option Nat := some 3
  /-- The greatest number of digits after the decimal mark. -/
  fraction : Nat := 3
deriving DecidableEq, Repr

namespace NumberStyle

/-! ## The style of a tag -/

/-- Varieties that have groups of two digits before the last group. -/
def pairGrouping : List String :=
  ["as", "bn", "brx", "ccp", "dz", "en-IN", "gu", "hi", "kok", "ks", "ml", "mr", "or", "pa", "ta",
    "te"]

/-- Varieties that have groups of three digits although the next broader one has pairs. -/
def backToTripleGrouping : List String :=
  ["ta-MY", "ta-SG"]

/-- The size of every group but the last, for a lineage. -/
def groupSize : List String → Nat
  | [] => 3
  | name :: broader =>
      if backToTripleGrouping.contains name then 3
      else if pairGrouping.contains name then 2
      else groupSize broader

/-- The region whose customs a tag asks for, if it is not its own: the keyword has the name of the
region and four letters `z`. -/
def regionAskedFor? (tag : Tag) : Option String := do
  let value ← tag.keyword? "rg"
  let name := upperCase (String.ofList (value.toList.take 2))
  if value.toList.drop 2 == "zzzz".toList && isWord name then Register.shortRegion? name else none

/-- The variety whose customs a tag asks for. -/
def varietyOf (tag : Tag) : Variety :=
  match regionAskedFor? tag with
  | some region => { tag.toVariety with region := some region }
  | none => tag.toVariety

/-- Whether a tag asks for the plain customs of computers, which are known in one variety only. -/
def isPlain (tag : Tag) : Bool :=
  tag.variants.isEmpty && tag.keyword? "va" == some "posix" &&
    varietyOf tag == { language := "en", region := some "US" }

/-- The names under which the customs of a tag are found, from near to far. -/
def customs (tag : Tag) : List String :=
  let names := (varietyOf tag).lineage.map Variety.name
  if isPlain tag then "en-US-posix" :: names else names

/-- The style of a tag. A numbering system that is not known is not asked for. -/
def ofTag (tag : Tag) : NumberStyle :=
  let customs := customs tag
  let asked := (tag.keyword? "nu").bind NumberingSystem.ofName?
  let usual := (NumberingSystem.ofName? (NumberMarks.usualSystem customs)).getD .latin
  let system := asked.getD usual
  { marks := NumberMarks.among system.name customs
    notNumber := NumberMarks.notNumber customs
    system
    outerGroup := if isPlain tag then none else some (groupSize customs)
    fraction := if isPlain tag then 6 else 3 }

/-! ## Writing -/

/-- Digits in groups of `size`. The second argument bounds the number of groups. -/
def groupsOf (size : Nat) : Nat → List Char → List (List Char)
  | 0, _ => []
  | bound + 1, digits =>
      if digits.isEmpty then [] else digits.take size :: groupsOf size bound (digits.drop size)

/-- The groups of the digits of a whole number, from left to right. -/
def groups (style : NumberStyle) (digits : List Char) : List (List Char) :=
  match style.outerGroup with
  | none => [digits]
  | some size =>
      let backwards := digits.reverse
      let found := backwards.take 3 :: groupsOf size digits.length (backwards.drop 3)
      (found.map List.reverse).reverse

/-- Common digits as digits of the style. -/
def digitsText (style : NumberStyle) (digits : List Char) : String :=
  String.ofList (digits.map style.system.digit)

/-- The whole part with marks between groups. -/
def wholeText (style : NumberStyle) (digits : List Char) : String :=
  style.marks.group.intercalate ((style.groups digits).map style.digitsText)

/-- The digits after the decimal mark, of a number of parts that is less than one whole, without the
zeros at the end. -/
def fractionDigits (style : NumberStyle) (parts : Nat) : List Char :=
  let padded := (toString (Nat.pow 10 style.fraction + parts)).toList.drop 1
  (padded.reverse.dropWhile (· == '0')).reverse

/-- A number as text, without a sign. It is given by the number of the smallest parts written. -/
def magnitudeText (style : NumberStyle) (parts : Nat) : String :=
  let unit := Nat.pow 10 style.fraction
  let whole := style.wholeText (toString (parts / unit)).toList
  let fraction := style.fractionDigits (parts % unit)
  if fraction.isEmpty then whole else whole ++ style.marks.decimal ++ style.digitsText fraction

/-- The number of smallest parts nearest to `mantissa * 2 ^ exponent`; a half goes to the even one. -/
def nearestParts (style : NumberStyle) (mantissa : Nat) (exponent : Int) : Nat :=
  let (numerator, denominator) :=
    Decimal.scaled (mantissa * Nat.pow 10 style.fraction) 1 (-exponent)
  Decimal.roundDiv numerator denominator

/-- A number as text. Numbers below zero keep their sign even if they round to zero. -/
def format (style : NumberStyle) (x : Float) : String :=
  let sign := if x < 0 then style.marks.minus else ""
  match Decimal.Binary.ofFloat? x with
  | some binary =>
      sign ++ style.magnitudeText (style.nearestParts binary.mantissa binary.exponent)
  | none => if x.isNaN then style.notNumber else sign ++ style.marks.infinity

end NumberStyle

end Reckon.Locale
