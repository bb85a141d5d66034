import Reckon.Decimal.Reader
import Reckon.Locale.NumberFormat
import Reckon.Operator.Arithmetic
import Reckon.Text.Letter
import Reckon.Text.CaseMap

/-!
# Text and numbers

Texts as numbers, numbers as text, upper and lower case, and joining values of one kind.
-/

namespace Reckon.Library

/-- The number a text stands for: a decimal or hexadecimal fraction, or a whole number with the mark
of its base. A text that stands for no number gives the undefined one. -/
def readNumber (text : String) : Float :=
  let text := Text.trim text
  match Decimal.readFloat text, Decimal.readInteger text with
  | .ok x, _ => x
  | .error _, .ok n => Decimal.ofInt n
  | .error _, .error _ => Decimal.ofBits false Decimal.nanBits

/-- A value as a number. -/
def toNumber : Value → Value
  | .number n => .number n
  | .boolean truth => .real (Value.ofTruth truth)
  | .string text => .real (readNumber text)
  | _ => .real (Decimal.ofBits false Decimal.nanBits)

/-- A function on texts, extended to maps of texts. -/
def onTexts (f : String → String) (value : Value) : FollowM Value :=
  lift
    (fun
      | .string text => .string (f text)
      | _ => .null)
    value

/-- Two values of one kind joined: a string with a scalar, matrices with as many rows side by side,
arrays one after the other, and maps with the entries of the right one winning. -/
def joinPair (left right : Value) : StoreM Value := do
  match left, right with
  | .string text, right =>
      if right.isScalar then return .string (text ++ (← get).textOf right) else return .null
  | .matrix a, .matrix b => return Matrix.orNull (a.beside? b)
  | .map a, .map b =>
      let x ← StoreM.record a
      let y ← StoreM.record b
      if x.isArray && y.isArray then StoreM.newArray (x.values ++ y.values)
      else StoreM.newMap (x.union y)
  | _, _ => return .null

/-- Several values joined from the left. -/
def join : List Value → StoreM Value
  | [] => return .null
  | first :: rest => rest.foldlM joinPair first

/-- A number in the style of a locale. Only strings name locales, and a bad name is a fault. -/
def formatNumber (locale value : Value) : Except HostFault Value :=
  match locale with
  | .string name =>
      match Locale.Tag.parse name with
      | .error error =>
          .error { contexts := ["formatNumber: locale " ++ Text.quote name], root := error.message }
      | .ok tag =>
          match value.asReal? with
          | some x => .ok (.string ((Locale.NumberStyle.ofTag tag).format x))
          | none => .ok .null
  | _ => .ok .null

end Reckon.Library
