import Reckon.Decimal.Notation
import Reckon.Text.Quoted
import Reckon.Yaml.Schema

/-!
# What nodes stand for

The data of a document: nothing, truth values, numbers, points in time, texts, lists and
dictionaries. A dictionary whose keys are not all texts is kept apart. Data can be written as
literals that show their types.
-/

namespace Reckon.Yaml

/-- What a node stands for. -/
inductive Datum where
  /-- Nothing. -/
  | null
  /-- A truth value. -/
  | boolean (value : Bool)
  /-- A whole number. -/
  | integer (value : Int)
  /-- A decimal fraction. -/
  | float (value : Float)
  /-- A point in time. -/
  | timestamp (value : Timestamp)
  /-- A text. -/
  | text (value : String)
  /-- A list. -/
  | list (items : List Datum)
  /-- A dictionary from texts. -/
  | dictionary (entries : List (String × Datum))
  /-- A dictionary with other keys. -/
  | table (entries : List (Datum × Datum))
deriving Inhabited

namespace Datum

/-- What a scalar with a tag stands for. -/
def ofScalar (tag text : String) : Except Problem Datum :=
  if tag == binaryTag then Datum.text <$> binaryText text
  else
    match resolveTagged tag text with
    | .error problem => .error problem
    | .ok .null => .ok .null
    | .ok (.boolean truth) => .ok (.boolean truth)
    | .ok (.integer n) => .ok (.integer n)
    | .ok (.float x) => .ok (.float x)
    | .ok (.timestamp time) => .ok (.timestamp time)
    | .ok .text => .ok (.text text)

/-- Whether a datum consists of others. Such a datum is no key. -/
def isComposite : Datum → Bool
  | list _ | dictionary _ | table _ => true
  | _ => false

/-- Whether two data are the same key. -/
def sameKey : Datum → Datum → Bool
  | null, null => true
  | boolean x, boolean y => x == y
  | integer x, integer y => x == y
  | float x, float y => x == y
  | timestamp x, timestamp y => x == y
  | text x, text y => x == y
  | _, _ => false

/-! ## Literals -/

/-- The names of the months. -/
def monthNames : List String :=
  ["January", "February", "March", "April", "May", "June", "July", "August", "September", "October",
    "November", "December"]

/-- The literal of a point in time. -/
def timestampLiteral (time : Timestamp) : String :=
  let nanoseconds := Decimal.digitsValue 10 ((time.fraction ++ List.replicate 9 '0').take 9)
  let zone := if time.offset.getD 0 = 0 then "time.UTC" else "time.Location(\"\")"
  let clock := [time.day, time.hour, time.minute, time.second, nanoseconds]
  "time.Date(" ++ toString time.year ++ ", time." ++ monthNames.getD (time.month - 1) "" ++ ", " ++
    ", ".intercalate (clock.map toString) ++ ", " ++ zone ++ ")"

/-- The literal of a decimal fraction. -/
def floatLiteral (x : Float) : String :=
  match Decimal.Binary.ofFloat? x with
  | none => if x.isNaN then "NaN" else if x < 0 then "-Inf" else "+Inf"
  | some ⟨negative, 0, _⟩ => if negative then "-0" else "0"
  | some ⟨negative, mantissa, exponent⟩ =>
      (if negative then "-" else "") ++ (Decimal.shortest mantissa exponent).render

/-- The literal of a whole number: one that does not fit in 64 bits with a sign is written in base
16. -/
def integerLiteral (n : Int) : String :=
  if n < Nat.pow 2 63 then toString n else "0x" ++ String.ofList (Nat.toDigits 16 n.natAbs)

mutual

/-- A datum as a literal. -/
def literal : Datum → String
  | null => "interface \x7b\x7d(nil)"
  | boolean truth => toString truth
  | integer n => integerLiteral n
  | float x => floatLiteral x
  | timestamp time => timestampLiteral time
  | text value => Text.quote value
  | list items => "[]interface \x7b\x7d\x7b" ++ ", ".intercalate (literals items) ++ "\x7d"
  | dictionary entries =>
      let sorted := (entryLiterals entries).mergeSort fun x y => x.1 ≤ y.1
      "map[string]interface \x7b\x7d\x7b" ++ ", ".intercalate (sorted.map Prod.snd) ++ "\x7d"
  | table entries =>
      "map[interface \x7b\x7d]interface \x7b\x7d\x7b" ++
        ", ".intercalate (rowLiterals entries) ++ "\x7d"

/-- Data as literals. -/
def literals : List Datum → List String
  | [] => []
  | datum :: rest => datum.literal :: literals rest

/-- The entries of a dictionary from texts, each with its key and as a literal. -/
def entryLiterals : List (String × Datum) → List (String × String)
  | [] => []
  | (key, datum) :: rest => (key, Text.quote key ++ ":" ++ datum.literal) :: entryLiterals rest

/-- The entries of a dictionary with other keys as literals. -/
def rowLiterals : List (Datum × Datum) → List String
  | [] => []
  | (key, datum) :: rest => (key.literal ++ ":" ++ datum.literal) :: rowLiterals rest

end

end Datum

end Reckon.Yaml
