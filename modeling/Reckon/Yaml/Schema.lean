import Reckon.Text.Rune
import Reckon.Yaml.Basic
import Reckon.Yaml.Timestamp

/-!
# What scalars stand for

A plain scalar can stand for null, a truth value, a number or a date; anything else is a text. Whole
numbers may have the mark of a base, and underscores in numbers are ignored. A tag of the standard
asks for one of these readings; any other tag leaves the text as it is.
-/

namespace Reckon.Yaml

/-- What a scalar stands for. -/
inductive Resolved where
  | null
  | boolean (value : Bool)
  | integer (value : Int)
  | float (value : Float)
  | timestamp (value : Timestamp)
  | text

/-- The tag of what a scalar stands for. -/
def Resolved.tag : Resolved → String
  | null => "!!null"
  | boolean _ => "!!bool"
  | integer _ => "!!int"
  | float _ => "!!float"
  | timestamp _ => "!!timestamp"
  | text => "!!str"

/-- The words with a meaning. -/
def wordMeaning? (text : String) : Option Resolved :=
  match text with
  | "" | "~" | "null" | "Null" | "NULL" => some .null
  | "true" | "True" | "TRUE" => some (.boolean true)
  | "false" | "False" | "FALSE" => some (.boolean false)
  | ".nan" | ".NaN" | ".NAN" => some (.float (Decimal.ofBits false Decimal.nanBits))
  | ".inf" | ".Inf" | ".INF" | "+.inf" | "+.Inf" | "+.INF" =>
      some (.float (Decimal.ofBits false Decimal.infinityBits))
  | "-.inf" | "-.Inf" | "-.INF" => some (.float (Decimal.ofBits true Decimal.infinityBits))
  | _ => none

/-! ## Numbers -/

/-- Whether a text has the form of a decimal fraction. -/
def isFloatForm (chars : List Char) : Bool :=
  let (_, unsigned) := Decimal.splitSign chars
  let whole := unsigned.takeWhile Char.isDigit
  let afterWhole := unsigned.drop whole.length
  let (fraction, rest) : List Char × List Char :=
    match afterWhole with
    | '.' :: rest => (rest.takeWhile Char.isDigit, rest.dropWhile Char.isDigit)
    | _ => ([], afterWhole)
  let exponentFits :=
    match rest with
    | [] => true
    | mark :: rest =>
        let (_, digits) := Decimal.splitSign rest
        (mark == 'e' || mark == 'E') && !digits.isEmpty && digits.all Char.isDigit
  (!whole.isEmpty || !fraction.isEmpty) && exponentFits

/-- A whole number without a sign in a base, if it fits in a number of bits. -/
def digits? (base bits : Nat) (chars : List Char) : Option Nat :=
  let n := Decimal.digitsValue base chars
  if !chars.isEmpty && chars.all (fun c => (Decimal.digitIn? base c).isSome) &&
      n < Nat.pow 2 bits then
    some n
  else none

/-- A whole number with a sign in a base, if it fits in 64 bits. Without a sign it may use all of
these. -/
def signedDigits? (base : Nat) (chars : List Char) : Option Int :=
  match chars with
  | '-' :: rest => do
    let n ← digits? base 64 rest
    if n ≤ Nat.pow 2 63 then some (-(n : Int)) else none
  | '+' :: rest => (digits? base 63 rest).map Int.ofNat
  | _ => (digits? base 64 chars).map Int.ofNat

/-- A whole number without a sign that fits in 64 bits. -/
def unsigned? (chars : List Char) : Option Int :=
  let (base, digits) := Decimal.splitBase chars
  (digits? base 64 digits).map Int.ofNat

/-- A whole number whose sign stands after the mark of its base, or before. -/
def marked? (mark : Char) (base : Nat) (chars : List Char) : Option Int :=
  match chars with
  | '0' :: c :: rest => if c == mark then signedDigits? base rest else none
  | '-' :: '0' :: c :: rest => if c == mark then signedDigits? base ('-' :: rest) else none
  | _ => none

/-- A text that starts with a sign or a digit as a number. -/
def number? (text : String) : Option Resolved :=
  let chars := text.toList.filter (· != '_')
  let plain := String.ofList chars
  let whole? := (Decimal.readInteger plain).toOption <|> unsigned? chars
  let float? := if isFloatForm chars then (Decimal.readFloat plain).toOption else none
  (whole?.map Resolved.integer) <|> (float?.map Resolved.float) <|>
    ((marked? 'b' 2 chars <|> marked? 'o' 8 chars).map Resolved.integer)

/-- What a text stands for, if it may be a date or may not. -/
def resolveText (dates : Bool) (text : String) : Resolved :=
  match wordMeaning? text with
  | some meaning => meaning
  | none =>
      match text.toList with
      | '.' :: _ =>
          match Decimal.readFloat text with
          | .ok x => .float x
          | .error _ => .text
      | c :: _ =>
          if c.isDigit || c == '+' || c == '-' then
            match if dates then Timestamp.read? text else none with
            | some timestamp => .timestamp timestamp
            | none => (number? text).getD .text
          else .text
      | [] => .null

/-- What a plain scalar without a tag stands for. -/
def resolve (text : String) : Resolved :=
  resolveText true text

/-! ## Tags -/

/-- The tag of a text. -/
def textTag : String := "!!str"

/-- The tag of a key whose value is merged into the mapping. -/
def mergeTag : String := "!!merge"

/-- The tag of a text that stands for bytes. -/
def binaryTag : String := "!!binary"

/-- The tag of a plain scalar without a tag of its own. -/
def plainTag (text : String) : String :=
  if text == "<<" then mergeTag else (resolve text).tag

/-- Whether a tag asks for a reading of the text. -/
def isReadingTag (tag : String) : Bool :=
  ["!!bool", "!!int", "!!float", "!!null", "!!timestamp"].contains tag

/-- What the text of a scalar with a tag stands for. A tag can ask for what the text is not; a whole
number serves as a decimal fraction, if it fits in 64 bits with a sign. -/
def resolveTagged (tag text : String) : Except Problem Resolved :=
  if !isReadingTag tag then .ok .text
  else
    let resolved := resolveText (tag == "!!timestamp") text
    if resolved.tag == tag then .ok resolved
    else
      match tag == "!!float", resolved with
      | true, .integer n =>
          if n < Nat.pow 2 63 then .ok (.float (Decimal.ofInt n)) else mismatch resolved
      | _, _ => mismatch resolved
where
  /-- The text is something else. -/
  mismatch (resolved : Resolved) : Except Problem Resolved :=
    .error (.unplaced ("cannot decode " ++ resolved.tag ++ " `" ++ text ++ "` as a " ++ tag))

/-! ## Bytes -/

/-- The value of a digit of base 64. -/
def base64Digit? (c : Char) : Option Nat :=
  if 'A' ≤ c && c ≤ 'Z' then some (c.toNat - 65)
  else if 'a' ≤ c && c ≤ 'z' then some (c.toNat - 71)
  else if c.isDigit then some (c.toNat + 4)
  else if c == '+' then some 62
  else if c == '/' then some 63
  else none

/-- The bytes that a text in base 64 stands for; each four characters stand for three bytes. -/
def base64Bytes? : List Char → Option (List UInt8)
  | [] => some []
  | [a, b, '=', '='] => do
    let n := 64 * (← base64Digit? a) + (← base64Digit? b)
    some [(n / 16).toUInt8]
  | [a, b, c, '='] => do
    let n := 64 * (64 * (← base64Digit? a) + (← base64Digit? b)) + (← base64Digit? c)
    some [(n / 1024).toUInt8, (n / 4 % 256).toUInt8]
  | a :: b :: c :: d :: rest => do
    let high := 64 * (← base64Digit? a) + (← base64Digit? b)
    let n := 64 * (64 * high + (← base64Digit? c)) + (← base64Digit? d)
    let more ← base64Bytes? rest
    some ((n / 65536).toUInt8 :: (n / 256 % 256).toUInt8 :: (n % 256).toUInt8 :: more)
  | _ => none

/-- The text whose bytes are given in base 64, in which line breaks do not count. -/
def binaryText (text : String) : Except Problem String :=
  match base64Bytes? (text.toList.filter fun c => c != '\n' && c != '\r') with
  | some bytes => .ok (Text.Rune.text (Text.Rune.decode bytes))
  | none => .error (.unplaced "!!binary value contains invalid base64 data")

end Reckon.Yaml
