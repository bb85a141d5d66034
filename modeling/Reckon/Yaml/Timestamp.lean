import Reckon.Decimal.Reader

/-!
# Dates and times of YAML

A plain scalar can be a date, perhaps with a time of day: after a `T` the time has an offset from
universal time, and after blanks it has none.
-/

namespace Reckon.Yaml

/-- A point in time. -/
structure Timestamp where
  /-- The year. -/
  year : Nat
  /-- The month, from one on. -/
  month : Nat
  /-- The day, from one on. -/
  day : Nat
  /-- The hour. -/
  hour : Nat := 0
  /-- The minute. -/
  minute : Nat := 0
  /-- The second. -/
  second : Nat := 0
  /-- The digits of the fraction of a second. -/
  fraction : List Char := []
  /-- The minutes from universal time, if they are given. -/
  offset : Option Int := none
deriving DecidableEq, Repr

namespace Timestamp

/-- A number of one or two digits, and what follows it. -/
def field? : List Char → Option (Nat × List Char)
  | c :: d :: rest =>
      if !c.isDigit then none
      else if d.isDigit then some (Decimal.digitsValue 10 [c, d], rest)
      else some (Decimal.digitsValue 10 [c], d :: rest)
  | [c] => if c.isDigit then some (Decimal.digitsValue 10 [c], []) else none
  | [] => none

/-- A number of one or two digits below a bound, and what follows it and a mark. -/
def fieldBefore? (bound : Nat) (mark : Char) (chars : List Char) : Option (Nat × List Char) := do
  let (value, rest) ← field? chars
  if value < bound && rest.head? == some mark then some (value, rest.drop 1) else none

/-- The number of days of a month. -/
def daysIn (year month : Nat) : Nat :=
  if month == 2 then
    if year % 4 == 0 && (year % 100 != 0 || year % 400 == 0) then 29 else 28
  else if month == 4 || month == 6 || month == 9 || month == 11 then 30
  else 31

/-- Read a date, and what follows it. -/
def date? (chars : List Char) : Option (Timestamp × List Char) := do
  let yearDigits := chars.takeWhile Char.isDigit
  let year := Decimal.digitsValue 10 yearDigits
  let rest := chars.drop yearDigits.length
  if yearDigits.length ≠ 4 || rest.head? ≠ some '-' then none
  let (month, rest) ← fieldBefore? 13 '-' (rest.drop 1)
  let (day, rest) ← field? rest
  if 1 ≤ month && 1 ≤ day && day ≤ daysIn year month then some ({ year, month, day }, rest)
  else none

/-- Read a time of day, with a fraction of a second if there is one, and what follows it. -/
def time? (timestamp : Timestamp) (chars : List Char) : Option (Timestamp × List Char) := do
  let (hour, rest) ← fieldBefore? 24 ':' chars
  let (minute, rest) ← fieldBefore? 60 ':' rest
  let (second, rest) ← field? rest
  if 60 ≤ second then none
  let fraction :=
    match rest with
    | mark :: digits => if mark == '.' || mark == ',' then digits.takeWhile Char.isDigit else []
    | [] => []
  let rest := if fraction.isEmpty then rest else rest.drop (fraction.length + 1)
  some ({ timestamp with hour, minute, second, fraction }, rest)

/-- An offset from universal time, in minutes. -/
def zone? : List Char → Option Int
  | ['Z'] => some 0
  | [sign, h, k, ':', m, n] =>
      let hours := Decimal.digitsValue 10 [h, k]
      let minutes := Decimal.digitsValue 10 [m, n]
      let total : Int := 60 * hours + minutes
      if [h, k, m, n].all Char.isDigit && hours ≤ 24 && minutes ≤ 60 then
        if sign == '+' then some total else if sign == '-' then some (-total) else none
      else none
  | _ => none

/-- Read a date, perhaps with a time of day. -/
def read? (text : String) : Option Timestamp := do
  let (date, rest) ← date? text.toList
  match rest with
  | [] => some date
  | mark :: rest =>
      if mark == 'T' || mark == 't' then
        let (timestamp, zone) ← time? date rest
        let offset ← zone? zone
        some { timestamp with offset := some offset }
      else if mark == ' ' then
        let (timestamp, rest) ← time? date (rest.dropWhile (· == ' '))
        if rest.isEmpty then some timestamp else none
      else none

end Timestamp

end Reckon.Yaml
