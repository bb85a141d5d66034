import Reckon.Text.Letter
import Reckon.Yaml.Input

/-!
# Names, tags and directives of YAML

A node can have a name and a tag. A tag is written in full, or with a handle that a directive gives
a meaning. Characters in tags can be escaped by a percent sign and the digits of their bytes.
-/

namespace Reckon.Yaml

namespace Scan

/-- A name after its mark. -/
def nodeName : Scan String := do
  let start := (← get).mark.line
  modify Input.next
  let name ← takeWhile isNameChar
  let ends (c : Char) : Bool := isGap c || "?:,]\x7d%@`".contains c
  if name.isEmpty || !(← get).lacks 0 ends then
    fail start "did not find expected alphabetic or numeric character"
  else return String.ofList name

/-! ## Tags -/

/-- Whether a character may stand in a tag. -/
def isTagChar (c : Char) : Bool :=
  isNameChar c || ";/?:@&=+$,.!~*'()[]%".contains c

/-- The number of bytes of a character, by the first of them; zero if none starts so. -/
def sequenceWidth (byte : Nat) : Nat :=
  if byte < 0x80 then 1
  else if byte < 0xC0 then 0
  else if byte < 0xE0 then 2
  else if byte < 0xF0 then 3
  else if byte < 0xF8 then 4
  else 0

/-- The bytes of an escaped character, of which a number is still missing. -/
def escapedBytes (start : Nat) (first : Bool) : Nat → Scan (List UInt8)
  | 0 => return []
  | missing + 1 => do
    need 3
    match (← get).rest with
    | '%' :: high :: low :: _ =>
        if Text.isHexDigit high && Text.isHexDigit low then do
          let byte := 16 * Text.hexValue high + Text.hexValue low
          if !first && !(0x80 ≤ byte && byte < 0xC0) then
            fail start "found an incorrect trailing UTF-8 octet"
          forward 3
          return byte.toUInt8 :: (← escapedBytes start false missing)
        else fail start "did not find URI escaped octet"
    | _ => fail start "did not find URI escaped octet"

/-- The bytes of an escaped character. -/
def escapedChar (start : Nat) : Scan (List UInt8) := do
  need 3
  match (← get).rest with
  | '%' :: high :: low :: _ =>
      let byte := 16 * Text.hexValue high + Text.hexValue low
      if !(Text.isHexDigit high && Text.isHexDigit low) then
        fail start "did not find URI escaped octet"
      else if sequenceWidth byte = 0 then fail start "found an incorrect leading UTF-8 octet"
      else escapedBytes start true (sequenceWidth byte)
  | _ => fail start "did not find URI escaped octet"

/-- The bytes of the characters of a tag. -/
def tagBytes (start : Nat) : Nat → Scan (List UInt8)
  | 0 => return []
  | bound + 1 => do
    match (← here).rest with
    | [] => return []
    | c :: _ =>
        if c == '%' then do
          let bytes ← escapedChar start
          return bytes ++ (← tagBytes start bound)
        else if isTagChar c then do
          modify Input.next
          return Text.Rune.encode [c] ++ (← tagBytes start bound)
        else return []

/-- The characters of a tag after a start that is read already. There has to be one. -/
def tagText (start : Nat) (head : String) : Scan String := do
  let bytes ← tagBytes start ((← get).rest.length + 1)
  if head.isEmpty && bytes.isEmpty then fail start "did not find expected tag URI"
  else return String.ofList (head.toList.drop 1) ++ Text.Rune.text (Text.Rune.decode bytes)

/-- The handle of a tag: a name between exclamation marks, of which the second may be missing. -/
def tagHandle (start : Nat) : Scan String := do
  if ← skipChar? '!' then
    let name ← takeWhile isNameChar
    let closed ← skipChar? '!'
    return String.ofList ('!' :: name ++ if closed then ['!'] else [])
  else fail start "did not find expected '!'"

/-- The handle and the rest of a tag. A tag in angles, or a single mark, has no handle. -/
def nodeTag : Scan (String × String) := do
  let start := (← get).mark.line
  need 2
  let tag ←
    if (← get).has 1 (· == '<') then do
      forward 2
      let text ← tagText start ""
      if ← skipChar? '>' then pure ("", text)
      else fail start "did not find the expected '>'"
    else do
      let handle ← tagHandle start
      if 1 < handle.length && handle.endsWith "!" then
        pure (handle, ← tagText start "")
      else do
        let text ← tagText start handle
        pure (if text.isEmpty then ("", handle) else ("!", text))
  if (← here).lacks 0 isGap then return tag
  else fail start "did not find expected whitespace or line break"

/-! ## Directives -/

/-- A directive. -/
inductive Directive where
  /-- The version of the language. -/
  | version (major minor : Nat)
  /-- The meaning of a handle. -/
  | handle (handle meaning : String)

/-- A part of a version number. -/
def versionPart (start : Nat) : Scan Nat := do
  let digits ← takeWhile Text.isDigit
  if 2 < digits.length then fail start "found extremely long version number"
  else if digits.isEmpty then fail start "did not find expected version number"
  else return digits.foldl (fun n d => 10 * n + Text.hexValue d) 0

/-- The version after its directive. -/
def versionValue (start : Nat) : Scan Directive := do
  skipBlanks
  let major ← versionPart start
  if ← skipChar? '.' then return .version major (← versionPart start)
  else fail start "did not find expected digit or '.' character"

/-- The handle and its meaning after their directive. -/
def handleValue (start : Nat) : Scan Directive := do
  skipBlanks
  let handle ← tagHandle start
  if handle != "!" && !handle.endsWith "!" then
    fail start "did not find expected '!'"
  if !(← here).has 0 isBlank then fail start "did not find expected whitespace"
  skipBlanks
  let meaning ← tagText start ""
  if (← here).lacks 0 isGap then return .handle handle meaning
  else fail start "did not find expected whitespace or line break"

/-- A directive, up to the end of its line. -/
def directive : Scan Directive := do
  let start := (← get).mark.line
  modify Input.next
  let name ← takeWhile isNameChar
  if name.isEmpty then fail start "could not find expected directive name"
  if !(← get).lacks 0 isGap then fail start "found unexpected non-alphabetical character"
  let value ←
    match String.ofList name with
    | "YAML" => versionValue start
    | "TAG" => handleValue start
    | _ => fail start "found unknown directive name"
  skipBlanks
  if (← get).starts '#' then skipLineRest
  if !(← get).lacks 0 isBreak then fail start "did not find expected comment or line break"
  let _ ← takeBreak
  return value

end Scan

end Reckon.Yaml
