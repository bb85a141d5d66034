/-!
# Runes: characters together with the bytes they were read from

Source text is a list of bytes that should be UTF-8 and need not be. Decoding cuts it into
runes. A byte that starts no well-formed sequence is a rune of its own, read as the replacement
character, so decoding never fails and never loses a byte.

The main statement is `Rune.source_decode`: the bytes of the runes, put together, are the
text that was decoded.
-/

namespace Reckon.Text

/-- One decoded character and the bytes that spelled it. -/
structure Rune where
  /-- The character, or the replacement character for a stray byte. -/
  char : Char
  /-- The bytes in the source. -/
  bytes : List UInt8
deriving DecidableEq, Repr

namespace Rune

/-- The number of bytes the rune takes in the source. -/
def width (rune : Rune) : Nat :=
  rune.bytes.length

/-- The character that stands for bytes that are no UTF-8. -/
def replacement : Char := Char.ofNat 0xFFFD

/-- A stray byte: a rune of width one that reads as the replacement character. -/
def stray (byte : UInt8) : Rune :=
  ⟨replacement, [byte]⟩

/-- Whether the rune is a stray byte. -/
def isStray (rune : Rune) : Bool :=
  rune.char == replacement && rune.width == 1

/-- The bytes that spell characters. -/
def encode (chars : List Char) : List UInt8 :=
  chars.flatMap String.utf8EncodeChar

/-- Whether `byte` is a continuation byte `10xxxxxx`. -/
def isContinuation (byte : UInt8) : Bool :=
  0x80 ≤ byte && byte ≤ 0xBF

/-- The low six bits of a continuation byte. -/
def low6 (byte : UInt8) : Nat :=
  byte.toNat % 64

/-- The rune spelled by a lead byte and one continuation byte, if these are well formed. -/
def ofTwo? (b0 b1 : UInt8) : Option Rune :=
  if 0xC2 ≤ b0 && b0 ≤ 0xDF && isContinuation b1 then
    some ⟨Char.ofNat ((b0.toNat % 32) * 64 + low6 b1), [b0, b1]⟩
  else none

/-- The least and the greatest second byte allowed after the lead byte of a longer sequence;
the bounds keep out overlong forms, surrogates and values past the last code point. -/
def secondBounds (b0 : UInt8) : UInt8 × UInt8 :=
  if b0 == 0xE0 then (0xA0, 0xBF)
  else if b0 == 0xED then (0x80, 0x9F)
  else if b0 == 0xF0 then (0x90, 0xBF)
  else if b0 == 0xF4 then (0x80, 0x8F)
  else (0x80, 0xBF)

/-- Whether `b1` may follow the lead byte `b0` of a sequence of three or four bytes. -/
def isSecond (b0 b1 : UInt8) : Bool :=
  (secondBounds b0).1 ≤ b1 && b1 ≤ (secondBounds b0).2

/-- The rune spelled by three bytes, if these are well formed. -/
def ofThree? (b0 b1 b2 : UInt8) : Option Rune :=
  if 0xE0 ≤ b0 && b0 ≤ 0xEF && isSecond b0 b1 && isContinuation b2 then
    some ⟨Char.ofNat (((b0.toNat % 16) * 64 + low6 b1) * 64 + low6 b2), [b0, b1, b2]⟩
  else none

/-- The rune spelled by four bytes, if these are well formed. -/
def ofFour? (b0 b1 b2 b3 : UInt8) : Option Rune :=
  if 0xF0 ≤ b0 && b0 ≤ 0xF4 && isSecond b0 b1 && isContinuation b2 && isContinuation b3 then
    some ⟨Char.ofNat ((((b0.toNat % 8) * 64 + low6 b1) * 64 + low6 b2) * 64 + low6 b3),
      [b0, b1, b2, b3]⟩
  else none

/-- Cut a text into runes. -/
def decode : List UInt8 → List Rune
  | [] => []
  | b0 :: rest =>
      if b0 < 0x80 then ⟨Char.ofNat b0.toNat, [b0]⟩ :: decode rest
      else
        match rest with
        | [] => [stray b0]
        | b1 :: rest1 =>
            match ofTwo? b0 b1 with
            | some rune => rune :: decode rest1
            | none =>
                match rest1 with
                | [] => stray b0 :: decode (b1 :: [])
                | b2 :: rest2 =>
                    match ofThree? b0 b1 b2 with
                    | some rune => rune :: decode rest2
                    | none =>
                        match rest2 with
                        | [] => stray b0 :: decode (b1 :: b2 :: [])
                        | b3 :: rest3 =>
                            match ofFour? b0 b1 b2 b3 with
                            | some rune => rune :: decode rest3
                            | none => stray b0 :: decode (b1 :: b2 :: b3 :: rest3)

/-- The runes of a string, whose bytes are UTF-8 already. -/
def ofString (text : String) : List Rune :=
  decode text.toUTF8.toList

/-- The text a list of runes reads as; stray bytes show as the replacement character. -/
def text (runes : List Rune) : String :=
  String.ofList (runes.map char)

/-- The bytes a list of runes was read from. -/
def source (runes : List Rune) : List UInt8 :=
  runes.flatMap bytes

theorem ofTwo?_bytes {b0 b1 : UInt8} {rune : Rune} (found : ofTwo? b0 b1 = some rune) :
    rune.bytes = [b0, b1] := by
  unfold ofTwo? at found
  split at found
  · cases found; rfl
  · simp at found

theorem ofThree?_bytes {b0 b1 b2 : UInt8} {rune : Rune} (found : ofThree? b0 b1 b2 = some rune) :
    rune.bytes = [b0, b1, b2] := by
  unfold ofThree? at found
  split at found
  · cases found; rfl
  · simp at found

theorem ofFour?_bytes {b0 b1 b2 b3 : UInt8} {rune : Rune}
    (found : ofFour? b0 b1 b2 b3 = some rune) : rune.bytes = [b0, b1, b2, b3] := by
  unfold ofFour? at found
  split at found
  · cases found; rfl
  · simp at found

/-- Decoding loses no byte and invents none. -/
theorem source_decode (input : List UInt8) : source (decode input) = input := by
  fun_induction decode input with
  | case1 => rfl
  | case2 b0 rest _ rest_ih => simpa [source] using rest_ih
  | case3 b0 _ => rfl
  | case4 b0 _ b1 rest1 rune found rest_ih => simpa [source, ofTwo?_bytes found] using rest_ih
  | case5 b0 _ b1 _ rest_ih => simpa [source, stray] using rest_ih
  | case6 b0 _ b1 _ b2 rest2 rune found rest_ih =>
      simpa [source, ofThree?_bytes found] using rest_ih
  | case7 b0 _ b1 _ b2 _ rest_ih => simpa [source, stray] using rest_ih
  | case8 b0 _ b1 _ b2 _ b3 rest3 rune found rest_ih =>
      simpa [source, ofFour?_bytes found] using rest_ih
  | case9 b0 _ b1 _ b2 _ b3 rest3 _ rest_ih => simpa [source, stray] using rest_ih

end Rune

end Reckon.Text
