import Reckon.Text.Rune

/-!
# Decoding what was encoded

The runes of a text that is UTF-8 are its characters, each with the bytes that spell it.
-/

namespace Reckon.Text

namespace Rune

/-- A character with the bytes that spell it. -/
def ofChar (c : Char) : Rune :=
  ⟨c, String.utf8EncodeChar c⟩

theorem toNat_ofNat_of_lt {n : Nat} (small : n < 256) : (UInt8.ofNat n).toNat = n := by
  rw [UInt8.toNat_ofNat', Nat.mod_eq_of_lt small]

theorem isContinuation_of_bounds {byte : UInt8} (low : 128 ≤ byte.toNat) (high : byte.toNat ≤ 191) :
    isContinuation byte = true := by
  have lower : (0x80 : UInt8) ≤ byte := UInt8.le_iff_toNat_le.mpr low
  have upper : byte ≤ 0xBF := UInt8.le_iff_toNat_le.mpr high
  simp [isContinuation, lower, upper]

/-- The second byte of a longer sequence is bounded more tightly after four of the lead bytes. -/
theorem isSecond_of_bounds {lead second : UInt8} (low : 128 ≤ second.toNat)
    (high : second.toNat ≤ 191) (overlongThree : lead.toNat = 0xE0 → 0xA0 ≤ second.toNat)
    (surrogate : lead.toNat = 0xED → second.toNat ≤ 0x9F)
    (overlongFour : lead.toNat = 0xF0 → 0x90 ≤ second.toNat)
    (tooLarge : lead.toNat = 0xF4 → second.toNat ≤ 0x8F) : isSecond lead second = true := by
  have sameLead {value : UInt8} (same : (lead == value) = true) : lead.toNat = value.toNat := by
    rw [eq_of_beq same]
  unfold isSecond secondBounds
  simp only [Bool.and_eq_true, decide_eq_true_eq, UInt8.le_iff_toNat_le]
  split
  · next same =>
    exact ⟨overlongThree (sameLead same), high⟩
  · split
    · next same =>
      exact ⟨low, surrogate (sameLead same)⟩
    · split
      · next same =>
        exact ⟨overlongFour (sameLead same), high⟩
      · split
        · next same =>
          exact ⟨low, tooLarge (sameLead same)⟩
        · exact ⟨low, high⟩

theorem toNat_valid (c : Char) : c.toNat < 0xD800 ∨ 0xDFFF < c.toNat ∧ c.toNat < 0x110000 :=
  c.valid

/-! ## Steps of decoding -/

section Steps

variable {b0 b1 b2 b3 : UInt8} {rest : List UInt8} {rune : Rune}

theorem decode_one (ascii : b0 < 0x80) :
    decode (b0 :: rest) = ⟨Char.ofNat b0.toNat, [b0]⟩ :: decode rest := by
  rw [decode.eq_def]
  simp only [ascii, if_true]

theorem decode_two (long : ¬b0 < 0x80) (found : ofTwo? b0 b1 = some rune) :
    decode (b0 :: b1 :: rest) = rune :: decode rest := by
  rw [decode.eq_def]
  simp only [long, if_false, found]

theorem decode_three (long : ¬b0 < 0x80) (notTwo : ofTwo? b0 b1 = none)
    (found : ofThree? b0 b1 b2 = some rune) :
    decode (b0 :: b1 :: b2 :: rest) = rune :: decode rest := by
  rw [decode.eq_def]
  simp only [long, if_false, notTwo, found]

theorem decode_four (long : ¬b0 < 0x80) (notTwo : ofTwo? b0 b1 = none)
    (notThree : ofThree? b0 b1 b2 = none) (found : ofFour? b0 b1 b2 b3 = some rune) :
    decode (b0 :: b1 :: b2 :: b3 :: rest) = rune :: decode rest := by
  rw [decode.eq_def]
  simp only [long, if_false, notTwo, notThree, found]

theorem ofTwo?_of_bounds (low : 0xC2 ≤ b0.toNat) (high : b0.toNat ≤ 0xDF)
    (continues : isContinuation b1 = true) :
    ofTwo? b0 b1 = some ⟨Char.ofNat (b0.toNat % 32 * 64 + low6 b1), [b0, b1]⟩ := by
  have lower : (0xC2 : UInt8) ≤ b0 := UInt8.le_iff_toNat_le.mpr low
  have upper : b0 ≤ 0xDF := UInt8.le_iff_toNat_le.mpr high
  simp [ofTwo?, lower, upper, continues]

theorem ofTwo?_eq_none (large : 0xE0 ≤ b0.toNat) : ofTwo? b0 b1 = none := by
  have beyond : ¬b0 ≤ 0xDF := by
    rw [UInt8.le_iff_toNat_le]
    exact Nat.not_le_of_lt large
  simp [ofTwo?, beyond]

theorem ofThree?_of_bounds (low : 0xE0 ≤ b0.toNat) (high : b0.toNat ≤ 0xEF)
    (second : isSecond b0 b1 = true) (continues : isContinuation b2 = true) :
    ofThree? b0 b1 b2 =
      some ⟨Char.ofNat ((b0.toNat % 16 * 64 + low6 b1) * 64 + low6 b2), [b0, b1, b2]⟩ := by
  have lower : (0xE0 : UInt8) ≤ b0 := UInt8.le_iff_toNat_le.mpr low
  have upper : b0 ≤ 0xEF := UInt8.le_iff_toNat_le.mpr high
  simp [ofThree?, lower, upper, second, continues]

theorem ofThree?_eq_none (large : 0xF0 ≤ b0.toNat) : ofThree? b0 b1 b2 = none := by
  have beyond : ¬b0 ≤ 0xEF := by
    rw [UInt8.le_iff_toNat_le]
    exact Nat.not_le_of_lt large
  simp [ofThree?, beyond]

theorem ofFour?_of_bounds (low : 0xF0 ≤ b0.toNat) (high : b0.toNat ≤ 0xF4)
    (second : isSecond b0 b1 = true) (third : isContinuation b2 = true)
    (fourth : isContinuation b3 = true) :
    ofFour? b0 b1 b2 b3 =
      some ⟨Char.ofNat (((b0.toNat % 8 * 64 + low6 b1) * 64 + low6 b2) * 64 + low6 b3),
        [b0, b1, b2, b3]⟩ := by
  have lower : (0xF0 : UInt8) ≤ b0 := UInt8.le_iff_toNat_le.mpr low
  have upper : b0 ≤ 0xF4 := UInt8.le_iff_toNat_le.mpr high
  simp [ofFour?, lower, upper, second, third, fourth]

theorem not_ascii_of_large (large : 128 ≤ b0.toNat) : ¬b0 < 0x80 := by
  rw [UInt8.lt_iff_toNat_lt]
  exact Nat.not_lt_of_le large

end Steps

/-! ## Characters -/

/-- A character that was encoded is decoded. -/
theorem decode_utf8EncodeChar_append (c : Char) (rest : List UInt8) :
    decode (String.utf8EncodeChar c ++ rest) = ofChar c :: decode rest := by
  have valid := toNat_valid c
  have same : Char.ofNat c.toNat = c := Char.ofNat_toNat c
  have value : c.val.toNat = c.toNat := rfl
  unfold ofChar String.utf8EncodeChar
  rw [value]
  generalize c.toNat = v at valid same
  dsimp only
  split
  · next one =>
    have lead := @toNat_ofNat_of_lt v (by omega)
    have ascii : UInt8.ofNat v < 0x80 := by
      rw [UInt8.lt_iff_toNat_lt, lead]
      exact Nat.lt_succ_of_le one
    rw [List.singleton_append, decode_one ascii, lead, same]
  · split
    · next one two =>
      have lead := @toNat_ofNat_of_lt (v / 64 % 32 + 192) (by omega)
      have last := @toNat_ofNat_of_lt (v % 64 + 128) (by omega)
      have long := not_ascii_of_large (by omega : 128 ≤ (UInt8.ofNat (v / 64 % 32 + 192)).toNat)
      have continues := isContinuation_of_bounds
        (by omega : 128 ≤ (UInt8.ofNat (v % 64 + 128)).toNat) (by omega)
      have found := ofTwo?_of_bounds
        (by omega : 0xC2 ≤ (UInt8.ofNat (v / 64 % 32 + 192)).toNat) (by omega) continues
      have decoded : (v / 64 % 32 + 192) % 32 * 64 + (v % 64 + 128) % 64 = v := by omega
      rw [List.cons_append, List.singleton_append, decode_two long found, low6, lead, last, decoded,
        same]
    · split
      · next one two three =>
        have lead := @toNat_ofNat_of_lt (v / 4096 % 16 + 224) (by omega)
        have middle := @toNat_ofNat_of_lt (v / 64 % 64 + 128) (by omega)
        have last := @toNat_ofNat_of_lt (v % 64 + 128) (by omega)
        have long := not_ascii_of_large
          (by omega : 128 ≤ (UInt8.ofNat (v / 4096 % 16 + 224)).toNat)
        have continues := isContinuation_of_bounds
          (by omega : 128 ≤ (UInt8.ofNat (v % 64 + 128)).toNat) (by omega)
        have second : isSecond (UInt8.ofNat (v / 4096 % 16 + 224))
            (UInt8.ofNat (v / 64 % 64 + 128)) = true := by
          refine isSecond_of_bounds ?_ ?_ ?_ ?_ ?_ ?_ <;> rw [middle] <;> try rw [lead]
          all_goals omega
        have notTwo := @ofTwo?_eq_none _ (UInt8.ofNat (v / 64 % 64 + 128))
          (by omega : 0xE0 ≤ (UInt8.ofNat (v / 4096 % 16 + 224)).toNat)
        have found := ofThree?_of_bounds
          (by omega : 0xE0 ≤ (UInt8.ofNat (v / 4096 % 16 + 224)).toNat) (by omega) second continues
        have decoded : ((v / 4096 % 16 + 224) % 16 * 64 + (v / 64 % 64 + 128) % 64) * 64 +
            (v % 64 + 128) % 64 = v := by omega
        simp only [List.cons_append, List.nil_append]
        rw [decode_three long notTwo found, low6, low6, lead, middle, last, decoded, same]
      · next one two three =>
        have lead := @toNat_ofNat_of_lt (v / 262144 % 8 + 240) (by omega)
        have secondByte := @toNat_ofNat_of_lt (v / 4096 % 64 + 128) (by omega)
        have thirdByte := @toNat_ofNat_of_lt (v / 64 % 64 + 128) (by omega)
        have last := @toNat_ofNat_of_lt (v % 64 + 128) (by omega)
        have long := not_ascii_of_large
          (by omega : 128 ≤ (UInt8.ofNat (v / 262144 % 8 + 240)).toNat)
        have third := isContinuation_of_bounds
          (by omega : 128 ≤ (UInt8.ofNat (v / 64 % 64 + 128)).toNat) (by omega)
        have fourth := isContinuation_of_bounds
          (by omega : 128 ≤ (UInt8.ofNat (v % 64 + 128)).toNat) (by omega)
        have second : isSecond (UInt8.ofNat (v / 262144 % 8 + 240))
            (UInt8.ofNat (v / 4096 % 64 + 128)) = true := by
          refine isSecond_of_bounds ?_ ?_ ?_ ?_ ?_ ?_ <;> rw [secondByte] <;> try rw [lead]
          all_goals omega
        have notTwo := @ofTwo?_eq_none _ (UInt8.ofNat (v / 4096 % 64 + 128))
          (by omega : 0xE0 ≤ (UInt8.ofNat (v / 262144 % 8 + 240)).toNat)
        have notThree := @ofThree?_eq_none _ (UInt8.ofNat (v / 4096 % 64 + 128))
          (UInt8.ofNat (v / 64 % 64 + 128))
          (by omega : 0xF0 ≤ (UInt8.ofNat (v / 262144 % 8 + 240)).toNat)
        have found := ofFour?_of_bounds
          (by omega : 0xF0 ≤ (UInt8.ofNat (v / 262144 % 8 + 240)).toNat) (by omega) second third
          fourth
        have decoded : (((v / 262144 % 8 + 240) % 8 * 64 + (v / 4096 % 64 + 128) % 64) * 64 +
            (v / 64 % 64 + 128) % 64) * 64 + (v % 64 + 128) % 64 = v := by omega
        simp only [List.cons_append, List.nil_append]
        rw [decode_four long notTwo notThree found, low6, low6, low6, lead, secondByte, thirdByte,
          last, decoded, same]

theorem decode_encode_append (chars : List Char) (following : List UInt8) :
    decode (encode chars ++ following) = chars.map ofChar ++ decode following := by
  induction chars with
  | nil =>
      rfl
  | cons c rest inductionHypothesis =>
      rw [encode, List.flatMap_cons, List.append_assoc, decode_utf8EncodeChar_append,
        List.map_cons, List.cons_append, ← inductionHypothesis]
      rfl

theorem decode_encode (chars : List Char) : decode (encode chars) = chars.map ofChar := by
  have whole := decode_encode_append chars []
  rwa [List.append_nil, show decode [] = [] from rfl, List.append_nil] at whole

/-! ## Strings -/

theorem toList_byteArray (bytes : ByteArray) : bytes.toList = bytes.data.toList := by
  have fromIndex (index : Nat) (read : List UInt8) :
      ByteArray.toList.loop bytes index read = read.reverse ++ bytes.data.toList.drop index := by
    induction remaining : bytes.size - index generalizing index read with
    | zero =>
        have ended : bytes.data.toList.length ≤ index := by
          have size : bytes.data.toList.length = bytes.size := by simp
          omega
        rw [ByteArray.toList.loop, if_neg (by omega), List.drop_eq_nil_of_le ended, List.append_nil]
    | succ remaining inductionHypothesis =>
        have inRange : index < bytes.data.toList.length := by
          have size : bytes.data.toList.length = bytes.size := by simp
          omega
        have byte : bytes.get! index = bytes.data.toList[index] := by
          have direct : bytes.get! index = bytes.data[index]! := rfl
          rw [direct, Array.getElem_toList, getElem!_pos]
        rw [ByteArray.toList.loop, if_pos (by omega), inductionHypothesis _ _ (by omega),
          List.reverse_cons, List.append_assoc, List.singleton_append, byte,
          ← List.drop_eq_getElem_cons inRange]
  rw [ByteArray.toList, fromIndex]
  rfl

/-- The bytes of a string spell its characters. -/
theorem toList_toUTF8_ofList (chars : List Char) :
    (String.ofList chars).toUTF8.toList = encode chars := by
  rw [String.toUTF8_eq_toByteArray, String.toByteArray_ofList, toList_byteArray, List.utf8Encode,
    List.toList_data_toByteArray]
  rfl

/-- The runes of a string are its characters. -/
theorem decode_toUTF8 (chars : List Char) :
    decode (String.ofList chars).toUTF8.toList = chars.map ofChar := by
  rw [toList_toUTF8_ofList, decode_encode]

theorem decode_text (text : String) : decode text.toUTF8.toList = text.toList.map ofChar := by
  rw [← decode_toUTF8, String.ofList_toList]

end Rune

end Reckon.Text
