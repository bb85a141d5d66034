import Mathlib.Tactic.SplitIfs
import Reckon.Proofs.Text.Utf8

/-!
# How runes are spelled

Whatever the bytes of a source are, the runes that it is cut into have at least one byte each, and the
bytes below 128 are exactly the characters below 128. So a bracket, a quote or a newline that the
scanner finds is one byte of the source, and no other rune hides such a byte.

A text is cut into runes from the left, and what follows a rune could only have made it longer.  So the
bytes of some runes that stand side by side in a text are cut into the same runes again.
-/

namespace Reckon.Text.Rune

/-- A character below 128 is spelled by its code, and any other only by bytes from 128 on. -/
structure IsSpelled (rune : Rune) : Prop where
  /-- A character below 128 is one byte. -/
  ascii : rune.char.toNat < 128 → rune.bytes = [UInt8.ofNat rune.char.toNat]
  /-- Any other character has no byte below 128. -/
  other : 128 ≤ rune.char.toNat → rune.bytes ≠ [] ∧ ∀ byte ∈ rune.bytes, 128 ≤ byte.toNat

theorem IsSpelled.width_pos {rune : Rune} (spelled : rune.IsSpelled) : 0 < rune.width := by
  rcases Nat.lt_or_ge rune.char.toNat 128 with small | large
  · rw [width, spelled.ascii small]
    exact Nat.one_pos
  · exact List.length_pos_iff.mpr (spelled.other large).1

/-! ## Long sequences -/

theorem toNat_ofNat_of_scalar {code : Nat}
    (scalar : code < 0xD800 ∨ 0xDFFF < code ∧ code < 0x110000) : (Char.ofNat code).toNat = code := by
  rw [Char.ofNat, dif_pos scalar]
  rfl

/-- A rune of bytes from 128 on whose code is a character from 128 on. -/
theorem isSpelled_of_large {code : Nat} {bytes : List UInt8} (large : 128 ≤ code)
    (scalar : code < 0xD800 ∨ 0xDFFF < code ∧ code < 0x110000) (nonempty : bytes ≠ [])
    (high : ∀ byte ∈ bytes, 128 ≤ byte.toNat) : IsSpelled ⟨Char.ofNat code, bytes⟩ where
  ascii small := by
    rw [toNat_ofNat_of_scalar scalar] at small
    exact absurd large (Nat.not_le_of_lt small)
  other _ := ⟨nonempty, high⟩

section Sequences

variable {b0 b1 b2 b3 : UInt8} {rune : Rune}

theorem bounds_of_isContinuation {byte : UInt8} (continues : isContinuation byte = true) :
    128 ≤ byte.toNat ∧ byte.toNat ≤ 191 := by
  simpa [isContinuation, UInt8.le_iff_toNat_le] using continues

/-- The bounds of the second byte of a longer sequence. -/
theorem bounds_of_isSecond (second : isSecond b0 b1 = true) :
    (128 ≤ b1.toNat ∧ b1.toNat ≤ 191) ∧ (b0.toNat = 0xE0 → 0xA0 ≤ b1.toNat) ∧
      (b0.toNat = 0xED → b1.toNat ≤ 0x9F) ∧ (b0.toNat = 0xF0 → 0x90 ≤ b1.toNat) ∧
      (b0.toNat = 0xF4 → b1.toNat ≤ 0x8F) := by
  have lead (value : UInt8) : (b0 == value) = true ↔ b0.toNat = value.toNat := by
    rw [beq_iff_eq, UInt8.toNat_inj]
  unfold isSecond secondBounds at second
  simp only [lead, Bool.and_eq_true, decide_eq_true_eq, UInt8.le_iff_toNat_le] at second
  split_ifs at second <;> simp only [UInt8.reduceToNat] at * <;> omega

theorem isSpelled_of_two (found : ofTwo? b0 b1 = some rune) : rune.IsSpelled := by
  unfold ofTwo? at found
  split at found
  · next formed =>
    simp only [Bool.and_eq_true, decide_eq_true_eq, UInt8.le_iff_toNat_le, UInt8.reduceToNat]
      at formed
    obtain ⟨⟨low, high⟩, continues⟩ := formed
    have last := bounds_of_isContinuation continues
    cases found
    refine isSpelled_of_large ?_ ?_ (List.cons_ne_nil _ _) ?_
    · unfold low6
      omega
    · unfold low6
      omega
    · exact List.forall_mem_cons.mpr ⟨by omega, List.forall_mem_cons.mpr ⟨last.1, nofun⟩⟩
  · cases found

theorem isSpelled_of_three (found : ofThree? b0 b1 b2 = some rune) : rune.IsSpelled := by
  unfold ofThree? at found
  split at found
  · next formed =>
    simp only [Bool.and_eq_true, decide_eq_true_eq, UInt8.le_iff_toNat_le, UInt8.reduceToNat]
      at formed
    obtain ⟨⟨⟨low, high⟩, second⟩, continues⟩ := formed
    obtain ⟨middle, overlong, surrogate, -⟩ := bounds_of_isSecond second
    have last := bounds_of_isContinuation continues
    cases found
    refine isSpelled_of_large ?_ ?_ (List.cons_ne_nil _ _) ?_
    · unfold low6
      omega
    · unfold low6
      omega
    · have tail : ∀ byte ∈ [b1, b2], 128 ≤ byte.toNat :=
        List.forall_mem_cons.mpr ⟨middle.1, List.forall_mem_cons.mpr ⟨last.1, nofun⟩⟩
      exact List.forall_mem_cons.mpr ⟨by omega, tail⟩
  · cases found

theorem isSpelled_of_four (found : ofFour? b0 b1 b2 b3 = some rune) : rune.IsSpelled := by
  unfold ofFour? at found
  split at found
  · next formed =>
    simp only [Bool.and_eq_true, decide_eq_true_eq, UInt8.le_iff_toNat_le, UInt8.reduceToNat]
      at formed
    obtain ⟨⟨⟨⟨low, high⟩, second⟩, third⟩, fourth⟩ := formed
    obtain ⟨middle, -, -, overlong, tooLarge⟩ := bounds_of_isSecond second
    have third := bounds_of_isContinuation third
    have fourth := bounds_of_isContinuation fourth
    cases found
    refine isSpelled_of_large ?_ ?_ (List.cons_ne_nil _ _) ?_
    · unfold low6
      omega
    · unfold low6
      omega
    · have tail : ∀ byte ∈ [b2, b3], 128 ≤ byte.toNat :=
        List.forall_mem_cons.mpr ⟨third.1, List.forall_mem_cons.mpr ⟨fourth.1, nofun⟩⟩
      exact List.forall_mem_cons.mpr ⟨by omega, List.forall_mem_cons.mpr ⟨middle.1, tail⟩⟩
  · cases found

theorem isSpelled_stray (long : ¬b0 < 0x80) : (stray b0).IsSpelled := by
  have large : 128 ≤ b0.toNat := by simpa [UInt8.lt_iff_toNat_lt] using long
  refine isSpelled_of_large (by decide) (by decide) (List.cons_ne_nil _ _) ?_
  simpa using large

end Sequences

/-- The runes of any text are spelled by their bytes. -/
theorem isSpelled_of_mem_decode (source : List UInt8) : ∀ rune ∈ decode source, rune.IsSpelled := by
  fun_induction decode source with
  | case1 => exact List.forall_mem_nil _
  | case2 b0 rest small inductionHypothesis =>
      have code : b0.toNat < 128 := UInt8.lt_iff_toNat_lt.mp small
      have same : (Char.ofNat b0.toNat).toNat = b0.toNat := toNat_ofNat_of_scalar (by omega)
      refine List.forall_mem_cons.mpr ⟨⟨fun _ => ?_, fun large => ?_⟩, inductionHypothesis⟩
      · rw [same, UInt8.ofNat_toNat]
      · rw [same] at large
        exact absurd code (Nat.not_lt_of_le large)
  | case3 b0 long => exact List.forall_mem_cons.mpr ⟨isSpelled_stray long, List.forall_mem_nil _⟩
  | case4 _ _ _ _ _ found inductionHypothesis =>
      exact List.forall_mem_cons.mpr ⟨isSpelled_of_two found, inductionHypothesis⟩
  | case6 _ _ _ _ _ _ _ found inductionHypothesis =>
      exact List.forall_mem_cons.mpr ⟨isSpelled_of_three found, inductionHypothesis⟩
  | case8 _ _ _ _ _ _ _ _ _ found inductionHypothesis =>
      exact List.forall_mem_cons.mpr ⟨isSpelled_of_four found, inductionHypothesis⟩
  | case5 b0 long _ _ inductionHypothesis =>
      exact List.forall_mem_cons.mpr ⟨isSpelled_stray long, inductionHypothesis⟩
  | case7 b0 long _ _ _ _ inductionHypothesis =>
      exact List.forall_mem_cons.mpr ⟨isSpelled_stray long, inductionHypothesis⟩
  | case9 b0 long _ _ _ _ _ _ _ inductionHypothesis =>
      exact List.forall_mem_cons.mpr ⟨isSpelled_stray long, inductionHypothesis⟩

/-! ## Stray bytes -/

/-- A byte starts no sequence that is a rune. -/
structure Breaks (lead : UInt8) (rest : List UInt8) : Prop where
  /-- It is no character by itself. -/
  long : ¬lead < 0x80
  /-- It starts no sequence of two bytes. -/
  two : ∀ b1 more, rest = b1 :: more → ofTwo? lead b1 = none
  /-- It starts no sequence of three bytes. -/
  three : ∀ b1 b2 more, rest = b1 :: b2 :: more → ofThree? lead b1 b2 = none
  /-- It starts no sequence of four bytes. -/
  four : ∀ b1 b2 b3 more, rest = b1 :: b2 :: b3 :: more → ofFour? lead b1 b2 b3 = none

variable {lead : UInt8} {rest : List UInt8}

theorem decode_of_breaks (breaks : Breaks lead rest) :
    decode (lead :: rest) = stray lead :: decode rest := by
  obtain ⟨long, two, three, four⟩ := breaks
  match rest with
  | [] => simp [decode, long]
  | [b1] => simp [decode.eq_def (lead :: _), long, two b1 _ rfl]
  | [b1, b2] => simp [decode.eq_def (lead :: _), long, two b1 _ rfl, three b1 b2 _ rfl]
  | b1 :: b2 :: b3 :: _ =>
      simp [decode.eq_def (lead :: _), long, two b1 _ rfl, three b1 b2 _ rfl, four b1 b2 b3 _ rfl]

/-- A byte that is stray before some bytes is stray before fewer of them. -/
theorem Breaks.of_prefix {fewer : List UInt8} (breaks : Breaks lead rest) (few : fewer <+: rest) :
    Breaks lead fewer := by
  obtain ⟨more, rfl⟩ := few
  refine ⟨breaks.long, ?_, ?_, ?_⟩
  · rintro b1 others rfl
    exact breaks.two b1 (others ++ more) rfl
  · rintro b1 b2 others rfl
    exact breaks.three b1 b2 (others ++ more) rfl
  · rintro b1 b2 b3 others rfl
    exact breaks.four b1 b2 b3 (others ++ more) rfl

/-- At the front of a text there is a rune that is cut off whatever follows, or a stray byte. -/
theorem formed_or_breaks (lead : UInt8) (rest : List UInt8) :
    (∃ rune more, lead :: rest = rune.bytes ++ more ∧
      ∀ other, decode (rune.bytes ++ other) = rune :: decode other) ∨ Breaks lead rest := by
  by_cases short : lead < 0x80
  · exact .inl ⟨⟨Char.ofNat lead.toNat, [lead]⟩, rest, rfl, fun _ => decode_one short⟩
  by_cases two : ∃ b1 more rune, rest = b1 :: more ∧ ofTwo? lead b1 = some rune
  · obtain ⟨b1, more, rune, rfl, found⟩ := two
    refine .inl ⟨rune, more, by rw [ofTwo?_bytes found]; rfl, fun other => ?_⟩
    rw [ofTwo?_bytes found]
    exact decode_two short found
  have notTwo : ∀ b1 more, rest = b1 :: more → ofTwo? lead b1 = none := fun b1 more split =>
    Option.eq_none_iff_forall_ne_some.mpr fun rune found => two ⟨b1, more, rune, split, found⟩
  by_cases three : ∃ b1 b2 more rune, rest = b1 :: b2 :: more ∧ ofThree? lead b1 b2 = some rune
  · obtain ⟨b1, b2, more, rune, rfl, found⟩ := three
    refine .inl ⟨rune, more, by rw [ofThree?_bytes found]; rfl, fun other => ?_⟩
    rw [ofThree?_bytes found]
    exact decode_three short (notTwo _ _ rfl) found
  have notThree : ∀ b1 b2 more, rest = b1 :: b2 :: more → ofThree? lead b1 b2 = none :=
    fun b1 b2 more split => Option.eq_none_iff_forall_ne_some.mpr fun rune found =>
      three ⟨b1, b2, more, rune, split, found⟩
  by_cases four : ∃ b1 b2 b3 more rune,
      rest = b1 :: b2 :: b3 :: more ∧ ofFour? lead b1 b2 b3 = some rune
  · obtain ⟨b1, b2, b3, more, rune, rfl, found⟩ := four
    refine .inl ⟨rune, more, by rw [ofFour?_bytes found]; rfl, fun other => ?_⟩
    rw [ofFour?_bytes found]
    exact decode_four short (notTwo _ _ rfl) (notThree _ _ _ rfl) found
  have notFour : ∀ b1 b2 b3 more, rest = b1 :: b2 :: b3 :: more → ofFour? lead b1 b2 b3 = none :=
    fun b1 b2 b3 more split => Option.eq_none_iff_forall_ne_some.mpr fun rune found =>
      four ⟨b1, b2, b3, more, rune, split, found⟩
  exact .inr ⟨short, notTwo, notThree, notFour⟩

/-! ## Parts -/

theorem source_take_isPrefix (input : List UInt8) (count : Nat) :
    source ((decode input).take count) <+: input := by
  refine ⟨source ((decode input).drop count), ?_⟩
  rw [source, source, ← List.flatMap_append, List.take_append_drop]
  exact source_decode input

/-- Behind its first rune a text is cut as if it started there. -/
theorem exists_decode_eq_cons (lead : UInt8) (rest : List UInt8) :
    ∃ rune more, decode (lead :: rest) = rune :: decode more ∧ more.length ≤ rest.length ∧
      ∀ count, decode (source (rune :: (decode more).take count)) =
        rune :: decode (source ((decode more).take count)) := by
  rcases formed_or_breaks lead rest with ⟨rune, more, split, formed⟩ | breaks
  · refine ⟨rune, more, split ▸ formed more, ?_, fun count => formed _⟩
    have size := congrArg List.length split
    have some : rune.bytes ≠ [] := by
      intro none
      have empty := formed []
      simp [none, decode] at empty
    have positive := List.length_pos_iff.mpr some
    simp only [List.length_cons, List.length_append] at size
    omega
  · exact ⟨stray lead, rest, decode_of_breaks breaks, Nat.le_refl _, fun count =>
      decode_of_breaks (breaks.of_prefix (source_take_isPrefix rest count))⟩

theorem decode_source_take (input : List UInt8) (count : Nat) :
    decode (source ((decode input).take count)) = (decode input).take count := by
  induction size : input.length using Nat.strongRecOn generalizing input count with
  | ind size inductionHypothesis =>
      subst size
      cases input with
      | nil => simp [source, decode]
      | cons lead rest =>
          cases count with
          | zero => rfl
          | succ count =>
              obtain ⟨rune, more, cut, short, parts⟩ := exists_decode_eq_cons lead rest
              rw [cut, List.take_succ_cons, parts,
                inductionHypothesis _ (Nat.lt_succ_of_le short) more count rfl]

/-- Behind some of its runes a text is cut as if it started there. -/
theorem exists_decode_eq_drop (input : List UInt8) (count : Nat) :
    ∃ more, decode more = (decode input).drop count := by
  induction count with
  | zero => exact ⟨input, rfl⟩
  | succ count inductionHypothesis =>
      obtain ⟨rest, same⟩ := inductionHypothesis
      rw [List.drop_add_one_eq_tail_drop, ← same]
      cases rest with
      | nil => exact ⟨[], rfl⟩
      | cons lead rest =>
          obtain ⟨rune, more, cut, -⟩ := exists_decode_eq_cons lead rest
          exact ⟨more, by rw [cut, List.tail_cons]⟩

/-- The bytes of runes that stand side by side are these runes. -/
theorem decode_source_of_infix {input : List UInt8} {part : List Rune} (inside : part <:+: decode input) :
    decode (source part) = part := by
  obtain ⟨before, after, split⟩ := inside
  obtain ⟨rest, same⟩ := exists_decode_eq_drop input before.length
  rw [← split, List.append_assoc, List.drop_left] at same
  have taken := decode_source_take rest part.length
  rwa [same, List.take_left] at taken

end Reckon.Text.Rune
