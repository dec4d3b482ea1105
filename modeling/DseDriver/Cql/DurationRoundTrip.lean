import DseDriver.Cql.Duration

/-!
# What the vints of a duration carry

A vint is read back whatever follows it.  It has from one to nine bytes, no shorter bytes are
read as the same integer, and none is a proper start of another.
-/

namespace DseDriver.Cql

open Lib List Option

/-! ## Zig-zag form -/

section Bits

variable {i : Nat} (inside : i < 64)

include inside

/-- The arithmetic shift leaves copies of the sign. -/
theorem getLsbD_sshiftRight_sign (n : BitVec 64) : (n.sshiftRight 63).getLsbD i = n.msb := by
  have notOver : decide (64 ≤ i) = false := by simpa using inside
  rw [BitVec.getLsbD_sshiftRight, notOver]
  split
  · have first : i = 0 := by omega
    rw [first, BitVec.msb_eq_getLsbD_last]
    rfl
  · rfl

/-- The negated low bit is a word of copies of this bit. -/
theorem getLsbD_neg_and_one (n : BitVec 64) : (-(n &&& 1#64)).getLsbD i = n.getLsbD 0 := by
  rw [BitVec.and_one_eq_setWidth_ofBool_getLsbD]
  cases n.getLsbD 0 with
  | true =>
    have ones : -(BitVec.setWidth 64 (BitVec.ofBool true)) = BitVec.allOnes 64 := by decide
    rw [ones, BitVec.getLsbD_allOnes]
    simpa using inside
  | false =>
    have zeros : -(BitVec.setWidth 64 (BitVec.ofBool false)) = 0#64 := by decide
    rw [zeros, BitVec.getLsbD_zero]

end Bits

theorem decodeZigZag_encodeZigZag (n : Int64) : decodeZigZag (encodeZigZag n) = n := by
  apply Int64.toBitVec_inj.mp
  show (((n.toBitVec <<< 1) ^^^ n.toBitVec.sshiftRight 63) >>> 1) ^^^
    -(((n.toBitVec <<< 1) ^^^ n.toBitVec.sshiftRight 63) &&& 1#64) = n.toBitVec
  apply BitVec.eq_of_getLsbD_eq
  intro i inside
  -- the low bit of the zig-zag form is the sign, which both copies of the sign cancel
  have low : ((n.toBitVec <<< 1) ^^^ n.toBitVec.sshiftRight 63).getLsbD 0 = n.toBitVec.msb := by
    rw [BitVec.getLsbD_xor, getLsbD_sshiftRight_sign (by decide)]
    simp
  rw [BitVec.getLsbD_xor, getLsbD_neg_and_one inside, low, BitVec.getLsbD_ushiftRight,
    BitVec.getLsbD_xor]
  by_cases last : i = 63
  · subst last
    simp [BitVec.msb_eq_getLsbD_last]
  · have next : 1 + i < 64 := by omega
    rw [getLsbD_sshiftRight_sign next, BitVec.getLsbD_shiftLeft]
    simp [next]

/-! ## Sizes -/

theorem toNat_or_one_ne_zero (value : UInt64) : (value ||| 1).toNat ≠ 0 := by
  rw [UInt64.toNat_or]
  exact fun zero => absurd (Nat.or_eq_zero_iff.mp zero).2 (by decide)

theorem toNat_or_one_lt_two_pow_iff (value : UInt64) {bits : Nat} (positive : 1 ≤ bits) :
    (value ||| 1).toNat < 2 ^ bits ↔ value.toNat < 2 ^ bits := by
  rw [UInt64.toNat_or]
  constructor
  · exact lt_of_le_of_lt Nat.left_le_or
  · intro small
    exact Nat.or_lt_two_pow small (Nat.one_lt_two_pow (by omega))

/-- The magnitude that `vint_size` works with counts the bits that are free. -/
theorem numLeadingZeros_or_one (value : UInt64) :
    numLeadingZeros (value ||| 1) = 63 - (value ||| 1).toNat.log2 ∧
      (value ||| 1).toNat.log2 < 64 := by
  have nonzero := toNat_or_one_ne_zero value
  refine ⟨?_, (Nat.log2_lt nonzero).mpr (UInt64.toNat_lt _)⟩
  rw [numLeadingZeros, if_neg fun zero => nonzero (congrArg UInt64.toNat zero)]
  omega

/-- A value has a vint of `size` bytes if it has at most seven bits for each of them. -/
theorem vintSize_le_iff (value : UInt64) {size : Nat} (positive : 1 ≤ size) (small : size ≤ 8) :
    vintSize value ≤ size ↔ value.toNat < 2 ^ (7 * size) := by
  obtain ⟨magnitude, bound⟩ := numLeadingZeros_or_one value
  rw [← toNat_or_one_lt_two_pow_iff value (by omega), ← Nat.log2_lt (toNat_or_one_ne_zero value),
    vintSize, magnitude]
  generalize (value ||| 1).toNat.log2 = log at bound ⊢
  split <;> omega

theorem vintSize_bounds (value : UInt64) : 1 ≤ vintSize value ∧ vintSize value ≤ 9 := by
  obtain ⟨magnitude, bound⟩ := numLeadingZeros_or_one value
  rw [vintSize, magnitude]
  generalize (value ||| 1).toNat.log2 = log at bound ⊢
  split <;> omega

/-! ## The bytes of a vint -/

theorem storeBytes_eq (count : Nat) (value : UInt64) (stored : List UInt8) :
    storeBytes count value stored = toBytes .big count value.toNat ++ stored := by
  induction count generalizing value stored with
  | zero => rfl
  | succ count ih =>
    have low : (value &&& 0xff).toUInt8 = UInt8.ofNat value.toNat := by
      apply UInt8.toNat_inj.mp
      have masked : value.toNat &&& 255 = value.toNat % 2 ^ 8 :=
        Nat.and_two_pow_sub_one_eq_mod value.toNat 8
      rw [UInt64.toNat_toUInt8, UInt64.toNat_and, UInt8.toNat_ofNat']
      show (value.toNat &&& 255) % 2 ^ 8 = _
      rw [masked, Nat.mod_mod]
    have shifted : (value >>> 8).toNat = value.toNat / 256 := by
      simp [Nat.shiftRight_eq_div_pow]
    rw [storeBytes, ih, low, shifted]
    simp [toBytes, littleEndian]

theorem encodeVint_succ (value : UInt64) (extra : Nat) :
    encodeVint value (extra + 1) =
      (UInt8.ofNat (value.toNat / 256 ^ extra) ||| sizeBits extra) ::
        toBytes .big extra value.toNat := by
  cases extra with
  | zero =>
    have noBits : sizeBits 0 = 0 := by decide
    simp [encodeVint, noBits, toBytes, littleEndian]
  | succ extra =>
    rw [encodeVint, if_neg (by omega), storeBytes_eq, append_nil, toBytes_big_succ]
    rfl

/-- What the decoder finds in a first byte. -/
theorem first_spec {extra : Nat} (known : extra < 9) (high : UInt8) :
    high.toNat < 2 ^ (7 - extra) →
      extraBytes (high ||| sizeBits extra) = extra ∧
        firstBits (high ||| sizeBits extra) extra = high.toUInt64 := by
  have table : ∀ extra < 9, ∀ high < 256, (UInt8.ofNat high).toNat < 2 ^ (7 - extra) →
      extraBytes (UInt8.ofNat high ||| sizeBits extra) = extra ∧
        firstBits (UInt8.ofNat high ||| sizeBits extra) extra = (UInt8.ofNat high).toUInt64 := by
    decide +kernel
  revert high
  exact forall_byte (table extra known)

/-- The first byte has the bits that its size leaves. -/
theorem firstBits_lt (first : UInt8) :
    extraBytes first < 9 ∧
      (firstBits first (extraBytes first)).toNat < 2 ^ (7 - extraBytes first) := by
  revert first
  apply forall_byte
  decide +kernel

/-- A byte below 128 is a vint of its own. -/
theorem oneByte_spec (first : UInt8) :
    first ≤ 127 → extraBytes first = 0 ∧ firstBits first 0 = first.toUInt64 := by
  revert first
  apply forall_byte
  decide +kernel

/-! ## Reading a vint -/

theorem toNat_shiftIn (output : UInt64) (byte : UInt8) :
    ((output <<< 8) ||| byte.toUInt64).toNat = (output.toNat * 256 + byte.toNat) % 2 ^ 64 := by
  have bound : byte.toNat < 2 ^ 8 := byte.toNat_lt
  rw [UInt64.toNat_or, UInt64.toNat_shiftLeft, UInt8.toNat_toUInt64]
  show output.toNat <<< 8 % 2 ^ 64 ||| byte.toNat = _
  have shifted : output.toNat <<< 8 % 2 ^ 64 = 2 ^ 8 * (output.toNat % 2 ^ 56) := by
    rw [Nat.shiftLeft_eq]
    omega
  rw [shifted, ← Nat.two_pow_add_eq_or_of_lt bound]
  omega

/-- The loop of the decoder reads a word, most significant byte first. -/
theorem loadBytes_eq (memory : List UInt8) (count input : Nat) (output : UInt64)
    (inside : input ≤ memory.length) :
    loadBytes memory count input output =
      (readAt memory input count).map fun bytes =>
        (UInt64.ofNat (output.toNat * 256 ^ count + ofBytes .big bytes), input + count) := by
  induction count generalizing input output with
  | zero => simp [loadBytes, readAt, inside, ofBytes, ofLittleEndian]
  | succ count ih =>
    rw [loadBytes, readAt_succ]
    cases found : memory[input]? with
    | none => rfl
    | some byte =>
      have within : input < memory.length := (List.getElem?_eq_some_iff.mp found).1
      rw [bind_some, bind_eq_bind, bind_some, ih _ _ within]
      cases read : readAt memory (input + 1) count with
      | none => rfl
      | some rest =>
        have length : rest.length = count := (readAt_eq_some read).2
        have shifted : ((output <<< 8) ||| byte.toUInt64).toNat =
            (output.toNat * 256 + byte.toNat) % 2 ^ 64 := toNat_shiftIn output byte
        have value : UInt64.ofNat
            (((output <<< 8) ||| byte.toUInt64).toNat * 256 ^ count + ofBytes .big rest) =
              UInt64.ofNat (output.toNat * 256 ^ (count + 1) + ofBytes .big (byte :: rest)) := by
          apply UInt64.toNat_inj.mp
          rw [shifted, ofBytes_big_cons, length, UInt64.toNat_ofNat', UInt64.toNat_ofNat',
            Nat.add_mod, Nat.mod_mul_mod, ← Nat.add_mod, Nat.pow_succ]
          ring_nf
        have end_ : input.succ + count = input + (count + 1) := by omega
        simp only [map_some, value, end_]

/-- The size check and the bytes of a vint, in the same form for one byte and for more. -/
theorem decodeVint_eq {decoder : Decoder} {first : UInt8} (positive : 1 ≤ decoder.remaining)
    (bounded : decoder.remaining < 2 ^ 64)
    (found : decoder.memory[decoder.input]? = some first) :
    decoder.decodeVint =
      if decoder.remaining < 1 + extraBytes first then
        some (none, { decoder with
          input := decoder.input + 1
          remaining := decoder.remaining - 1 })
      else
        (readAt decoder.memory (decoder.input + 1) (extraBytes first)).map fun bytes =>
          (some (UInt64.ofNat ((firstBits first (extraBytes first)).toNat *
              256 ^ extraBytes first + ofBytes .big bytes)),
            { decoder with
              input := decoder.input + (1 + extraBytes first)
              remaining := decoder.remaining - (1 + extraBytes first) }) := by
  have within : decoder.input < decoder.memory.length := (List.getElem?_eq_some_iff.mp found).1
  have after : sizeSub decoder.remaining 1 = decoder.remaining - 1 := sizeSub_of_le positive bounded
  rw [Decoder.decodeVint, if_neg (by omega), found]
  simp only [bind_eq_bind, bind_some, after]
  by_cases small : first ≤ 127
  · obtain ⟨alone, bits⟩ := oneByte_spec first small
    rw [if_pos small, alone, bits, if_neg (by omega)]
    have none_ : readAt decoder.memory (decoder.input + 1) 0 = some [] := by
      rw [readAt, if_pos (by omega), take_zero]
    simp [none_, ofBytes, ofLittleEndian]
  · rw [if_neg small, loadBytes_eq _ _ _ _ within]
    by_cases short : decoder.remaining < 1 + extraBytes first
    · rw [if_pos short, if_pos (by omega)]
      rfl
    · have last : sizeSub (decoder.remaining - 1) (extraBytes first) =
          decoder.remaining - (1 + extraBytes first) := by
        rw [sizeSub_of_le (by omega) (by omega)]
        omega
      rw [if_neg short, if_neg (by omega), last]
      cases readAt decoder.memory (decoder.input + 1) (extraBytes first) with
      | none => rfl
      | some bytes =>
        simp [Nat.add_assoc]

/-- The bits that the first byte and the bytes behind it leave. -/
theorem two_pow_pieces (extra : Nat) :
    (if extra < 8 then 2 ^ (7 * (extra + 1)) else 2 ^ (8 * extra)) =
      256 ^ extra * 2 ^ (7 - extra) := by
  have base : 256 ^ extra = 2 ^ (8 * extra) := by rw [Nat.pow_mul]
  rw [base, ← Nat.pow_add]
  split
  · congr 1
    omega
  · congr 1
    omega

/-- The vint of a value, in the size that the encoder gives it. -/
def vint (value : UInt64) : List UInt8 :=
  encodeVint value (vintSize value)

/-- A vint is a first byte and the bytes it announces. -/
theorem vint_eq (value : UInt64) :
    ∃ extra high, vintSize value = extra + 1 ∧ extra < 9 ∧
      UInt8.toNat high = value.toNat / 256 ^ extra ∧ high.toNat < 2 ^ (7 - extra) ∧
      vint value = (high ||| sizeBits extra) :: toBytes .big extra value.toNat := by
  have bounds := vintSize_bounds value
  obtain ⟨extra, size⟩ : ∃ extra, vintSize value = extra + 1 := ⟨vintSize value - 1, by omega⟩
  have known : extra < 9 := by omega
  have quotient : value.toNat / 256 ^ extra < 2 ^ (7 - extra) := by
    apply Nat.div_lt_of_lt_mul
    rw [← two_pow_pieces]
    by_cases widest : extra = 8
    · subst widest
      exact value.toNat_lt
    · have small := (vintSize_le_iff value (by omega) (by omega)).mp (le_of_eq size)
      rwa [if_pos (by omega)]
  have byte : (UInt8.ofNat (value.toNat / 256 ^ extra)).toNat = value.toNat / 256 ^ extra := by
    have widest : 2 ^ (7 - extra) ≤ 2 ^ 7 := Nat.pow_le_pow_right (by decide) (by omega)
    rw [UInt8.toNat_ofNat']
    exact Nat.mod_eq_of_lt (lt_of_lt_of_le quotient (widest.trans (by decide)))
  exact ⟨extra, _, size, known, byte, byte.symm ▸ quotient, by rw [vint, size, encodeVint_succ]⟩

@[simp] theorem vint_length (value : UInt64) : (vint value).length = vintSize value := by
  obtain ⟨extra, high, size, -, -, -, bytes⟩ := vint_eq value
  rw [bytes, size, length_cons, toBytes_length]

/-- A vint is read back, whatever follows it. -/
theorem decodeVint_vint (before after : List UInt8) (value : UInt64) {later : Nat} (version : Int)
    (bounded : later < 2 ^ 63) :
    (Decoder.mk' (before ++ (vint value ++ after)) before.length ((vint value).length + later)
        version).decodeVint =
      some (some value, Decoder.mk' ((before ++ vint value) ++ after)
        (before ++ vint value).length later version) := by
  obtain ⟨extra, high, size, known, byte, fits, bytes⟩ := vint_eq value
  obtain ⟨announced, bits⟩ := first_spec known high fits
  rw [← append_assoc, length_append, vint_length, size, bytes]
  generalize layout : before ++ (high ||| sizeBits extra) :: toBytes .big extra value.toNat ++ after =
    memory
  have found : memory[before.length]? = some (high ||| sizeBits extra) := by
    rw [← layout]
    simp
  have read : readAt memory (before.length + 1) extra = some (toBytes .big extra value.toNat) := by
    rw [← layout, append_cons, append_assoc]
    exact readAt_append after (by simp) (toBytes_length _ _ _)
  have whole : UInt64.ofNat (high.toUInt64.toNat * 256 ^ extra +
      ofBytes .big (toBytes .big extra value.toNat)) = value := by
    rw [ofBytes_toBytes, UInt8.toNat_toUInt64, byte, Nat.div_add_mod', UInt64.ofNat_toNat]
  let decoder := Decoder.mk' memory before.length (extra + 1 + later) version
  show decoder.decodeVint = _
  have total : decoder.remaining = extra + 1 + later := rfl
  rw [decodeVint_eq (by omega) (by omega) found, announced, if_neg (by omega), bits]
  show (readAt memory (before.length + 1) extra).map _ = _
  rw [read, map_some, whole, total, Nat.add_comm 1 extra, Nat.add_sub_cancel_left]
  rfl

/-- Bytes that are read as one vint have room for the value they are read as. -/
theorem vintSize_le_of_decodeVint {bytes : List UInt8} {version : Int} {value : UInt64}
    {rest : Decoder}
    (decoded : (Decoder.mk' bytes 0 bytes.length version).decodeVint = some (some value, rest))
    (consumed : rest.remaining = 0) : vintSize value ≤ bytes.length := by
  by_cases long : 9 ≤ bytes.length
  · exact (vintSize_bounds value).2.trans long
  cases bytes with
  | nil => cases decoded
  | cons first others =>
    rw [length_cons] at long decoded ⊢
    have found : (Decoder.mk' (first :: others) 0 (others.length + 1) version).memory[0]? =
      some first := rfl
    rw [decodeVint_eq (Nat.le_add_left 1 _) (show others.length + 1 < _ by omega) found]
      at decoded
    split at decoded
    · cases decoded
    · obtain ⟨tail, read, result⟩ := map_eq_some_iff.mp decoded
      cases result
      have size := (readAt_eq_some read).2
      have all : extraBytes first = others.length := by
        have left : others.length + 1 - (1 + extraBytes first) = 0 := consumed
        have within : 0 + 1 + extraBytes first ≤ (first :: others).length := (readAt_eq_some read).1
        rw [length_cons] at within
        omega
      have top := (firstBits_lt first).2
      have low := ofBytes_lt .big tail
      rw [size] at low
      rw [vintSize_le_iff _ (by omega) (by omega), UInt64.toNat_ofNat']
      refine lt_of_le_of_lt (Nat.mod_le _ _) ?_
      have pieces := two_pow_pieces (extraBytes first)
      rw [if_pos (by omega), all] at pieces
      rw [pieces, ← all]
      calc (firstBits first (extraBytes first)).toNat * 256 ^ extraBytes first + ofBytes .big tail
          < ((firstBits first (extraBytes first)).toNat + 1) * 256 ^ extraBytes first := by
            rw [Nat.succ_mul]
            omega
        _ ≤ 2 ^ (7 - extraBytes first) * 256 ^ extraBytes first := Nat.mul_le_mul_right _ top
        _ = _ := Nat.mul_comm _ _

/-- A vint is no proper start of another one. -/
theorem vint_prefixFree {first second : UInt64} (starts : vint first <+: vint second) :
    first = second := by
  obtain ⟨after, longer⟩ := starts
  have bounds := vintSize_bounds second
  have split : (vint second).length = (vint first).length + after.length := by
    rw [← longer, length_append]
  have small : after.length < 2 ^ 63 := by
    rw [vint_length] at split
    omega
  have readSecond := decodeVint_vint [] [] second 0 (Nat.two_pow_pos 63)
  have readFirst := decodeVint_vint [] after first 0 small
  rw [longer, ← split] at readFirst
  rw [append_nil, Nat.add_zero] at readSecond
  rw [readFirst] at readSecond
  exact Option.some.inj (Prod.mk.inj (Option.some.inj readSecond)).1

/-! ## Durations -/

theorem encodeInternal_false (value : CassDuration) :
    encodeInternal value false = value.zigzagValues.flatMap vint :=
  nil_append _

theorem encodeDuration_eq (value : CassDuration) :
    encodeDuration value =
      vint (encodeZigZag value.months.toInt64) ++
        (vint (encodeZigZag value.days.toInt64) ++ vint (encodeZigZag value.nanos)) := by
  rw [encodeDuration, encodeInternal_false, CassDuration.zigzagValues, flatMap_cons,
    flatMap_cons, flatMap_cons, flatMap_nil, append_nil]

/-- The three vints are read one after the other. -/
theorem asDuration_vints (months days nanos : UInt64) (before after : List UInt8) (version : Int) :
    (Decoder.mk' (before ++ (vint months ++ (vint days ++ vint nanos) ++ after)) before.length
        (vint months ++ (vint days ++ vint nanos)).length version).asDuration =
      some (some ⟨(decodeZigZag months).toInt32, (decodeZigZag days).toInt32, decodeZigZag nanos⟩,
        Decoder.mk' (before ++ (vint months ++ (vint days ++ vint nanos) ++ after))
          (before.length + (vint months ++ (vint days ++ vint nanos)).length) 0 version) := by
  have daysBound := vintSize_bounds days
  have nanosBound := vintSize_bounds nanos
  rw [← vint_length] at daysBound nanosBound
  have readMonths := decodeVint_vint before (vint days ++ (vint nanos ++ after)) months version
    (show (vint days).length + (vint nanos).length < 2 ^ 63 by omega)
  have readDays := decodeVint_vint (before ++ vint months) (vint nanos ++ after) days version
    (show (vint nanos).length < 2 ^ 63 by omega)
  have readNanos := decodeVint_vint (before ++ vint months ++ vint days) after nanos version
    (Nat.two_pow_pos 63)
  have layout : before ++ (vint months ++ (vint days ++ vint nanos) ++ after) =
      before ++ (vint months ++ (vint days ++ (vint nanos ++ after))) := by
    simp only [append_assoc]
  have regrouped : before ++ vint months ++ vint days ++ vint nanos ++ after =
      before ++ (vint months ++ (vint days ++ (vint nanos ++ after))) := by
    simp only [append_assoc]
  have consumed : (before ++ vint months ++ vint days ++ vint nanos).length =
      before.length + ((vint months).length + ((vint days).length + (vint nanos).length)) := by
    simp only [length_append, Nat.add_assoc]
  rw [Nat.add_zero, regrouped, consumed] at readNanos
  rw [layout, length_append, length_append]
  have copied (decoder : Decoder) :
      Decoder.mk' decoder.memory decoder.input decoder.remaining decoder.protocolVersion = decoder :=
    rfl
  simp only [Decoder.asDuration, copied, Fallible.andThen, readMonths, readDays, readNanos,
    bind_eq_bind, bind_some]
  rfl

theorem asDuration_encodeDuration (value : CassDuration) (before after : List UInt8)
    (version : Int) :
    (Decoder.mk' (before ++ (encodeDuration value ++ after)) before.length
        (encodeDuration value).length version).asDuration =
      some (some value, Decoder.mk' (before ++ (encodeDuration value ++ after))
        (before.length + (encodeDuration value).length) 0 version) := by
  rw [encodeDuration_eq, asDuration_vints]
  simp only [decodeZigZag_encodeZigZag, Int32.toInt32_toInt64]

/-- A duration is read back from its bytes, and all of them are consumed.  Its vints have from one
to nine bytes, no shorter bytes are read as the same value, and none is a proper start of another
one. -/
theorem duration_roundTrips :
    (∀ (value : CassDuration) (before after : List UInt8) (version : Int),
      ∃ rest, (Decoder.mk' (before ++ (encodeDuration value ++ after)) before.length
          (encodeDuration value).length version).asDuration = some (some value, rest) ∧
        rest.remaining = 0 ∧ rest.input = before.length + (encodeDuration value).length) ∧
    (∀ n : Int64, 1 ≤ (vint (encodeZigZag n)).length ∧ (vint (encodeZigZag n)).length ≤ 9) ∧
    (∀ (n : Int64) (bytes : List UInt8) (version : Int) (rest : Decoder),
      (Decoder.mk' bytes 0 bytes.length version).decodeVint = some (some (encodeZigZag n), rest) →
        rest.remaining = 0 → (vint (encodeZigZag n)).length ≤ bytes.length) ∧
    (∀ m n : Int64, vint (encodeZigZag m) <+: vint (encodeZigZag n) → m = n) := by
  refine ⟨?_, ?_, ?_, ?_⟩
  · intro value before after version
    exact ⟨_, asDuration_encodeDuration value before after version, rfl, rfl⟩
  · intro n
    rw [vint_length]
    exact vintSize_bounds _
  · intro n bytes version rest decoded consumed
    rw [vint_length]
    exact vintSize_le_of_decodeVint decoded consumed
  · intro m n starts
    rw [← decodeZigZag_encodeZigZag m, vint_prefixFree starts, decodeZigZag_encodeZigZag]

end DseDriver.Cql
