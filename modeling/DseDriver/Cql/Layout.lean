import DseDriver.Cql.Containers
import DseDriver.Cql.Decoder

/-!
# Decoding what lies in memory

A decoder sees a byte string when that is what its cursor and count cover.  The lemmas
here say what the operations of a decoder give when it sees the encoding of something,
and that it then sees the rest.
-/

namespace DseDriver.Cql

open Lib List Option

/-- The decoder covers exactly these bytes. -/
structure Sees (decoder : Decoder) (bytes : List UInt8) : Prop where
  remaining : decoder.remaining = bytes.length
  bounded : bytes.length < 2 ^ 64
  memory : ∃ before after, decoder.memory = before ++ (bytes ++ after) ∧
    before.length = decoder.input

namespace Decoder

/-- Move the cursor over some bytes. -/
def advance (decoder : Decoder) (size : Nat) : Decoder :=
  { decoder with
    input := decoder.input + size
    remaining := sizeSub decoder.remaining size }

/-- A decoder of the next bytes only. -/
def slice (decoder : Decoder) (size : Nat) : Decoder :=
  Decoder.mk' decoder.memory decoder.input size decoder.protocolVersion

end Decoder

namespace Sees

variable {decoder : Decoder} {bytes rest : List UInt8}

theorem advance (sees : Sees decoder (bytes ++ rest)) :
    Sees (decoder.advance bytes.length) rest := by
  rcases sees.memory with ⟨before, after, memory, start⟩
  have remaining := sees.remaining
  have bounded := sees.bounded
  rw [length_append] at remaining bounded
  refine ⟨?_, by omega, before ++ bytes, after, ?_, ?_⟩
  · have left : sizeSub decoder.remaining bytes.length = rest.length := by
      rw [sizeSub_of_le (by omega) (by omega)]
      omega
    exact left
  · rw [Decoder.advance, memory, append_assoc, append_assoc]
  · rw [length_append, start]
    rfl

theorem slice (sees : Sees decoder (bytes ++ rest)) : Sees (decoder.slice bytes.length) bytes := by
  rcases sees.memory with ⟨before, after, memory, start⟩
  have bounded := sees.bounded
  rw [length_append] at bounded
  refine ⟨rfl, by omega, before, rest ++ after, ?_, start⟩
  rw [Decoder.slice, Decoder.mk', memory, append_assoc]

theorem asStringRef (sees : Sees decoder bytes) : decoder.asStringRef = some bytes := by
  rcases sees.memory with ⟨before, after, memory, start⟩
  rw [Decoder.asStringRef, memory, readAt_append after start sees.remaining.symm]

/-- An integer operation on a decoder that sees an encoded integer. -/
theorem decodeFixed {α : Type} (load : List UInt8 → Nat → Option (α × Nat)) (value : α)
    (sees : Sees decoder (bytes ++ rest))
    (loads : ∀ before after : List UInt8, ∀ input, before.length = input →
      load (before ++ (bytes ++ after)) input = some (value, input + bytes.length)) :
    decoder.decodeFixed bytes.length load =
      some (some value, decoder.advance bytes.length) := by
  rcases sees.memory with ⟨before, after, memory, start⟩
  have remaining := sees.remaining
  rw [length_append] at remaining
  have enough : ¬ decoder.remaining < bytes.length := by omega
  have loaded := loads before (rest ++ after) decoder.input start
  rw [← append_assoc bytes, ← memory] at loaded
  rw [Decoder.decodeFixed, if_neg enough, loaded]
  rfl

theorem decodeInt32 {value : Int32} (sees : Sees decoder (encodeInt32 value ++ rest)) :
    decoder.decodeInt32 = some (some value, decoder.advance 4) := by
  have decoded := sees.decodeFixed Cql.decodeInt32 value fun before after input start => by
    rw [encodeInt32_length]
    exact decodeInt32_append after value start
  rw [encodeInt32_length] at decoded
  exact decoded

/-- A size from version 3 on. -/
theorem decodeSize {value : Int32} (sees : Sees decoder (encodeInt32 value ++ rest))
    (modern : 3 ≤ decoder.protocolVersion) :
    decoder.decodeSize = some (some value, decoder.advance 4) := by
  rw [Decoder.decodeSize, if_neg (by omega)]
  exact sees.decodeInt32

/-- A size before version 3. -/
theorem decodeSize_short {value : UInt16} (sees : Sees decoder (encodeUint16 value ++ rest))
    (early : decoder.protocolVersion < 3) :
    decoder.decodeSize = some (some value.toUInt32.toInt32, decoder.advance 2) := by
  have decoded := sees.decodeFixed
    (fun memory input => (Cql.decodeUint16 memory input).map
      (Prod.map (fun size => size.toUInt32.toInt32) id))
    value.toUInt32.toInt32 fun before after input start => by
      rw [encodeUint16_length]
      simp [decodeUint16_append after value start]
  rw [encodeUint16_length] at decoded
  rw [Decoder.decodeSize, if_pos early]
  exact decoded

end Sees

/-! ## Values -/

/-- The value `decode_value` makes of the bytes of a value that is not null. -/
def makeValue (dataType : DataType) (buffer : Decoder) : Option (Option Value) :=
  if dataType.isCollection then
    buffer.decodeSize.map fun decoded =>
      decoded.1.map fun count => .ofCollection dataType count decoded.2
  else some (some (.ofDecoder dataType buffer))

theorem toNatClampNeg_ofNat {size : Nat} (small : size < 2 ^ 31) :
    (Int32.ofNat size).toNatClampNeg = size := by
  rw [Int32.toNatClampNeg, Int32.toInt_ofNat_of_lt small]
  rfl

theorem zero_le_ofNat {size : Nat} (small : size < 2 ^ 31) : (0 : Int32) ≤ Int32.ofNat size := by
  rw [Int32.le_iff_toInt_le, Int32.toInt_ofNat_of_lt small]
  exact Int.natCast_nonneg size

/-- `decode_value` once the size is read. -/
theorem decodeValue_of_size {dataType : DataType} (isInsideCollection : Bool)
    {decoder sized : Decoder} {size : Nat} (small : size < 2 ^ 31)
    (read : (if isInsideCollection then decoder.decodeSize else decoder.decodeInt32) =
      some (some (Int32.ofNat size), sized)) {value : Value}
    (made : makeValue dataType (sized.slice size) = some (some value)) :
    decoder.decodeValue dataType isInsideCollection =
      some (some value, sized.advance size) := by
  have rest : decoder.decodeValue dataType isInsideCollection =
      (makeValue dataType (sized.slice size)).map (·, sized.advance size) := by
    cases isInsideCollection <;>
      simp only [Bool.false_eq_true, if_true, if_false] at read <;>
      simp only [Decoder.decodeValue, read, bind_eq_bind, bind_some,
        zero_le_ofNat small, Bool.false_eq_true, if_true, if_false,
        toNatClampNeg_ofNat small, makeValue] <;>
      cases dataType.isCollection with
      | false => rfl
      | true =>
        have same : Decoder.mk' sized.memory sized.input size sized.protocolVersion =
            sized.slice size := rfl
        simp only [if_true, same]
        rcases (sized.slice size).decodeSize with _ | ⟨_ | _, _⟩ <;> rfl
  rw [rest, made]
  rfl

/-- `decode_value` of a negative length. -/
theorem decodeValue_negative {dataType : DataType} {decoder : Decoder} {rest : List UInt8}
    {length : Int32} (sees : Sees decoder (encodeInt32 length ++ rest)) (negative : length < 0) :
    decoder.decodeValue dataType false =
      some (some (.null dataType), decoder.advance 4) := by
  rw [Decoder.decodeValue]
  simp only [Bool.false_eq_true, if_false, sees.decodeInt32, bind_eq_bind,
    bind_some, Int32.not_le.mpr negative]
  rfl

end DseDriver.Cql
