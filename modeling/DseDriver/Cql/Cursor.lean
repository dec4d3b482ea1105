import DseDriver.Cql.DecoderOperations

/-!
# Reading inside a buffer

A decoder is made for a range of bytes.  Its operations check what they read against the bytes
that remain, so each of them keeps the cursor and the references it hands out in this range.
-/

namespace DseDriver.Cql

open Lib

/-! ## The range of a decoder -/

/-- The bytes that a decoder is made for, a range of the memory.  An object of the source has
less than `2 ^ 63` bytes. -/
structure InputBuffer where
  memory : List UInt8
  start : Nat
  stop : Nat
  ordered : start ≤ stop
  inside : stop ≤ memory.length
  bounded : memory.length < 2 ^ 63

namespace InputBuffer

/-- The cursor is in the buffer, and the bytes that remain end with it. -/
structure Covers (buffer : InputBuffer) (decoder : Decoder) : Prop where
  memory : decoder.memory = buffer.memory
  start : buffer.start ≤ decoder.input
  stop : decoder.input + decoder.remaining = buffer.stop

/-- A reference into the buffer; the null pointer goes with no bytes. -/
def Contains (buffer : InputBuffer) (reference : StringRef) : Prop :=
  match reference.data with
  | none => reference.size = 0
  | some data => buffer.start ≤ data ∧ data + reference.size ≤ buffer.stop

end InputBuffer

/-! ## Operations -/

variable {buffer : InputBuffer} {decoder : Decoder}

/-- The bytes behind the cursor, as a buffer of their own. -/
def InputBuffer.Covers.rest (covers : buffer.Covers decoder) : InputBuffer :=
  { buffer with start := decoder.input, ordered := Nat.le.intro covers.stop }

theorem InputBuffer.Covers.of_rest {after : Decoder} (covers : buffer.Covers decoder)
    (inner : covers.rest.Covers after) : buffer.Covers after :=
  ⟨inner.memory, Nat.le_trans covers.start inner.start, inner.stop⟩

/-- An advance by bytes that remain. -/
theorem InputBuffer.Covers.advance (covers : buffer.Covers decoder) {size : Nat}
    (enough : ¬ decoder.remaining < size) :
    buffer.Covers { decoder with
      input := decoder.input + size
      remaining := sizeSub decoder.remaining size } := by
  have inside := buffer.inside
  have bounded := buffer.bounded
  have stop := covers.stop
  refine ⟨covers.memory, Nat.le_add_right_of_le covers.start, ?_⟩
  rw [sizeSub_of_le (by omega) (by omega)]
  dsimp only
  omega

theorem keeps_fixed {α : Type} (width : Nat) (convert : Nat → α) :
    Keeps buffer.Covers (Decoder.decodeFixed width fun memory input =>
      (decodeWord width memory input).map (Prod.map convert id)) fun _ => True := by
  intro decoder covers
  rw [Decoder.decodeFixed]
  split
  next => exact ⟨none, decoder, rfl, covers, fun _ _ => trivial⟩
  next enough =>
    have inside : decoder.input + width ≤ decoder.memory.length := by
      have inside := buffer.inside
      have stop := covers.stop
      rw [covers.memory]
      omega
    simp only [decodeWord, readAt, if_pos inside]
    exact ⟨_, _, rfl, covers.advance enough, fun _ _ => trivial⟩

theorem keeps_uint16 : Keeps buffer.Covers Decoder.decodeUint16 fun _ => True :=
  keeps_fixed 2 _

theorem keeps_int32 : Keeps buffer.Covers Decoder.decodeInt32 fun _ => True :=
  keeps_fixed 4 _

theorem keeps_takeRange (size : Nat) :
    Keeps buffer.Covers (Decoder.takeRange size) buffer.Contains := by
  intro decoder covers
  rw [Decoder.takeRange]
  split
  next => exact ⟨none, decoder, rfl, covers, fun _ none => by cases none⟩
  next enough =>
    refine ⟨_, _, rfl, covers.advance enough, ?_⟩
    intro range same
    cases same
    have stop := covers.stop
    exact ⟨covers.start, by dsimp only; omega⟩

theorem keeps_copyRange {reference : StringRef} (contained : buffer.Contains reference) :
    Keeps buffer.Covers (Decoder.copyRange reference) fun _ => True := by
  intro decoder covers
  obtain ⟨bytes, copied⟩ : ∃ bytes, reference.toBytes decoder.memory = some bytes := by
    obtain ⟨_ | data, size⟩ := reference
    · exact ⟨[], rfl⟩
    · rw [covers.memory]
      exact ⟨_, if_pos (Nat.le_trans contained.2 buffer.inside)⟩
  exact ⟨some bytes, decoder, by rw [Decoder.copyRange, copied]; rfl, covers, fun _ _ => trivial⟩

theorem keeps_string : Keeps buffer.Covers Decoder.decodeString buffer.Contains :=
  keeps_uint16.andThen fun _ _ => keeps_takeRange _

theorem keeps_bytes : Keeps buffer.Covers Decoder.decodeBytes buffer.Contains := by
  refine keeps_int32.andThen fun bytesSize _ => ?_
  split
  · exact .succeed rfl
  · exact keeps_takeRange _

theorem keeps_stringCopy : Keeps buffer.Covers Decoder.decodeStringCopy fun _ => True :=
  keeps_string.andThen fun _ contained => keeps_copyRange contained

end DseDriver.Cql
