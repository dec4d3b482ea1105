import DseDriver.Cql.DecoderOperations
import DseDriver.Cql.Layout

/-!
# The words that a decoder reads

Integers, strings and ranges of bytes as languages, and the operations of a decoder that recognise
them: each has an output exactly if the bytes in front of it start with such a word.
-/

namespace DseDriver.Cql

open Lib List Option

/-- A number of bytes. -/
def rangeBytes (size : Nat) : Language UInt8 := {bytes : List UInt8 | bytes.length = size}

/-- A string behind its length. -/
def stringBytes : Language UInt8 :=
  ⨆ size : UInt16, {encodeUint16 size} * rangeBytes size.toNat

/-- A range of bytes behind its length, or a negative length. -/
def bytesBytes : Language UInt8 :=
  ⨆ size : Int32, {encodeInt32 size} * if size < 0 then 1 else rangeBytes (sizeOfInt32 size)

section Integers

variable {α : Type} {width : Nat} {load : List UInt8 → Nat → Option (α × Nat)}
  {encode : α → List UInt8}

/-- An integer is read if its bytes are there. -/
theorem recognises_fixed (lengths : ∀ value, (encode value).length = width)
    (onto : ∀ bytes, bytes.length = width → ∃ value, encode value = bytes)
    (loads : ∀ value (before after : List UInt8) input, before.length = input →
      load (before ++ (encode value ++ after)) input = some (value, input + width)) (value : α) :
    Recognises Sees (· = value) {encode value} (Decoder.decodeFixed width load) := by
  have decodes {decoder : Decoder} {rest : List UInt8} (other : α)
      (sees : Sees decoder (encode other ++ rest)) :
      decoder.decodeFixed width load = some (some other, decoder.advance width) := by
    have decoded := sees.decodeFixed load other fun before after input start => by
      rw [lengths]
      exact loads other before after input start
    rwa [lengths] at decoded
  have advances {decoder : Decoder} {rest : List UInt8} (other : α)
      (sees : Sees decoder (encode other ++ rest)) : Sees (decoder.advance width) rest :=
    lengths other ▸ sees.advance
  constructor
  · intro decoder input result last sees ran same
    have enough : width ≤ input.length := by
      by_contra short
      rw [Decoder.decodeFixed, if_pos (by rw [sees.remaining]; omega)] at ran
      cases ran
    obtain ⟨other, isOther⟩ := onto (input.take width) (length_take_of_le enough)
    rw [← take_append_drop width input, ← isOther] at sees ⊢
    rw [decodes other sees] at ran
    cases ran
    exact ⟨encode result, congrArg encode same, _, rfl, advances result sees⟩
  · rintro decoder word rest rfl sees
    exact ⟨value, _, rfl, decodes value sees, advances value sees⟩

end Integers

theorem exists_encodeWord {width : Nat} {bytes : List UInt8} (length : bytes.length = width) :
    ∃ bits < 2 ^ (8 * width), encodeWord width bits = bytes := by
  refine ⟨ofBytes .big bytes, ?_, ?_⟩
  · rw [Nat.pow_mul, ← length]
    exact ofBytes_lt .big bytes
  · rw [encodeWord, ← length]
    exact toBytes_ofBytes .big bytes

theorem recognises_uint16 (value : UInt16) :
    Recognises Sees (· = value) {encodeUint16 value} Decoder.decodeUint16 :=
  recognises_fixed encodeUint16_length
    (fun bytes length => by
      obtain ⟨bits, fits, rfl⟩ := exists_encodeWord length
      exact ⟨.ofNat bits, by rw [encodeUint16, UInt16.toNat_ofNat_of_lt' fits]⟩)
    (fun value _ after _ start => decodeUint16_append after value start) value

theorem recognises_int32 (value : Int32) :
    Recognises Sees (· = value) {encodeInt32 value} Decoder.decodeInt32 :=
  recognises_fixed encodeInt32_length
    (fun bytes length => by
      obtain ⟨bits, fits, rfl⟩ := exists_encodeWord length
      exact ⟨(UInt32.ofNat bits).toInt32, by
        rw [encodeInt32, UInt32.toUInt32_toInt32, UInt32.toNat_ofNat_of_lt' fits]⟩)
    (fun value _ after _ start => decodeInt32_append after value start) value

theorem recognises_takeRange (size : Nat) :
    Recognises Sees (fun _ => True) (rangeBytes size) (Decoder.takeRange size) where
  sound := by
    intro decoder input result last sees ran _
    rw [Decoder.takeRange] at ran
    split at ran
    next => cases ran
    next enough =>
      cases ran
      rw [sees.remaining] at enough
      have length := length_take_of_le (Nat.not_lt.mp enough)
      rw [← take_append_drop size input] at sees
      have behind := sees.advance
      rw [length] at behind
      exact ⟨input.take size, length, _, (take_append_drop size input).symm, behind⟩
  complete := by
    intro decoder word rest length sees
    obtain rfl : word.length = size := length
    have enough : ¬ decoder.remaining < word.length := by
      rw [sees.remaining, length_append]
      omega
    exact ⟨_, _, trivial, if_neg enough, sees.advance⟩

theorem recognises_string : Recognises Sees (fun _ => True) stringBytes Decoder.decodeString :=
  .headed recognises_uint16 fun size => recognises_takeRange size.toNat

theorem recognises_bytes : Recognises Sees (fun _ => True) bytesBytes Decoder.decodeBytes := by
  refine .headed recognises_int32 fun size => ?_
  split
  · exact .succeed trivial
  · exact recognises_takeRange _

/-- A copy of the string is made behind it. -/
theorem recognises_stringCopy :
    Recognises Sees (fun _ => True) stringBytes Decoder.decodeStringCopy where
  sound := by
    intro decoder input result last sees ran _
    obtain ⟨⟨reference, middle⟩, read, copied⟩ := bind_eq_some_iff.mp ran
    cases reference with
    | none => cases copied
    | some reference =>
      obtain ⟨bytes, -, same⟩ := map_eq_some_iff.mp copied
      cases same
      exact recognises_string.sound sees read trivial
  complete := by
    intro decoder word rest member sees
    obtain ⟨size, both⟩ := Language.mem_iSup.mp member
    obtain ⟨_, rfl, text, length, rfl⟩ := Language.mem_mul.mp both
    rw [append_assoc] at sees
    obtain ⟨size, middle, rfl, began, between⟩ := (recognises_uint16 size).complete rfl sees
    have taken : Decoder.takeRange text.length middle =
        some (some ⟨some middle.input, text.length⟩, middle.advance text.length) := by
      have enough : ¬ middle.remaining < text.length := by
        rw [between.remaining, length_append]
        omega
      exact if_neg enough
    have copied : readAt middle.memory middle.input text.length = some text :=
      between.slice.asStringRef
    refine ⟨text, middle.advance text.length, trivial, ?_, between.advance⟩
    rw [Decoder.decodeStringCopy, Decoder.decodeString]
    simp only [Fallible.andThen, began, bind_eq_bind, bind_some]
    rw [← show text.length = _ from length, taken]
    simp only [bind_some, Decoder.copyRange, StringRef.toBytes, Decoder.advance, copied,
      map_some]

end DseDriver.Cql
