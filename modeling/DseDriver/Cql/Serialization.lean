import DseDriver.Lib.Bytes

/-!
# Primitive CQL serialization

The integer codecs of `serialization.hpp`.  Every one of them moves the bytes of
a word most significant byte first, so they are one encoder and one decoder at
the widths and types of the source.  A decoder reads memory at a cursor and
returns the advanced cursor; `none` is a read that leaves the memory.
-/

namespace DseDriver.Cql

open Lib Option

/-- Bytes an integer encoder stores at its output pointer. -/
def encodeWord (width bits : Nat) : List UInt8 :=
  toBytes .big width bits

/-- Bits an integer decoder loads, with the pointer it returns. -/
def decodeWord (width : Nat) (memory : List UInt8) (input : Nat) : Option (Nat × Nat) :=
  (readAt memory input width).map fun bytes => (ofBytes .big bytes, input + width)

def encodeByte (value : UInt8) : List UInt8 :=
  encodeWord 1 value.toNat

def encodeInt8 (value : Int8) : List UInt8 :=
  encodeWord 1 value.toUInt8.toNat

def encodeUint16 (value : UInt16) : List UInt8 :=
  encodeWord 2 value.toNat

def encodeInt16 (value : Int16) : List UInt8 :=
  encodeWord 2 value.toUInt16.toNat

def encodeInt32 (value : Int32) : List UInt8 :=
  encodeWord 4 value.toUInt32.toNat

def encodeInt64 (value : Int64) : List UInt8 :=
  encodeWord 8 value.toUInt64.toNat

def decodeByte (memory : List UInt8) (input : Nat) : Option (UInt8 × Nat) :=
  (decodeWord 1 memory input).map (Prod.map UInt8.ofNat id)

def decodeInt8 (memory : List UInt8) (input : Nat) : Option (Int8 × Nat) :=
  (decodeWord 1 memory input).map (Prod.map (fun bits => (UInt8.ofNat bits).toInt8) id)

def decodeUint16 (memory : List UInt8) (input : Nat) : Option (UInt16 × Nat) :=
  (decodeWord 2 memory input).map (Prod.map UInt16.ofNat id)

def decodeInt16 (memory : List UInt8) (input : Nat) : Option (Int16 × Nat) :=
  (decodeWord 2 memory input).map (Prod.map (fun bits => (UInt16.ofNat bits).toInt16) id)

def decodeInt32 (memory : List UInt8) (input : Nat) : Option (Int32 × Nat) :=
  (decodeWord 4 memory input).map (Prod.map (fun bits => (UInt32.ofNat bits).toInt32) id)

def decodeInt64 (memory : List UInt8) (input : Nat) : Option (Int64 × Nat) :=
  (decodeWord 8 memory input).map (Prod.map (fun bits => (UInt64.ofNat bits).toInt64) id)

@[simp] theorem encodeWord_length (width bits : Nat) :
    (encodeWord width bits).length = width := by
  simp [encodeWord]

@[simp] theorem encodeByte_length (value : UInt8) : (encodeByte value).length = 1 := by
  simp [encodeByte]

@[simp] theorem encodeInt8_length (value : Int8) : (encodeInt8 value).length = 1 := by
  simp [encodeInt8]

@[simp] theorem encodeUint16_length (value : UInt16) : (encodeUint16 value).length = 2 := by
  simp [encodeUint16]

@[simp] theorem encodeInt16_length (value : Int16) : (encodeInt16 value).length = 2 := by
  simp [encodeInt16]

@[simp] theorem encodeInt32_length (value : Int32) : (encodeInt32 value).length = 4 := by
  simp [encodeInt32]

@[simp] theorem encodeInt64_length (value : Int64) : (encodeInt64 value).length = 8 := by
  simp [encodeInt64]

variable {before : List UInt8}

/-- A word that lies at the cursor is read back. -/
theorem decodeWord_append (after : List UInt8) (width : Nat) {bits input : Nat}
    (start : before.length = input) (fits : bits < 2 ^ (8 * width)) :
    decodeWord width (before ++ (encodeWord width bits ++ after)) input =
      some (bits, input + width) := by
  rw [decodeWord, readAt_append after start (encodeWord_length width bits), map_some,
    encodeWord, ofBytes_toBytes, ← Nat.pow_mul 2 8 width, Nat.mod_eq_of_lt fits]

variable {input : Nat}

section Append

variable (after : List UInt8)

theorem decodeByte_append (value : UInt8) (start : before.length = input) :
    decodeByte (before ++ (encodeByte value ++ after)) input = some (value, input + 1) := by
  simp [decodeByte, encodeByte, decodeWord_append after 1 start value.toNat_lt]

theorem decodeInt8_append (value : Int8) (start : before.length = input) :
    decodeInt8 (before ++ (encodeInt8 value ++ after)) input = some (value, input + 1) := by
  simp only [decodeInt8, encodeInt8, decodeWord_append after 1 start value.toUInt8.toNat_lt,
    map_some, Prod.map_apply, UInt8.ofNat_toNat, Int8.toInt8_toUInt8, id]

theorem decodeUint16_append (value : UInt16) (start : before.length = input) :
    decodeUint16 (before ++ (encodeUint16 value ++ after)) input = some (value, input + 2) := by
  simp [decodeUint16, encodeUint16, decodeWord_append after 2 start value.toNat_lt]

theorem decodeInt16_append (value : Int16) (start : before.length = input) :
    decodeInt16 (before ++ (encodeInt16 value ++ after)) input = some (value, input + 2) := by
  simp only [decodeInt16, encodeInt16, decodeWord_append after 2 start value.toUInt16.toNat_lt,
    map_some, Prod.map_apply, UInt16.ofNat_toNat, Int16.toInt16_toUInt16, id]

theorem decodeInt32_append (value : Int32) (start : before.length = input) :
    decodeInt32 (before ++ (encodeInt32 value ++ after)) input = some (value, input + 4) := by
  simp only [decodeInt32, encodeInt32, decodeWord_append after 4 start value.toUInt32.toNat_lt,
    map_some, Prod.map_apply, UInt32.ofNat_toNat, Int32.toInt32_toUInt32, id]

theorem decodeInt64_append (value : Int64) (start : before.length = input) :
    decodeInt64 (before ++ (encodeInt64 value ++ after)) input = some (value, input + 8) := by
  simp only [decodeInt64, encodeInt64, decodeWord_append after 8 start value.toUInt64.toNat_lt,
    map_some, Prod.map_apply, UInt64.ofNat_toNat, Int64.toInt64_toUInt64, id]

end Append

/-- `static_cast<size_t>` of an int. -/
def sizeOfInt32 (size : Int32) : Nat :=
  size.toInt64.toUInt64.toNat

/-- A size that fits is converted without change. -/
theorem sizeOfInt32_ofNat {size : Nat} (small : size < 2 ^ 31) :
    sizeOfInt32 (Int32.ofNat size) = size := by
  have widened : (Int32.ofNat size).toInt64 = Int64.ofNat size := by
    apply Int64.toInt_inj.mp
    rw [Int32.toInt_toInt64, Int32.toInt_ofNat_of_lt small, Int64.toInt_ofNat_of_lt (by omega)]
  rw [sizeOfInt32, widened]
  simp only [Int64.toUInt64_ofNat', UInt64.toNat_ofNat']
  omega

end DseDriver.Cql
