import DseDriver.CassError
import DseDriver.Cql.Decoder

/-!
# Well-known binary primitives

The geometry helpers of `serialization.hpp` and `validate.hpp`.  Geometry words
are copied to and from memory, so they are laid out in the byte order of the
machine; that order is a parameter `native` of the development and not fixed.
-/

namespace DseDriver.Geometry

open Lib Cql

/-- The pattern of a `cass_double_t`; geometry code only moves it around. -/
abbrev Double := UInt64

/-- `WkbByteOrder`, including the values a cast from an arbitrary byte can give. -/
inductive WkbByteOrder where
  | bigEndian
  | littleEndian
  | other (raw : UInt8)
  deriving DecidableEq, Repr

/-- `WkbGeometryType`, including the values a cast from a word can give. -/
inductive WkbGeometryType where
  | point
  | lineString
  | polygon
  | multiPoint
  | multiLineString
  | multiPolygon
  | geometryCollection
  | other (raw : UInt32)
  deriving DecidableEq, Repr

def WkbByteOrder.ofByte (raw : UInt8) : WkbByteOrder :=
  if raw = 0 then .bigEndian else if raw = 1 then .littleEndian else .other raw

def WkbByteOrder.toByte : WkbByteOrder → UInt8
  | bigEndian => 0
  | littleEndian => 1
  | other raw => raw

def WkbGeometryType.toUint32 : WkbGeometryType → UInt32
  | point => 1
  | lineString => 2
  | polygon => 3
  | multiPoint => 4
  | multiLineString => 5
  | multiPolygon => 6
  | geometryCollection => 7
  | other raw => raw

def WkbGeometryType.ofUint32 (raw : UInt32) : WkbGeometryType :=
  if raw = 1 then .point
  else if raw = 2 then .lineString
  else if raw = 3 then .polygon
  else if raw = 4 then .multiPoint
  else if raw = 5 then .multiLineString
  else if raw = 6 then .multiPolygon
  else if raw = 7 then .geometryCollection
  else .other raw

/-- `native_byte_order`. -/
def nativeByteOrder : ByteOrder → WkbByteOrder
  | .big => .bigEndian
  | .little => .littleEndian

/-- `WKB_HEADER_SIZE`: endianness and geometry type. -/
def wkbHeaderSize : Nat := 5

/-- `WKB_POLYGON_HEADER_SIZE`: header and number of rings. -/
def wkbPolygonHeaderSize : Nat := wkbHeaderSize + 4

def dsePolygonType : String := "org.apache.cassandra.db.marshal.PolygonType"

/-- `swap_uint32`. -/
def swapUint32 (value : UInt32) : UInt32 :=
  let value := ((value <<< 8) &&& (0xFF00FF00 : UInt32)) ||| ((value >>> 8) &&& (0xFF00FF : UInt32))
  (value <<< 16) ||| (value >>> 16)

/-- `swap_uint64`. -/
def swapUint64 (value : UInt64) : UInt64 :=
  let value := ((value <<< 8) &&& (0xFF00FF00FF00FF00 : UInt64)) |||
    ((value >>> 8) &&& (0x00FF00FF00FF00FF : UInt64))
  let value := ((value <<< 16) &&& (0xFFFF0000FFFF0000 : UInt64)) |||
    ((value >>> 16) &&& (0x0000FFFF0000FFFF : UInt64))
  (value <<< 32) ||| (value >>> 32)

variable (native : ByteOrder)

/-- A 32-bit word as it lies in memory. -/
def uint32Bytes (value : UInt32) : List UInt8 :=
  toBytes native 4 value.toNat

/-- A double as it lies in memory. -/
def doubleBytes (value : Double) : List UInt8 :=
  toBytes native 8 value.toNat

/-- `encode` of a 32-bit word; `none` is its failed assertion. -/
def encode (value : UInt32) (index : Nat) (bytes : List UInt8) : Option (List UInt8) :=
  writeAt bytes index (uint32Bytes native value)

/-- `encode_header_append`. -/
def encodeHeaderAppend (type : WkbGeometryType) (bytes : List UInt8) : List UInt8 :=
  bytes ++ [(nativeByteOrder native).toByte] ++ uint32Bytes native type.toUint32

/-- `decode_uint32`; `none` is a read outside the bytes.  The source drops the
result of the byte swap, so both byte orders give the native word. -/
def decodeUint32 (bytes : List UInt8) (pos : Nat) (byteOrder : WkbByteOrder) : Option UInt32 := do
  let value := UInt32.ofNat (ofBytes native (← readAt bytes pos 4))
  if byteOrder ≠ nativeByteOrder native then
    let _ := swapUint32 value
    return value
  return value

/-- `decode_double`, which drops the result of the byte swap as well. -/
def decodeDouble (bytes : List UInt8) (pos : Nat) (byteOrder : WkbByteOrder) : Option Double := do
  let value := UInt64.ofNat (ofBytes native (← readAt bytes pos 8))
  if byteOrder ≠ nativeByteOrder native then
    let _ := swapUint64 value
    return value
  return value

/-- `decode_header`. -/
def decodeHeader (bytes : List UInt8) (pos : Nat) : Option (WkbGeometryType × WkbByteOrder) := do
  let byteOrder := WkbByteOrder.ofByte (← bytes[pos]?)
  let type ← decodeUint32 native bytes (pos + 1) byteOrder
  return (.ofUint32 type, byteOrder)

/-- `validate_data_type`. -/
def validateDataType (value : Value) (className : String) : CassError :=
  match value.dataType with
  | none => .libInternalError
  | some (.custom name) => if name ≠ className then .libInvalidCustomType else .ok
  | some _ => .libInvalidValueType

/-- `cass_value_get_bytes`; the outer `none` is a range outside the response. -/
def cassValueGetBytes (value : Value) : Option (Except CassError (List UInt8)) :=
  if value.isNull then
    some (.error .libNullValue)
  else
    value.decoder.asStringRef.map .ok

theorem cassValueGetBytes_error {value : Value} {rc : CassError}
    (failed : cassValueGetBytes value = some (.error rc)) : rc = .libNullValue := by
  rw [cassValueGetBytes] at failed
  split at failed
  · cases failed
    rfl
  · obtain ⟨bytes, -, impossible⟩ := Option.map_eq_some_iff.mp failed
    cases impossible

variable (native : ByteOrder)

@[simp] theorem uint32Bytes_length (value : UInt32) :
    (uint32Bytes native value).length = 4 := by
  simp [uint32Bytes]

@[simp] theorem doubleBytes_length (value : Double) :
    (doubleBytes native value).length = 8 := by
  simp [doubleBytes]

@[simp] theorem ofByte_toByte_native :
    WkbByteOrder.ofByte (nativeByteOrder native).toByte = nativeByteOrder native := by
  cases native <;> rfl

theorem decodeUint32_eq (bytes : List UInt8) (pos : Nat) (byteOrder : WkbByteOrder) :
    decodeUint32 native bytes pos byteOrder =
      (readAt bytes pos 4).map fun range => UInt32.ofNat (ofBytes native range) := by
  unfold decodeUint32
  cases readAt bytes pos 4 <;> simp

theorem decodeDouble_eq (bytes : List UInt8) (pos : Nat) (byteOrder : WkbByteOrder) :
    decodeDouble native bytes pos byteOrder =
      (readAt bytes pos 8).map fun range => UInt64.ofNat (ofBytes native range) := by
  unfold decodeDouble
  cases readAt bytes pos 8 <;> simp

/-- A word at the cursor is read back, whatever the byte order argument is. -/
theorem decodeUint32_append {before : List UInt8} (after : List UInt8) (value : UInt32)
    (byteOrder : WkbByteOrder) {pos : Nat} (start : before.length = pos) :
    decodeUint32 native (before ++ (uint32Bytes native value ++ after)) pos byteOrder =
      some value := by
  rw [decodeUint32_eq, readAt_append after start (uint32Bytes_length native value)]
  simp [uint32Bytes, ofBytes_toBytes]

theorem decodeDouble_append {before : List UInt8} (after : List UInt8) (value : Double)
    (byteOrder : WkbByteOrder) {pos : Nat} (start : before.length = pos) :
    decodeDouble native (before ++ (doubleBytes native value ++ after)) pos byteOrder =
      some value := by
  rw [decodeDouble_eq, readAt_append after start (doubleBytes_length native value)]
  simp [doubleBytes, ofBytes_toBytes]

/-- A word is read where its bytes are. -/
theorem decodeUint32_eq_some_iff {bytes : List UInt8} {pos : Nat} {byteOrder : WkbByteOrder}
    {value : UInt32} :
    decodeUint32 native bytes pos byteOrder = some value ↔
      bytes.drop pos = uint32Bytes native value ++ bytes.drop (pos + 4) := by
  rw [decodeUint32_eq]
  apply map_readAt_eq_some_iff (by decide) (uint32Bytes_length native value)
  · simp [uint32Bytes, ofBytes_toBytes]
  · intro range width
    have small := ofBytes_lt native range
    have same := toBytes_ofBytes native range
    rw [width] at small same
    rw [uint32Bytes, UInt32.toNat_ofNat_of_lt' small, same]

/-- A double is read where its bytes are. -/
theorem decodeDouble_eq_some_iff {bytes : List UInt8} {pos : Nat} {byteOrder : WkbByteOrder}
    {value : Double} :
    decodeDouble native bytes pos byteOrder = some value ↔
      bytes.drop pos = doubleBytes native value ++ bytes.drop (pos + 8) := by
  rw [decodeDouble_eq]
  apply map_readAt_eq_some_iff (by decide) (doubleBytes_length native value)
  · simp [doubleBytes, ofBytes_toBytes]
  · intro range width
    have small := ofBytes_lt native range
    have same := toBytes_ofBytes native range
    rw [width] at small same
    rw [doubleBytes, UInt64.toNat_ofNat_of_lt' small, same]

end DseDriver.Geometry
