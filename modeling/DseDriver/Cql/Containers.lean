import DseDriver.Cql.DataType
import DseDriver.Cql.Serialization

/-!
# Encoding collections, tuples and user types

`Collection`, `Tuple` and `AbstractData` hold the encodings of the values put into them
and join these when they are themselves encoded.  A value tree describes what an
application builds with them.
-/

namespace DseDriver.Cql

open List

/-- `CASS_HIGHEST_SUPPORTED_PROTOCOL_VERSION`. -/
def highestSupportedProtocolVersion : Int := 4

/-- `encode_with_length` of null. -/
def encodeNull : List UInt8 :=
  encodeInt32 (-1)

/-- `encode_with_length` of a scalar whose own encoding is given. -/
def encodeWithLength (bytes : List UInt8) : List UInt8 :=
  encodeInt32 (Int32.ofNat bytes.length) ++ bytes

/-! ## Collections -/

/-- A `Collection`: its kind and the encodings of its items.  The items of a map are its
keys and values in turn. -/
structure Collection where
  kind : CollectionKind
  items : List (List UInt8)
  deriving DecidableEq, Repr

namespace Collection

variable (collection : Collection)

/-- `get_count`. -/
def getCount : Nat :=
  if collection.kind = .map then collection.items.length / 2 else collection.items.length

/-- The private `get_items_size`. -/
def getItemsSize (numBytesForSize : Nat) : Nat :=
  (collection.items.map fun item => numBytesForSize + item.length).sum

/-- `encode_items_int32`. -/
def encodeItemsInt32 : List UInt8 :=
  collection.items.flatMap fun item => encodeInt32 (Int32.ofNat item.length) ++ item

/-- `encode_items_uint16`. -/
def encodeItemsUint16 : List UInt8 :=
  collection.items.flatMap fun item => encodeUint16 (UInt16.ofNat item.length) ++ item

/-- `encode`: inner types are always encoded using the v3+ encoding. -/
def encode : List UInt8 :=
  encodeInt32 (Int32.ofNat collection.getCount) ++ collection.encodeItemsInt32

/-- `get_size_with_length`. -/
def getSizeWithLength (version : Int) : Nat :=
  4 + if version ≥ 3 then 4 + collection.getItemsSize 4 else 2 + collection.getItemsSize 2

/-- `encode_with_length`. -/
def encodeWithLength (version : Int) : List UInt8 :=
  if version ≥ 3 then
    encodeInt32 (Int32.ofNat (4 + collection.getItemsSize 4)) ++
      (encodeInt32 (Int32.ofNat collection.getCount) ++ collection.encodeItemsInt32)
  else
    encodeInt32 (Int32.ofNat (2 + collection.getItemsSize 2)) ++
      (encodeUint16 (UInt16.ofNat collection.getCount) ++ collection.encodeItemsUint16)

end Collection

/-! ## Tuples -/

/-- A `Tuple`: the encodings of its items with their lengths; an item that was never set
is empty. -/
structure Tuple where
  items : List (List UInt8)
  deriving DecidableEq, Repr

namespace Tuple

/-- `get_buffers_size`. -/
def getBuffersSize (tuple : Tuple) : Nat :=
  (tuple.items.map fun item => if item.length ≠ 0 then item.length else 4).sum

/-- `encode_buffers`. -/
def encodeBuffers (tuple : Tuple) : List UInt8 :=
  tuple.items.flatMap fun item => if item.length ≠ 0 then item else encodeNull

/-- `Tuple::encode`. -/
def encode (tuple : Tuple) : List UInt8 :=
  tuple.encodeBuffers

/-- `encode_with_length`. -/
def encodeWithLength (tuple : Tuple) : List UInt8 :=
  encodeInt32 (Int32.ofNat tuple.getBuffersSize) ++ tuple.encodeBuffers

end Tuple

/-! ## User types -/

/-- `AbstractData::Element`. -/
inductive Element where
  | unset
  | nul
  | buffer (bytes : List UInt8)
  | collection (value : Collection)
  deriving DecidableEq, Repr

namespace Element

/-- `is_unset`. -/
def isUnset : Element → Bool
  | unset => true
  | buffer bytes => bytes.length = 0
  | _ => false

/-- `get_size`, which is not called on an unset element. -/
def getSize (version : Int) : Element → Nat
  | collection value => value.getSizeWithLength version
  | buffer bytes => bytes.length
  | _ => encodeNull.length

/-- `copy_buffer`, which is not called on an unset element. -/
def copyBuffer (version : Int) : Element → List UInt8
  | collection value => value.encodeWithLength version
  | buffer bytes => bytes
  | _ => encodeNull

end Element

/-- `AbstractData`, the base of user type values and statements. -/
structure AbstractData where
  elements : List Element
  deriving DecidableEq, Repr

namespace AbstractData

/-- `get_buffers_size`. -/
def getBuffersSize (data : AbstractData) : Nat :=
  (data.elements.map fun element =>
    if !element.isUnset then element.getSize highestSupportedProtocolVersion else 4).sum

/-- `encode_buffers`. -/
def encodeBuffers (data : AbstractData) : List UInt8 :=
  data.elements.flatMap fun element =>
    if !element.isUnset then element.copyBuffer highestSupportedProtocolVersion else encodeNull

/-- `AbstractData::encode`. -/
def encode (data : AbstractData) : List UInt8 :=
  data.encodeBuffers

/-- `encode_with_length`. -/
def encodeWithLength (data : AbstractData) : List UInt8 :=
  encodeInt32 (Int32.ofNat data.getBuffersSize) ++ data.encodeBuffers

end AbstractData

/-! ## Value trees -/

/-- A value an application binds: scalars by their encoding, the items of a map as keys
and values in turn. -/
inductive Tree where
  | null
  | scalar (bytes : List UInt8)
  | collection (kind : CollectionKind) (items : List Tree)
  | tuple (items : List Tree)
  | userType (items : List Tree)
  deriving Repr

namespace Tree

mutual

/-- What `Collection::append` stores of a value. -/
def item : Tree → List UInt8
  | null => []
  | scalar bytes => bytes
  | collection kind trees => Collection.encode ⟨kind, items trees⟩
  | tuple trees => Tuple.encode ⟨fields trees⟩
  | userType trees => AbstractData.encode ⟨elements trees⟩

/-- What a collection has of its items. -/
def items : List Tree → List (List UInt8)
  | [] => []
  | tree :: trees => item tree :: items trees

/-- What `Tuple::set` stores of a value. -/
def field : Tree → List UInt8
  | null => encodeNull
  | scalar bytes => encodeWithLength bytes
  | collection kind trees =>
    Collection.encodeWithLength ⟨kind, items trees⟩ highestSupportedProtocolVersion
  | tuple trees => Tuple.encodeWithLength ⟨fields trees⟩
  | userType trees => AbstractData.encodeWithLength ⟨elements trees⟩

/-- What a tuple has of its items. -/
def fields : List Tree → List (List UInt8)
  | [] => []
  | tree :: trees => field tree :: fields trees

/-- What `AbstractData::set` stores of a value. -/
def element : Tree → Element
  | null => .nul
  | scalar bytes => .buffer (encodeWithLength bytes)
  | collection kind trees => .collection ⟨kind, items trees⟩
  | tuple trees => .buffer (Tuple.encodeWithLength ⟨fields trees⟩)
  | userType trees => .buffer (AbstractData.encodeWithLength ⟨elements trees⟩)

/-- What a user type has of its fields. -/
def elements : List Tree → List Element
  | [] => []
  | tree :: trees => element tree :: elements trees

end

end Tree

/-! ## What the containers write -/

/-- The sizes that are computed for buffers are those of what is written to them. -/
theorem Collection.length_encodeItemsInt32 (collection : Collection) :
    collection.encodeItemsInt32.length = collection.getItemsSize 4 := by
  simp [encodeItemsInt32, getItemsSize, length_flatMap]

theorem Collection.length_encodeItemsUint16 (collection : Collection) :
    collection.encodeItemsUint16.length = collection.getItemsSize 2 := by
  simp [encodeItemsUint16, getItemsSize, length_flatMap]

theorem Tuple.length_encodeBuffers (tuple : Tuple) :
    tuple.encodeBuffers.length = tuple.getBuffersSize := by
  rw [encodeBuffers, getBuffersSize, length_flatMap]
  congr 1
  apply map_congr_left
  intro item _
  split <;> simp [encodeNull]

theorem Element.length_copyBuffer (version : Int) (element : Element) :
    (element.copyBuffer version).length = element.getSize version := by
  cases element with
  | unset => rfl
  | nul => rfl
  | buffer bytes => rfl
  | collection value =>
    rw [copyBuffer, getSize, Collection.encodeWithLength, Collection.getSizeWithLength]
    split
    · simp [Collection.length_encodeItemsInt32]
    · simp [Collection.length_encodeItemsUint16]

theorem AbstractData.length_encodeBuffers (data : AbstractData) :
    data.encodeBuffers.length = data.getBuffersSize := by
  rw [encodeBuffers, getBuffersSize, length_flatMap]
  congr 1
  apply map_congr_left
  intro element _
  split
  · exact Element.length_copyBuffer _ element
  · rfl

namespace Tree

/-- A collection in a tuple or user type is its encoding behind a length. -/
theorem encodeWithLength_collection (collection : Collection) :
    collection.encodeWithLength highestSupportedProtocolVersion =
      encodeWithLength collection.encode := by
  have modern : highestSupportedProtocolVersion ≥ 3 := by decide
  rw [Collection.encodeWithLength, if_pos modern, encodeWithLength, Collection.encode,
    length_append, encodeInt32_length, Collection.length_encodeItemsInt32]

/-- In a tuple and in a user type a value is null or its encoding behind a length. -/
theorem field_eq (tree : Tree) :
    field tree = if tree matches null then encodeNull else encodeWithLength (item tree) := by
  cases tree with
  | null => rfl
  | scalar bytes => rfl
  | collection kind trees => exact encodeWithLength_collection _
  | tuple trees =>
    rw [field, item, Tuple.encodeWithLength, Tuple.encode, ← Tuple.length_encodeBuffers]
    rfl
  | userType trees =>
    rw [field, item, AbstractData.encodeWithLength, AbstractData.encode,
      ← AbstractData.length_encodeBuffers]
    rfl

theorem copyBuffer_element (tree : Tree) :
    (element tree).copyBuffer highestSupportedProtocolVersion = field tree := by
  cases tree <;> rfl

/-- A value that was bound counts as set. -/
theorem element_isUnset (tree : Tree) : (element tree).isUnset = false := by
  cases tree with
  | null => rfl
  | scalar bytes => simp [element, Element.isUnset, encodeWithLength]
  | collection kind trees => rfl
  | tuple trees => simp [element, Element.isUnset, Tuple.encodeWithLength]
  | userType trees => simp [element, Element.isUnset, AbstractData.encodeWithLength]

end Tree

end DseDriver.Cql
