import DseDriver.Geometry.LineString
import DseDriver.Geometry.PolygonSafety
import Mathlib.Tactic.IntervalCases

/-!
# Well-known binary in either byte order

The first byte of a geometry says in which order its words are.  A word of the other order has
to be swapped; the decoders compute the swap and keep the word as it lies in memory, so they
read a geometry of the host's own order only.
-/

namespace DseDriver.Geometry

open Lib Cql List Option

/-! ## Points -/

def dsePointType : String := "org.apache.cassandra.db.marshal.PointType"

/-- `cass_value_get_dse_point`; `none` is a read outside the value. -/
def cassValueGetDsePoint (native : ByteOrder) (value : Value) :
    Option (Except CassError (Double × Double)) := do
  let rc := validateDataType value dsePointType
  if rc ≠ .ok then
    return .error rc
  match ← cassValueGetBytes value with
  | .error rc => return .error rc
  | .ok bytes =>
    if bytes.length < wkbHeaderSize + 2 * 8 then
      return .error .libNotEnoughData
    let (type, byteOrder) ← decodeHeader native bytes 0
    if type ≠ .point then
      return .error .libInvalidData
    let x ← decodeDouble native bytes wkbHeaderSize byteOrder
    let y ← decodeDouble native bytes (wkbHeaderSize + 8) byteOrder
    return .ok (x, y)

/-! ## Layouts -/

/-- What the decoders are applied to. -/
inductive WkbItem where
  | uint32 (value : UInt32)
  | double (value : Double)
  | point (x y : Double)
  | lineString (points : Ring)
  | polygon (rings : List Ring)
  deriving DecidableEq, Repr

/-- The bytes of an item whose words are in the given order. -/
def WkbItem.bytes (item : WkbItem) (order : ByteOrder) : List UInt8 :=
  match item with
  | uint32 value => uint32Bytes order value
  | double value => doubleBytes order value
  | point x y => encodeHeaderAppend order .point [] ++ pointBytes order (x, y)
  | lineString points => encodeHeaderAppend order .lineString [] ++ ringBytes order points
  | polygon rings => wkbPolygon order rings

/-! ## What a client sees -/

/-- A point column value with the given bytes. -/
def pointValue (bytes : List UInt8) : Value :=
  .ofDecoder (.custom dsePointType) (.mk' bytes 0 bytes.length 4)

/-- Reset a fresh iterator on a line string, then call `next_point` any number of times. -/
def readLineString (native : ByteOrder) (bytes : List UInt8) (calls : List Unit) :
    Option (CassError × UInt32 × List (Except CassError (Double × Double))) := do
  let (rc, iterator) ← LineStringIterator.new.resetBinary native (lineStringValue bytes)
  let results ← responses (fun iterator _ => iterator.nextPoint native) iterator calls
  return (rc, iterator.numPoints, results)

/-- Reset a fresh iterator on a polygon, then make the calls. -/
def readPolygon (native : ByteOrder) (bytes : List UInt8) (calls : List PolygonCall) :
    Option (CassError × UInt32 × List PolygonResponse) := do
  let (rc, iterator) ← PolygonIterator.new.resetBinary native (polygonValue bytes)
  let results ← responses (PolygonIterator.call native) iterator calls
  return (rc, iterator.numRings, results)

/-- The decoders read an item of the given order as it is: a word gives its value, and a
geometry gives every client the results that the layout of the host's order gives. -/
def WkbItem.ReadAs (native order : ByteOrder) (item : WkbItem) : Prop :=
  match item with
  | uint32 value => decodeUint32 native (item.bytes order) 0 (nativeByteOrder order) = some value
  | double value => decodeDouble native (item.bytes order) 0 (nativeByteOrder order) = some value
  | point _ _ =>
    cassValueGetDsePoint native (pointValue (item.bytes order)) =
      cassValueGetDsePoint native (pointValue (item.bytes native))
  | lineString _ =>
    ∀ calls, readLineString native (item.bytes order) calls =
      readLineString native (item.bytes native) calls
  | polygon _ =>
    ∀ calls, readPolygon native (item.bytes order) calls =
      readPolygon native (item.bytes native) calls

/-- A word that is the same in both orders. -/
def WkbItem.Symmetric : WkbItem → Prop
  | uint32 value => swapUint32 value = value
  | double value => swapUint64 value = value
  | _ => False

/-! ## Swapped words -/

/-- A swap moves each byte to the opposite place. -/
theorem swapUint32_mirrors (value : UInt32) (index : Nat) (inside : index < 4) (bit : Nat)
    (low : bit < 8) :
    (swapUint32 value).toNat.testBit (8 * index + bit) =
      value.toNat.testBit (8 * (4 - 1 - index) + bit) := by
  show (swapUint32 value).toBitVec.getLsbD _ = value.toBitVec.getLsbD _
  simp only [swapUint32]
  interval_cases index <;> interval_cases bit <;> simp

theorem swapUint64_mirrors (value : UInt64) (index : Nat) (inside : index < 8) (bit : Nat)
    (low : bit < 8) :
    (swapUint64 value).toNat.testBit (8 * index + bit) =
      value.toNat.testBit (8 * (8 - 1 - index) + bit) := by
  show (swapUint64 value).toBitVec.getLsbD _ = value.toBitVec.getLsbD _
  simp only [swapUint64]
  interval_cases index <;> interval_cases bit <;> simp

section Swapped

variable {native order : ByteOrder} (other : order ≠ native)

include other

/-- A word of the other order lies in memory as the swapped word. -/
theorem uint32Bytes_other (value : UInt32) :
    uint32Bytes order value = uint32Bytes native (swapUint32 value) := by
  have mirrored := littleEndian_eq_reverse (swapUint32_mirrors value)
  cases order <;> cases native <;> simp_all [uint32Bytes, toBytes]

theorem doubleBytes_other (value : Double) :
    doubleBytes order value = doubleBytes native (swapUint64 value) := by
  have mirrored := littleEndian_eq_reverse (swapUint64_mirrors value)
  cases order <;> cases native <;> simp_all [doubleBytes, toBytes]

end Swapped

/-- What the decoder gives for a word of either order: the word as it lies in memory. -/
theorem decodeUint32_order (native order : ByteOrder) (before after : List UInt8) (value : UInt32)
    (byteOrder : WkbByteOrder) :
    decodeUint32 native (before ++ (uint32Bytes order value ++ after)) before.length byteOrder =
      some (if order = native then value else swapUint32 value) := by
  split
  next same =>
    subst same
    exact decodeUint32_append order after value byteOrder rfl
  next other =>
    rw [uint32Bytes_other other]
    exact decodeUint32_append native after _ byteOrder rfl

theorem decodeDouble_order (native order : ByteOrder) (before after : List UInt8) (value : Double)
    (byteOrder : WkbByteOrder) :
    decodeDouble native (before ++ (doubleBytes order value ++ after)) before.length byteOrder =
      some (if order = native then value else swapUint64 value) := by
  split
  next same =>
    subst same
    exact decodeDouble_append order after value byteOrder rfl
  next other =>
    rw [doubleBytes_other other]
    exact decodeDouble_append native after _ byteOrder rfl

/-! ## Headers -/

/-- The type in a header of either order. -/
theorem decodeHeader_order (native order : ByteOrder) (type : WkbGeometryType) (rest : List UInt8) :
    decodeHeader native (encodeHeaderAppend order type [] ++ rest) 0 =
      some (.ofUint32 (if order = native then type.toUint32 else swapUint32 type.toUint32),
        nativeByteOrder order) := by
  have word := decodeUint32_order native order [(nativeByteOrder order).toByte] rest type.toUint32
    (nativeByteOrder order)
  simp only [encodeHeaderAppend, nil_append, append_assoc] at word ⊢
  simp only [decodeHeader, cons_append, nil_append, getElem?_cons_zero,
    bind_eq_bind, bind_some, ofByte_toByte_native]
  simp only [cons_append, nil_append, length_singleton] at word
  rw [Nat.zero_add, word]
  rfl

/-- The geometry types the decoders look for, and those alone, are told by their word. -/
def WkbGeometryType.Decoded : WkbGeometryType → Prop
  | point | lineString | polygon => True
  | _ => False

theorem ofUint32_order {type : WkbGeometryType} (decoded : type.Decoded) (native order : ByteOrder) :
    WkbGeometryType.ofUint32
        (if order = native then type.toUint32 else swapUint32 type.toUint32) = type ↔
      order = native := by
  cases type with
  | point | lineString | polygon =>
    by_cases same : order = native
    · simp [same, WkbGeometryType.toUint32, WkbGeometryType.ofUint32]
    · simp only [same, iff_false]
      decide
  | _ => exact decoded.elim

/-! ## Geometries -/

/-- The bytes of a column value of a custom type. -/
theorem cassValueGetBytes_custom (name : String) (bytes : List UInt8) :
    cassValueGetBytes (.ofDecoder (.custom name) (.mk' bytes 0 bytes.length 4)) =
      some (.ok bytes) := by
  simp [cassValueGetBytes, Value.ofDecoder, Decoder.asStringRef, Decoder.mk', readAt]

theorem validateDataType_custom (name : String) (decoder : Decoder) :
    validateDataType (.ofDecoder (.custom name) decoder) name = .ok := by
  simp [validateDataType, Value.ofDecoder]

theorem encodeHeaderAppend_length (order : ByteOrder) (type : WkbGeometryType) :
    (encodeHeaderAppend order type []).length = wkbHeaderSize := by
  simp [encodeHeaderAppend, wkbHeaderSize]

variable (native order : ByteOrder)

theorem cassValueGetDsePoint_order (x y : Double) :
    cassValueGetDsePoint native (pointValue ((WkbItem.point x y).bytes order)) =
      some (if order = native then .ok (x, y) else .error .libInvalidData) := by
  have header := decodeHeader_order native order .point (pointBytes order (x, y))
  have type := ofUint32_order (show WkbGeometryType.point.Decoded from trivial) native order
  have size : ¬ (encodeHeaderAppend order .point [] ++ pointBytes order (x, y)).length <
      wkbHeaderSize + 2 * 8 := by
    simp [encodeHeaderAppend_length]
  simp only [cassValueGetDsePoint, pointValue, validateDataType_custom, cassValueGetBytes_custom,
    WkbItem.bytes, header, bind_eq_bind, bind_some, if_neg size, ne_eq, not_true,
    if_false, type]
  by_cases same : order = native
  · subst same
    have first := decodeDouble_order order order (encodeHeaderAppend order .point [])
      (doubleBytes order y) x (nativeByteOrder order)
    have second := decodeDouble_order order order
      (encodeHeaderAppend order .point [] ++ doubleBytes order x) [] y (nativeByteOrder order)
    simp only [length_append, encodeHeaderAppend_length, doubleBytes_length, append_nil,
      append_assoc, if_true] at first second
    simp [pointBytes, first, second]
  · simp [same]

section Resets

variable {native} {bytes : List UInt8} {type : WkbGeometryType} {byteOrder : WkbByteOrder}
  (header : decodeHeader native bytes 0 = some (type, byteOrder))

include header

/-- The reset complains about the data exactly for another type. -/
theorem resetBinary_lineString_type (size : wkbLineStringHeaderSize ≤ bytes.length) :
    (LineStringIterator.new.resetBinary native (lineStringValue bytes)).map Prod.fst =
      some .libInvalidData ↔ type ≠ .lineString := by
  simp only [LineStringIterator.resetBinary, lineStringValue, validateDataType_custom,
    cassValueGetBytes_custom, header, bind_eq_bind, bind_some, ne_eq, not_true,
    if_false, if_neg (Nat.not_lt.mpr size)]
  by_cases known : type = .lineString
  · simp only [known, not_true, if_false, iff_false]
    cases decodeUint32 native bytes wkbHeaderSize byteOrder with
    | none => simp
    | some numPoints =>
      simp only [bind_some]
      split <;> simp
  · simp [known]

omit header in
/-- The validation loop never complains about the data. -/
theorem scanRings_ne_invalidData (numRings pos size : Nat) :
    PolygonIterator.scanRings native bytes byteOrder numRings pos size ≠
      some .libInvalidData := by
  induction numRings generalizing pos size with
  | zero => simp [PolygonIterator.scanRings]
  | succ numRings ih =>
    rw [PolygonIterator.scanRings]
    split
    · simp
    · cases decodeUint32 native bytes pos byteOrder with
      | none => simp
      | some numPoints =>
        simp only [bind_eq_bind, bind_some]
        split
        · simp
        · exact ih _ _

theorem resetBinary_polygon_type (size : wkbPolygonHeaderSize ≤ bytes.length) :
    (PolygonIterator.new.resetBinary native (polygonValue bytes)).map Prod.fst =
      some .libInvalidData ↔ type ≠ .polygon := by
  simp only [PolygonIterator.resetBinary, validateDataType_polygonValue,
    cassValueGetBytes_polygonValue, header, bind_eq_bind, bind_some, ne_eq, not_true,
    if_false, if_neg (Nat.not_lt.mpr size)]
  by_cases known : type = .polygon
  · simp only [known, not_true, if_false, iff_false]
    cases decodeUint32 native bytes wkbHeaderSize byteOrder with
    | none => simp
    | some numRings =>
      simp only [bind_some]
      cases scan : PolygonIterator.scanRings native bytes byteOrder numRings.toNat
          wkbPolygonHeaderSize (bytes.length - wkbPolygonHeaderSize) with
      | none => simp
      | some rc =>
        simp only [bind_some]
        split
        · intro same
          exact scanRings_ne_invalidData _ _ _ (scan.trans same)
        · simp
  · simp [known]

end Resets

theorem readLineString_result (bytes : List UInt8) :
    (readLineString native bytes []).map Prod.fst =
      (LineStringIterator.new.resetBinary native (lineStringValue bytes)).map Prod.fst := by
  rw [readLineString]
  cases LineStringIterator.new.resetBinary native (lineStringValue bytes) <;> rfl

theorem readPolygon_result (bytes : List UInt8) :
    (readPolygon native bytes []).map Prod.fst =
      (PolygonIterator.new.resetBinary native (polygonValue bytes)).map Prod.fst := by
  rw [readPolygon]
  cases PolygonIterator.new.resetBinary native (polygonValue bytes) <;> rfl

/-- Values of the two orders are told apart by one complaint. -/
theorem alike_iff {Calls Answer : Type} (read : ByteOrder → Calls → Answer) (first : Calls)
    (complains : Answer → Prop) (told : ∀ order, complains (read order first) ↔ ¬ order = native) :
    (∀ calls, read order calls = read native calls) ↔ order = native := by
  constructor
  · intro alike
    have same := told order
    rw [alike first, told native] at same
    exact not_not.mp (same.not.mp (not_not.mpr rfl))
  · rintro rfl calls
    rfl

theorem readLineString_alike_iff (points : Ring) :
    (∀ calls, readLineString native ((WkbItem.lineString points).bytes order) calls =
        readLineString native ((WkbItem.lineString points).bytes native) calls) ↔
      order = native := by
  apply alike_iff native order
    (fun order => readLineString native ((WkbItem.lineString points).bytes order)) []
    fun answer => answer.map Prod.fst = some .libInvalidData
  intro order
  have header := decodeHeader_order native order .lineString (ringBytes order points)
  rw [← ofUint32_order (show WkbGeometryType.lineString.Decoded from trivial) native order,
    readLineString_result]
  refine resetBinary_lineString_type header ?_
  simp [WkbItem.bytes, encodeHeaderAppend_length, wkbLineStringHeaderSize]

theorem readPolygon_alike_iff (rings : List Ring) :
    (∀ calls, readPolygon native ((WkbItem.polygon rings).bytes order) calls =
        readPolygon native ((WkbItem.polygon rings).bytes native) calls) ↔
      order = native := by
  apply alike_iff native order
    (fun order => readPolygon native ((WkbItem.polygon rings).bytes order)) []
    fun answer => answer.map Prod.fst = some .libInvalidData
  intro order
  have header := decodeHeader_order native order .polygon
    (uint32Bytes order (UInt32.ofNat rings.length) ++ area order rings)
  rw [← append_assoc] at header
  rw [← ofUint32_order (show WkbGeometryType.polygon.Decoded from trivial) native order,
    readPolygon_result]
  refine resetBinary_polygon_type header ?_
  simp [WkbItem.bytes, wkbPolygon]

/-- Items are read as they are exactly if they are in the host's order, or are words that are
the same in both. -/
theorem wkbItem_readAs_iff (item : WkbItem) :
    item.ReadAs native order ↔ order = native ∨ item.Symmetric := by
  cases item with
  | uint32 value =>
    have decoded := decodeUint32_order native order [] [] value (nativeByteOrder order)
    rw [nil_append, append_nil, length_nil] at decoded
    simp only [WkbItem.ReadAs, WkbItem.bytes, WkbItem.Symmetric, decoded, Option.some.injEq]
    split <;> simp_all
  | double value =>
    have decoded := decodeDouble_order native order [] [] value (nativeByteOrder order)
    rw [nil_append, append_nil, length_nil] at decoded
    simp only [WkbItem.ReadAs, WkbItem.bytes, WkbItem.Symmetric, decoded, Option.some.injEq]
    split <;> simp_all
  | point x y =>
    simp only [WkbItem.ReadAs, WkbItem.Symmetric, cassValueGetDsePoint_order, or_false]
    split <;> simp_all
  | lineString points =>
    refine (readLineString_alike_iff native order points).trans ?_
    simp [WkbItem.Symmetric]
  | polygon rings =>
    refine (readPolygon_alike_iff native order rings).trans ?_
    simp [WkbItem.Symmetric]

/-- On a little-endian host the big-endian word one is read as 16777216, and a big-endian point
is refused. -/
theorem bigEndian_misread :
    decodeUint32 .little ((WkbItem.uint32 1).bytes .big) 0 .bigEndian = some 0x1000000 ∧
      ¬ (WkbItem.uint32 1).ReadAs .little .big ∧
      cassValueGetDsePoint .little (pointValue ((WkbItem.point 0 0).bytes .big)) =
        some (.error .libInvalidData) ∧
      cassValueGetDsePoint .little (pointValue ((WkbItem.point 0 0).bytes .little)) =
        some (.ok (0, 0)) := by
  refine ⟨by decide, ?_, by decide, by decide⟩
  show ¬ decodeUint32 .little ((WkbItem.uint32 1).bytes .big) 0 .bigEndian = some 1
  decide

end DseDriver.Geometry
