import DseDriver.Geometry.Wkb

/-!
# Polygon builder and binary polygon iterator

The `Polygon` builder writes rings through a cursor that patches each ring's
point count afterwards.  `PolygonIterator` validates such bytes and then hands
out ring sizes and points through a small state machine.  Both are embedded as
the source has them: builder calls return their result code with the polygon
they leave, and iterator calls return the error or the output they store.
-/

namespace DseDriver.Geometry

open Lib Cql

/-- `Polygon`.  Reserved capacity does not change what is stored. -/
structure Polygon where
  numRings : UInt32
  numPoints : UInt32
  ringStartIndex : Nat
  bytes : List UInt8
  deriving DecidableEq, Repr

namespace Polygon

variable (native : ByteOrder)

/-- `Polygon::reset`, which is also the constructor. -/
def reset : Polygon :=
  { numRings := 0
    numPoints := 0
    ringStartIndex := 0
    bytes := encodeHeaderAppend native .polygon [] ++ uint32Bytes native 0 }

/-- `Polygon::finish_ring`; `none` is the failed assertion of `encode`. -/
def finishRing (polygon : Polygon) : Option (CassError × Polygon) :=
  if polygon.ringStartIndex > 0 then
    if polygon.numPoints = 1 ∨ polygon.numPoints = 2 then
      some (.libInvalidState, polygon)
    else do
      let bytes ← encode native polygon.numPoints polygon.ringStartIndex polygon.bytes
      return (.ok, { polygon with numPoints := 0, ringStartIndex := 0, bytes })
  else
    some (.ok, polygon)

/-- `Polygon::start_ring`. -/
def startRing (polygon : Polygon) : Option (CassError × Polygon) := do
  let (rc, polygon) ← polygon.finishRing native
  if rc ≠ .ok then
    return (rc, polygon)
  return (.ok, { polygon with
    numRings := polygon.numRings + 1
    ringStartIndex := polygon.bytes.length
    bytes := polygon.bytes ++ uint32Bytes native 0 })

/-- `Polygon::add_point`. -/
def addPoint (polygon : Polygon) (x y : Double) : Polygon :=
  { polygon with
    numPoints := polygon.numPoints + 1
    bytes := polygon.bytes ++ doubleBytes native x ++ doubleBytes native y }

/-- `Polygon::finish`. -/
def finish (polygon : Polygon) : Option (CassError × Polygon) := do
  let bytes ← encode native polygon.numRings wkbHeaderSize polygon.bytes
  { polygon with bytes }.finishRing native

end Polygon

/-- `PolygonIterator::State`. -/
inductive PolygonIteratorState where
  | numPoints
  | points
  | done
  deriving DecidableEq, Repr

/-- `PolygonIterator::BinaryIterator`.  Its pointers are offsets into `bytes`. -/
structure BinaryIterator where
  bytes : List UInt8
  state : PolygonIteratorState
  position : Nat
  ringsEnd : Nat
  pointsEnd : Nat
  byteOrder : WkbByteOrder
  deriving DecidableEq, Repr

namespace BinaryIterator

variable (native : ByteOrder)

/-- `BinaryIterator::next_num_points`; `none` is a read outside the bytes. -/
def nextNumPoints (iterator : BinaryIterator) :
    Option (Except CassError UInt32 × BinaryIterator) :=
  if iterator.state ≠ .numPoints then
    some (.error .libInvalidState, iterator)
  else do
    let numPoints ← decodeUint32 native iterator.bytes iterator.position iterator.byteOrder
    let position := iterator.position + 4
    return (.ok numPoints, { iterator with
      position
      pointsEnd := position + (numPoints * 2).toNat * 8
      state := .points })

/-- `BinaryIterator::next_point`; `none` is a read outside the bytes. -/
def nextPoint (iterator : BinaryIterator) :
    Option (Except CassError (Double × Double) × BinaryIterator) :=
  if iterator.state ≠ .points then
    some (.error .libInvalidState, iterator)
  else do
    let x ← decodeDouble native iterator.bytes iterator.position iterator.byteOrder
    let y ← decodeDouble native iterator.bytes (iterator.position + 8) iterator.byteOrder
    let position := iterator.position + 16
    let state :=
      if position ≥ iterator.ringsEnd then .done
      else if position ≥ iterator.pointsEnd then .numPoints
      else iterator.state
    return (.ok (x, y), { iterator with position, state })

end BinaryIterator

/-- `PolygonIterator` over binary values; `iterator` is null before the first
successful reset. -/
structure PolygonIterator where
  numRings : UInt32
  iterator : Option BinaryIterator
  deriving DecidableEq, Repr

namespace PolygonIterator

variable (native : ByteOrder)

/-- `PolygonIterator()`. -/
def new : PolygonIterator :=
  { numRings := 0, iterator := none }

/-- The validation loop of `reset_binary`.  The cursor moves over one word in
each round, the size by the points of the ring as well. -/
def scanRings (bytes : List UInt8) (byteOrder : WkbByteOrder) :
    Nat → Nat → Nat → Option CassError
  | 0, _, _ => some .ok
  | numRings + 1, pos, size =>
    if size < 4 then
      some .libNotEnoughData
    else do
      let size := size - 4
      let numPoints ← decodeUint32 native bytes pos byteOrder
      let pos := pos + 4
      if size < (2 * numPoints).toNat * 8 then
        some .libNotEnoughData
      else
        scanRings bytes byteOrder numRings pos (size - (2 * numPoints).toNat * 8)

/-- `PolygonIterator::reset_binary`; `none` is a read outside the value. -/
def resetBinary (iterator : PolygonIterator) (value : Value) :
    Option (CassError × PolygonIterator) := do
  let rc := validateDataType value dsePolygonType
  if rc ≠ .ok then
    return (rc, iterator)
  match ← cassValueGetBytes value with
  | .error rc => return (rc, iterator)
  | .ok bytes =>
    if bytes.length < wkbPolygonHeaderSize then
      return (.libNotEnoughData, iterator)
    let (type, byteOrder) ← decodeHeader native bytes 0
    if type ≠ .polygon then
      return (.libInvalidData, iterator)
    let numRings ← decodeUint32 native bytes wkbHeaderSize byteOrder
    let rc ← scanRings native bytes byteOrder numRings.toNat wkbPolygonHeaderSize
      (bytes.length - wkbPolygonHeaderSize)
    if rc ≠ .ok then
      return (rc, iterator)
    return (.ok, {
      numRings
      iterator := some {
        bytes
        state := .numPoints
        position := wkbPolygonHeaderSize
        ringsEnd := bytes.length
        pointsEnd := 0
        byteOrder } })

/-- A call of the virtual iterator, or the error of a null one. -/
def dispatch {α : Type} (iterator : PolygonIterator)
    (next : BinaryIterator → Option (Except CassError α × BinaryIterator)) :
    Option (Except CassError α × PolygonIterator) :=
  match iterator.iterator with
  | none => some (.error .libInvalidState, iterator)
  | some binary =>
    (next binary).map (Prod.map id fun binary => { iterator with iterator := some binary })

/-- `PolygonIterator::next_num_points`. -/
def nextNumPoints (iterator : PolygonIterator) :
    Option (Except CassError UInt32 × PolygonIterator) :=
  iterator.dispatch (BinaryIterator.nextNumPoints native)

/-- `PolygonIterator::next_point`. -/
def nextPoint (iterator : PolygonIterator) :
    Option (Except CassError (Double × Double) × PolygonIterator) :=
  iterator.dispatch (BinaryIterator.nextPoint native)

end PolygonIterator

end DseDriver.Geometry
