import DseDriver.Lib.Conformance
import DseDriver.Geometry.Wkb

/-!
# Binary line-string iterator

`LineStringIterator` accepts a value whose size covers the announced points and then hands
out points until the end of the value.  The announced number only takes part in the check of
the size, where it is doubled in 32 bits; the iteration ends where the value does.
-/

namespace DseDriver.Geometry

open Lib Cql List Option

/-- `WKB_LINE_STRING_HEADER_SIZE`: header and number of points. -/
def wkbLineStringHeaderSize : Nat := wkbHeaderSize + 4

def dseLineStringType : String := "org.apache.cassandra.db.marshal.LineStringType"

/-- `LineStringIterator::BinaryIterator`.  Its pointers are offsets into `bytes`. -/
structure LineStringBinaryIterator where
  bytes : List UInt8
  position : Nat
  pointsEnd : Nat
  byteOrder : WkbByteOrder
  deriving DecidableEq, Repr

/-- `LineStringIterator` over binary values; `iterator` is null before the first successful
reset. -/
structure LineStringIterator where
  numPoints : UInt32
  iterator : Option LineStringBinaryIterator
  deriving DecidableEq, Repr

variable (native : ByteOrder)

/-- `BinaryIterator::next_point`; `none` is a read outside the bytes. -/
def LineStringBinaryIterator.nextPoint (iterator : LineStringBinaryIterator) :
    Option (Except CassError (Double × Double) × LineStringBinaryIterator) :=
  if iterator.position ≥ iterator.pointsEnd then
    some (.error .libInvalidState, iterator)
  else do
    let x ← decodeDouble native iterator.bytes iterator.position iterator.byteOrder
    let y ← decodeDouble native iterator.bytes (iterator.position + 8) iterator.byteOrder
    return (.ok (x, y), { iterator with position := iterator.position + 16 })

namespace LineStringIterator

/-- `LineStringIterator()`. -/
def new : LineStringIterator :=
  { numPoints := 0, iterator := none }

/-- `LineStringIterator::reset_binary`; `none` is a read outside the value. -/
def resetBinary (iterator : LineStringIterator) (value : Value) :
    Option (CassError × LineStringIterator) := do
  let rc := validateDataType value dseLineStringType
  if rc ≠ .ok then
    return (rc, iterator)
  match ← cassValueGetBytes value with
  | .error rc => return (rc, iterator)
  | .ok bytes =>
    if bytes.length < wkbLineStringHeaderSize then
      return (.libNotEnoughData, iterator)
    let (type, byteOrder) ← decodeHeader native bytes 0
    if type ≠ .lineString then
      return (.libInvalidData, iterator)
    let numPoints ← decodeUint32 native bytes wkbHeaderSize byteOrder
    if bytes.length - wkbLineStringHeaderSize < (2 * numPoints).toNat * 8 then
      return (.libNotEnoughData, iterator)
    return (.ok, {
      numPoints
      iterator := some {
        bytes
        position := wkbLineStringHeaderSize
        pointsEnd := bytes.length
        byteOrder } })

/-- `LineStringIterator::next_point`. -/
def nextPoint (iterator : LineStringIterator) :
    Option (Except CassError (Double × Double) × LineStringIterator) :=
  match iterator.iterator with
  | none => some (.error .libInvalidState, iterator)
  | some binary =>
    (binary.nextPoint native).map
      (Prod.map id fun binary => { iterator with iterator := some binary })

end LineStringIterator

/-! ## The protocol -/

/-- The protocol of a line-string iterator with a number of points left. -/
def allowsPoint (left : Nat) (_ : Unit) : Except CassError (Double × Double) → Option Nat
  | .ok _ => if 0 < left then some (left - 1) else none
  | .error rc => if rc = .libInvalidState ∧ left = 0 then some left else none

/-- Any number of calls stays inside the value; as many as announced give points and all
others an invalid state. -/
def HandsOut (iterator : LineStringIterator) (left : Nat) : Prop :=
  ∀ calls, Conforms (fun iterator (_ : Unit) => iterator.nextPoint native) allowsPoint iterator left
    calls

section Calls

variable {bytes : List UInt8} {byteOrder : WkbByteOrder} {numPoints : UInt32} {position : Nat}

/-- The iterator at a position of the given bytes. -/
def lineAt (bytes : List UInt8) (byteOrder : WkbByteOrder) (numPoints : UInt32) (position : Nat) :
    LineStringIterator :=
  { numPoints
    iterator := some { bytes, position, pointsEnd := bytes.length, byteOrder } }

theorem nextPoint_atEnd (ends : bytes.length ≤ position) :
    (lineAt bytes byteOrder numPoints position).nextPoint native =
      some (.error .libInvalidState, lineAt bytes byteOrder numPoints position) := by
  simp [LineStringIterator.nextPoint, LineStringBinaryIterator.nextPoint, lineAt, ends]

/-- Before the end, a point is read if there is room for it. -/
theorem nextPoint_before (before : position < bytes.length) :
    position + 16 ≤ bytes.length ∧ (∃ point,
        (lineAt bytes byteOrder numPoints position).nextPoint native =
          some (.ok point, lineAt bytes byteOrder numPoints (position + 16))) ∨
      bytes.length < position + 16 ∧
        (lineAt bytes byteOrder numPoints position).nextPoint native = none := by
  have result : (lineAt bytes byteOrder numPoints position).nextPoint native =
      (do
        let x ← decodeDouble native bytes position byteOrder
        let y ← decodeDouble native bytes (position + 8) byteOrder
        return (.ok (x, y), lineAt bytes byteOrder numPoints (position + 16))) := by
    have within : ¬ position ≥ bytes.length := by omega
    rw [LineStringIterator.nextPoint, lineAt]
    simp only [LineStringBinaryIterator.nextPoint, if_neg within]
    cases decodeDouble native bytes position byteOrder with
    | none => rfl
    | some x => cases decodeDouble native bytes (position + 8) byteOrder <;> rfl
  rw [result, decodeDouble_eq, decodeDouble_eq]
  rcases Nat.lt_or_ge bytes.length (position + 16) with short | room
  · right
    refine ⟨short, ?_⟩
    rw [show readAt bytes (position + 8) 8 = none from readAt_eq_none_iff.mpr (by omega)]
    cases readAt bytes position 8 <;> rfl
  · left
    refine ⟨room, ?_⟩
    rw [readAt, if_pos (by omega), readAt, if_pos (by omega)]
    exact ⟨_, rfl⟩

variable (bytes byteOrder numPoints) in
/-- The rest of the value is a number of whole points. -/
def PointsLeft (iterator : LineStringIterator) (left : Nat) : Prop :=
  ∃ position, iterator = lineAt bytes byteOrder numPoints position ∧
    bytes.length = position + 16 * left

/-- A point is handed out exactly if one is left. -/
theorem PointsLeft.step (iterator : LineStringIterator) (left : Nat) (call : Unit)
    (pointsLeft : PointsLeft bytes byteOrder numPoints iterator left) :
    ∃ response next left', iterator.nextPoint native = some (response, next) ∧
      allowsPoint left call response = some left' ∧
      PointsLeft bytes byteOrder numPoints next left' := by
  obtain ⟨position, rfl, size⟩ := pointsLeft
  cases left with
  | zero =>
    refine ⟨_, _, 0, nextPoint_atEnd native (by omega), ?_, position, rfl, size⟩
    simp [allowsPoint]
  | succ left =>
    have before : position < bytes.length := by omega
    rcases nextPoint_before native before with ⟨room, point, read⟩ | ⟨short, -⟩
    · refine ⟨_, _, left, read, ?_, position + 16, rfl, by omega⟩
      simp [allowsPoint]
    · omega

/-- Exactly the points up to the end of the value are handed out. -/
theorem handsOut_iff (inside : position ≤ bytes.length) (left : Nat) :
    HandsOut native (lineAt bytes byteOrder numPoints position) left ↔
      bytes.length = position + 16 * left := by
  constructor
  · intro handsOut
    induction left generalizing position with
    | zero =>
      by_contra other
      obtain ⟨response, next, left, result, allowed, -⟩ := conforms_next handsOut ()
      have before : position < bytes.length := by omega
      rcases nextPoint_before native before with ⟨-, point, read⟩ | ⟨-, outside⟩
      · rw [read] at result
        cases result
        cases allowed
      · rw [outside] at result
        cases result
    | succ left ih =>
      obtain ⟨response, next, left', result, allowed, onward⟩ := conforms_next handsOut ()
      rcases Nat.lt_or_ge position bytes.length with before | ends
      · rcases nextPoint_before native before with ⟨room, point, read⟩ | ⟨-, outside⟩
        · rw [read] at result
          cases result
          cases allowed
          have rest := ih room onward
          omega
        · rw [outside] at result
          cases result
      · rw [nextPoint_atEnd native ends] at result
        cases result
        simp [allowsPoint] at allowed
  · intro size calls
    exact conforms_of_simulation (PointsLeft.step native) ⟨position, rfl, size⟩ calls

end Calls

/-! ## Accepted values -/

/-- A reset fails and changes nothing, or has read the header of the value. -/
theorem resetBinary_lineString_cases {iterator after : LineStringIterator} {value : Value}
    {rc : CassError} (result : iterator.resetBinary native value = some (rc, after)) :
    (rc ≠ .ok ∧ after = iterator) ∨
      rc = .ok ∧ ∃ bytes byteOrder numPoints, cassValueGetBytes value = some (.ok bytes) ∧
        decodeUint32 native bytes wkbHeaderSize byteOrder = some numPoints ∧
        wkbLineStringHeaderSize ≤ bytes.length ∧
        after = lineAt bytes byteOrder numPoints wkbLineStringHeaderSize := by
  simp only [LineStringIterator.resetBinary, bind_eq_bind] at result
  split at result
  · next refused =>
      cases result
      exact .inl ⟨refused, rfl⟩
  obtain ⟨content, isContent, result⟩ := bind_eq_some_iff.mp result
  cases content with
  | error rc =>
    cases result
    exact .inl ⟨(cassValueGetBytes_error isContent).trans_ne (by decide), rfl⟩
  | ok bytes =>
    dsimp only at result
    split at result
    · cases result
      exact .inl ⟨by decide, rfl⟩
    next large =>
      obtain ⟨⟨type, byteOrder⟩, -, result⟩ := bind_eq_some_iff.mp result
      split at result
      · cases result
        exact .inl ⟨by decide, rfl⟩
      obtain ⟨numPoints, number, result⟩ := bind_eq_some_iff.mp result
      split at result
      · cases result
        exact .inl ⟨by decide, rfl⟩
      · cases result
        exact .inr ⟨rfl, bytes, byteOrder, numPoints, isContent, number, Nat.not_lt.mp large, rfl⟩

/-- An accepted value hands out exactly the announced points if and only if these are all
that is behind its header. -/
theorem lineStringIterator_safe_iff {iterator after : LineStringIterator} {value : Value}
    {bytes : List UInt8} (content : cassValueGetBytes value = some (.ok bytes))
    (accepted : iterator.resetBinary native value = some (.ok, after)) :
    HandsOut native after after.numPoints.toNat ↔
      ∃ numPoints rest, bytes.drop wkbHeaderSize = uint32Bytes native numPoints ++ rest ∧
        rest.length = 16 * numPoints.toNat := by
  obtain ⟨failed, -⟩ | ⟨-, _, byteOrder, numPoints, read, number, large, rfl⟩ :=
    resetBinary_lineString_cases native accepted
  · exact absurd rfl failed
  cases content.symm.trans read
  have header := (decodeUint32_eq_some_iff native).mp number
  have size : (bytes.drop (wkbHeaderSize + 4)).length = bytes.length - wkbLineStringHeaderSize :=
    length_drop
  rw [handsOut_iff native large]
  constructor
  · intro whole
    refine ⟨numPoints, _, header, ?_⟩
    rw [size, whole]
    exact Nat.add_sub_cancel_left ..
  · rintro ⟨numPoints', rest, layout, length⟩
    have behind : bytes.drop (wkbHeaderSize + 4) = rest := by
      rw [← drop_drop, layout, drop_left' (by simp)]
    have same : decodeUint32 native bytes wkbHeaderSize byteOrder = some numPoints' :=
      (decodeUint32_eq_some_iff native).mpr (layout.trans (congrArg _ behind.symm))
    rw [number] at same
    cases same
    rw [behind, length] at size
    show bytes.length = wkbLineStringHeaderSize + 16 * numPoints.toNat
    omega

/-- A line-string column value with the given bytes. -/
def lineStringValue (bytes : List UInt8) : Value :=
  .ofDecoder (.custom dseLineStringType) (.mk' bytes 0 bytes.length 4)

/-- The points (1, 2) and (1.5, 2). -/
def twoPoints : List UInt8 :=
  [1, 2, 0, 0, 0, 2, 0, 0, 0, 0, 0, 0, 0, 0, 0, 240, 63, 0, 0, 0, 0, 0, 0, 0, 64,
    0, 0, 0, 0, 0, 0, 248, 63, 0, 0, 0, 0, 0, 0, 0, 64]

theorem lineStringIterator_safe_twoPoints :
    ∃ after, LineStringIterator.new.resetBinary .little (lineStringValue twoPoints) =
        some (.ok, after) ∧ HandsOut .little after 2 := by
  have accepted : LineStringIterator.new.resetBinary .little (lineStringValue twoPoints) =
      some (.ok, lineAt twoPoints .littleEndian 2 9) := by decide
  have content : cassValueGetBytes (lineStringValue twoPoints) = some (.ok twoPoints) := by decide
  refine ⟨_, accepted, ?_⟩
  exact (lineStringIterator_safe_iff .little content accepted).mpr
    ⟨2, twoPoints.drop 9, by decide, by decide⟩

/-- One byte behind an empty line string: the value is accepted, and the first call reads
behind its end. -/
theorem lineStringIterator_trailing_unsafe :
    ∃ after, LineStringIterator.new.resetBinary .little
        (lineStringValue [1, 2, 0, 0, 0, 0, 0, 0, 0, 7]) = some (.ok, after) ∧
      after.numPoints = 0 ∧ after.nextPoint .little = none ∧ ¬ HandsOut .little after 0 := by
  have accepted : LineStringIterator.new.resetBinary .little
      (lineStringValue [1, 2, 0, 0, 0, 0, 0, 0, 0, 7]) =
      some (.ok, lineAt [1, 2, 0, 0, 0, 0, 0, 0, 0, 7] .littleEndian 0 9) := by decide
  have outside : (lineAt [1, 2, 0, 0, 0, 0, 0, 0, 0, 7] .littleEndian 0 9).nextPoint .little =
      none := by decide
  refine ⟨_, accepted, rfl, outside, ?_⟩
  intro handsOut
  obtain ⟨response, next, left, result, -⟩ := handsOut [()]
  cases outside.symm.trans result

end DseDriver.Geometry
