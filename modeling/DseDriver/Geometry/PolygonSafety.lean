import DseDriver.Lib.Conformance
import DseDriver.Geometry.PolygonRoundTrip

/-!
# Safety of the polygon iterator

A client that only knows the number of rings may call the iterator in any order.  The
protocol it relies on: as many rings as announced, in each as many points as announced, and
an invalid state for every other call.  An accepted value gives that protocol exactly if it
is a polygon with rings, none of them empty, and nothing behind them.  The reset checks
neither of these: it has no case for zero rings or zero points, and its validation loop does
not move over the points of a ring.
-/

namespace DseDriver.Geometry

open Lib Cql List Option

/-- The calls of a client after the reset. -/
inductive PolygonCall where
  | nextNumPoints
  | nextPoint
  deriving DecidableEq, Repr

/-- What a call gives: the output it stores, or its error. -/
inductive PolygonResponse where
  | numPoints (numPoints : UInt32)
  | point (x y : Double)
  | error (rc : CassError)
  deriving DecidableEq, Repr

/-- A call of the iterator; `none` is a read outside the value. -/
def PolygonIterator.call (native : ByteOrder) (iterator : PolygonIterator) :
    PolygonCall → Option (PolygonResponse × PolygonIterator)
  | .nextNumPoints =>
    (iterator.nextNumPoints native).map (Prod.map (fun
      | .ok numPoints => .numPoints numPoints
      | .error rc => .error rc) id)
  | .nextPoint =>
    (iterator.nextPoint native).map (Prod.map (fun
      | .ok (x, y) => .point x y
      | .error rc => .error rc) id)

/-- How far a client is: the rings not announced yet, and the points it has not read of the
ring announced last. -/
structure PolygonProgress where
  ringsLeft : Nat
  pointsLeft : Nat
  deriving DecidableEq, Repr

/-- The protocol of a polygon iterator. -/
def PolygonProgress.allows (progress : PolygonProgress) :
    PolygonCall → PolygonResponse → Option PolygonProgress
  | .nextNumPoints, .numPoints numPoints =>
    if progress.pointsLeft = 0 ∧ 0 < progress.ringsLeft then
      some { ringsLeft := progress.ringsLeft - 1, pointsLeft := numPoints.toNat }
    else
      none
  | .nextPoint, .point _ _ =>
    if 0 < progress.pointsLeft then
      some { progress with pointsLeft := progress.pointsLeft - 1 }
    else
      none
  | .nextNumPoints, .error rc =>
    if rc = .libInvalidState ∧ ¬ (progress.pointsLeft = 0 ∧ 0 < progress.ringsLeft) then
      some progress
    else
      none
  | .nextPoint, .error rc =>
    if rc = .libInvalidState ∧ progress.pointsLeft = 0 then some progress else none
  | _, _ => none

/-- Every sequence of calls stays inside the value and follows the protocol. -/
def FollowsProtocol (native : ByteOrder) (iterator : PolygonIterator) (progress : PolygonProgress) :
    Prop :=
  ∀ calls, Conforms (PolygonIterator.call native) PolygonProgress.allows iterator progress calls

variable (native : ByteOrder)

/-! ## Single calls -/

/-- A point is read where its bytes are. -/
theorem decodePoint_iff {bytes : List UInt8} {position : Nat} {point : Double × Double}
    (byteOrder : WkbByteOrder) :
    decodeDouble native bytes position byteOrder = some point.1 ∧
        decodeDouble native bytes (position + 8) byteOrder = some point.2 ↔
      bytes.drop position = pointBytes native point ++ bytes.drop (position + 16) := by
  rw [decodeDouble_eq_some_iff, decodeDouble_eq_some_iff, pointBytes, append_assoc]
  constructor
  · rintro ⟨first, second⟩
    rw [first, second]
  · intro both
    have second : bytes.drop (position + 8) = doubleBytes native point.2 ++
        bytes.drop (position + 16) := by
      rw [← drop_drop, both, drop_left' (by simp)]
    exact ⟨both.trans (by rw [second]), second⟩

/-- The iterator over the given bytes in the given state. -/
def onBytes (bytes : List UInt8) (byteOrder : WkbByteOrder) (numRings : UInt32)
    (state : PolygonIteratorState) (position pointsEnd : Nat) : PolygonIterator :=
  { numRings
    iterator := some {
      bytes
      state
      position
      ringsEnd := bytes.length
      pointsEnd
      byteOrder } }

section Calls

variable {bytes : List UInt8} {byteOrder : WkbByteOrder} {numRings : UInt32}
variable {state : PolygonIteratorState} {position pointsEnd : Nat}
variable {response : PolygonResponse} {next : PolygonIterator}

/-- Between rings, the size of a ring is read if it is there. -/
theorem call_nextNumPoints_iff :
    (onBytes bytes byteOrder numRings .numPoints position pointsEnd).call native .nextNumPoints =
        some (response, next) ↔
      ∃ numPoints, bytes.drop position = uint32Bytes native numPoints ++ bytes.drop (position + 4) ∧
        response = .numPoints numPoints ∧
        next = onBytes bytes byteOrder numRings .points (position + 4)
          (position + 4 + (numPoints * 2).toNat * 8) := by
  have result : (onBytes bytes byteOrder numRings .numPoints position pointsEnd).call native
      .nextNumPoints = (decodeUint32 native bytes position byteOrder).map fun numPoints =>
        (.numPoints numPoints, onBytes bytes byteOrder numRings .points (position + 4)
          (position + 4 + (numPoints * 2).toNat * 8)) := by
    cases load : decodeUint32 native bytes position byteOrder <;>
      simp [PolygonIterator.call, PolygonIterator.nextNumPoints, PolygonIterator.dispatch, onBytes,
        BinaryIterator.nextNumPoints, load]
  rw [result, map_eq_some_iff]
  simp only [decodeUint32_eq_some_iff, Prod.mk.injEq, @eq_comm _ _ response, @eq_comm _ _ next]

/-- Inside of a ring, a point is read if it is there. -/
theorem call_nextPoint_iff :
    (onBytes bytes byteOrder numRings .points position pointsEnd).call native .nextPoint =
        some (response, next) ↔
      ∃ point, bytes.drop position = pointBytes native point ++ bytes.drop (position + 16) ∧
        response = .point point.1 point.2 ∧
        next = onBytes bytes byteOrder numRings (stateAfter bytes pointsEnd (position + 16))
          (position + 16) pointsEnd := by
  simp only [← decodePoint_iff native byteOrder]
  cases loadX : decodeDouble native bytes position byteOrder with
  | none =>
    simp [PolygonIterator.call, PolygonIterator.nextPoint, PolygonIterator.dispatch, onBytes,
      BinaryIterator.nextPoint, loadX]
  | some x =>
    cases loadY : decodeDouble native bytes (position + 8) byteOrder with
    | none =>
      simp [PolygonIterator.call, PolygonIterator.nextPoint, PolygonIterator.dispatch, onBytes,
        BinaryIterator.nextPoint, loadX, loadY]
    | some y =>
      have result : (onBytes bytes byteOrder numRings .points position pointsEnd).call native
          .nextPoint = some (.point x y, onBytes bytes byteOrder numRings
            (stateAfter bytes pointsEnd (position + 16)) (position + 16) pointsEnd) := by
        simp [PolygonIterator.call, PolygonIterator.nextPoint, PolygonIterator.dispatch, onBytes,
          BinaryIterator.nextPoint, stateAfter, loadX, loadY]
      rw [result]
      constructor
      · intro same
        cases same
        exact ⟨(x, y), ⟨rfl, rfl⟩, rfl, rfl⟩
      · rintro ⟨⟨x', y'⟩, ⟨sameX, sameY⟩, rfl, rfl⟩
        cases sameX
        cases sameY
        rfl

theorem call_nextNumPoints_refused (outside : state ≠ .numPoints) :
    (onBytes bytes byteOrder numRings state position pointsEnd).call native .nextNumPoints =
      some (.error .libInvalidState, onBytes bytes byteOrder numRings state position pointsEnd) := by
  simp [PolygonIterator.call, PolygonIterator.nextNumPoints, PolygonIterator.dispatch, onBytes,
    BinaryIterator.nextNumPoints, outside]

theorem call_nextPoint_refused (outside : state ≠ .points) :
    (onBytes bytes byteOrder numRings state position pointsEnd).call native .nextPoint =
      some (.error .libInvalidState, onBytes bytes byteOrder numRings state position pointsEnd) := by
  simp [PolygonIterator.call, PolygonIterator.nextPoint, PolygonIterator.dispatch, onBytes,
    BinaryIterator.nextPoint, outside]

end Calls

/-! ## Values that follow the protocol -/

section Simulation

variable (bytes : List UInt8) (byteOrder : WkbByteOrder) (numRings : UInt32)

/-- Where the iterator stands in a polygon whose rings it can leave, and what the client has
left. -/
inductive Stands : PolygonIterator → PolygonProgress → Prop where
  | between {rings : List Ring} {position pointsEnd : Nat} (nonempty : rings ≠ [])
      (readable : ∀ ring ∈ rings, Readable ring)
      (content : bytes.drop position = area native rings) :
      Stands (onBytes bytes byteOrder numRings .numPoints position pointsEnd) ⟨rings.length, 0⟩
  | inside {points : Ring} {rings : List Ring} {position pointsEnd : Nat} (nonempty : points ≠ [])
      (readable : ∀ ring ∈ rings, Readable ring)
      (content : bytes.drop position = pointsBytes native points ++ area native rings)
      (ends : pointsEnd = position + 16 * points.length) :
      Stands (onBytes bytes byteOrder numRings .points position pointsEnd)
        ⟨rings.length, points.length⟩
  | finished {position pointsEnd : Nat} :
      Stands (onBytes bytes byteOrder numRings .done position pointsEnd) ⟨0, 0⟩

variable {bytes byteOrder numRings}

/-- The end that is computed for a readable ring. -/
theorem Readable.pointsEnd {ring : Ring} (readable : Readable ring) :
    (UInt32.ofNat ring.length).toNat = ring.length ∧
      (UInt32.ofNat ring.length * 2).toNat * 8 = 16 * ring.length := by
  have bounded := readable.2
  have count : (UInt32.ofNat ring.length).toNat = ring.length := by
    rw [UInt32.toNat_ofNat']
    omega
  refine ⟨count, ?_⟩
  rw [UInt32.toNat_mul, count, show (2 : UInt32).toNat = 2 from rfl]
  omega

/-- Behind a point, the state fits what is left of the value. -/
theorem Stands.behindPoint {points : Ring} {rings : List Ring} {position pointsEnd : Nat}
    (readable : ∀ ring ∈ rings, Readable ring) (within : position ≤ bytes.length)
    (content : bytes.drop position = pointsBytes native points ++ area native rings)
    (ends : pointsEnd = position + 16 * points.length) :
    Stands native bytes byteOrder numRings
      (onBytes bytes byteOrder numRings (stateAfter bytes pointsEnd position) position pointsEnd)
      ⟨rings.length, points.length⟩ := by
  have total : bytes.length = position + 16 * points.length + (area native rings).length := by
    have length := congrArg List.length content
    simp only [length_drop, length_append, pointsBytes_length] at length
    omega
  cases points with
  | nil =>
    cases rings with
    | nil =>
      have state : stateAfter bytes pointsEnd position = .done := by
        simp only [length_nil, area_nil] at total
        rw [stateAfter, if_pos (by omega)]
      rw [state]
      exact .finished
    | cons ring rings =>
      have state : stateAfter bytes pointsEnd position = .numPoints := by
        simp only [length_nil, area_cons, length_append, ringBytes_length] at total ends
        rw [stateAfter, if_neg (by omega), if_pos (by omega)]
      rw [state]
      exact .between (by simp) readable (by simpa using content)
  | cons point points =>
    have state : stateAfter bytes pointsEnd position = .points := by
      simp only [length_cons] at total ends
      rw [stateAfter_eq_points_iff]
      omega
    rw [state]
    exact .inside (by simp) readable content ends

/-- The size of the next ring is announced. -/
theorem Stands.announce {ring : Ring} {rings : List Ring} {position pointsEnd : Nat}
    (readable : ∀ other ∈ ring :: rings, Readable other)
    (content : bytes.drop position = area native (ring :: rings)) :
    ∃ response next progress,
      (onBytes bytes byteOrder numRings .numPoints position pointsEnd).call native .nextNumPoints =
        some (response, next) ∧
      PolygonProgress.allows ⟨(ring :: rings).length, 0⟩ .nextNumPoints response = some progress ∧
      Stands native bytes byteOrder numRings next progress := by
  obtain ⟨count, ends⟩ := (readable ring mem_cons_self).pointsEnd
  rw [area_cons, ringBytes, append_assoc] at content
  have later : bytes.drop (position + 4) = pointsBytes native ring ++ area native rings := by
    rw [← drop_drop, content, drop_left' (by simp)]
  refine ⟨_, _, ⟨rings.length, ring.length⟩,
    (call_nextNumPoints_iff native).mpr ⟨_, content.trans (by rw [later]), rfl, rfl⟩, ?_, ?_⟩
  · simp [PolygonProgress.allows, count]
  · apply Stands.inside (readable ring mem_cons_self).1 _ later (by rw [ends])
    exact fun other member => readable other (mem_cons_of_mem _ member)

/-- The next point of a ring is handed out. -/
theorem Stands.handOut {point : Double × Double} {points : Ring} {rings : List Ring}
    {position pointsEnd : Nat} (readable : ∀ ring ∈ rings, Readable ring)
    (content : bytes.drop position = pointsBytes native (point :: points) ++ area native rings)
    (ends : pointsEnd = position + 16 * (point :: points).length) :
    ∃ response next progress,
      (onBytes bytes byteOrder numRings .points position pointsEnd).call native .nextPoint =
        some (response, next) ∧
      PolygonProgress.allows ⟨rings.length, (point :: points).length⟩ .nextPoint response =
        some progress ∧
      Stands native bytes byteOrder numRings next progress := by
  rw [pointsBytes_cons, append_assoc] at content
  have later : bytes.drop (position + 16) = pointsBytes native points ++ area native rings := by
    rw [← drop_drop, content, drop_left' (by simp)]
  have within : position + 16 ≤ bytes.length := by
    have length := congrArg List.length content
    simp only [length_drop, length_append, pointBytes_length] at length
    omega
  refine ⟨_, _, ⟨rings.length, points.length⟩,
    (call_nextPoint_iff native).mpr ⟨_, content.trans (by rw [later]), rfl, rfl⟩, ?_, ?_⟩
  · simp [PolygonProgress.allows]
  · apply Stands.behindPoint native readable within later
    rw [ends, length_cons]
    omega

/-- Every call keeps the iterator in step with its client. -/
theorem Stands.step (iterator : PolygonIterator) (progress : PolygonProgress) (call : PolygonCall)
    (stands : Stands native bytes byteOrder numRings iterator progress) :
    ∃ response next progress', iterator.call native call = some (response, next) ∧
      progress.allows call response = some progress' ∧
      Stands native bytes byteOrder numRings next progress' := by
  cases stands with
  | @between rings position pointsEnd nonempty readable content =>
    cases call with
    | nextPoint =>
      refine ⟨_, _, _, call_nextPoint_refused native (by decide), rfl, ?_⟩
      exact .between nonempty readable content
    | nextNumPoints =>
      match rings, nonempty with
      | ring :: rings, _ => exact Stands.announce native readable content
  | @inside points rings position pointsEnd nonempty readable content ends =>
    cases call with
    | nextNumPoints =>
      refine ⟨_, _, ⟨rings.length, points.length⟩, call_nextNumPoints_refused native (by decide),
        ?_, .inside nonempty readable content ends⟩
      simp [PolygonProgress.allows, nonempty]
    | nextPoint =>
      match points, nonempty with
      | point :: points, _ => exact Stands.handOut native readable content ends
  | finished =>
    cases call with
    | nextNumPoints =>
      exact ⟨_, _, _, call_nextNumPoints_refused native (by decide), rfl, .finished⟩
    | nextPoint => exact ⟨_, _, _, call_nextPoint_refused native (by decide), rfl, .finished⟩

end Simulation

/-! ## What the protocol says about the value -/

section Necessity

variable {native} {bytes : List UInt8} {byteOrder : WkbByteOrder} {numRings : UInt32}
variable {position pointsEnd ringsLeft pointsLeft : Nat} {state : PolygonIteratorState}

/-- An iterator that waits for a point has one left. -/
theorem FollowsProtocol.nextPoint
    (follows : FollowsProtocol native
      (onBytes bytes byteOrder numRings .points position pointsEnd) ⟨ringsLeft, pointsLeft⟩) :
    ∃ points point, pointsLeft = points + 1 ∧
      bytes.drop position = pointBytes native point ++ bytes.drop (position + 16) ∧
      FollowsProtocol native (onBytes bytes byteOrder numRings
        (stateAfter bytes pointsEnd (position + 16)) (position + 16) pointsEnd)
        ⟨ringsLeft, points⟩ := by
  obtain ⟨response, next, progress, result, allowed, onward⟩ := conforms_next follows .nextPoint
  obtain ⟨point, content, rfl, rfl⟩ := (call_nextPoint_iff native).mp result
  simp only [PolygonProgress.allows] at allowed
  split at allowed
  · next left =>
      cases allowed
      exact ⟨pointsLeft - 1, point, by omega, content, onward⟩
  · cases allowed

/-- An iterator that waits for a ring has one left. -/
theorem FollowsProtocol.nextNumPoints
    (follows : FollowsProtocol native
      (onBytes bytes byteOrder numRings .numPoints position pointsEnd) ⟨ringsLeft, pointsLeft⟩) :
    ∃ rings numPoints, ringsLeft = rings + 1 ∧ pointsLeft = 0 ∧
      bytes.drop position = uint32Bytes native numPoints ++ bytes.drop (position + 4) ∧
      FollowsProtocol native (onBytes bytes byteOrder numRings .points (position + 4)
        (position + 4 + (numPoints * 2).toNat * 8)) ⟨rings, numPoints.toNat⟩ := by
  obtain ⟨response, next, progress, result, allowed, onward⟩ := conforms_next follows .nextNumPoints
  obtain ⟨numPoints, content, rfl, rfl⟩ := (call_nextNumPoints_iff native).mp result
  simp only [PolygonProgress.allows] at allowed
  split at allowed
  · next left =>
      cases allowed
      exact ⟨ringsLeft - 1, numPoints, by omega, left.1, content, onward⟩
  · cases allowed

/-- A client with points left finds the iterator waiting for a point. -/
theorem FollowsProtocol.state_points
    (follows : FollowsProtocol native
      (onBytes bytes byteOrder numRings state position pointsEnd) ⟨ringsLeft, pointsLeft⟩)
    (left : 0 < pointsLeft) : state = .points := by
  by_contra outside
  obtain ⟨response, next, progress, result, allowed, -⟩ := conforms_next follows .nextPoint
  rw [call_nextPoint_refused native outside] at result
  cases result
  simp [PolygonProgress.allows] at allowed
  omega

/-- A client with only rings left finds the iterator waiting for a ring. -/
theorem FollowsProtocol.state_numPoints
    (follows : FollowsProtocol native
      (onBytes bytes byteOrder numRings state position pointsEnd) ⟨ringsLeft, 0⟩)
    (left : 0 < ringsLeft) : state = .numPoints := by
  by_contra outside
  obtain ⟨response, next, progress, result, allowed, -⟩ := conforms_next follows .nextNumPoints
  rw [call_nextNumPoints_refused native outside] at result
  cases result
  simp [PolygonProgress.allows] at allowed
  omega

/-- The points that are left lie in the value, and all but the last of them before the end
that was computed. -/
theorem FollowsProtocol.points {points : Nat}
    (follows : FollowsProtocol native
      (onBytes bytes byteOrder numRings .points position pointsEnd) ⟨ringsLeft, points + 1⟩) :
    ∃ ring : Ring, ring.length = points + 1 ∧
      bytes.drop position =
        pointsBytes native ring ++ bytes.drop (position + 16 * (points + 1)) ∧
      (0 < points → position + 16 * points < pointsEnd) ∧
      FollowsProtocol native (onBytes bytes byteOrder numRings
        (stateAfter bytes pointsEnd (position + 16 * (points + 1)))
        (position + 16 * (points + 1)) pointsEnd) ⟨ringsLeft, 0⟩ := by
  induction points generalizing position with
  | zero =>
    obtain ⟨points, point, same, content, onward⟩ := follows.nextPoint
    cases same
    exact ⟨[point], rfl, by simpa using content, by simp, by simpa using onward⟩
  | succ points ih =>
    obtain ⟨others, point, same, content, onward⟩ := follows.nextPoint
    cases same
    have inside := onward.state_points (by omega)
    rw [inside] at onward
    obtain ⟨ring, length, later, before, rest⟩ := ih onward
    have moved : position + 16 + 16 * (points + 1) = position + 16 * (points + 1 + 1) := by omega
    rw [moved] at later rest
    refine ⟨point :: ring, by rw [length_cons, length], ?_, ?_, rest⟩
    · rw [content, later, pointsBytes_cons, append_assoc]
    · intro _
      have below := (stateAfter_eq_points_iff.mp inside).2
      rcases Nat.eq_zero_or_pos points with rfl | several
      · simpa using below
      · have last := before several
        omega

/-- The rings that are left are all there is in the value. -/
theorem FollowsProtocol.rings
    (follows : FollowsProtocol native
      (onBytes bytes byteOrder numRings .numPoints position pointsEnd) ⟨ringsLeft, 0⟩) :
    ∃ rings : List Ring, rings ≠ [] ∧ rings.length = ringsLeft ∧
      (∀ ring ∈ rings, Readable ring) ∧ bytes.drop position = area native rings := by
  induction ringsLeft generalizing position pointsEnd with
  | zero =>
    obtain ⟨rings, numPoints, impossible, -⟩ := follows.nextNumPoints
    cases impossible
  | succ ringsLeft ih =>
    obtain ⟨others, numPoints, same, -, announced, onward⟩ := follows.nextNumPoints
    cases same
    -- A ring without points would leave the iterator waiting for one.
    obtain ⟨points, -, count, -⟩ := onward.nextPoint
    rw [count] at onward
    obtain ⟨ring, length, content, before, behind⟩ := onward.points
    have number : UInt32.ofNat ring.length = numPoints := by
      rw [length, ← count, UInt32.ofNat_toNat]
    have bounded : ring.length < 2 ^ 31 := by
      have doubled : (numPoints * 2).toNat = (points + 1) * 2 % 2 ^ 32 := by
        rw [UInt32.toNat_mul, count]
        rfl
      have small := numPoints.toNat_lt
      rw [doubled] at before
      by_contra large
      have several : 0 < points := by omega
      have last := before several
      omega
    have readable : Readable ring := ⟨fun empty => by simp [empty] at length, bounded⟩
    have first : bytes.drop position = ringBytes native ring ++
        bytes.drop (position + 4 + 16 * (points + 1)) := by
      rw [announced, content, ringBytes, number, append_assoc]
    cases state : stateAfter bytes (position + 4 + (numPoints * 2).toNat * 8)
        (position + 4 + 16 * (points + 1)) with
    | points =>
      rw [state] at behind
      obtain ⟨_, _, impossible, -⟩ := behind.nextPoint
      cases impossible
    | numPoints =>
      rw [state] at behind
      obtain ⟨rings, -, length, others, rest⟩ := ih behind
      refine ⟨ring :: rings, by simp, by rw [length_cons, length], ?_, ?_⟩
      · exact forall_mem_cons.mpr ⟨readable, others⟩
      · rw [first, rest, area_cons]
    | done =>
      have last : ringsLeft = 0 := by
        by_contra more
        have wrong := behind.state_numPoints (Nat.pos_of_ne_zero more)
        rw [state] at wrong
        cases wrong
      have ends : bytes.length ≤ position + 4 + 16 * (points + 1) := by
        by_contra before
        rw [stateAfter, if_neg (by omega)] at state
        split at state <;> cases state
      refine ⟨[ring], by simp, by simp [last], by simpa using readable, ?_⟩
      rw [first, drop_eq_nil_of_le ends, area_cons, area_nil]

end Necessity

/-! ## Accepted values -/

/-- A reset fails and changes nothing, or has read the header of the value. -/
theorem resetBinary_polygon_cases {iterator after : PolygonIterator} {value : Value}
    {rc : CassError} (result : iterator.resetBinary native value = some (rc, after)) :
    (rc ≠ .ok ∧ after = iterator) ∨
      rc = .ok ∧ ∃ bytes byteOrder numRings, cassValueGetBytes value = some (.ok bytes) ∧
        decodeUint32 native bytes wkbHeaderSize byteOrder = some numRings ∧
        after = onBytes bytes byteOrder numRings .numPoints wkbPolygonHeaderSize 0 := by
  simp only [PolygonIterator.resetBinary, bind_eq_bind] at result
  split at result
  · next refused =>
      cases result
      exact .inl ⟨refused, rfl⟩
  obtain ⟨content, isContent, result⟩ := bind_eq_some_iff.mp result
  cases content with
  | error rc =>
    cases result
    exact .inl ⟨(cassValueGetBytes_error isContent).trans_ne (by decide), rfl⟩
  | ok bytes =>
    dsimp only at result
    split at result
    · cases result
      exact .inl ⟨by decide, rfl⟩
    obtain ⟨⟨type, byteOrder⟩, -, result⟩ := bind_eq_some_iff.mp result
    split at result
    · cases result
      exact .inl ⟨by decide, rfl⟩
    obtain ⟨numRings, number, result⟩ := bind_eq_some_iff.mp result
    obtain ⟨scanned, -, result⟩ := bind_eq_some_iff.mp result
    split at result
    · next refused =>
        cases result
        exact .inl ⟨refused, rfl⟩
    · cases result
      exact .inr ⟨rfl, bytes, byteOrder, numRings, isContent, number, rfl⟩

/-- An accepted value gives the protocol exactly if it consists of its header and of as many
rings as the header says, at least one and none of them empty. -/
theorem polygonIterator_safe_iff {iterator after : PolygonIterator} {value : Value}
    {bytes : List UInt8} (content : cassValueGetBytes value = some (.ok bytes))
    (accepted : iterator.resetBinary native value = some (.ok, after)) :
    FollowsProtocol native after ⟨after.numRings.toNat, 0⟩ ↔
      ∃ rings : List Ring, rings ≠ [] ∧ rings.length < 2 ^ 32 ∧
        (∀ ring ∈ rings, ring ≠ [] ∧ ring.length < 2 ^ 31) ∧
        bytes.drop wkbHeaderSize =
          uint32Bytes native (UInt32.ofNat rings.length) ++ area native rings := by
  obtain ⟨failed, -⟩ | ⟨-, _, byteOrder, numRings, read, number, rfl⟩ :=
    resetBinary_polygon_cases native accepted
  · exact absurd rfl failed
  cases content.symm.trans read
  have header := (decodeUint32_eq_some_iff native).mp number
  constructor
  · intro follows
    obtain ⟨rings, nonempty, length, readable, layout⟩ := FollowsProtocol.rings follows
    have count : rings.length = numRings.toNat := length
    refine ⟨rings, nonempty, ?_, readable, ?_⟩
    · rw [count]
      exact numRings.toNat_lt
    · rw [count, UInt32.ofNat_toNat, ← layout]
      exact header
  · rintro ⟨rings, nonempty, bounded, readable, layout⟩
    have rest : bytes.drop wkbPolygonHeaderSize = area native rings := by
      rw [wkbPolygonHeaderSize, ← drop_drop, layout, drop_left' (by simp)]
    have sameNumber : decodeUint32 native bytes wkbHeaderSize byteOrder =
        some (UInt32.ofNat rings.length) :=
      (decodeUint32_eq_some_iff native).mpr (layout.trans (congrArg _ rest.symm))
    rw [number] at sameNumber
    cases sameNumber
    have count : (UInt32.ofNat rings.length).toNat = rings.length := by
      rw [UInt32.toNat_ofNat', Nat.mod_eq_of_lt bounded]
    intro calls
    apply conforms_of_simulation (Stands.step native)
    show Stands native bytes byteOrder (UInt32.ofNat rings.length) _
      ⟨(UInt32.ofNat rings.length).toNat, 0⟩
    rw [count]
    exact .between nonempty readable rest

/-- Two triangles. -/
theorem polygonIterator_safe_triangles :
    ∃ after, PolygonIterator.new.resetBinary .little (polygonValue
        (wkbPolygon .little [[(0, 0), (1, 0), (1, 1)], [(2, 2), (3, 2), (3, 3)]])) =
          some (.ok, after) ∧
      FollowsProtocol .little after ⟨after.numRings.toNat, 0⟩ := by
  have accepted : PolygonIterator.new.resetBinary .little (polygonValue
      (wkbPolygon .little [[(0, 0), (1, 0), (1, 1)], [(2, 2), (3, 2), (3, 3)]])) =
      some (.ok, reading .little (wkbPolygon .little
        [[(0, 0), (1, 0), (1, 1)], [(2, 2), (3, 2), (3, 3)]]) 2 .numPoints
        wkbPolygonHeaderSize 0) := by decide
  refine ⟨_, accepted, ?_⟩
  apply (polygonIterator_safe_iff .little (cassValueGetBytes_polygonValue _) accepted).mpr
  exact ⟨[[(0, 0), (1, 0), (1, 1)], [(2, 2), (3, 2), (3, 3)]], by decide, by decide, by decide, rfl⟩

/-- A polygon without rings is accepted, and the first call reads behind its end. -/
theorem polygonIterator_empty_unsafe :
    ∃ after, PolygonIterator.new.resetBinary .little (polygonValue (wkbPolygon .little [])) =
        some (.ok, after) ∧
      after.nextNumPoints .little = none ∧
      ¬ FollowsProtocol .little after ⟨after.numRings.toNat, 0⟩ := by
  have accepted : PolygonIterator.new.resetBinary .little (polygonValue (wkbPolygon .little [])) =
      some (.ok, reading .little (wkbPolygon .little []) 0 .numPoints wkbPolygonHeaderSize 0) := by
    decide
  have outside : (reading .little (wkbPolygon .little []) 0 .numPoints
      wkbPolygonHeaderSize 0).nextNumPoints .little = none := by decide
  refine ⟨_, accepted, outside, ?_⟩
  intro follows
  obtain ⟨response, next, progress, result, -⟩ := follows [.nextNumPoints]
  rw [PolygonIterator.call, outside] at result
  cases result

end DseDriver.Geometry
