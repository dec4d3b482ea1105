import DseDriver.Geometry.PolygonLayout

/-!
# Reading a built polygon back

The reader is run as a client runs it: reset on the bytes of a finished polygon,
then for each ring its size and that many points.  The validation loop of the
reset looks at one word of the ring area per ring, wherever the rings really
start, and the iterator leaves a ring only through a point; both facts show up
in the exact condition for a round trip.
-/

namespace DseDriver.Geometry

open Lib Cql List Option

variable (native : ByteOrder)

/-! ## The client -/

/-- The output of a call that returned `CASS_OK`. -/
def expectOk {α σ : Type} : Option (Except CassError α × σ) → Option (α × σ)
  | some (.ok output, state) => some (output, state)
  | _ => none

/-- Call `next_point` the given number of times, all successfully. -/
def readPoints : Nat → PolygonIterator → Option (Ring × PolygonIterator)
  | 0, iterator => some ([], iterator)
  | count + 1, iterator => do
    let (point, iterator) ← expectOk (iterator.nextPoint native)
    let (points, iterator) ← readPoints count iterator
    return (point :: points, iterator)

/-- Call `next_num_points` and then `next_point` that many times. -/
def readRing (iterator : PolygonIterator) : Option (Ring × PolygonIterator) := do
  let (numPoints, iterator) ← expectOk (iterator.nextNumPoints native)
  readPoints native numPoints.toNat iterator

/-- Read the given number of rings. -/
def readRings : Nat → PolygonIterator → Option (List Ring × PolygonIterator)
  | 0, iterator => some ([], iterator)
  | count + 1, iterator => do
    let (ring, iterator) ← readRing native iterator
    let (rings, iterator) ← readRings count iterator
    return (ring :: rings, iterator)

/-- A polygon column value with the given bytes. -/
def polygonValue (bytes : List UInt8) : Value :=
  .ofDecoder (.custom dsePolygonType) (.mk' bytes 0 bytes.length 4)

/-- Neither call of the iterator has anything left to return. -/
def Exhausted (iterator : PolygonIterator) : Prop :=
  iterator.nextNumPoints native = some (.error .libInvalidState, iterator) ∧
    iterator.nextPoint native = some (.error .libInvalidState, iterator)

/-- Building the rings and reading the bytes back gives the same rings. -/
def RoundTrips (rings : List Ring) : Prop :=
  ∃ polygon iterator rest,
    build native rings = some (.ok, polygon) ∧
    PolygonIterator.new.resetBinary native (polygonValue polygon.bytes) = some (.ok, iterator) ∧
    iterator.numRings.toNat = rings.length ∧
    readRings native rings.length iterator = some (rings, rest) ∧
    Exhausted native rest

/-! ## The validation loop -/

/-- Bytes the validation loop accounts for when it takes the words for ring sizes. -/
def scanSize (words : List UInt32) : Nat :=
  (words.map fun word => 4 + (2 * word).toNat * 8).sum

variable {count : Nat}

theorem scanRings_words (words : List UInt32) (before : List UInt8) (byteOrder : WkbByteOrder)
    (enough : count ≤ words.length) (size : Nat) :
    PolygonIterator.scanRings native (before ++ wordsBytes native words) byteOrder count
        before.length size =
      some (if scanSize (words.take count) ≤ size then .ok else .libNotEnoughData) := by
  induction count generalizing words before size with
  | zero => simp [PolygonIterator.scanRings, scanSize]
  | succ count ih =>
    cases words with
    | nil => simp at enough
    | cons word words =>
      have next := ih words (before ++ uint32Bytes native word) (by simpa using enough)
        (size - 4 - (2 * word).toNat * 8)
      have load := decodeUint32_append native (wordsBytes native words) word byteOrder
        (rfl : before.length = before.length)
      simp only [append_assoc, length_append, uint32Bytes_length] at next
      simp only [PolygonIterator.scanRings, wordsBytes_cons, load, bind_eq_bind,
        bind_some, next, scanSize, take_succ_cons, map_cons, sum_cons]
      split
      next small => rw [if_neg (by omega)]
      next =>
        split
        next small => rw [if_neg (by omega)]
        next => congr 2; apply propext; omega

/-! ## The iterator on a ring -/

/-- The iterator over the given bytes in the given state. -/
def reading (bytes : List UInt8) (numRings : UInt32) (state : PolygonIteratorState)
    (position pointsEnd : Nat) : PolygonIterator :=
  { numRings
    iterator := some {
      bytes
      state
      position
      ringsEnd := bytes.length
      pointsEnd
      byteOrder := nativeByteOrder native } }

/-- The state after a point that ends at the given position. -/
def stateAfter (bytes : List UInt8) (pointsEnd position : Nat) : PolygonIteratorState :=
  if position ≥ bytes.length then .done else if position ≥ pointsEnd then .numPoints else .points

theorem stateAfter_eq_points_iff {bytes : List UInt8} {pointsEnd position : Nat} :
    stateAfter bytes pointsEnd position = .points ↔
      position < bytes.length ∧ position < pointsEnd := by
  unfold stateAfter
  split
  · simp; omega
  · split <;> simp <;> omega

variable {bytes before after : List UInt8} {numRings : UInt32} {position pointsEnd : Nat}

theorem nextNumPoints_reading {numPoints : UInt32}
    (content : bytes = before ++ (uint32Bytes native numPoints ++ after))
    (start : before.length = position) :
    (reading native bytes numRings .numPoints position pointsEnd).nextNumPoints native =
      some (.ok numPoints, reading native bytes numRings .points (position + 4)
        (position + 4 + (numPoints * 2).toNat * 8)) := by
  simp [PolygonIterator.nextNumPoints, PolygonIterator.dispatch, reading,
    BinaryIterator.nextNumPoints, content, decodeUint32_append native after numPoints _ start]

theorem nextPoint_reading {point : Double × Double}
    (content : bytes = before ++ (pointBytes native point ++ after))
    (start : before.length = position) :
    (reading native bytes numRings .points position pointsEnd).nextPoint native =
      some (.ok point, reading native bytes numRings
        (stateAfter bytes pointsEnd (position + 16)) (position + 16) pointsEnd) := by
  have loadX := decodeDouble_append native (doubleBytes native point.2 ++ after) point.1
    (nativeByteOrder native) start
  have second : (before ++ doubleBytes native point.1).length = position + 8 := by simp [start]
  have loadY := decodeDouble_append native after point.2 (nativeByteOrder native) second
  rw [content]
  simp only [pointBytes, append_assoc] at loadX loadY ⊢
  simp [PolygonIterator.nextPoint, PolygonIterator.dispatch, reading, BinaryIterator.nextPoint,
    stateAfter, loadX, loadY]

/-- A successful `next_point` moves on by one point, whatever it reads. -/
theorem nextPoint_reading_ok {point : Double × Double} {next : PolygonIterator}
    (read : expectOk ((reading native bytes numRings .points position pointsEnd).nextPoint native) =
      some (point, next)) :
    next = reading native bytes numRings (stateAfter bytes pointsEnd (position + 16))
      (position + 16) pointsEnd := by
  simp only [PolygonIterator.nextPoint, PolygonIterator.dispatch, reading, BinaryIterator.nextPoint,
    ne_eq, not_true_eq_false, if_false] at read
  cases loadX : decodeDouble native bytes position (nativeByteOrder native) with
  | none => simp [loadX, expectOk] at read
  | some x =>
    cases loadY : decodeDouble native bytes (position + 8) (nativeByteOrder native) with
    | none => simp [loadX, loadY, expectOk] at read
    | some y =>
      simp only [loadX, loadY, bind_eq_bind, bind_some, Option.pure_def,
        map_some, expectOk, Prod.map_apply, id, Option.some.injEq, Prod.mk.injEq] at read
      rw [← read.2]
      rfl

theorem nextPoint_reading_state {state : PolygonIteratorState} (outside : state ≠ .points) :
    (reading native bytes numRings state position pointsEnd).nextPoint native =
      some (.error .libInvalidState, reading native bytes numRings state position pointsEnd) := by
  simp [PolygonIterator.nextPoint, PolygonIterator.dispatch, reading, BinaryIterator.nextPoint,
    outside]

/-- Two successful `next_point` calls in a row stay below both ends. -/
theorem nextPoint_reading_points {first second : Double × Double} {next last : PolygonIterator}
    (readFirst : expectOk ((reading native bytes numRings .points position pointsEnd).nextPoint
      native) = some (first, next))
    (readSecond : expectOk (next.nextPoint native) = some (second, last)) :
    next = reading native bytes numRings .points (position + 16) pointsEnd ∧
      position + 16 < pointsEnd := by
  have moved := nextPoint_reading_ok native readFirst
  have inside : stateAfter bytes pointsEnd (position + 16) = .points := by
    by_contra outside
    rw [moved, nextPoint_reading_state native outside] at readSecond
    cases readSecond
  exact ⟨moved.trans (by rw [inside]), (stateAfter_eq_points_iff.mp inside).2⟩

theorem nextNumPoints_reading_state {state : PolygonIteratorState} (outside : state ≠ .numPoints) :
    (reading native bytes numRings state position pointsEnd).nextNumPoints native =
      some (.error .libInvalidState, reading native bytes numRings state position pointsEnd) := by
  simp [PolygonIterator.nextNumPoints, PolygonIterator.dispatch, reading,
    BinaryIterator.nextNumPoints, outside]

theorem readPoints_succ {iterator rest : PolygonIterator} {points : Ring} :
    readPoints native (count + 1) iterator = some (points, rest) ↔
      ∃ point next tail, expectOk (iterator.nextPoint native) = some (point, next) ∧
        readPoints native count next = some (tail, rest) ∧ point :: tail = points := by
  simp only [readPoints, bind_eq_bind, bind_eq_some_iff, Option.pure_def,
    Option.some.injEq, Prod.mk.injEq]
  constructor
  · rintro ⟨⟨point, next⟩, readPoint, ⟨tail, last⟩, readTail, rfl, rfl⟩
    exact ⟨point, next, tail, readPoint, readTail, rfl⟩
  · rintro ⟨point, next, tail, readPoint, readTail, rfl⟩
    exact ⟨⟨point, next⟩, readPoint, ⟨tail, rest⟩, readTail, rfl, rfl⟩

theorem readPoints_length {iterator rest : PolygonIterator} {points : Ring}
    (read : readPoints native count iterator = some (points, rest)) : points.length = count := by
  induction count generalizing iterator points with
  | zero => simp_all [readPoints]
  | succ count ih =>
    obtain ⟨point, next, tail, -, readTail, rfl⟩ := (readPoints_succ native).mp read
    simp [ih readTail]

/-- The iterator hands out points in one go only below the end it computed. -/
theorem readPoints_lt_pointsEnd {rest : PolygonIterator} {points : Ring}
    (read : readPoints native (count + 2)
      (reading native bytes numRings .points position pointsEnd) = some (points, rest)) :
    position + 16 * (count + 1) < pointsEnd := by
  induction count generalizing position points with
  | zero =>
    obtain ⟨point, next, tail, readPoint, readTail, rfl⟩ := (readPoints_succ native).mp read
    obtain ⟨second, last, rest, readSecond, -, -⟩ := (readPoints_succ native).mp readTail
    exact (nextPoint_reading_points native readPoint readSecond).2
  | succ count ih =>
    obtain ⟨point, next, tail, readPoint, readTail, rfl⟩ := (readPoints_succ native).mp read
    obtain ⟨second, last, rest, readSecond, -, -⟩ := (readPoints_succ native).mp readTail
    obtain ⟨rfl, -⟩ := nextPoint_reading_points native readPoint readSecond
    have below := ih readTail
    omega

/-- The points of a ring are read back, and the ring is left behind its last point. -/
theorem readPoints_reading {points : Ring} (nonempty : points ≠ [])
    (content : bytes = before ++ (pointsBytes native points ++ after))
    (start : before.length = position) (last : position + 16 * points.length = pointsEnd) :
    readPoints native points.length (reading native bytes numRings .points position pointsEnd) =
      some (points, reading native bytes numRings (if after = [] then .done else .numPoints)
        pointsEnd pointsEnd) := by
  induction points generalizing before position with
  | nil => exact absurd rfl nonempty
  | cons point points ih =>
    have first : (reading native bytes numRings .points position pointsEnd).nextPoint native = _ :=
      nextPoint_reading native (content.trans (by rw [pointsBytes_cons, append_assoc])) start
    have total : bytes.length = position + 16 + 16 * points.length + after.length := by
      simp [content, start]
      omega
    simp only [length_cons] at last
    refine (readPoints_succ native).mpr ⟨point, _, points, by rw [first, expectOk], ?_, rfl⟩
    cases points with
    | nil =>
      have left : stateAfter bytes pointsEnd (position + 16) =
          if after = [] then .done else .numPoints := by
        have bound : position + 16 ≥ bytes.length ↔ after = [] := by
          rw [← length_eq_zero_iff, total]
          simp
        simp [stateAfter, bound, ← last]
      rw [left]
      simp [readPoints, ← last]
    | cons second points =>
      have inside : stateAfter bytes pointsEnd (position + 16) = .points := by
        rw [stateAfter_eq_points_iff]
        simp only [length_cons] at total last
        omega
      have moved : (before ++ pointBytes native point).length = position + 16 := by
        simp [start]
      rw [inside]
      refine ih (by simp) (content.trans ?_) moved ?_
      · simp
      · omega

/-! ## Whole rings -/

/-- The iterator can leave the ring and its size fits the computation of the end. -/
def Readable (ring : Ring) : Prop :=
  ring ≠ [] ∧ ring.length < 2 ^ 31

theorem readRing_eq {ring : Ring} (content : bytes = before ++ (ringBytes native ring ++ after))
    (start : before.length = position) :
    readRing native (reading native bytes numRings .numPoints position pointsEnd) =
      readPoints native (UInt32.ofNat ring.length).toNat
        (reading native bytes numRings .points (position + 4)
          (position + 4 + (UInt32.ofNat ring.length * 2).toNat * 8)) := by
  have size : (reading native bytes numRings .numPoints position pointsEnd).nextNumPoints native =
      _ := nextNumPoints_reading native
    (content.trans (by rw [ringBytes, append_assoc])) start
  rw [readRing, size, expectOk]
  rfl

theorem readRing_readable {ring : Ring} (readable : Readable ring)
    (content : bytes = before ++ (ringBytes native ring ++ after))
    (start : before.length = position) :
    readRing native (reading native bytes numRings .numPoints position pointsEnd) =
      some (ring, reading native bytes numRings (if after = [] then .done else .numPoints)
        (position + 4 + 16 * ring.length) (position + 4 + 16 * ring.length)) := by
  obtain ⟨nonempty, bounded⟩ := readable
  have count : (UInt32.ofNat ring.length).toNat = ring.length := by
    rw [UInt32.toNat_ofNat']
    omega
  have ends : (UInt32.ofNat ring.length * 2).toNat * 8 = 16 * ring.length := by
    rw [UInt32.toNat_mul, count, show (2 : UInt32).toNat = 2 from rfl]
    omega
  have moved : (before ++ uint32Bytes native (UInt32.ofNat ring.length)).length = position + 4 := by
    simp [start]
  rw [readRing_eq native content start, count, ends]
  exact readPoints_reading native nonempty (content.trans (by simp [ringBytes])) moved rfl

theorem readRing_nil (content : bytes = before ++ (ringBytes native [] ++ after))
    (start : before.length = position) :
    readRing native (reading native bytes numRings .numPoints position pointsEnd) =
      some ([], reading native bytes numRings .points (position + 4) (position + 4)) := by
  rw [readRing_eq native content start]
  rfl

/-- A ring whose size is doubled past 32 bits is cut short. -/
theorem length_lt_of_readRing {ring : Ring} {rest : PolygonIterator}
    (content : bytes = before ++ (ringBytes native ring ++ after))
    (start : before.length = position)
    (read : readRing native (reading native bytes numRings .numPoints position pointsEnd) =
      some (ring, rest)) :
    ring.length < 2 ^ 31 := by
  rw [readRing_eq native content start] at read
  have count := readPoints_length native read
  have ends : (UInt32.ofNat ring.length * 2).toNat = ring.length * 2 % 2 ^ 32 := by
    rw [UInt32.toNat_mul, ← count, UInt32.toNat_ofNat]
  by_contra large
  have bounded := (UInt32.ofNat ring.length).toNat_lt
  obtain ⟨more, several⟩ : ∃ more, ring.length = more + 2 := ⟨ring.length - 2, by omega⟩
  rw [← count, several] at read
  have below := readPoints_lt_pointsEnd native read
  rw [← several, ends] at below
  omega

theorem readRings_succ {iterator rest : PolygonIterator} {rings : List Ring} :
    readRings native (count + 1) iterator = some (rings, rest) ↔
      ∃ ring next tail, readRing native iterator = some (ring, next) ∧
        readRings native count next = some (tail, rest) ∧ ring :: tail = rings := by
  simp only [readRings, bind_eq_bind, bind_eq_some_iff, Option.pure_def,
    Option.some.injEq, Prod.mk.injEq]
  constructor
  · rintro ⟨⟨ring, next⟩, readRing, ⟨tail, last⟩, readTail, rfl, rfl⟩
    exact ⟨ring, next, tail, readRing, readTail, rfl⟩
  · rintro ⟨ring, next, tail, readRing, readTail, rfl⟩
    exact ⟨⟨ring, next⟩, readRing, ⟨tail, rest⟩, readTail, rfl, rfl⟩

theorem readRings_of_readRing {iterator next rest : PolygonIterator} {ring : Ring}
    {rings : List Ring} (read : readRing native iterator = some (ring, next)) :
    readRings native (count + 1) iterator = some (ring :: rings, rest) ↔
      readRings native count next = some (rings, rest) := by
  simp [readRings_succ, read]

theorem area_eq_nil_iff {rings : List Ring} : area native rings = [] ↔ rings = [] := by
  cases rings <;> simp [ringBytes, uint32Bytes, ← length_eq_zero_iff]

theorem exhausted_done :
    Exhausted native (reading native bytes numRings .done position pointsEnd) :=
  ⟨nextNumPoints_reading_state native (by decide), nextPoint_reading_state native (by decide)⟩

/-- An iterator that waits for a point is not exhausted: it reads on. -/
theorem not_exhausted_points :
    ¬ Exhausted native (reading native bytes numRings .points position pointsEnd) := by
  rintro ⟨-, refused⟩
  simp only [PolygonIterator.nextPoint, PolygonIterator.dispatch, reading,
    BinaryIterator.nextPoint, ne_eq, not_true_eq_false, if_false] at refused
  cases loadX : decodeDouble native bytes position (nativeByteOrder native) with
  | none => simp [loadX] at refused
  | some x =>
    cases loadY : decodeDouble native bytes (position + 8) (nativeByteOrder native) with
    | none => simp [loadX, loadY] at refused
    | some y => simp [loadX, loadY] at refused

theorem readRing_reading_points :
    readRing native (reading native bytes numRings .points position pointsEnd) = none := by
  rw [readRing, nextNumPoints_reading_state native (by decide)]
  rfl

/-- The client reads all rings and finds the iterator exhausted exactly when
every ring can be left again. -/
theorem readRings_iff {rings : List Ring} (nonempty : rings ≠ [])
    (content : bytes = before ++ area native rings) (start : before.length = position) :
    (∃ rest, readRings native rings.length
          (reading native bytes numRings .numPoints position pointsEnd) = some (rings, rest) ∧
        Exhausted native rest) ↔
      ∀ ring ∈ rings, Readable ring := by
  induction rings generalizing before position pointsEnd with
  | nil => exact absurd rfl nonempty
  | cons ring rings ih =>
    have layout : bytes = before ++ (ringBytes native ring ++ area native rings) := content
    -- What is left to read once this ring has been left behind.
    have onward (readable : Readable ring) :
        (∃ rest, readRings native (ring :: rings).length
            (reading native bytes numRings .numPoints position pointsEnd) =
              some (ring :: rings, rest) ∧ Exhausted native rest) ↔
          ∀ ring ∈ rings, Readable ring := by
      have readHead : readRing native
          (reading native bytes numRings .numPoints position pointsEnd) = _ :=
        readRing_readable native readable layout start
      simp only [area_eq_nil_iff] at readHead
      simp only [length_cons, readRings_of_readRing native readHead]
      cases rings with
      | nil => simp [readRings, exhausted_done]
      | cons second rings =>
        have moved : (before ++ ringBytes native ring).length =
            position + 4 + 16 * ring.length := by
          simp [start]
          omega
        exact ih (by simp) (layout.trans (append_assoc ..).symm) moved
    rw [forall_mem_cons]
    constructor
    · intro complete
      have readable : Readable ring := by
        obtain ⟨rest, read, exhausted⟩ := complete
        obtain ⟨_, next, _, readHead, readTail, same⟩ := (readRings_succ native).mp read
        cases same
        refine ⟨?_, length_lt_of_readRing native layout start readHead⟩
        -- An empty ring leaves the iterator waiting for a point it does not have.
        rintro rfl
        rw [readRing_nil native layout start] at readHead
        cases readHead
        cases rings with
        | nil =>
          cases readTail
          exact not_exhausted_points native exhausted
        | cons second rings =>
          obtain ⟨_, _, _, readSecond, -⟩ := (readRings_succ native).mp readTail
          rw [readRing_reading_points native] at readSecond
          cases readSecond
      exact ⟨readable, (onward readable).mp complete⟩
    · rintro ⟨readable, others⟩
      exact (onward readable).mpr others

/-! ## The whole round trip -/

@[simp] theorem validateDataType_polygonValue (bytes : List UInt8) :
    validateDataType (polygonValue bytes) dsePolygonType = .ok := by
  simp [validateDataType, polygonValue, Value.ofDecoder]

@[simp] theorem cassValueGetBytes_polygonValue (bytes : List UInt8) :
    cassValueGetBytes (polygonValue bytes) = some (.ok bytes) := by
  simp [cassValueGetBytes, polygonValue, Value.ofDecoder, Decoder.asStringRef, Decoder.mk', readAt]

theorem decodeHeader_polygonHeader (numRings : UInt32) (rest : List UInt8) :
    decodeHeader native (polygonHeader native numRings ++ rest) 0 =
      some (.polygon, nativeByteOrder native) := by
  have layout : polygonHeader native numRings ++ rest =
      [(nativeByteOrder native).toByte] ++ (uint32Bytes native WkbGeometryType.polygon.toUint32 ++
        (uint32Bytes native numRings ++ rest)) := by
    simp [polygonHeader, encodeHeaderAppend]
  have type := decodeUint32_append native (uint32Bytes native numRings ++ rest)
    WkbGeometryType.polygon.toUint32 (nativeByteOrder native)
    (length_singleton : [(nativeByteOrder native).toByte].length = 1)
  rw [layout, decodeHeader]
  simp only [singleton_append, getElem?_cons_zero, Nat.zero_add, bind_eq_bind,
    bind_some, ofByte_toByte_native] at type ⊢
  rw [type]
  rfl

theorem decodeUint32_polygonHeader (numRings : UInt32) (rest : List UInt8) :
    decodeUint32 native (polygonHeader native numRings ++ rest) wkbHeaderSize
      (nativeByteOrder native) = some numRings := by
  rw [polygonHeader, append_assoc]
  exact decodeUint32_append native rest numRings _ (by simp [encodeHeaderAppend, wkbHeaderSize])

/-- The header of a finished polygon is accepted, and the verdict of the reset is
that of the validation loop. -/
theorem resetBinary_wkbPolygon (rings : List Ring) :
    PolygonIterator.new.resetBinary native (polygonValue (wkbPolygon native rings)) =
      some (if scanSize ((areaWords native rings).take (UInt32.ofNat rings.length).toNat) ≤
            (area native rings).length then
          (.ok, reading native (wkbPolygon native rings) (UInt32.ofNat rings.length) .numPoints
            wkbPolygonHeaderSize 0)
        else
          (.libNotEnoughData, .new)) := by
  have counter : (UInt32.ofNat rings.length).toNat ≤ (areaWords native rings).length := by
    rw [UInt32.toNat_ofNat']
    exact (Nat.mod_le ..).trans (length_le_areaWords native rings)
  have scanned := scanRings_words native (areaWords native rings)
    (polygonHeader native (UInt32.ofNat rings.length)) (nativeByteOrder native) counter
    (area native rings).length
  rw [← area_eq_words, polygonHeader_length] at scanned
  have header : decodeHeader native (wkbPolygon native rings) 0 = _ :=
    decodeHeader_polygonHeader native _ _
  have number : decodeUint32 native (wkbPolygon native rings) wkbHeaderSize _ = _ :=
    decodeUint32_polygonHeader native _ _
  have size : (wkbPolygon native rings).length =
      wkbPolygonHeaderSize + (area native rings).length := by
    simp [wkbPolygon]
  have verdict : PolygonIterator.scanRings native (wkbPolygon native rings) _ _ _ _ = _ := scanned
  simp only [PolygonIterator.resetBinary, validateDataType_polygonValue,
    cassValueGetBytes_polygonValue, size, header, number, verdict, bind_eq_bind,
    bind_some, Nat.add_sub_cancel_left]
  by_cases fits : scanSize ((areaWords native rings).take (UInt32.ofNat rings.length).toNat) ≤
      (area native rings).length
  · simp only [if_pos fits]
    simp [reading, size]
  · simp only [if_neg fits]
    simp

/-- An iterator between two rings is not exhausted: it reads on. -/
theorem not_exhausted_numPoints :
    ¬ Exhausted native (reading native bytes numRings .numPoints position pointsEnd) := by
  rintro ⟨refused, -⟩
  simp only [PolygonIterator.nextNumPoints, PolygonIterator.dispatch, reading,
    BinaryIterator.nextNumPoints, ne_eq, not_true_eq_false, if_false] at refused
  cases load : decodeUint32 native bytes position (nativeByteOrder native) with
  | none => simp [load] at refused
  | some size => simp [load] at refused

theorem storable_of_readable {ring : Ring} (size : ring = [] ∨ 3 ≤ ring.length)
    (readable : Readable ring) : Storable ring := by
  have several : 3 ≤ ring.length := size.resolve_left readable.1
  have bounded := readable.2
  constructor <;>
  · intro equal
    have count := congrArg UInt32.toNat equal
    rw [UInt32.toNat_ofNat', Nat.mod_eq_of_lt (by omega)] at count
    simp at count
    omega

/-- A built polygon is read back if and only if there is a ring, no counter
overflows, no ring is empty, and the words the validation loop takes for ring
sizes ask for no more bytes than the rings have. -/
theorem polygon_roundTrips_iff (rings : List Ring) (sizes : ∀ ring ∈ rings, ring = [] ∨ 3 ≤ ring.length) :
    RoundTrips native rings ↔
      rings ≠ [] ∧ rings.length < 2 ^ 32 ∧
        (∀ ring ∈ rings, ring ≠ [] ∧ ring.length < 2 ^ 31) ∧
        scanSize ((areaWords native rings).take rings.length) ≤
          4 * rings.length + 16 * (rings.map List.length).sum := by
  have start : (polygonHeader native (UInt32.ofNat rings.length)).length = wkbPolygonHeaderSize :=
    polygonHeader_length native _
  rw [← area_length native rings]
  constructor
  · rintro ⟨polygon, iterator, rest, built, reset, count, read, exhausted⟩
    obtain ⟨-, rfl⟩ := (build_eq_ok_iff native rings polygon).mp built
    rw [finished_bytes, resetBinary_wkbPolygon] at reset
    split at reset
    next fits =>
      cases reset
      have nonempty : rings ≠ [] := by
        rintro rfl
        cases read
        exact not_exhausted_numPoints native exhausted
      have counted : (UInt32.ofNat rings.length).toNat = rings.length := count
      rw [counted] at fits
      refine ⟨nonempty, ?_, (readRings_iff native nonempty rfl start).mp ⟨rest, read, exhausted⟩,
        fits⟩
      rw [← counted]
      exact UInt32.toNat_lt _
    next => cases reset
  · rintro ⟨nonempty, bounded, readable, fits⟩
    have counted : (UInt32.ofNat rings.length).toNat = rings.length := by
      rw [UInt32.toNat_ofNat', Nat.mod_eq_of_lt bounded]
    have storable : ∀ ring ∈ rings, Storable ring := fun ring membership =>
      storable_of_readable (sizes ring membership) (readable ring membership)
    obtain ⟨rest, read, exhausted⟩ := (readRings_iff native nonempty rfl start).mpr readable
    refine ⟨finished native rings,
      reading native (wkbPolygon native rings) (UInt32.ofNat rings.length) .numPoints
        wkbPolygonHeaderSize 0, rest,
      (build_eq_ok_iff native rings _).mpr ⟨storable, rfl⟩, ?_, counted, read, exhausted⟩
    rw [finished_bytes, resetBinary_wkbPolygon, counted, if_pos fits]

/-- Two triangles. -/
theorem polygon_roundTrips_triangles :
    RoundTrips .little [[(0, 0), (1, 0), (1, 1)], [(2, 2), (3, 2), (3, 3)]] :=
  (polygon_roundTrips_iff .little [[(0, 0), (1, 0), (1, 1)], [(2, 2), (3, 2), (3, 3)]]
    (by decide)).mpr (by decide)

/-- Two triangles, the first with a corner at one tenth: the builder accepts them
and the reset takes the low half of that coordinate for the size of a ring. -/
theorem polygon_tenth_not_roundTrips :
    (∃ polygon,
      build .little [[(0x3FB999999999999A, 0), (1, 0), (1, 1)], [(0, 0), (1, 0), (1, 1)]] =
        some (.ok, polygon) ∧
      PolygonIterator.new.resetBinary .little (polygonValue polygon.bytes) =
        some (.libNotEnoughData, .new)) ∧
    ¬ RoundTrips .little
      [[(0x3FB999999999999A, 0), (1, 0), (1, 1)], [(0, 0), (1, 0), (1, 1)]] := by
  have built := (build_eq_ok_iff .little
    [[(0x3FB999999999999A, 0), (1, 0), (1, 1)], [(0, 0), (1, 0), (1, 1)]] _).mpr ⟨by decide, rfl⟩
  have reset : PolygonIterator.new.resetBinary .little (polygonValue (finished .little
      [[(0x3FB999999999999A, 0), (1, 0), (1, 1)], [(0, 0), (1, 0), (1, 1)]]).bytes) =
      some (.libNotEnoughData, .new) := by decide
  refine ⟨⟨_, built, reset⟩, ?_⟩
  rintro ⟨polygon, iterator, rest, again, accepted, -⟩
  rw [built] at again
  cases again
  rw [reset] at accepted
  cases accepted

end DseDriver.Geometry
