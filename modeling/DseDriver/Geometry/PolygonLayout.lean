import DseDriver.Geometry.Polygon

/-!
# The bytes of a finished polygon

What the builder is for: a sequence of rings becomes the well-known binary
polygon, a header, the number of rings, and for each ring its number of points
and the points.  `build_eq_ok_iff` connects that layout to the calls of the
builder, and `area_eq_words` reads the ring area as the words the validation
loop of the iterator sees.
-/

namespace DseDriver.Geometry

open DseDriver.Lib DseDriver.Cql List

/-- The points of one ring, in the order they are added. -/
abbrev Ring := List (Double × Double)

variable (native : ByteOrder)

/-! ## Layout -/

def pointBytes (point : Double × Double) : List UInt8 :=
  doubleBytes native point.1 ++ doubleBytes native point.2

def pointsBytes (points : Ring) : List UInt8 :=
  points.flatMap (pointBytes native)

def ringBytes (ring : Ring) : List UInt8 :=
  uint32Bytes native (UInt32.ofNat ring.length) ++ pointsBytes native ring

/-- The rings of a polygon, one after the other. -/
def area (rings : List Ring) : List UInt8 :=
  rings.flatMap (ringBytes native)

/-- A polygon header with the given number of rings. -/
def polygonHeader (numRings : UInt32) : List UInt8 :=
  encodeHeaderAppend native .polygon [] ++ uint32Bytes native numRings

/-- The well-known binary form of a polygon. -/
def wkbPolygon (rings : List Ring) : List UInt8 :=
  polygonHeader native (UInt32.ofNat rings.length) ++ area native rings

@[simp] theorem pointBytes_length (point : Double × Double) :
    (pointBytes native point).length = 16 := by
  simp [pointBytes]

@[simp] theorem pointsBytes_nil : pointsBytes native [] = [] := rfl

@[simp] theorem pointsBytes_cons (point : Double × Double) (points : Ring) :
    pointsBytes native (point :: points) = pointBytes native point ++ pointsBytes native points :=
  rfl

@[simp] theorem pointsBytes_append (first second : Ring) :
    pointsBytes native (first ++ second) = pointsBytes native first ++ pointsBytes native second := by
  simp [pointsBytes]

@[simp] theorem pointsBytes_length (points : Ring) :
    (pointsBytes native points).length = 16 * points.length := by
  induction points with
  | nil => rfl
  | cons point points ih =>
    simp only [pointsBytes_cons, length_append, pointBytes_length, ih, length_cons]
    omega

@[simp] theorem area_nil : area native [] = [] := rfl

@[simp] theorem area_cons (ring : Ring) (rings : List Ring) :
    area native (ring :: rings) = ringBytes native ring ++ area native rings := rfl

@[simp] theorem area_append (first second : List Ring) :
    area native (first ++ second) = area native first ++ area native second := by
  simp [area]

@[simp] theorem ringBytes_length (ring : Ring) :
    (ringBytes native ring).length = 4 + 16 * ring.length := by
  simp [ringBytes]

theorem area_length (rings : List Ring) :
    (area native rings).length = 4 * rings.length + 16 * (rings.map List.length).sum := by
  induction rings with
  | nil => rfl
  | cons ring rings ih =>
    simp only [area_cons, length_append, ringBytes_length, ih, length_cons,
      map_cons, sum_cons]
    omega

@[simp] theorem polygonHeader_length (numRings : UInt32) :
    (polygonHeader native numRings).length = wkbPolygonHeaderSize := by
  simp [polygonHeader, encodeHeaderAppend, wkbPolygonHeaderSize, wkbHeaderSize]

/-- The number of rings is the only part of the header that `finish` patches. -/
theorem encode_polygonHeader (old new : UInt32) (rest : List UInt8) :
    encode native new wkbHeaderSize (polygonHeader native old ++ rest) =
      some (polygonHeader native new ++ rest) := by
  unfold encode polygonHeader
  rw [append_assoc, append_assoc]
  refine writeAt_append rest ?_ ?_
  · simp [encodeHeaderAppend, wkbHeaderSize]
  · simp

/-! ## The builder produces the layout -/

/-- Add the rings one by one and finish, stopping at the first error. -/
def buildRings : List Ring → Polygon → Option (CassError × Polygon)
  | [], polygon => polygon.finish native
  | ring :: rest, polygon => do
    let (rc, polygon) ← polygon.startRing native
    if rc ≠ .ok then
      return (rc, polygon)
    buildRings rest (ring.foldl (fun polygon point => polygon.addPoint native point.1 point.2)
      polygon)

/-- The calls on a fresh polygon that build the given rings. -/
def build (rings : List Ring) : Option (CassError × Polygon) :=
  buildRings native rings (.reset native)

/-- A polygon between two rings, whose header shows the given number of rings. -/
def closed (header : UInt32) (finished : List Ring) : Polygon :=
  { numRings := UInt32.ofNat finished.length
    numPoints := 0
    ringStartIndex := 0
    bytes := polygonHeader native header ++ area native finished }

/-- A polygon inside a ring, whose number of points is not written yet. -/
def started (header : UInt32) (finished : List Ring) (current : Ring) : Polygon :=
  { numRings := UInt32.ofNat (finished.length + 1)
    numPoints := UInt32.ofNat current.length
    ringStartIndex := wkbPolygonHeaderSize + (area native finished).length
    bytes := polygonHeader native header ++ area native finished ++
      (uint32Bytes native 0 ++ pointsBytes native current) }

/-- The polygon `finish` leaves. -/
def finished (rings : List Ring) : Polygon :=
  closed native (UInt32.ofNat rings.length) rings

/-- The counter of the ring does not show one or two points. -/
def Storable (ring : Ring) : Prop :=
  UInt32.ofNat ring.length ≠ 1 ∧ UInt32.ofNat ring.length ≠ 2

instance (ring : Ring) : Decidable (Storable ring) :=
  inferInstanceAs (Decidable (_ ∧ _))

theorem finished_bytes (rings : List Ring) : (finished native rings).bytes = wkbPolygon native rings :=
  rfl

theorem reset_eq_closed : Polygon.reset native = closed native 0 [] := by
  simp [Polygon.reset, closed, polygonHeader]

theorem finishRing_closed (header : UInt32) (rings : List Ring) :
    (closed native header rings).finishRing native = some (.ok, closed native header rings) := by
  simp [Polygon.finishRing, closed]

theorem finishRing_open {polygon : Polygon} {bytes : List UInt8}
    (isOpen : 0 < polygon.ringStartIndex)
    (counter : polygon.numPoints ≠ 1 ∧ polygon.numPoints ≠ 2)
    (patched : encode native polygon.numPoints polygon.ringStartIndex polygon.bytes = some bytes) :
    polygon.finishRing native =
      some (.ok, { polygon with numPoints := 0, ringStartIndex := 0, bytes }) := by
  simp [Polygon.finishRing, isOpen, counter, patched]

theorem started_isOpen (header : UInt32) (rings : List Ring) (current : Ring) :
    0 < (started native header rings current).ringStartIndex := by
  simp [started, wkbPolygonHeaderSize]

variable {current : Ring}

/-- Finishing a ring patches the word that `start_ring` appended. -/
theorem finishRing_storable (header : UInt32) (rings : List Ring) (storable : Storable current) :
    (started native header rings current).finishRing native =
      some (.ok, closed native header (rings ++ [current])) := by
  have patched : encode native (UInt32.ofNat current.length)
      (wkbPolygonHeaderSize + (area native rings).length)
      (polygonHeader native header ++ area native rings ++
        (uint32Bytes native 0 ++ pointsBytes native current)) =
      some (polygonHeader native header ++ area native (rings ++ [current])) := by
    rw [encode, writeAt_append (pointsBytes native current) (by simp) (by simp)]
    simp [ringBytes]
  rw [finishRing_open native (started_isOpen native header rings current) storable patched]
  simp [started, closed]

theorem finishRing_not_storable (header : UInt32) (rings : List Ring) (stuck : ¬ Storable current) :
    (started native header rings current).finishRing native =
      some (.libInvalidState, started native header rings current) := by
  have small : (started native header rings current).numPoints = 1 ∨
      (started native header rings current).numPoints = 2 := by
    unfold Storable at stuck
    simp only [started]
    tauto
  simp [Polygon.finishRing, started_isOpen, small]

theorem startRing_closed (header : UInt32) (rings : List Ring) :
    (closed native header rings).startRing native = some (.ok, started native header rings []) := by
  rw [Polygon.startRing, finishRing_closed]
  simp [closed, started]

theorem startRing_storable (header : UInt32) (rings : List Ring) (storable : Storable current) :
    (started native header rings current).startRing native =
      some (.ok, started native header (rings ++ [current]) []) := by
  rw [Polygon.startRing, finishRing_storable native header rings storable]
  simp [closed, started]

theorem startRing_not_storable (header : UInt32) (rings : List Ring) (stuck : ¬ Storable current) :
    (started native header rings current).startRing native =
      some (.libInvalidState, started native header rings current) := by
  rw [Polygon.startRing, finishRing_not_storable native header rings stuck]
  rfl

theorem addPoint_started (header : UInt32) (rings : List Ring) (current : Ring)
    (point : Double × Double) :
    (started native header rings current).addPoint native point.1 point.2 =
      started native header rings (current ++ [point]) := by
  simp [Polygon.addPoint, started, pointBytes]

theorem foldl_addPoint_started (rings : List Ring) (current points : Ring) :
    points.foldl (fun polygon point => polygon.addPoint native point.1 point.2)
        (started native 0 rings current) =
      started native 0 rings (current ++ points) := by
  induction points generalizing current with
  | nil => simp
  | cons point points ih =>
    rw [foldl_cons, addPoint_started, ih, append_assoc, singleton_append]

/-- `finish` between two rings only writes their number. -/
theorem finish_closed (header : UInt32) (rings : List Ring) :
    (closed native header rings).finish native = some (.ok, finished native rings) := by
  have patched : (closed native header rings).finish native =
      (finished native rings).finishRing native := by
    simp [Polygon.finish, closed, finished, encode_polygonHeader]
  rw [patched, finished, finishRing_closed]

/-- `finish` inside a ring writes the number of rings and completes the ring. -/
theorem finish_started_eq (header : UInt32) (rings : List Ring) (current : Ring) :
    (started native header rings current).finish native =
      (started native (UInt32.ofNat (rings.length + 1)) rings current).finishRing native := by
  simp [Polygon.finish, started, encode_polygonHeader]

theorem finish_storable (header : UInt32) (rings : List Ring) (storable : Storable current) :
    (started native header rings current).finish native =
      some (.ok, finished native (rings ++ [current])) := by
  rw [finish_started_eq, finishRing_storable native _ rings storable, finished, length_append]
  rfl

theorem finish_not_storable (header : UInt32) (rings : List Ring) (stuck : ¬ Storable current) :
    (started native header rings current).finish native =
      some (.libInvalidState,
        started native (UInt32.ofNat (rings.length + 1)) rings current) := by
  rw [finish_started_eq, finishRing_not_storable native _ rings stuck]

/-- `finish` completes the last ring, or reports the ring it cannot store. -/
theorem finish_started (rings : List Ring) (current : Ring) (polygon : Polygon) :
    (started native 0 rings current).finish native = some (.ok, polygon) ↔
      Storable current ∧ polygon = finished native (rings ++ [current]) := by
  by_cases storable : Storable current
  · rw [finish_storable native 0 rings storable]
    simp [storable, eq_comm]
  · rw [finish_not_storable native 0 rings storable]
    simp [storable]

theorem buildRings_started (rest finishedRings : List Ring) (current : Ring) (polygon : Polygon) :
    buildRings native rest (started native 0 finishedRings current) = some (.ok, polygon) ↔
      (∀ ring ∈ current :: rest, Storable ring) ∧
        polygon = finished native (finishedRings ++ current :: rest) := by
  induction rest generalizing finishedRings current with
  | nil => simp [buildRings, finish_started]
  | cons ring rest ih =>
    by_cases storable : Storable current
    · have step : buildRings native (ring :: rest) (started native 0 finishedRings current) =
          buildRings native rest (started native 0 (finishedRings ++ [current]) ring) := by
        rw [buildRings, startRing_storable native 0 finishedRings storable]
        exact congrArg (buildRings native rest)
          (foldl_addPoint_started native (finishedRings ++ [current]) [] ring)
      rw [step, ih]
      simp [storable]
    · rw [buildRings, startRing_not_storable native 0 finishedRings storable]
      simp [storable]

/-- The builder accepts exactly the ring lists whose point counters are storable,
and then its bytes are the well-known binary form. -/
theorem build_eq_ok_iff (rings : List Ring) (polygon : Polygon) :
    build native rings = some (.ok, polygon) ↔
      (∀ ring ∈ rings, Storable ring) ∧ polygon = finished native rings := by
  rw [build, reset_eq_closed]
  cases rings with
  | nil => simp [buildRings, finish_closed, eq_comm]
  | cons ring rest =>
    have step : buildRings native (ring :: rest) (closed native 0 []) =
        buildRings native rest (started native 0 [] ring) := by
      rw [buildRings, startRing_closed]
      exact congrArg (buildRings native rest) (foldl_addPoint_started native [] [] ring)
    rw [step, buildRings_started]
    simp

/-! ## The ring area as words -/

/-- The two words a double occupies, in memory order. -/
def doubleWords (value : Double) : List UInt32 :=
  match native with
  | .little => [value.toUInt32, (value >>> 32).toUInt32]
  | .big => [(value >>> 32).toUInt32, value.toUInt32]

def ringWords (ring : Ring) : List UInt32 :=
  UInt32.ofNat ring.length ::
    ring.flatMap fun point => doubleWords native point.1 ++ doubleWords native point.2

/-- The words of the ring area: ring sizes and halves of coordinates. -/
def areaWords (rings : List Ring) : List UInt32 :=
  rings.flatMap (ringWords native)

def wordsBytes (words : List UInt32) : List UInt8 :=
  words.flatMap (uint32Bytes native)

@[simp] theorem wordsBytes_nil : wordsBytes native [] = [] := rfl

@[simp] theorem wordsBytes_cons (word : UInt32) (words : List UInt32) :
    wordsBytes native (word :: words) = uint32Bytes native word ++ wordsBytes native words := rfl

@[simp] theorem wordsBytes_append (first second : List UInt32) :
    wordsBytes native (first ++ second) = wordsBytes native first ++ wordsBytes native second := by
  simp [wordsBytes]

theorem doubleBytes_eq_words (value : Double) :
    doubleBytes native value = wordsBytes native (doubleWords native value) := by
  have low : littleEndian 4 value.toNat = littleEndian 4 value.toUInt32.toNat := by
    rw [UInt64.toNat_toUInt32]
    exact (littleEndian_mod 4 value.toNat).symm
  have high : value.toNat / 256 ^ 4 = (value >>> 32).toUInt32.toNat := by
    have bound := value.toNat_lt
    simp [Nat.shiftRight_eq_div_pow]
    omega
  have split : littleEndian 8 value.toNat =
      littleEndian 4 value.toUInt32.toNat ++ littleEndian 4 (value >>> 32).toUInt32.toNat := by
    rw [littleEndian_add 4 4 value.toNat, low, high]
  cases native <;> simp [doubleBytes, doubleWords, uint32Bytes, toBytes, split]

theorem pointsBytes_eq_words (points : Ring) :
    pointsBytes native points = wordsBytes native
      (points.flatMap fun point => doubleWords native point.1 ++ doubleWords native point.2) := by
  induction points with
  | nil => rfl
  | cons point points ih =>
    simp [pointBytes, ih, doubleBytes_eq_words]

theorem area_eq_words (rings : List Ring) :
    area native rings = wordsBytes native (areaWords native rings) := by
  induction rings with
  | nil => rfl
  | cons ring rings ih =>
    rw [area_cons, ih, ringBytes, pointsBytes_eq_words]
    simp [areaWords, ringWords]

theorem length_le_areaWords (rings : List Ring) :
    rings.length ≤ (areaWords native rings).length := by
  induction rings with
  | nil => simp
  | cons ring rings ih =>
    simp only [areaWords, flatMap_cons, length_append, length_cons, ringWords] at *
    omega

end DseDriver.Geometry
