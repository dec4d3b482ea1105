import DseDriver.Geometry.LineString
import DseDriver.Geometry.PolygonBuilder

/-!
# Line-string builder

`LineString` collects points behind a header whose number of points is written by `finish`.  At
any time its bytes behind the header are the points added since the last reset.
-/

namespace DseDriver.Geometry

open Lib List

/-- `LineString`.  Reserved capacity does not change what is stored. -/
structure LineString where
  numPoints : UInt32
  bytes : List UInt8
  deriving DecidableEq, Repr

namespace LineString

variable (native : ByteOrder)

/-- `LineString::reset`, which is also the constructor. -/
def reset : LineString :=
  { numPoints := 0
    bytes := encodeHeaderAppend native .lineString [] ++ uint32Bytes native 0 }

/-- `LineString::add_point`. -/
def addPoint (lineString : LineString) (x y : Double) : LineString :=
  { numPoints := lineString.numPoints + 1
    bytes := lineString.bytes ++ doubleBytes native x ++ doubleBytes native y }

/-- `LineString::finish`; `none` is the failed assertion of `encode`. -/
def finish (lineString : LineString) : Option (CassError × LineString) :=
  if lineString.numPoints = 1 then
    some (.libInvalidState, lineString)
  else do
    let bytes ← encode native lineString.numPoints wkbHeaderSize lineString.bytes
    return (.ok, { lineString with bytes })

/-- The counter counts the points, and they are behind the header, whatever number of points it
shows. -/
def Holds (lineString : LineString) (points : Ring) : Prop :=
  lineString.numPoints.toNat = points.length ∧
    ∃ shown, lineString.bytes =
      encodeHeaderAppend native .lineString [] ++ uint32Bytes native shown ++
        pointsBytes native points

end LineString

/-! ## Histories -/

/-- A call on a line string. -/
inductive LineStringBuilderCall where
  | reset
  | addPoint (x y : Double)
  | finish
  deriving DecidableEq, Repr

/-- A line string, `none` after a failed assertion, and the points added since the last reset. -/
structure LineStringBuilder where
  lineString : Option LineString
  added : Ring
  deriving DecidableEq, Repr

namespace LineStringBuilder

variable (native : ByteOrder)

/-- The constructed line string. -/
def fresh : LineStringBuilder :=
  { lineString := some (.reset native), added := [] }

def step (builder : LineStringBuilder) (call : LineStringBuilderCall) : LineStringBuilder :=
  match builder.lineString with
  | none => builder
  | some lineString =>
    match call with
    | .reset => fresh native
    | .addPoint x y =>
      { lineString := some (lineString.addPoint native x y)
        added := builder.added ++ [(x, y)] }
    | .finish => { builder with lineString := (lineString.finish native).map Prod.snd }

/-- The call does not wrap the counter around. -/
def InStep (builder : LineStringBuilder) : LineStringBuilderCall → Prop
  | .addPoint _ _ => builder.lineString.all fun lineString => lineString.numPoints + 1 ≠ 0
  | _ => True

/-- The line string holds what was added. -/
def InShape (builder : LineStringBuilder) : Prop :=
  ∃ lineString, builder.lineString = some lineString ∧ lineString.Holds native builder.added

end LineStringBuilder

variable {native : ByteOrder}

theorem LineString.Holds.reset : (LineString.reset native).Holds native [] :=
  ⟨rfl, 0, by simp [LineString.reset]⟩

theorem LineString.Holds.addPoint {lineString : LineString} {points : Ring}
    (holds : lineString.Holds native points) (counts : lineString.numPoints + 1 ≠ 0)
    (x y : Double) : (lineString.addPoint native x y).Holds native (points ++ [(x, y)]) := by
  obtain ⟨count, shown, bytes⟩ := holds
  constructor
  · have bound : points.length < 2 ^ 32 := count ▸ lineString.numPoints.toNat_lt
    have same : lineString.numPoints = UInt32.ofNat points.length := by
      rw [← count, UInt32.ofNat_toNat]
    have room := succ_lt_of_add_one_ne_zero bound (same ▸ counts)
    rw [LineString.addPoint, UInt32.toNat_add, count, length_append]
    exact Nat.mod_eq_of_lt room
  · exact ⟨shown, by simp [LineString.addPoint, bytes, pointBytes]⟩

theorem LineString.Holds.finish {lineString : LineString} {points : Ring}
    (holds : lineString.Holds native points) :
    ∃ rc after, lineString.finish native = some (rc, after) ∧ after.Holds native points := by
  obtain ⟨count, shown, bytes⟩ := holds
  rw [LineString.finish]
  split
  · exact ⟨_, _, rfl, count, shown, bytes⟩
  · have patched : encode native lineString.numPoints wkbHeaderSize lineString.bytes =
        some (encodeHeaderAppend native .lineString [] ++ (uint32Bytes native lineString.numPoints ++
          pointsBytes native points)) := by
      rw [encode, bytes, append_assoc]
      exact writeAt_append _ (by simp [encodeHeaderAppend, wkbHeaderSize]) (by simp)
    rw [patched]
    exact ⟨_, _, rfl, count, _, (append_assoc ..).symm⟩

/-- At any time a line string holds the points added since the last reset, if the counter has
not wrapped around. -/
theorem LineStringBuilder.inShape_of_inStep {calls : List LineStringBuilderCall}
    (within : Throughout (LineStringBuilder.step native) LineStringBuilder.InStep
      (LineStringBuilder.fresh native) calls) :
    InShape native (calls.foldl (LineStringBuilder.step native) (.fresh native)) := by
  have start : InShape native (.fresh native) := ⟨_, rfl, .reset⟩
  refine within.invariant ?_ start
  rintro ⟨current, added⟩ call ⟨lineString, rfl, holds⟩ inStep
  cases call with
  | reset => exact ⟨_, rfl, .reset⟩
  | addPoint x y =>
    have counts : lineString.numPoints + 1 ≠ 0 := by simpa [InStep] using inStep
    exact ⟨_, rfl, holds.addPoint counts x y⟩
  | finish =>
    obtain ⟨rc, after, result, holds⟩ := holds.finish
    exact ⟨after, by simp [LineStringBuilder.step, result], holds⟩

theorem LineStringBuilder.inShape_twoPoints :
    InShape .little ([.addPoint 1 2, .addPoint 3 4, .finish].foldl (step .little) (.fresh .little)) :=
  inShape_of_inStep ⟨rfl, rfl, trivial, trivial⟩

end DseDriver.Geometry
