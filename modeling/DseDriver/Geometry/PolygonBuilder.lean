import DseDriver.Lib.Runs
import DseDriver.Geometry.PolygonLayout

/-!
# Histories of a polygon builder

Any sequence of calls on one `Polygon`.  The counts of the rings and of the points of a ring are
patched into the bytes when a ring ends; they are in step with the bytes as long as points are
only added inside a ring and no counter wraps around.
-/

namespace DseDriver.Geometry

open Lib List

/-- A call on a polygon. -/
inductive PolygonBuilderCall where
  | reset
  | startRing
  | addPoint (x y : Double)
  | finish
  deriving DecidableEq, Repr

/-- A polygon, `none` after a failed assertion, and the rings added since the last reset. -/
structure PolygonBuilder where
  polygon : Option Polygon
  added : List Ring
  deriving DecidableEq, Repr

/-- Add a point to the last of the rings. -/
def addToLast (point : Double × Double) : List Ring → List Ring
  | [] => []
  | [last] => [last ++ [point]]
  | ring :: rings => ring :: addToLast point rings

namespace PolygonBuilder

variable (native : ByteOrder)

/-- The constructed polygon. -/
def fresh : PolygonBuilder :=
  { polygon := some (.reset native), added := [] }

/-- One call, and what it adds: a ring if `start_ring` succeeds, and a point to the last ring. -/
def step (builder : PolygonBuilder) (call : PolygonBuilderCall) : PolygonBuilder :=
  match builder.polygon with
  | none => builder
  | some polygon =>
    match call with
    | .reset => { polygon := some (.reset native), added := [] }
    | .startRing =>
      match polygon.startRing native with
      | none => { builder with polygon := none }
      | some (rc, polygon) =>
        { polygon := some polygon
          added := if rc = .ok then builder.added ++ [[]] else builder.added }
    | .addPoint x y =>
      { polygon := some (polygon.addPoint native x y)
        added := addToLast (x, y) builder.added }
    | .finish => { builder with polygon := (polygon.finish native).map Prod.snd }

/-- The call does not wrap a counter around, and a point is added inside a ring. -/
def InStep (builder : PolygonBuilder) : PolygonBuilderCall → Prop
  | .startRing => builder.polygon.all fun polygon => polygon.numRings + 1 ≠ 0
  | .addPoint _ _ =>
    builder.polygon.all fun polygon =>
      0 < polygon.ringStartIndex ∧ polygon.numPoints + 1 ≠ 0
  | _ => True

instance (builder : PolygonBuilder) : (call : PolygonBuilderCall) → Decidable (builder.InStep call)
  | .reset | .finish => .isTrue trivial
  | .startRing | .addPoint _ _ => inferInstanceAs (Decidable (_ = true))

/-- The bytes are a well-formed polygon with the given rings: their counts fit the words they are
stored in, and nothing else follows. -/
def WellFormed (rings : List Ring) (bytes : List UInt8) : Prop :=
  rings.length < 2 ^ 32 ∧ (∀ ring ∈ rings, ring.length < 2 ^ 32) ∧ bytes = wkbPolygon native rings

/-- The next `finish` passes its assertion, and the bytes of a polygon that it accepts hold
exactly what was added. -/
def FinishesWell (builder : PolygonBuilder) : Prop :=
  ∃ polygon rc after, builder.polygon = some polygon ∧
    polygon.finish native = some (rc, after) ∧
    (rc = .ok → WellFormed native builder.added after.bytes)

end PolygonBuilder

/-- A polygon that `finish` has completed: its counter counts the rings, and its bytes are
well-formed with these rings. -/
def Polygon.Holds (native : ByteOrder) (polygon : Polygon) (rings : List Ring) : Prop :=
  polygon.numRings.toNat = rings.length ∧ PolygonBuilder.WellFormed native rings polygon.bytes

/-! ## The invariant -/

/-- The counts of these rings fit their words. -/
structure Fit (rings : List Ring) : Prop where
  numRings : rings.length < 2 ^ 32
  numPoints : ∀ ring ∈ rings, ring.length < 2 ^ 32

/-- The shapes of a polygon whose bytes are in step with what was added. -/
inductive Building (native : ByteOrder) : Polygon → List Ring → Prop where
  | between {header : UInt32} {rings : List Ring} (fit : Fit rings) :
      Building native (closed native header rings) rings
  | inside {header : UInt32} {rings : List Ring} {current : Ring} (fit : Fit (rings ++ [current])) :
      Building native (started native header rings current) (rings ++ [current])

theorem addToLast_append (point : Double × Double) (rings : List Ring) (current : Ring) :
    addToLast point (rings ++ [current]) = rings ++ [current ++ [point]] := by
  induction rings with
  | nil => rfl
  | cons ring rings ih =>
    cases rings with
    | nil => rfl
    | cons next rings => exact congrArg (ring :: ·) ih

/-- A counter that does not wrap around counts. -/
theorem succ_lt_of_add_one_ne_zero {count : Nat} (bound : count < 2 ^ 32)
    (counts : UInt32.ofNat count + 1 ≠ 0) : count + 1 < 2 ^ 32 := by
  by_contra large
  have last : count = 2 ^ 32 - 1 := by omega
  subst last
  exact counts (by decide)

namespace Fit

theorem nil : Fit [] := ⟨by decide, nofun⟩

theorem addRing {rings : List Ring} (fit : Fit rings)
    (counts : UInt32.ofNat rings.length + 1 ≠ 0) : Fit (rings ++ [[]]) := by
  constructor
  · rw [length_append]
    exact succ_lt_of_add_one_ne_zero fit.numRings counts
  · intro ring member
    rcases mem_append.mp member with old | new
    · exact fit.numPoints ring old
    · rw [mem_singleton.mp new]
      decide

theorem addPoint {rings : List Ring} {current : Ring} (fit : Fit (rings ++ [current]))
    (counts : UInt32.ofNat current.length + 1 ≠ 0) (point : Double × Double) :
    Fit (rings ++ [current ++ [point]]) := by
  constructor
  · simpa using fit.numRings
  · intro ring member
    rcases mem_append.mp member with old | new
    · exact fit.numPoints ring (mem_append_left _ old)
    · rw [mem_singleton.mp new, length_append]
      exact succ_lt_of_add_one_ne_zero (fit.numPoints current (by simp)) counts

end Fit

namespace Building

variable {native : ByteOrder} {polygon : Polygon} {added : List Ring}

theorem reset : Building native (.reset native) [] := by
  rw [reset_eq_closed]
  exact between Fit.nil

/-- A ring is started, unless the one before it cannot be stored. -/
theorem startRing (building : Building native polygon added) (counts : polygon.numRings + 1 ≠ 0) :
    ∃ rc after, polygon.startRing native = some (rc, after) ∧
      Building native after (if rc = .ok then added ++ [[]] else added) := by
  cases building with
  | between fit =>
    refine ⟨_, _, startRing_closed native _ _, ?_⟩
    exact inside (fit.addRing counts)
  | @inside header rings current fit =>
    by_cases storable : Storable current
    · refine ⟨_, _, startRing_storable native header rings storable, ?_⟩
      have length : rings.length + 1 = (rings ++ [current]).length := by simp
      have counts : UInt32.ofNat (rings.length + 1) + 1 ≠ 0 := counts
      rw [length] at counts
      exact inside (fit.addRing counts)
    · exact ⟨_, _, startRing_not_storable native header rings storable, inside fit⟩

theorem addPoint (building : Building native polygon added) (isOpen : 0 < polygon.ringStartIndex)
    (counts : polygon.numPoints + 1 ≠ 0) (point : Double × Double) :
    Building native (polygon.addPoint native point.1 point.2) (addToLast point added) := by
  cases building with
  | between fit => exact absurd isOpen (Nat.lt_irrefl 0)
  | inside fit =>
    rw [addPoint_started, addToLast_append]
    exact inside (fit.addPoint counts point)

/-- The counts are written, and an accepted polygon holds the rings. -/
theorem finish (building : Building native polygon added) :
    ∃ rc after, polygon.finish native = some (rc, after) ∧ Building native after added ∧
      (rc = .ok → after.Holds native added) := by
  have holds {rings : List Ring} (fit : Fit rings) :
      (finished native rings).Holds native rings := by
    refine ⟨?_, fit.numRings, fit.numPoints, finished_bytes native rings⟩
    exact (UInt32.toNat_ofNat').trans (Nat.mod_eq_of_lt fit.numRings)
  cases building with
  | between fit => exact ⟨_, _, finish_closed native _ added, between fit, fun _ => holds fit⟩
  | @inside header rings current fit =>
    by_cases storable : Storable current
    · exact ⟨_, _, finish_storable native header rings storable, between fit, fun _ => holds fit⟩
    · exact ⟨_, _, finish_not_storable native header rings storable, inside fit, nofun⟩

end Building

namespace PolygonBuilder

variable {native : ByteOrder}

/-- The polygon is in step with what was added. -/
def InShape (native : ByteOrder) (builder : PolygonBuilder) : Prop :=
  ∃ polygon, builder.polygon = some polygon ∧ Building native polygon builder.added

theorem InShape.step {builder : PolygonBuilder} {call : PolygonBuilderCall}
    (inShape : InShape native builder) (inStep : builder.InStep call) :
    InShape native (builder.step native call) := by
  obtain ⟨current, added⟩ := builder
  obtain ⟨polygon, rfl, building⟩ := inShape
  cases call with
  | reset => exact ⟨_, rfl, .reset⟩
  | startRing =>
    have counts : polygon.numRings + 1 ≠ 0 := by simpa [InStep] using inStep
    obtain ⟨rc, after, result, building⟩ := building.startRing counts
    refine ⟨after, ?_⟩
    simpa only [PolygonBuilder.step, result, true_and] using building
  | addPoint x y =>
    obtain ⟨isOpen, counts⟩ : 0 < polygon.ringStartIndex ∧ polygon.numPoints + 1 ≠ 0 := by
      simpa [InStep] using inStep
    exact ⟨_, rfl, building.addPoint isOpen counts (x, y)⟩
  | finish =>
    obtain ⟨rc, after, result, building, -⟩ := building.finish
    refine ⟨after, ?_⟩
    simpa only [PolygonBuilder.step, result, Option.map_some, true_and] using building

theorem InShape.finishesWell {builder : PolygonBuilder} (inShape : InShape native builder) :
    FinishesWell native builder := by
  obtain ⟨polygon, current, building⟩ := inShape
  obtain ⟨rc, after, result, -, holds⟩ := building.finish
  exact ⟨polygon, rc, after, current, result, fun accepted => (holds accepted).2⟩

/-- After any calls that are in step, a polygon that `finish` accepts is a well-formed one with
exactly the rings and points added since the last reset. -/
theorem finishesWell_of_inStep (native : ByteOrder) (calls : List PolygonBuilderCall)
    (within : Throughout (step native) InStep (fresh native) calls) :
    FinishesWell native (calls.foldl (step native) (fresh native)) := by
  have start : InShape native (fresh native) := ⟨_, rfl, .reset⟩
  exact (within.invariant (fun _ _ inShape inStep => inShape.step inStep) start).finishesWell

/-- A ring that is finished too early is completed, and a second one follows. -/
theorem finishesWell_resumed :
    FinishesWell .little ([.startRing, .addPoint 1 2, .finish, .addPoint 3 4, .addPoint 5 6,
      .startRing].foldl (step .little) (fresh .little)) := by
  refine finishesWell_of_inStep .little _ ⟨?_, ?_, trivial, ?_, ?_, ?_, trivial⟩ <;> decide

/-- A point before the first ring: `finish` accepts the polygon, and its bytes announce no rings
and go on with a point.  A ring started after such a point announces one point too many, and a
point after `finish` stands behind the last ring. -/
theorem strayPoint_notWellFormed :
    let stray := [PolygonBuilderCall.addPoint 1 2].foldl (step .little) (fresh .little)
    let counted := [PolygonBuilderCall.addPoint 1 2, .startRing, .addPoint 1 2, .addPoint 3 4].foldl
      (step .little) (fresh .little)
    let trailing := [PolygonBuilderCall.startRing, .finish, .addPoint 1 2].foldl
      (step .little) (fresh .little)
    ((stray.polygon.bind (Polygon.finish .little)).map fun result =>
        (result.1, decide (result.2.bytes = polygonHeader .little 0 ++ pointBytes .little (1, 2)))) =
          some (.ok, true) ∧
      ((counted.polygon.bind (Polygon.finish .little)).map fun result =>
        (result.1, decide (result.2.bytes = wkbPolygon .little counted.added))) =
          some (.ok, false) ∧
      ((trailing.polygon.bind (Polygon.finish .little)).map fun result =>
        (result.1, decide (result.2.bytes = wkbPolygon .little trailing.added))) =
          some (.ok, false) ∧
      ¬ FinishesWell .little stray := by
  intro stray counted trailing
  refine ⟨by decide, by decide, by decide, ?_⟩
  rintro ⟨polygon, rc, after, current, result, wellFormed⟩
  have computed : (stray.polygon.bind (Polygon.finish .little)).map
      (fun result => (result.1, decide (result.2.bytes = wkbPolygon .little stray.added))) =
        some (.ok, false) := by decide
  rw [current, Option.bind_some, result] at computed
  simp only [Option.map_some, Option.some.injEq, Prod.mk.injEq, decide_eq_false_iff_not] at computed
  exact computed.2 (wellFormed computed.1).2.2

end PolygonBuilder

end DseDriver.Geometry
