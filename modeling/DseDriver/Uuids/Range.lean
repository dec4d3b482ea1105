import DseDriver.Uuids.Generator

/-!
# Bounds of the UUIDs of a millisecond

The server orders time UUIDs by their time and then by their other eight bytes, which it
compares as signed bytes.  In that order `cass_uuid_min_from_time` is a lower bound of the
UUIDs of a millisecond.  `cass_uuid_max_from_time` has the time of the first tick of the
millisecond, so it only bounds the UUIDs of that tick.
-/

namespace DseDriver.Uuids

open Lib List

/-! ## The order of the server -/

/-- The bytes behind the time, as signed numbers. -/
def CassUuid.signedBytes (uuid : CassUuid) : List Int :=
  ((encodeUuid uuid).drop 8).map fun byte => byte.toInt8.toInt

/-- The server's order of time UUIDs. -/
def CassUuid.TimeLe (first second : CassUuid) : Prop :=
  first.time < second.time ∨
    first.time = second.time ∧ ¬ List.Lex (· < ·) second.signedBytes first.signedBytes

/-- A list is not before another of its length if no element is before one of the other. -/
theorem not_lex {α : Type} {before : α → α → Prop} {first second : List α}
    (same : first.length = second.length)
    (never : ∀ left ∈ first, ∀ right ∈ second, ¬ before left right) :
    ¬ List.Lex before first second := by
  induction first generalizing second with
  | nil =>
    rw [eq_nil_of_length_eq_zero same.symm]
    exact fun smaller => nomatch smaller
  | cons left first ih =>
    intro smaller
    cases smaller with
    | rel related => exact never left mem_cons_self _ mem_cons_self related
    | cons later =>
      refine ih (Nat.succ.inj same) ?_ later
      intro left' inFirst right inSecond
      exact never left' (mem_cons_of_mem _ inFirst) right (mem_cons_of_mem _ inSecond)

theorem signedBytes_length (uuid : CassUuid) : uuid.signedBytes.length = 8 := by
  simp [CassUuid.signedBytes, encodeUuid, timeOrder]

theorem signedBytes_bounds {uuid : CassUuid} {value : Int} (member : value ∈ uuid.signedBytes) :
    -128 ≤ value ∧ value ≤ 127 := by
  rcases mem_map.mp member with ⟨byte, -, rfl⟩
  have low := byte.toInt8.le_toInt
  have high := byte.toInt8.toInt_lt
  omega

theorem signedBytes_min (timestamp : UInt64) :
    (cassUuidMinFromTime timestamp).signedBytes = List.replicate 8 (-128) := by
  have bytes : (littleEndian 8 minClockSeqAndNode.toNat).reverse = List.replicate 8 0x80 := by decide
  simp [CassUuid.signedBytes, encodeUuid, timeOrder, cassUuidMinFromTime, bytes]

theorem signedBytes_max (timestamp : UInt64) :
    (cassUuidMaxFromTime timestamp).signedBytes = List.replicate 8 127 := by
  have bytes : (littleEndian 8 maxClockSeqAndNode.toNat).reverse = List.replicate 8 0x7f := by decide
  simp [CassUuid.signedBytes, encodeUuid, timeOrder, cassUuidMaxFromTime, bytes]

/-! ## The bounds -/

section Bounds

variable {uuid : CassUuid} (afterEpoch : timeOffsetBetweenUtcAndEpoch.toNat ≤ uuid.time)

include afterEpoch

/-- The Unix time of a UUID is in range. -/
theorem timestamp_inRange :
    (cassUuidTimestamp uuid).toNat * 10000 + timeOffsetBetweenUtcAndEpoch.toNat ≤ uuid.time := by
  rw [toNat_cassUuidTimestamp afterEpoch]
  omega

/-- The bounds have the time of the first tick of the UUID's millisecond. -/
theorem time_fromTimestamp (clockSeqAndNode : UInt64) :
    (⟨setVersion (fromUnixTimestamp (cassUuidTimestamp uuid)) 1, clockSeqAndNode⟩ : CassUuid).time =
      uuid.time - uuid.time % 10000 := by
  have below := timestamp_inRange afterEpoch
  have small : uuid.time < 2 ^ 60 := Nat.mod_lt _ (by decide)
  have inRange : (cassUuidTimestamp uuid).toNat * 10000 + timeOffsetBetweenUtcAndEpoch.toNat <
      2 ^ 60 := by omega
  rw [CassUuid.time, toNat_setVersion, toNat_fromUnixTimestamp inRange, Nat.mod_eq_of_lt inRange,
    toNat_cassUuidTimestamp afterEpoch]
  have offset : timeOffsetBetweenUtcAndEpoch.toNat = 122192928000000000 := rfl
  omega

theorem min_timeLe : (cassUuidMinFromTime (cassUuidTimestamp uuid)).TimeLe uuid := by
  have time := time_fromTimestamp afterEpoch minClockSeqAndNode
  by_cases first : uuid.time % 10000 = 0
  · right
    refine ⟨time.trans (by omega), ?_⟩
    rw [signedBytes_min]
    apply not_lex (signedBytes_length uuid)
    intro value member least isLeast
    have bounds := signedBytes_bounds member
    rw [eq_of_mem_replicate isLeast]
    omega
  · left
    have smaller : uuid.time - uuid.time % 10000 < uuid.time := by omega
    exact time.trans_lt smaller

/-- The upper bound holds for the first tick of a millisecond only. -/
theorem timeLe_max_iff :
    uuid.TimeLe (cassUuidMaxFromTime (cassUuidTimestamp uuid)) ↔ uuid.time % 10000 = 0 := by
  have time : (cassUuidMaxFromTime (cassUuidTimestamp uuid)).time = uuid.time - uuid.time % 10000 :=
    time_fromTimestamp afterEpoch maxClockSeqAndNode
  constructor
  · rintro (earlier | ⟨same, -⟩) <;> omega
  · intro first
    right
    refine ⟨by omega, ?_⟩
    rw [signedBytes_max]
    have length : (List.replicate 8 (127 : Int)).length = uuid.signedBytes.length :=
      (signedBytes_length uuid).symm
    apply not_lex length
    intro greatest isGreatest value member
    have bounds := signedBytes_bounds member
    rw [eq_of_mem_replicate isGreatest]
    omega

end Bounds

/-- The bounds of a UUID's millisecond hold exactly if its time is the first tick of it,
and every UUID that is made for a time has that time. -/
theorem timeRange_iff (uuid : CassUuid) (timestamp : UInt64) (gen : UuidGen) :
    (cassUuidVersion uuid = 1 →
      timeOffsetBetweenUtcAndEpoch.toNat ≤ uuid.time →
      ((cassUuidMinFromTime (cassUuidTimestamp uuid)).TimeLe uuid ∧
          uuid.TimeLe (cassUuidMaxFromTime (cassUuidTimestamp uuid)) ↔
        uuid.time % 10000 = 0)) ∧
      (timestamp.toNat * 10000 + timeOffsetBetweenUtcAndEpoch.toNat < 2 ^ 60 →
        cassUuidTimestamp (cassUuidMinFromTime timestamp) = timestamp ∧
          cassUuidTimestamp (cassUuidMaxFromTime timestamp) = timestamp ∧
          cassUuidTimestamp (gen.fromTime timestamp) = timestamp) := by
  constructor
  · intro _ afterEpoch
    rw [timeLe_max_iff afterEpoch]
    exact and_iff_right (min_timeLe afterEpoch)
  · intro inRange
    exact ⟨cassUuidTimestamp_fromUnixTimestamp _ inRange,
      cassUuidTimestamp_fromUnixTimestamp _ inRange, cassUuidTimestamp_fromUnixTimestamp _ inRange⟩

/-- The first UUID of the Unix epoch, and the one of the next tick. -/
def epochUuid (tick : UInt64) : CassUuid :=
  { timeAndVersion := setVersion (timeOffsetBetweenUtcAndEpoch + tick) 1
    clockSeqAndNode := 0x8000010000000000 }

theorem timeRange_epoch :
    cassUuidVersion (epochUuid 0) = 1 ∧
      (epochUuid 0).TimeLe (cassUuidMaxFromTime (cassUuidTimestamp (epochUuid 0))) ∧
      cassUuidTimestamp (cassUuidMaxFromTime 1270080000) = 1270080000 := by
  refine ⟨by decide, ?_, ?_⟩
  · exact (((timeRange_iff (epochUuid 0) 0 (.new 0)).1 (by decide) (by decide)).mpr (by decide)).2
  · exact ((timeRange_iff (epochUuid 0) 1270080000 (.new 0)).2 (by decide)).2.1

/-- One tick after the epoch is still in the first millisecond, but above its bound. -/
theorem max_below_nextTick :
    cassUuidVersion (epochUuid 1) = 1 ∧
      timeOffsetBetweenUtcAndEpoch.toNat ≤ (epochUuid 1).time ∧
      cassUuidTimestamp (epochUuid 1) = 0 ∧
      ¬ (epochUuid 1).TimeLe (cassUuidMaxFromTime (cassUuidTimestamp (epochUuid 1))) := by
  refine ⟨by decide, by decide, by decide, ?_⟩
  rintro (earlier | ⟨same, -⟩)
  · exact absurd earlier (by decide)
  · exact absurd same (by decide)

end DseDriver.Uuids
