import Mathlib.Data.Nat.Bitwise
import DseDriver.Lib.Bytes

/-!
# UUIDs and their time

`CassUuid` and the functions of `uuids.cpp` between Unix milliseconds and the time of a
version 1 UUID: a number of 100 ns ticks since the Gregorian reform, in the low 60 bits of
its first word.
-/

namespace DseDriver.Uuids

open Lib

/-- `CassUuid`. -/
structure CassUuid where
  timeAndVersion : UInt64
  clockSeqAndNode : UInt64
  deriving DecidableEq, Repr

/-- `TIME_OFFSET_BETWEEN_UTC_AND_EPOCH`. -/
def timeOffsetBetweenUtcAndEpoch : UInt64 := 0x01B21DD213814000

/-- `MIN_CLOCK_SEQ_AND_NODE`. -/
def minClockSeqAndNode : UInt64 := 0x8080808080808080

/-- `MAX_CLOCK_SEQ_AND_NODE`. -/
def maxClockSeqAndNode : UInt64 := 0x7f7f7f7f7f7f7f7f

/-- `to_milliseconds`. -/
def toMilliseconds (timestamp : UInt64) : UInt64 :=
  timestamp / 10000

/-- `from_unix_timestamp`. -/
def fromUnixTimestamp (timestamp : UInt64) : UInt64 :=
  timestamp * 10000 + timeOffsetBetweenUtcAndEpoch

/-- `set_version`. -/
def setVersion (timestamp : UInt64) (version : UInt8) : UInt64 :=
  (timestamp &&& (0x0FFFFFFFFFFFFFFF : UInt64)) ||| (version.toUInt64 <<< 60)

/-- `cass_uuid_min_from_time`. -/
def cassUuidMinFromTime (timestamp : UInt64) : CassUuid :=
  { timeAndVersion := setVersion (fromUnixTimestamp timestamp) 1
    clockSeqAndNode := minClockSeqAndNode }

/-- `cass_uuid_max_from_time`. -/
def cassUuidMaxFromTime (timestamp : UInt64) : CassUuid :=
  { timeAndVersion := setVersion (fromUnixTimestamp timestamp) 1
    clockSeqAndNode := maxClockSeqAndNode }

/-- `cass_uuid_timestamp`. -/
def cassUuidTimestamp (uuid : CassUuid) : UInt64 :=
  let timestamp := uuid.timeAndVersion &&& 0x0FFFFFFFFFFFFFFF -- Clear version
  toMilliseconds (timestamp - timeOffsetBetweenUtcAndEpoch)

/-- `cass_uuid_version`. -/
def cassUuidVersion (uuid : CassUuid) : UInt8 :=
  ((uuid.timeAndVersion >>> 60) &&& 0x0F).toUInt8

/-- Where `encode_uuid` stores the bytes of the time, from the least significant. -/
def timeOrder : List Nat := [3, 2, 1, 0, 5, 4, 7, 6]

/-- `encode_uuid`.  The places of the time bytes are exchanged in pairs, so that `timeOrder`
also says which byte lies at a place. -/
def encodeUuid (uuid : CassUuid) : List UInt8 :=
  let time := littleEndian 8 uuid.timeAndVersion.toNat
  (timeOrder.map fun i => time.getD i 0) ++ (littleEndian 8 uuid.clockSeqAndNode.toNat).reverse

/-- `decode_uuid` of 16 bytes. -/
def decodeUuid (input : List UInt8) : CassUuid :=
  { timeAndVersion := UInt64.ofNat (ofLittleEndian (timeOrder.map fun i => input.getD i 0))
    clockSeqAndNode := UInt64.ofNat (ofLittleEndian (input.drop 8).reverse) }

namespace CassUuid

/-- The 60 bits of the time. -/
def time (uuid : CassUuid) : Nat :=
  uuid.timeAndVersion.toNat % 2 ^ 60

end CassUuid

/-- Clearing the version leaves the time. -/
theorem toNat_clearVersion (word : UInt64) :
    (word &&& 0x0FFFFFFFFFFFFFFF).toNat = word.toNat % 2 ^ 60 := by
  rw [UInt64.toNat_and]
  exact Nat.and_two_pow_sub_one_eq_mod word.toNat 60

/-- Setting a version leaves the time. -/
theorem toNat_setVersion (timestamp : UInt64) (version : UInt8) :
    (setVersion timestamp version).toNat % 2 ^ 60 = timestamp.toNat % 2 ^ 60 := by
  have high : (version.toUInt64 <<< 60).toNat % 2 ^ 60 = 0 := by
    have shifted : (version.toUInt64 <<< 60).toNat = version.toNat * 2 ^ 60 % 2 ^ 64 := by
      rw [UInt64.toNat_shiftLeft, Nat.shiftLeft_eq]
      rfl
    rw [shifted]
    omega
  rw [setVersion, UInt64.toNat_or, toNat_clearVersion, Nat.or_mod_two_pow, high, Nat.or_zero,
    Nat.mod_mod]

/-- A Unix time that does not overflow is scaled and moved. -/
theorem toNat_fromUnixTimestamp {milliseconds : UInt64}
    (small : milliseconds.toNat * 10000 + timeOffsetBetweenUtcAndEpoch.toNat < 2 ^ 60) :
    (fromUnixTimestamp milliseconds).toNat =
      milliseconds.toNat * 10000 + timeOffsetBetweenUtcAndEpoch.toNat := by
  have factor : (10000 : UInt64).toNat = 10000 := rfl
  rw [fromUnixTimestamp, UInt64.toNat_add, UInt64.toNat_mul, factor]
  omega

/-- The Unix time of a UUID whose time is not before the epoch. -/
theorem toNat_cassUuidTimestamp {uuid : CassUuid}
    (afterEpoch : timeOffsetBetweenUtcAndEpoch.toNat ≤ uuid.time) :
    (cassUuidTimestamp uuid).toNat =
      (uuid.time - timeOffsetBetweenUtcAndEpoch.toNat) / 10000 := by
  have time := toNat_clearVersion uuid.timeAndVersion
  have factor : (10000 : UInt64).toNat = 10000 := rfl
  have below : timeOffsetBetweenUtcAndEpoch ≤
      (uuid.timeAndVersion &&& (0x0FFFFFFFFFFFFFFF : UInt64)) := by
    rw [UInt64.le_iff_toNat_le, time]
    exact afterEpoch
  rw [cassUuidTimestamp, toMilliseconds, UInt64.toNat_div, UInt64.toNat_sub_of_le _ _ below, time,
    factor, CassUuid.time]

/-- Every UUID made for a Unix time has that time. -/
theorem cassUuidTimestamp_fromUnixTimestamp {milliseconds : UInt64} (clockSeqAndNode : UInt64)
    (small : milliseconds.toNat * 10000 + timeOffsetBetweenUtcAndEpoch.toNat < 2 ^ 60) :
    cassUuidTimestamp ⟨setVersion (fromUnixTimestamp milliseconds) 1, clockSeqAndNode⟩ =
      milliseconds := by
  have time : (⟨setVersion (fromUnixTimestamp milliseconds) 1, clockSeqAndNode⟩ : CassUuid).time =
      milliseconds.toNat * 10000 + timeOffsetBetweenUtcAndEpoch.toNat := by
    rw [CassUuid.time, toNat_setVersion, toNat_fromUnixTimestamp small, Nat.mod_eq_of_lt small]
  apply UInt64.toNat_inj.mp
  rw [toNat_cassUuidTimestamp (by rw [time]; omega), time]
  omega

end DseDriver.Uuids
