import Mathlib.Tactic.Ring

/-!
# Dates and times

The conversions between Unix timestamps and the `date` and `time` types.  A date counts days, with
the epoch at `2 ^ 31`; a time counts the nanoseconds since midnight.  The divisions of the source
are those of `cass_int64_t`, which round to zero.
-/

namespace DseDriver

/-- `NUM_SECONDS_PER_DAY`. -/
def numSecondsPerDay : Int64 := 24 * 60 * 60

/-- `CASS_DATE_EPOCH`. -/
def cassDateEpoch : Int64 := 2147483648

/-- `CASS_TIME_NANOSECONDS_PER_SECOND`. -/
def cassTimeNanosecondsPerSecond : Int64 := 1000000000

/-- `cass_date_from_epoch`. -/
def cassDateFromEpoch (epochSecs : Int64) : UInt32 :=
  (epochSecs / numSecondsPerDay + cassDateEpoch).toUInt64.toUInt32

/-- `cass_time_from_epoch`. -/
def cassTimeFromEpoch (epochSecs : Int64) : Int64 :=
  cassTimeNanosecondsPerSecond * (epochSecs % numSecondsPerDay)

/-- `cass_date_time_to_epoch`.  The subtraction and the product are unsigned. -/
def cassDateTimeToEpoch (date : UInt32) (time : Int64) : Int64 :=
  ((date.toUInt64 - cassDateEpoch.toUInt64) * numSecondsPerDay.toUInt64 +
    (time / cassTimeNanosecondsPerSecond).toUInt64).toInt64

/-! ## Values over the integers -/

/-- An epoch on or after 1970-01-01, or at midnight: here rounding to zero is rounding down. -/
def RoundsDown (epochSecs : Int64) : Prop :=
  0 ≤ epochSecs.toInt ∨ 86400 ∣ epochSecs.toInt

instance (epochSecs : Int64) : Decidable (RoundsDown epochSecs) :=
  inferInstanceAs (Decidable (_ ∨ _))

theorem toInt_div_numSecondsPerDay (epochSecs : Int64) :
    (epochSecs / numSecondsPerDay).toInt =
      epochSecs.toInt / 86400 + if RoundsDown epochSecs then 0 else 1 := by
  rw [Int64.toInt_div_of_ne_right _ _ (by decide)]
  exact Int.tdiv_eq_ediv

theorem toInt_mod_numSecondsPerDay (epochSecs : Int64) :
    (epochSecs % numSecondsPerDay).toInt =
      epochSecs.toInt % 86400 - if RoundsDown epochSecs then 0 else 86400 := by
  have modulus : numSecondsPerDay.toInt = 86400 := by decide
  rw [Int64.toInt_mod, modulus, Int.tmod_eq_emod]
  by_cases down : RoundsDown epochSecs
  · rw [if_pos down]
    exact congrArg (epochSecs.toInt % 86400 - Nat.cast ·) (if_pos down)
  · rw [if_neg down]
    exact congrArg (epochSecs.toInt % 86400 - Nat.cast ·) (if_neg down)

/-- The days of an `int64_t` are few. -/
theorem days_bounds (epochSecs : Int64) :
    -2 ^ 62 < (epochSecs / numSecondsPerDay).toInt ∧
      (epochSecs / numSecondsPerDay).toInt < 2 ^ 62 := by
  have lower := epochSecs.le_toInt
  have upper := epochSecs.toInt_lt
  rw [toInt_div_numSecondsPerDay]
  split <;> omega

/-- The day number is a `cass_uint32_t`. -/
def DateFits (epochSecs : Int64) : Prop :=
  0 ≤ epochSecs.toInt / 86400 + 2 ^ 31 ∧ epochSecs.toInt / 86400 + 2 ^ 31 < 2 ^ 32

instance (epochSecs : Int64) : Decidable (DateFits epochSecs) :=
  inferInstanceAs (Decidable (_ ∧ _))

theorem toNat_cassDateFromEpoch {epochSecs : Int64} (fits : DateFits epochSecs) :
    ((cassDateFromEpoch epochSecs).toNat : Int) =
      epochSecs.toInt / 86400 + 2 ^ 31 + if RoundsDown epochSecs then 0 else 1 := by
  obtain ⟨lower, upper⟩ := days_bounds epochSecs
  have days := toInt_div_numSecondsPerDay epochSecs
  have value : (epochSecs / numSecondsPerDay + cassDateEpoch).toInt =
      epochSecs.toInt / 86400 + 2 ^ 31 + if RoundsDown epochSecs then 0 else 1 := by
    have epoch : cassDateEpoch.toInt = 2 ^ 31 := by decide
    rw [Int64.toInt_add, epoch, Int.bmod_eq_of_le (by omega) (by omega), days]
    omega
  -- A day before the epoch rounds up to the epoch at most, so the sum still fits.
  have bounds : 0 ≤ (epochSecs / numSecondsPerDay + cassDateEpoch).toInt ∧
      (epochSecs / numSecondsPerDay + cassDateEpoch).toInt < 2 ^ 32 := by
    rw [value]
    unfold DateFits at fits
    by_cases down : RoundsDown epochSecs
    · rw [if_pos down]
      omega
    · rw [if_neg down]
      unfold RoundsDown at down
      omega
  have unsigned : (epochSecs / numSecondsPerDay + cassDateEpoch).toUInt64.toNat =
      (epochSecs / numSecondsPerDay + cassDateEpoch).toInt.toNat :=
    Int64.toNat_toUInt64_of_le (Int64.le_iff_toInt_le.mpr bounds.1)
  rw [← value, cassDateFromEpoch, UInt64.toNat_toUInt32, unsigned]
  omega

theorem toInt_cassTimeFromEpoch (epochSecs : Int64) :
    (cassTimeFromEpoch epochSecs).toInt =
      10 ^ 9 * (epochSecs.toInt % 86400 - if RoundsDown epochSecs then 0 else 86400) := by
  have factor : cassTimeNanosecondsPerSecond.toInt = 10 ^ 9 := by decide
  rw [cassTimeFromEpoch, Int64.toInt_mul, factor, toInt_mod_numSecondsPerDay]
  split <;> exact Int.bmod_eq_of_le (by omega) (by omega)

/-- With a date and a time of at most a day, the sum of their seconds does not overflow. -/
theorem toInt_cassDateTimeToEpoch (date : UInt32) (time : Int64) :
    (cassDateTimeToEpoch date time).toInt =
      ((date.toNat : Int) - 2 ^ 31) * 86400 + time.toInt.tdiv 1000000000 := by
  have small := date.toNat_lt
  have timeLower := time.le_toInt
  have timeUpper := time.toInt_lt
  have wide : date.toUInt64.toInt64.toInt = date.toNat := by
    have isSmall : 2 * date.toUInt64.toBitVec.toNat < 2 ^ 64 := by
      rw [UInt64.toNat_toBitVec, UInt32.toNat_toUInt64]
      omega
    exact (BitVec.toInt_eq_toNat_of_lt isSmall).trans
      (congrArg Int.ofNat (UInt32.toNat_toUInt64 date))
  have epoch : cassDateEpoch.toInt = 2 ^ 31 := by decide
  have day : numSecondsPerDay.toInt = 86400 := by decide
  have seconds : (time / cassTimeNanosecondsPerSecond).toInt = time.toInt.tdiv 1000000000 :=
    Int64.toInt_div_of_ne_right _ _ (by decide)
  have secondsSmall : -2 ^ 62 ≤ time.toInt.tdiv 1000000000 ∧ time.toInt.tdiv 1000000000 < 2 ^ 62 := by
    have sign : Int.sign 1000000000 = 1 := by decide
    rw [Int.tdiv_eq_ediv, sign]
    split <;> omega
  have days : ((date.toNat : Int) - 2 ^ 31).bmod (2 ^ 64) = (date.toNat : Int) - 2 ^ 31 :=
    Int.bmod_eq_of_le (by omega) (by omega)
  have product : (((date.toNat : Int) - 2 ^ 31) * 86400).bmod (2 ^ 64) =
      ((date.toNat : Int) - 2 ^ 31) * 86400 :=
    Int.bmod_eq_of_le (by omega) (by omega)
  -- Two's complement: the unsigned operations are the signed ones.
  have signed : cassDateTimeToEpoch date time =
      (date.toUInt64.toInt64 - cassDateEpoch) * numSecondsPerDay +
        time / cassTimeNanosecondsPerSecond := rfl
  rw [signed, Int64.toInt_add, Int64.toInt_mul, Int64.toInt_sub, wide, epoch, day, seconds,
    days, product]
  exact Int.bmod_eq_of_le (by omega) (by omega)

/-! ## Correctness -/

/-- The conversions as they are documented. -/
structure ConvertsEpoch (epochSecs : Int64) : Prop where
  date : ((cassDateFromEpoch epochSecs).toNat : Int) = epochSecs.toInt / 86400 + 2 ^ 31
  time_nonneg : 0 ≤ (cassTimeFromEpoch epochSecs).toInt
  time_lt : (cassTimeFromEpoch epochSecs).toInt < 86400 * 10 ^ 9
  roundTrip : cassDateTimeToEpoch (cassDateFromEpoch epochSecs) (cassTimeFromEpoch epochSecs) =
    epochSecs

/-- The quotient and the remainder that are rounded to zero still make up the epoch. -/
theorem cassDateTimeToEpoch_fromEpoch {epochSecs : Int64} (fits : DateFits epochSecs) :
    cassDateTimeToEpoch (cassDateFromEpoch epochSecs) (cassTimeFromEpoch epochSecs) =
      epochSecs := by
  apply Int64.toInt.inj
  have nanos (seconds : Int) : (10 ^ 9 * seconds).tdiv 1000000000 = seconds :=
    Int.mul_tdiv_cancel_left seconds (by decide)
  rw [toInt_cassDateTimeToEpoch, toNat_cassDateFromEpoch fits, toInt_cassTimeFromEpoch, nanos]
  split <;> omega

/-- The conversions are right for the epochs where rounding to zero is rounding down. -/
theorem convertsEpoch_iff (epochSecs : Int64) (fits : DateFits epochSecs) :
    ConvertsEpoch epochSecs ↔ RoundsDown epochSecs := by
  have date := toNat_cassDateFromEpoch fits
  have time := toInt_cassTimeFromEpoch epochSecs
  constructor
  · intro converts
    by_contra notDown
    have rounded := converts.date
    rw [date, if_neg notDown] at rounded
    omega
  · intro down
    rw [if_pos down] at date time
    exact ⟨by omega, by omega, by omega, cassDateTimeToEpoch_fromEpoch fits⟩

/-- The last midnight before the epoch. -/
theorem convertsEpoch_iff_midnight : ConvertsEpoch (-86400) :=
  (convertsEpoch_iff (-86400) (by decide)).mpr (by decide)

/-- One second before the epoch is placed on the day of the epoch, at a negative time. -/
theorem not_convertsEpoch_before :
    DateFits (-1) ∧ cassDateFromEpoch (-1) = 2147483648 ∧ cassTimeFromEpoch (-1) = -1000000000 ∧
      ¬ ConvertsEpoch (-1) := by
  refine ⟨by decide, by decide, by decide, fun converts => ?_⟩
  exact absurd converts.time_nonneg (by decide)

end DseDriver
