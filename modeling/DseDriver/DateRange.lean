import DseDriver.Geometry.Wkb

/-!
# Date ranges

`DseDateRange` values and their bytes.  The encoder picks one of six layouts from the bounds
that are open; the getter finds the layout again from the type byte and fills the bounds that
are there, one after the other.
-/

namespace DseDriver

open Lib Cql Geometry List Option

/-- `DseDateRangePrecision`, including the values a cast from a byte can give. -/
inductive DseDateRangePrecision where
  | unbounded
  | year
  | month
  | day
  | hour
  | minute
  | second
  | millisecond
  | other (raw : Int32)
  deriving DecidableEq, Repr

/-- The value of the enumerator. -/
def DseDateRangePrecision.toInt32 : DseDateRangePrecision → Int32
  | unbounded => 0xFF
  | year => 0
  | month => 1
  | day => 2
  | hour => 3
  | minute => 4
  | second => 5
  | millisecond => 6
  | other raw => raw

/-- The cast of a decoded byte; the value of `unbounded` is outside its range. -/
def DseDateRangePrecision.ofInt8 (raw : Int8) : DseDateRangePrecision :=
  if raw = 0 then .year
  else if raw = 1 then .month
  else if raw = 2 then .day
  else if raw = 3 then .hour
  else if raw = 4 then .minute
  else if raw = 5 then .second
  else if raw = 6 then .millisecond
  else .other raw.toInt32

/-- A precision that the header lists. -/
def DseDateRangePrecision.Listed : DseDateRangePrecision → Prop
  | other _ => False
  | _ => True

/-- `DseDateRangeBound`. -/
structure DseDateRangeBound where
  precision : DseDateRangePrecision
  timeMs : Int64
  deriving DecidableEq, Repr

/-- `DseDateRange`. -/
structure DseDateRange where
  isSingleDate : Bool
  lowerBound : DseDateRangeBound
  upperBound : DseDateRangeBound
  deriving DecidableEq, Repr

/-- `dse_date_range_bound_unbounded`. -/
def dseDateRangeBoundUnbounded : DseDateRangeBound :=
  { precision := .unbounded, timeMs := -1 }

/-- `dse_date_range_bound_is_unbounded`. -/
def DseDateRangeBound.isUnbounded (bound : DseDateRangeBound) : Bool :=
  bound.precision = .unbounded

/-- `DateRangeBoundType`. -/
inductive DateRangeBoundType where
  | singleDate
  | closedRange
  | openRangeHigh
  | openRangeLow
  | bothOpenRange
  | singleDateOpen
  deriving DecidableEq, Repr

def DateRangeBoundType.toInt8 : DateRangeBoundType → Int8
  | singleDate => 0
  | closedRange => 1
  | openRangeHigh => 2
  | openRangeLow => 3
  | bothOpenRange => 4
  | singleDateOpen => 5

/-- The cast of the type byte, where `none` is the default of the switch. -/
def DateRangeBoundType.ofByte (raw : UInt8) : Option DateRangeBoundType :=
  if raw = 0 then some .singleDate
  else if raw = 1 then some .closedRange
  else if raw = 2 then some .openRangeHigh
  else if raw = 3 then some .openRangeLow
  else if raw = 4 then some .bothOpenRange
  else if raw = 5 then some .singleDateOpen
  else none

/-! ## Encoder -/

/-- The choice of the layout in `encode_date_range`. -/
def DseDateRange.rangeType (range : DseDateRange) : DateRangeBoundType :=
  if range.isSingleDate then
    if range.lowerBound.isUnbounded then .singleDateOpen else .singleDate
  else if range.lowerBound.isUnbounded && range.upperBound.isUnbounded then
    .bothOpenRange
  else if range.upperBound.isUnbounded then
    .openRangeHigh
  else if range.lowerBound.isUnbounded then
    .openRangeLow
  else
    .closedRange

/-- The time and the precision of a bound. -/
def encodeBound (bound : DseDateRangeBound) : List UInt8 :=
  encodeInt64 bound.timeMs ++ encodeInt8 bound.precision.toInt32.toInt8

/-- `encode_date_range`. -/
def encodeDateRange (range : DseDateRange) : List UInt8 :=
  let rangeType := range.rangeType
  match rangeType with
  | .bothOpenRange | .singleDateOpen => encodeInt8 rangeType.toInt8
  | .singleDate | .openRangeHigh => encodeInt8 rangeType.toInt8 ++ encodeBound range.lowerBound
  | .openRangeLow => encodeInt8 rangeType.toInt8 ++ encodeBound range.upperBound
  | .closedRange =>
    encodeInt8 rangeType.toInt8 ++ encodeBound range.lowerBound ++ encodeBound range.upperBound

/-! ## Getter -/

def dseDateRangeType : String := "org.apache.cassandra.db.marshal.DateRangeType"

/-- `cass_value_get_string`, which reads a value as `cass_value_get_bytes` does. -/
def cassValueGetString (value : Value) : Option (Except CassError (List UInt8)) :=
  cassValueGetBytes value

/-- The bound that `first_bound` points to; `none` is the null pointer. -/
inductive FirstBound where
  | none
  | lower
  | upper
  deriving DecidableEq, Repr

/-- The size a type needs, and its first bound. -/
def DateRangeBoundType.expected : DateRangeBoundType → Nat × FirstBound
  | bothOpenRange | singleDateOpen => (1, .none)
  | singleDate | openRangeHigh => (10, .lower)
  | openRangeLow => (10, .upper)
  | closedRange => (19, .lower)

/-- A store through `first_bound`. -/
def DseDateRange.setFirst (range : DseDateRange) (bound : DseDateRangeBound) :
    FirstBound → Option DseDateRange
  | .none => none
  | .lower => some { range with lowerBound := bound }
  | .upper => some { range with upperBound := bound }

/-- Read a bound at a position. -/
def decodeBound (bytes : List UInt8) (pos : Nat) : Option (DseDateRangeBound × Nat) := do
  let (timeMs, pos) ← decodeInt64 bytes pos
  let (decodedByte, pos) ← decodeInt8 bytes pos
  return ({ precision := .ofInt8 decodedByte, timeMs }, pos)

/-- The part of the getter behind its switch: the check of the size, and the bounds that are
there.  `none` is a read outside the value or a store through the null pointer. -/
def fillBounds (bytes : List UInt8) (range : DseDateRange) (expectedSize : Nat)
    (firstBound : FirstBound) : Option (CassError × DseDateRange) := do
  if bytes.length < expectedSize then
    return (.libNotEnoughData, range)
  if 1 = bytes.length then
    return (.ok, range)
  let (bound, pos) ← decodeBound bytes 1
  let range ← range.setFirst bound firstBound
  if pos = bytes.length then
    return (.ok, range)
  let (bound, _) ← decodeBound bytes pos
  return (.ok, { range with upperBound := bound })

/-- The range that the getter fills: open, and a single date or not. -/
def openRange (rangeType : Option DateRangeBoundType) : DseDateRange :=
  { isSingleDate := rangeType = some .singleDate || rangeType = some .singleDateOpen
    lowerBound := dseDateRangeBoundUnbounded
    upperBound := dseDateRangeBoundUnbounded }

/-- `cass_value_get_dse_date_range` with the range it leaves. -/
def cassValueGetDseDateRange (value : Value) (range : DseDateRange) :
    Option (CassError × DseDateRange) := do
  let rc := validateDataType value dseDateRangeType
  if rc ≠ .ok then
    return (rc, range)
  match ← cassValueGetString value with
  | .error rc => return (rc, range)
  | .ok bytes =>
    if bytes.length = 0 then
      return (.libNotEnoughData, range)
    let rangeType := DateRangeBoundType.ofByte (← bytes[0]?)
    match rangeType.map DateRangeBoundType.expected with
    | none => return (.libInvalidData, openRange rangeType)
    | some (expectedSize, firstBound) =>
      fillBounds bytes (openRange rangeType) expectedSize firstBound

/-! ## Round trip -/

/-- An open bound has no other content. -/
def DseDateRangeBound.normalized (bound : DseDateRangeBound) : DseDateRangeBound :=
  if bound.isUnbounded then dseDateRangeBoundUnbounded else bound

/-- The content of a range: a single date has no upper bound. -/
def DseDateRange.normalized (range : DseDateRange) : DseDateRange :=
  { range with
    lowerBound := range.lowerBound.normalized
    upperBound :=
      if range.isSingleDate then dseDateRangeBoundUnbounded else range.upperBound.normalized }

theorem ofByte_toInt8 (rangeType : DateRangeBoundType) :
    ∃ byte, encodeInt8 rangeType.toInt8 = [byte] ∧ DateRangeBoundType.ofByte byte = some rangeType := by
  cases rangeType <;> exact ⟨_, rfl, by decide⟩

/-- A bound with a listed precision is read back, if it is not open. -/
theorem decodeBound_append {before : List UInt8} (after : List UInt8) {bound : DseDateRangeBound}
    (listed : bound.precision.Listed) (closed : bound.isUnbounded = false) {pos : Nat}
    (start : before.length = pos) :
    decodeBound (before ++ (encodeBound bound ++ after)) pos = some (bound, pos + 9) := by
  obtain ⟨precision, timeMs⟩ := bound
  have kept : DseDateRangePrecision.ofInt8 precision.toInt32.toInt8 = precision := by
    cases precision with
    | unbounded => cases closed
    | other raw => cases listed
    | _ => decide
  have time := decodeInt64_append (encodeInt8 precision.toInt32.toInt8 ++ after) timeMs start
  have second : (before ++ encodeInt64 timeMs).length = pos + 8 := by simp [start]
  have byte := decodeInt8_append after precision.toInt32.toInt8 second
  simp only [append_assoc] at byte
  simp only [decodeBound, encodeBound, append_assoc, time, byte, bind_eq_bind,
    bind_some, kept]
  rfl

/-- The getter finds the layout that the encoder chose. -/
theorem cassValueGetDseDateRange_typed {value : Value} {rangeType : DateRangeBoundType}
    {rest : List UInt8} (validated : validateDataType value dseDateRangeType = .ok)
    (content : cassValueGetString value = some (.ok (encodeInt8 rangeType.toInt8 ++ rest)))
    (initial : DseDateRange) :
    cassValueGetDseDateRange value initial =
      fillBounds (encodeInt8 rangeType.toInt8 ++ rest) (openRange (some rangeType))
        rangeType.expected.1 rangeType.expected.2 := by
  obtain ⟨byte, encoded, type⟩ := ofByte_toInt8 rangeType
  rw [encoded] at content ⊢
  simp [cassValueGetDseDateRange, validated, content, type]

theorem encodeBound_length (bound : DseDateRangeBound) : (encodeBound bound).length = 9 := by
  simp [encodeBound]

section FillBounds

variable {tag : List UInt8} (start : tag.length = 1) (range : DseDateRange)

include start

theorem fillBounds_none (firstBound : FirstBound) :
    fillBounds tag range 1 firstBound = some (.ok, range) := by
  simp [fillBounds, start]

variable {first second : DseDateRangeBound} (listed : first.precision.Listed)
  (closed : first.isUnbounded = false)

include listed closed

theorem fillBounds_one (firstBound : FirstBound) :
    fillBounds (tag ++ encodeBound first) range 10 firstBound =
      (range.setFirst first firstBound).map (Prod.mk .ok) := by
  have read := decodeBound_append [] listed closed start
  rw [append_nil] at read
  have size : (tag ++ encodeBound first).length = 10 := by
    simp [start, encodeBound_length]
  cases stored : range.setFirst first firstBound with
  | none => simp [fillBounds, size, read, stored]
  | some filled => simp [fillBounds, size, read, stored]

theorem fillBounds_two (secondListed : second.precision.Listed)
    (secondClosed : second.isUnbounded = false) :
    fillBounds (tag ++ encodeBound first ++ encodeBound second) range 19 .lower =
      some (.ok, { range with lowerBound := first, upperBound := second }) := by
  have readFirst := decodeBound_append (encodeBound second) listed closed start
  have middle : (tag ++ encodeBound first).length = 10 := by
    simp [start, encodeBound_length]
  have readSecond := decodeBound_append [] secondListed secondClosed middle
  rw [append_nil] at readSecond
  have size : (tag ++ encodeBound first ++ encodeBound second).length = 19 := by
    simp [start, encodeBound_length]
  rw [← append_assoc] at readFirst
  generalize tag ++ encodeBound first ++ encodeBound second = bytes at size readFirst readSecond ⊢
  simp [fillBounds, size, readFirst, DseDateRange.setFirst, readSecond]

end FillBounds

/-- What the getter does with the bytes of a range, layout by layout. -/
theorem fillBounds_encoded (range : DseDateRange) (lowerListed : range.lowerBound.precision.Listed)
    (upperListed : range.isSingleDate = false → range.upperBound.precision.Listed) :
    ∃ rest, encodeDateRange range = encodeInt8 range.rangeType.toInt8 ++ rest ∧
      fillBounds (encodeInt8 range.rangeType.toInt8 ++ rest) (openRange (some range.rangeType))
        range.rangeType.expected.1 range.rangeType.expected.2 = some (.ok, range.normalized) := by
  obtain ⟨isSingleDate, lower, upper⟩ := range
  have tag (rangeType : DateRangeBoundType) : (encodeInt8 rangeType.toInt8).length = 1 :=
    encodeInt8_length _
  cases isSingleDate with
  | true =>
    cases lowerOpen : lower.isUnbounded with
    | true =>
      have type : DseDateRange.rangeType ⟨true, lower, upper⟩ = .singleDateOpen := by
        simp [DseDateRange.rangeType, lowerOpen]
      refine ⟨[], by simp [encodeDateRange, type], ?_⟩
      rw [type, append_nil]
      refine (fillBounds_none (tag _) _ _).trans ?_
      simp [openRange, DseDateRange.normalized, DseDateRangeBound.normalized, lowerOpen]
    | false =>
      have type : DseDateRange.rangeType ⟨true, lower, upper⟩ = .singleDate := by
        simp [DseDateRange.rangeType, lowerOpen]
      refine ⟨encodeBound lower, by simp [encodeDateRange, type], ?_⟩
      rw [type]
      refine (fillBounds_one (tag _) _ lowerListed lowerOpen _).trans ?_
      simp [openRange, DseDateRange.setFirst, DateRangeBoundType.expected,
        DseDateRange.normalized, DseDateRangeBound.normalized, lowerOpen]
  | false =>
    cases lowerOpen : lower.isUnbounded with
    | true =>
      cases upperOpen : upper.isUnbounded with
      | true =>
        have type : DseDateRange.rangeType ⟨false, lower, upper⟩ = .bothOpenRange := by
          simp [DseDateRange.rangeType, lowerOpen, upperOpen]
        refine ⟨[], by simp [encodeDateRange, type], ?_⟩
        rw [type, append_nil]
        refine (fillBounds_none (tag _) _ _).trans ?_
        simp [openRange, DseDateRange.normalized, DseDateRangeBound.normalized, lowerOpen,
          upperOpen]
      | false =>
        have type : DseDateRange.rangeType ⟨false, lower, upper⟩ = .openRangeLow := by
          simp [DseDateRange.rangeType, lowerOpen, upperOpen]
        refine ⟨encodeBound upper, by simp [encodeDateRange, type], ?_⟩
        rw [type]
        refine (fillBounds_one (tag _) _ (upperListed rfl) upperOpen _).trans ?_
        simp [openRange, DseDateRange.setFirst, DateRangeBoundType.expected,
          DseDateRange.normalized, DseDateRangeBound.normalized, lowerOpen, upperOpen]
    | false =>
      cases upperOpen : upper.isUnbounded with
      | true =>
        have type : DseDateRange.rangeType ⟨false, lower, upper⟩ = .openRangeHigh := by
          simp [DseDateRange.rangeType, lowerOpen, upperOpen]
        refine ⟨encodeBound lower, by simp [encodeDateRange, type], ?_⟩
        rw [type]
        refine (fillBounds_one (tag _) _ lowerListed lowerOpen _).trans ?_
        simp [openRange, DseDateRange.setFirst, DateRangeBoundType.expected,
          DseDateRange.normalized, DseDateRangeBound.normalized, lowerOpen, upperOpen]
      | false =>
        have type : DseDateRange.rangeType ⟨false, lower, upper⟩ = .closedRange := by
          simp [DseDateRange.rangeType, lowerOpen, upperOpen]
        refine ⟨encodeBound lower ++ encodeBound upper, by simp [encodeDateRange, type], ?_⟩
        rw [type, ← append_assoc]
        refine (fillBounds_two (tag _) _ lowerListed lowerOpen (upperListed rfl)
          upperOpen).trans ?_
        simp [openRange, DseDateRange.normalized, DseDateRangeBound.normalized, lowerOpen,
          upperOpen]

/-- A value with the bytes of a range gives this range again, up to what an open bound and a
single date do not say. -/
theorem dateRange_roundTrips (range initial : DseDateRange) (value : Value)
    (lowerListed : range.lowerBound.precision.Listed)
    (upperListed : range.isSingleDate = false → range.upperBound.precision.Listed)
    (validated : validateDataType value dseDateRangeType = .ok)
    (content : cassValueGetString value = some (.ok (encodeDateRange range))) :
    cassValueGetDseDateRange value initial = some (.ok, range.normalized) := by
  obtain ⟨rest, encoded, filled⟩ := fillBounds_encoded range lowerListed upperListed
  rw [encoded] at content
  rw [cassValueGetDseDateRange_typed validated content, filled]

/-- A column of a response that holds a date range. -/
def dateRangeValue (bytes : List UInt8) : Value :=
  .ofDecoder (.custom dseDateRangeType) (.mk' bytes 0 bytes.length 4)

/-- A range from a day on comes back from a column that holds its bytes. -/
theorem dateRange_roundTrips_openHigh :
    cassValueGetDseDateRange
        (dateRangeValue (encodeDateRange ⟨false, ⟨.day, -5⟩, ⟨.unbounded, 7⟩⟩))
        ⟨true, ⟨.unbounded, 0⟩, ⟨.unbounded, 0⟩⟩ =
      some (.ok, ⟨false, ⟨.day, -5⟩, ⟨.unbounded, -1⟩⟩) :=
  dateRange_roundTrips ⟨false, ⟨.day, -5⟩, ⟨.unbounded, 7⟩⟩ _ _ trivial (fun _ => trivial)
    (by decide) (by decide)

/-! ## Arbitrary bytes -/

/-- The layout that the first byte names. -/
def tagOf (bytes : List UInt8) : Option DateRangeBoundType :=
  bytes.head?.bind DateRangeBoundType.ofByte

/-- The getter stays inside the value and the caller's range, and accepts exactly the values
whose size is that of the layout they name. -/
def DecodesExactly (value : Value) (bytes : List UInt8) (initial : DseDateRange) : Prop :=
  ∃ rc range, cassValueGetDseDateRange value initial = some (rc, range) ∧
    (rc = .ok ↔ ∃ rangeType, tagOf bytes = some rangeType ∧
      bytes.length = rangeType.expected.1)

/-- The value does not go on behind the layout it names. -/
def NotOverlong (bytes : List UInt8) : Prop :=
  ∀ rangeType, tagOf bytes = some rangeType → bytes.length ≤ rangeType.expected.1

theorem decodeBound_inside {bytes : List UInt8} {pos : Nat} (inside : pos + 9 ≤ bytes.length) :
    ∃ bound, decodeBound bytes pos = some (bound, pos + 9) := by
  have time : pos + 8 ≤ bytes.length := by omega
  simp only [decodeBound, decodeInt64, decodeInt8, decodeWord, readAt, if_pos time, if_pos inside,
    map_some, bind_eq_bind, bind_some, Prod.map_apply, id]
  exact ⟨_, rfl⟩

section Sizes

variable {bytes : List UInt8} {range : DseDateRange} {expectedSize : Nat}
  {firstBound : FirstBound}

theorem fillBounds_short (short : bytes.length < expectedSize) :
    fillBounds bytes range expectedSize firstBound = some (.libNotEnoughData, range) := by
  simp [fillBounds, short]

/-- Behind the check of the size there is no other error. -/
theorem fillBounds_large (large : expectedSize ≤ bytes.length) {rc : CassError}
    {filled : DseDateRange}
    (result : fillBounds bytes range expectedSize firstBound = some (rc, filled)) : rc = .ok := by
  simp only [fillBounds, if_neg (Nat.not_lt.mpr large)] at result
  split at result
  · cases result
    rfl
  · cases first : decodeBound bytes 1 with
    | none => simp [first] at result
    | some decoded =>
      obtain ⟨bound, pos⟩ := decoded
      simp only [first, bind_eq_bind, bind_some] at result
      cases stored : range.setFirst bound firstBound with
      | none => simp [stored] at result
      | some range =>
        simp only [stored, bind_some] at result
        split at result
        · cases result
          rfl
        · cases second : decodeBound bytes pos with
          | none => simp [second] at result
          | some decoded =>
            simp only [second, bind_some] at result
            cases result
            rfl

/-- The bounds of a layout are inside a value of its size. -/
theorem fillBounds_exact (rangeType : DateRangeBoundType)
    (whole : bytes.length = rangeType.expected.1) :
    ∃ filled, fillBounds bytes range rangeType.expected.1 rangeType.expected.2 =
      some (.ok, filled) := by
  cases rangeType with
  | bothOpenRange | singleDateOpen =>
    have size : bytes.length = 1 := whole
    simp [fillBounds, DateRangeBoundType.expected, size]
  | singleDate | openRangeHigh | openRangeLow =>
    have size : bytes.length = 10 := whole
    obtain ⟨bound, first⟩ := decodeBound_inside (show 1 + 9 ≤ bytes.length by omega)
    simp [fillBounds, DateRangeBoundType.expected, size, first, DseDateRange.setFirst]
  | closedRange =>
    have size : bytes.length = 19 := whole
    obtain ⟨bound, first⟩ := decodeBound_inside (show 1 + 9 ≤ bytes.length by omega)
    obtain ⟨bound, second⟩ := decodeBound_inside (show 10 + 9 ≤ bytes.length by omega)
    simp [fillBounds, DateRangeBoundType.expected, size, first, second, DseDateRange.setFirst]

end Sizes

/-- The getter decodes exactly the values that do not go on behind the layout they name: it
only checks that a value is not too short, and takes what is left for further bounds. -/
theorem dateRange_decodesExactly_iff (value : Value) (bytes : List UInt8) (initial : DseDateRange)
    (validated : validateDataType value dseDateRangeType = .ok)
    (content : cassValueGetString value = some (.ok bytes)) :
    DecodesExactly value bytes initial ↔ NotOverlong bytes := by
  cases bytes with
  | nil => simp [DecodesExactly, NotOverlong, tagOf, cassValueGetDseDateRange, validated, content]
  | cons first rest =>
    have getter : cassValueGetDseDateRange value initial =
        match (tagOf (first :: rest)).map DateRangeBoundType.expected with
        | none => some (.libInvalidData, openRange (tagOf (first :: rest)))
        | some (expectedSize, firstBound) =>
          fillBounds (first :: rest) (openRange (tagOf (first :: rest))) expectedSize
            firstBound := by
      simp [cassValueGetDseDateRange, validated, content, tagOf]
    cases tag : tagOf (first :: rest) with
    | none => simp [DecodesExactly, NotOverlong, getter, tag]
    | some rangeType =>
      simp only [DecodesExactly, NotOverlong, getter, tag, map_some, Option.some.injEq,
        forall_eq', exists_eq_left']
      rcases Nat.lt_trichotomy (first :: rest).length rangeType.expected.1 with
        short | whole | long
      · rw [fillBounds_short short]
        refine ⟨fun _ => Nat.le_of_lt short, fun _ => ⟨_, _, rfl, nofun, fun whole => ?_⟩⟩
        omega
      · obtain ⟨filled, done⟩ := fillBounds_exact rangeType whole
        refine ⟨fun _ => Nat.le_of_eq whole, fun _ => ⟨_, _, done, ?_⟩⟩
        simp [whole]
      · constructor
        · rintro ⟨rc, filled, done, accepted⟩
          have size := accepted.mp (fillBounds_large (Nat.le_of_lt long) done)
          omega
        · intro bounded
          omega

/-- A closed range from the fifth to the seventh millisecond, and nothing behind it. -/
theorem dateRange_decodesExactly_closed :
    DecodesExactly (dateRangeValue [1, 0, 0, 0, 0, 0, 0, 0, 5, 6, 0, 0, 0, 0, 0, 0, 0, 7, 6])
      [1, 0, 0, 0, 0, 0, 0, 0, 5, 6, 0, 0, 0, 0, 0, 0, 0, 7, 6] (openRange none) :=
  (dateRange_decodesExactly_iff _ _ _ (by decide) (by decide)).mpr
    fun rangeType tag => by cases tag; decide

/-- Ten bytes that name a range open on both sides make the getter store through the null
pointer; eleven bytes of a single date make it read behind the value, and twenty bytes of a
closed range are accepted. -/
theorem dateRange_overlong_unsafe :
    cassValueGetDseDateRange (dateRangeValue [4, 0, 0, 0, 0, 0, 0, 0, 0, 0])
        (openRange none) = none ∧
      cassValueGetDseDateRange (dateRangeValue [0, 0, 0, 0, 0, 0, 0, 0, 0, 0, 0])
        (openRange none) = none ∧
      (cassValueGetDseDateRange (dateRangeValue (1 :: List.replicate 19 0))
        (openRange none)).map Prod.fst = some .ok ∧
      ¬ DecodesExactly (dateRangeValue [4, 0, 0, 0, 0, 0, 0, 0, 0, 0])
        [4, 0, 0, 0, 0, 0, 0, 0, 0, 0] (openRange none) := by
  refine ⟨by decide, by decide, by decide, ?_⟩
  rintro ⟨rc, range, result, -⟩
  have stored : cassValueGetDseDateRange (dateRangeValue [4, 0, 0, 0, 0, 0, 0, 0, 0, 0])
      (openRange none) = none := by decide
  cases stored.symm.trans result

end DseDriver
