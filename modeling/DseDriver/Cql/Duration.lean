import DseDriver.Cql.Decoder
import DseDriver.Lib.Fallible

/-!
# Durations

A duration is three vints: integers in zig-zag form, in as many bytes as their magnitude
needs.  The leading ones of the first byte say how many bytes follow it, and its other bits are
the most significant bits of the integer.
-/

namespace DseDriver.Cql

open Lib

/-! ## Zig-zag form and sizes -/

/-- `encode_zig_zag`. -/
def encodeZigZag (n : Int64) : UInt64 :=
  ((n <<< 1) ^^^ (n >>> 63)).toUInt64

/-- `decode_zig_zag`. -/
def decodeZigZag (n : UInt64) : Int64 :=
  ((n >>> 1) ^^^ -(n &&& 1)).toInt64

/-- `num_leading_zeros`. -/
def numLeadingZeros (value : UInt64) : Nat :=
  if value = 0 then 64 else 64 - value.toNat.log2 - 1

/-- `vint_size`. -/
def vintSize (value : UInt64) : Nat :=
  let magnitude := numLeadingZeros (value ||| 1)
  if magnitude ≠ 0 then 9 - (magnitude - 1) / 7 else 9

/-! ## Encoder -/

/-- The loop of `encode_vint`, which stores the last byte first. -/
def storeBytes : Nat → UInt64 → List UInt8 → List UInt8
  | 0, _, stored => stored
  | count + 1, value, stored => storeBytes count (value >>> 8) ((value &&& 0xff).toUInt8 :: stored)

/-- `~(0xff >> extra)`, the leading ones of the first byte. -/
def sizeBits (extra : Nat) : UInt8 :=
  (~~~((0xff : UInt32) >>> UInt32.ofNat extra)).toUInt8

/-- `encode_vint`. -/
def encodeVint (value : UInt64) (valueSize : Nat) : List UInt8 :=
  if valueSize = 1 then
    [value.toUInt8]
  else
    (storeBytes valueSize value []).modifyHead (· ||| sizeBits (valueSize - 1))

/-- `CassDuration`. -/
structure CassDuration where
  months : Int32
  days : Int32
  nanos : Int64
  deriving DecidableEq, Repr

/-- The three values of a duration in zig-zag form. -/
def CassDuration.zigzagValues (value : CassDuration) : List UInt64 :=
  [encodeZigZag value.months.toInt64, encodeZigZag value.days.toInt64, encodeZigZag value.nanos]

/-- `encode_internal`. -/
def encodeInternal (value : CassDuration) (withLength : Bool) : List UInt8 :=
  let dataSize := (value.zigzagValues.map vintSize).sum
  (if withLength then encodeInt32 (Int32.ofNat dataSize) else []) ++
    value.zigzagValues.flatMap fun zigzag => encodeVint zigzag (vintSize zigzag)

/-- `encode` of a duration. -/
def encodeDuration (value : CassDuration) : List UInt8 :=
  encodeInternal value false

/-! ## Decoder -/

/-- The number of bytes behind the first one. -/
def extraBytes (firstByte : UInt8) : Nat :=
  numLeadingZeros (~~~firstByte).toUInt64 - 56

/-- The bits of the integer in the first byte. -/
def firstBits (firstByte : UInt8) (extra : Nat) : UInt64 :=
  firstByte.toUInt64 &&& ((0xff : UInt64) >>> UInt64.ofNat extra)

/-- The loop of `Decoder::decode_vint`, which shifts a byte in. -/
def loadBytes (memory : List UInt8) : Nat → Nat → UInt64 → Option (UInt64 × Nat)
  | 0, input, output => some (output, input)
  | count + 1, input, output => do
    let vintByte ← memory[input]?
    loadBytes memory count (input + 1) ((output <<< 8) ||| vintByte.toUInt64)

namespace Decoder

/-- `Decoder::decode_vint`. -/
def decodeVint (decoder : Decoder) : Option (Option UInt64 × Decoder) := do
  if decoder.remaining < 1 then
    return (none, decoder)
  let firstByte ← decoder.memory[decoder.input]?
  let decoder := { decoder with
    input := decoder.input + 1
    remaining := sizeSub decoder.remaining 1 }
  if firstByte ≤ 127 then
    return (some firstByte.toUInt64, decoder)
  else
    let extra := extraBytes firstByte
    if decoder.remaining < extra then
      return (none, decoder)
    let (output, input) ← loadBytes decoder.memory extra decoder.input (firstBits firstByte extra)
    return (some output, { decoder with input, remaining := sizeSub decoder.remaining extra })

/-- `Decoder::as_duration`, with its local decoder as it leaves it. -/
def asDuration (decoder : Decoder) : Option (Option CassDuration × Decoder) :=
  let values := Fallible.andThen decodeVint fun months =>
    Fallible.andThen decodeVint fun days =>
      Fallible.andThen decodeVint fun nanos => Fallible.succeed
        { months := (decodeZigZag months).toInt32
          days := (decodeZigZag days).toInt32
          nanos := decodeZigZag nanos }
  values (mk' decoder.memory decoder.input decoder.remaining decoder.protocolVersion)

end Decoder

end DseDriver.Cql
