import DseDriver.Cql.Duration
import DseDriver.Uuids.CassUuid

/-!
# The operations of the response decoder

The operations of `Decoder` behind those that read one integer: strings, bytes, addresses, lists
and maps of strings, and the accessors that do not move the cursor.  Strings and bytes are
handed out as references into the response, so their place is a part of the output; lists keep
what was read before an operation returns false.
-/

namespace DseDriver.Cql

open Lib Uuids
open Fallible (andThen succeed)

/-- `StringRef`, or a pair of a pointer and a size; `none` is the null pointer. -/
structure StringRef where
  data : Option Nat
  size : Nat
  deriving DecidableEq, Repr

/-- The characters that a reference stands for; `none` is a read outside the memory. -/
def StringRef.toBytes (memory : List UInt8) (reference : StringRef) : Option (List UInt8) :=
  match reference.data with
  | none => some []
  | some data => readAt memory data reference.size

/-- `CassInet`. -/
structure CassInet where
  address : List UInt8
  addressLength : UInt8
  deriving DecidableEq, Repr

/-- `CASS_INET_V6_LENGTH`. -/
def cassInetV6Length : UInt8 := 16

/-- `CustomPayloadItem`. -/
structure CustomPayloadItem where
  name : StringRef
  value : StringRef
  deriving DecidableEq, Repr

/-- `Failure`. -/
structure Failure where
  endpoint : CassInet
  failurecode : UInt16
  deriving DecidableEq, Repr

/-- `CassWriteType`. -/
inductive CassWriteType where
  | unknown
  | simple
  | batch
  | unloggedBatch
  | counter
  | batchLog
  | cas
  deriving DecidableEq, Repr

/-- The write type of a name. -/
def CassWriteType.ofName (name : List UInt8) : Option CassWriteType :=
  if name = "SIMPLE".toUTF8.data.toList then some .simple
  else if name = "BATCH".toUTF8.data.toList then some .batch
  else if name = "UNLOGGED_BATCH".toUTF8.data.toList then some .unloggedBatch
  else if name = "COUNTER".toUTF8.data.toList then some .counter
  else if name = "BATCH_LOG".toUTF8.data.toList then some .batchLog
  else if name = "CAS".toUTF8.data.toList then some .cas
  else none

/-- The type code of `CASS_VALUE_TYPE_CUSTOM` in the protocol. -/
def cassValueTypeCustom : UInt16 := 0x0000

/-- `push_back`. -/
def pushBack {α : Type} (vector : List α) (item : α) : List α :=
  vector ++ [item]

namespace Decoder

/-! ## Strings and bytes -/

/-- The size check, the reference and the advance that strings, bytes and addresses share. -/
def takeRange (size : Nat) : Fallible Decoder StringRef := fun decoder =>
  if decoder.remaining < size then
    some (none, decoder)
  else
    some (some ⟨some decoder.input, size⟩, { decoder with
      input := decoder.input + size
      remaining := sizeSub decoder.remaining size })

/-- A copy of the characters behind a reference. -/
def copyRange (reference : StringRef) : Fallible Decoder (List UInt8) := fun decoder =>
  (reference.toBytes decoder.memory).map fun bytes => (some bytes, decoder)

def decodeString : Fallible Decoder StringRef :=
  andThen decodeUint16 fun stringSize => takeRange stringSize.toNat

def decodeBytes : Fallible Decoder StringRef :=
  andThen decodeInt32 fun bytesSize =>
    if bytesSize < 0 then succeed ⟨none, 0⟩ else takeRange (sizeOfInt32 bytesSize)

/-- `String(data, size)` of a decoded string. -/
def decodeStringCopy : Fallible Decoder (List UInt8) :=
  andThen decodeString copyRange

/-- `Decoder::decode_inet(CassInet*)`. -/
def decodeInet : Fallible Decoder CassInet :=
  andThen decodeByte fun addressLength =>
    if addressLength > cassInetV6Length then
      Fallible.fail
    else
      andThen (takeRange addressLength.toNat) fun range =>
        andThen (copyRange range) fun address => succeed ⟨address, addressLength⟩

/-! ## Lists and maps -/

/-- `Decoder::decode_stringlist(StringRefVec&)`. -/
def decodeStringlist (output : List StringRef) : Filling Decoder (List StringRef) :=
  Fallible.fillCounted decodeUint16 UInt16.toNat output fun count =>
    decodeString.fill pushBack count []

/-- `Decoder::decode_custom_payload`, which does not clear its output. -/
def decodeCustomPayload (output : List CustomPayloadItem) :
    Filling Decoder (List CustomPayloadItem) :=
  let item := andThen decodeString fun name =>
    andThen decodeBytes fun value => succeed ⟨name, value⟩
  Fallible.fillCounted decodeUint16 UInt16.toNat output fun count => item.fill pushBack count output

/-- `Decoder::decode_warnings`, which does not clear its output. -/
def decodeWarnings (output : List StringRef) : Filling Decoder (List StringRef) :=
  Fallible.fillCounted decodeUint16 UInt16.toNat output fun count =>
    decodeString.fill pushBack count output

/-- `Decoder::decode_write_type`. -/
def decodeWriteType : Fallible Decoder CassWriteType :=
  andThen decodeStringCopy fun name =>
    match CassWriteType.ofName name with
    | none => Fallible.fail
    | some writeType => succeed writeType

/-- `Decoder::decode_failures`: the failures and their number.  The failures are only read from
version 5 on.  There a negative number is a fault, since `reserve` throws. -/
def decodeFailures (output : List Failure) (outputSize : Int32) :
    Filling Decoder (List Failure × Int32) := fun decoder => do
  let item := andThen decodeInet fun endpoint =>
    andThen decodeUint16 fun failurecode => succeed ⟨endpoint, failurecode⟩
  match ← decodeInt32 decoder with
  | (none, decoder) => return (false, (output, outputSize), decoder)
  | (some outputSize, decoder) =>
    if decoder.protocolVersion < 5 then
      return (true, (output, outputSize), decoder)
    else if outputSize < 0 then
      none
    else
      let (done, output, decoder) ←
        Fallible.fill item pushBack outputSize.toNatClampNeg output decoder
      return (done, (output, outputSize), decoder)

end Decoder

end DseDriver.Cql
