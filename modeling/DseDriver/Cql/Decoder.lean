import DseDriver.Cql.DataType
import DseDriver.Cql.Serialization

/-!
# The response decoder and the values it produces

`Decoder` is a cursor over the memory of a response body with a count of the
bytes that remain.  An operation of the source returns a flag and stores its
output through a reference; here it returns the output, or nothing when the flag
is false, with the decoder it leaves behind.  A read outside the memory is not an
outcome of the source, so it is kept apart as the outer `none`.
-/

namespace DseDriver.Cql

open Lib

/-- `Decoder`.  The `type_` label is only used in log messages. -/
structure Decoder where
  protocolVersion : Int
  memory : List UInt8
  input : Nat
  remaining : Nat
  deriving DecidableEq, Repr

/-- `Value`: a typed range of the response, or null. -/
structure Value where
  dataType : Option DataType
  count : Int32
  decoder : Decoder
  isNull : Bool
  deriving Repr

/-- `remaining_ -= size`, an unsigned subtraction that wraps. -/
def sizeSub (remaining size : Nat) : Nat :=
  (remaining + 2 ^ 64 - size) % 2 ^ 64

theorem sizeSub_of_le {remaining size : Nat} (enough : size ≤ remaining)
    (bounded : remaining < 2 ^ 64) : sizeSub remaining size = remaining - size := by
  unfold sizeSub
  omega

namespace Decoder

/-- `Decoder()`. -/
def empty : Decoder :=
  { protocolVersion := -1, memory := [], input := 0, remaining := 0 }

/-- `Decoder(input, length, protocol_version)`. -/
def mk' (memory : List UInt8) (input length : Nat) (protocolVersion : Int) : Decoder :=
  { protocolVersion, memory, input, remaining := length }

/-- The operations that read one integer share this body: the size check, the
load and the advance. -/
def decodeFixed {α : Type} (width : Nat) (load : List UInt8 → Nat → Option (α × Nat))
    (decoder : Decoder) : Option (Option α × Decoder) :=
  if decoder.remaining < width then
    some (none, decoder)
  else do
    let (output, input) ← load decoder.memory decoder.input
    return (some output, { decoder with input, remaining := sizeSub decoder.remaining width })

def decodeByte : Decoder → Option (Option UInt8 × Decoder) :=
  decodeFixed 1 Cql.decodeByte

def decodeUint16 : Decoder → Option (Option UInt16 × Decoder) :=
  decodeFixed 2 Cql.decodeUint16

def decodeInt32 : Decoder → Option (Option Int32 × Decoder) :=
  decodeFixed 4 Cql.decodeInt32

/-- `Decoder::decode_size`: an int from version 3, an unsigned short before. -/
def decodeSize (decoder : Decoder) : Option (Option Int32 × Decoder) :=
  if decoder.protocolVersion < 3 then
    decodeFixed 2 (fun memory input =>
      (Cql.decodeUint16 memory input).map (Prod.map (fun size => size.toUInt32.toInt32) id)) decoder
  else
    decodeFixed 4 Cql.decodeInt32 decoder

/-- `Decoder::as_string_ref`, the bytes the decoder still covers. -/
def asStringRef (decoder : Decoder) : Option (List UInt8) :=
  readAt decoder.memory decoder.input decoder.remaining

end Decoder

namespace Value

/-- `Value(data_type)`, the null value. -/
def null (dataType : DataType) : Value :=
  { dataType := some dataType, count := 0, decoder := .empty, isNull := true }

/-- `Value(data_type, decoder)`, for scalars, tuples and user types. -/
def ofDecoder (dataType : DataType) (decoder : Decoder) : Value :=
  let count := match dataType with
    | .tuple types _ => Int32.ofNat types.length
    | .userType _ _ fields _ _ => Int32.ofNat fields.length
    | _ => 0
  { dataType := some dataType, count, decoder, isNull := false }

/-- `Value(data_type, count, decoder)`, for collections. -/
def ofCollection (dataType : DataType) (count : Int32) (decoder : Decoder) : Value :=
  { dataType := some dataType, count, decoder, isNull := false }

end Value

namespace Decoder

/-- `Decoder::decode_value`.  The bytes of the value are not checked against the
bytes that remain. -/
def decodeValue (dataType : DataType) (isInsideCollection : Bool) (decoder : Decoder) :
    Option (Option Value × Decoder) := do
  let (size, decoder) ← if isInsideCollection then decoder.decodeSize else decoder.decodeInt32
  match size with
  | none => return (none, decoder)
  | some size =>
    if 0 ≤ size then
      let size := size.toNatClampNeg
      let buffer := Decoder.mk' decoder.memory decoder.input size decoder.protocolVersion
      let rest := { decoder with
        input := decoder.input + size
        remaining := sizeSub decoder.remaining size }
      if dataType.isCollection then
        match ← buffer.decodeSize with
        | (none, _) => return (none, rest)
        | (some count, buffer) => return (some (.ofCollection dataType count buffer), rest)
      else
        return (some (.ofDecoder dataType buffer), rest)
    else
      return (some (.null dataType), decoder)

end Decoder

end DseDriver.Cql
