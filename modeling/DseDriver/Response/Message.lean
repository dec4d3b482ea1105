import Mathlib.Data.List.TakeDrop
import DseDriver.Cql.DecoderOperations

/-!
# Response messages

`ResponseMessage::decode`, which takes a response from the bytes of a connection piece by
piece, and the loop of `Connection::consume` around it.  A buffer with a write position is the
list of the bytes that were copied into it so far.  How the body of a response is decoded
depends on its opcode and is left open, and so is what the connection does with a response that
is complete, except that it may close.
-/

namespace DseDriver.Response

open Lib Cql

/-- `CASS_HEADER_SIZE_V1_AND_V2` and `CASS_HEADER_SIZE_V3`. -/
def headerSizeOf (version : UInt8) : Nat :=
  if version ≥ 3 then 9 else 8

/-- `CASS_FLAG_CUSTOM_PAYLOAD`. -/
def cassFlagCustomPayload : UInt8 := 0x04

/-- `CASS_FLAG_WARNING`. -/
def cassFlagWarning : UInt8 := 0x08

/-- `ResponseMessage`. -/
structure ResponseMessage where
  version : UInt8
  flags : UInt8
  stream : Int16
  opcode : UInt8
  length : Int32
  received : Nat
  headerSize : Nat
  isHeaderReceived : Bool
  headerBuffer : List UInt8
  isBodyReady : Bool
  isBodyError : Bool
  body : List UInt8
  deriving DecidableEq, Repr

/-- What is seen of a response once it is complete. -/
structure CompleteResponse where
  version : UInt8
  flags : UInt8
  stream : Int16
  opcode : UInt8
  body : List UInt8
  deriving DecidableEq, Repr

/-- How a response of an opcode decodes its body. -/
abbrev ResponseDecoder := UInt8 → Decoder → Bool

/-- The two ways in which the bytes of a body are turned down. -/
inductive BodyOutcome where
  | ready
  | prefixError
  | bodyError
  deriving DecidableEq, Repr

/-- The part of the body behind a flag, if the flag is set. -/
def decodeFlagged {α : Type} (flags flag : UInt8) (part : Filling Decoder α) :
    Decoder → Option Decoder := fun decoder =>
  if flags &&& flag ≠ 0 then
    match part decoder with
    | some (true, _, decoder) => some decoder
    | _ => none
  else
    some decoder

variable (decodeResponse : ResponseDecoder)

/-- The decoders that run over a complete body. -/
def decodeBody (version flags opcode : UInt8) (body : List UInt8) : BodyOutcome :=
  let decoder := Decoder.mk' body 0 body.length version.toNat
  match decodeFlagged flags cassFlagWarning (Decoder.decodeWarnings []) decoder with
  | none => .prefixError
  | some decoder =>
    match decodeFlagged flags cassFlagCustomPayload (Decoder.decodeCustomPayload []) decoder with
    | none => .prefixError
    | some decoder => if decodeResponse opcode decoder then .ready else .bodyError

/-- The fields of a header behind the version byte. -/
def readHeader (version : UInt8) (header : List UInt8) :
    Option (UInt8 × Int16 × UInt8 × Int32) := do
  let (flags, buffer) ← decodeByte header 1
  let (stream, buffer) ←
    (if version ≥ 3 then
      decodeInt16 header buffer
    else
      (decodeInt8 header buffer).map (Prod.map Int8.toInt16 id))
  let (opcode, buffer) ← decodeByte header buffer
  let (length, _) ← decodeInt32 header buffer
  return (flags, stream, opcode, length)

namespace ResponseMessage

/-- `ResponseMessage()`. -/
def new : ResponseMessage where
  version := 0
  flags := 0
  stream := 0
  opcode := 0
  length := 0
  received := 0
  headerSize := 0
  isHeaderReceived := false
  headerBuffer := []
  isBodyReady := false
  isBodyError := false
  body := []

/-- The part that is handed on. -/
def complete (message : ResponseMessage) : CompleteResponse where
  version := message.version
  flags := message.flags
  stream := message.stream
  opcode := message.opcode
  body := message.body

/-- `ResponseMessage::allocate_body`: the opcodes of responses. -/
def allocateBody (opcode : UInt8) : Bool :=
  opcode ∈ ([0x00, 0x02, 0x03, 0x06, 0x08, 0x0C, 0x0E, 0x10] : List UInt8)

/-- The version is taken from the first byte of the first call. -/
def learnVersion (message : ResponseMessage) (input : List UInt8) : ResponseMessage :=
  if message.version = 0 then
    let version := input.headD 0 &&& 0x7F
    { message with version, headerSize := headerSizeOf version }
  else
    message

/-- The part of `decode` that copies the body, from the input position on.  The number of bytes
that are needed is a `size_t`: one below zero is a very large number of bytes to copy.  There is no
result if the copy reads outside the input. -/
def receiveBody (message : ResponseMessage)
    (input : List UInt8) (inputPos : Nat) : Option (Int × ResponseMessage) :=
  let remaining := input.length - inputPos
  let frameSize := (message.headerSize + sizeOfInt32 message.length) % 2 ^ 64
  if message.received ≥ frameSize then
    -- More may have been received than this frame needs.
    let overage := message.received - frameSize
    let needed := ((remaining - overage : Int) % 2 ^ 64).toNat
    if remaining < needed then
      none
    else
      let message := { message with body := message.body ++ (input.drop inputPos).take needed }
      match decodeBody decodeResponse message.version message.flags message.opcode message.body with
      | .prefixError => some (-1, message)
      | .bodyError => some (-1, { message with isBodyError := true })
      | .ready => some ((inputPos + needed : Nat), { message with isBodyReady := true })
  else
    some (input.length, { message with body := message.body ++ input.drop inputPos })

/-- The part of `decode` that copies the header.  It is read once all its bytes are there, so
that none of the reads fails. -/
def receiveHeader (message : ResponseMessage)
    (input : List UInt8) : Option (Int × ResponseMessage) :=
  if message.received ≥ message.headerSize then
    let overage := message.received - message.headerSize
    let needed := input.length - overage
    let header := message.headerBuffer ++ input.take needed
    match readHeader message.version header with
    | none => some (-1, message)
    | some (flags, stream, opcode, length) =>
      let message := { message with
        headerBuffer := header, flags, stream, opcode, length, isHeaderReceived := true }
      if allocateBody opcode then
        message.receiveBody decodeResponse input needed
      else
        some (-1, message)
  else
    some (input.length, { message with headerBuffer := message.headerBuffer ++ input })

/-- `ResponseMessage::decode`: the number of bytes taken, or -1.  The size of an input in memory
fits into `ssize_t`. -/
def decode (message : ResponseMessage) (input : List UInt8) : Option (Int × ResponseMessage) :=
  let message := { message with received := message.received + input.length }
  if message.isHeaderReceived then
    message.receiveBody decodeResponse input 0
  else if message.version = 0 ∧ message.received < 1 then
    some (-1, message)
  else
    (message.learnVersion input).receiveHeader decodeResponse input

end ResponseMessage

/-- What `Connection::consume` works on: the response being received, those that were
complete, and whether the connection is closing. -/
structure Connection where
  response : ResponseMessage
  completed : List CompleteResponse
  isClosing : Bool
  deriving DecidableEq, Repr

namespace Connection

/-- A connection before its first byte. -/
def new : Connection := { response := .new, completed := [], isClosing := false }

/-- `Connection::consume`.  An error closes the connection, and then the rest of the input is
not looked at; `closes` says which responses make the connection close.  Nothing more is seen of a
connection once a call has no result. -/
def consume (decodeResponse : ResponseDecoder) (closes : CompleteResponse → Bool)
    (connection : Connection) (input : List UInt8) : Connection :=
  if input = [] ∨ connection.isClosing then
    connection
  else
    match connection.response.decode decodeResponse input with
    | none => { connection with isClosing := true }
    | some (consumed, response) =>
      if consumed ≤ 0 then
        { connection with response, isClosing := true }
      else if response.isBodyReady then
        let connection := { connection with
          response := .new, completed := connection.completed ++ [response.complete] }
        if closes response.complete then
          { connection with isClosing := true }
        else
          connection.consume decodeResponse closes (input.drop consumed.toNat)
      else
        { connection with response }.consume decodeResponse closes (input.drop consumed.toNat)
termination_by input.length
decreasing_by
  all_goals
    have nonempty : input ≠ [] := fun empty => by simp_all
    have positive := List.length_pos_iff.mpr nonempty
    rw [List.length_drop]
    omega

end Connection

end DseDriver.Response
