import DseDriver.CassError
import DseDriver.Cql.DecoderOperations

/-!
# Error responses

The body of an ERROR response and the functions of the public header that read it.  What follows
the code and the message depends on the code.  The codes of the public header are those of the
protocol with the source of the error in the highest byte.
-/

namespace DseDriver.Response

open Lib Cql List Option

/-! ## Codes -/

/-- `CASS_ERROR(CASS_ERROR_SOURCE_SERVER, code)`. -/
def cassErrorServer (code : Int32) : Int32 := ((2 : Int32) <<< 24) ||| code

/-- `CQL_ERROR_UNAVAILABLE`. -/
def cqlErrorUnavailable : Int32 := 0x1000

/-- `CQL_ERROR_WRITE_TIMEOUT`. -/
def cqlErrorWriteTimeout : Int32 := 0x1100

/-- `CQL_ERROR_READ_TIMEOUT`. -/
def cqlErrorReadTimeout : Int32 := 0x1200

/-- `CQL_ERROR_READ_FAILURE`. -/
def cqlErrorReadFailure : Int32 := 0x1300

/-- `CQL_ERROR_FUNCTION_FAILURE`. -/
def cqlErrorFunctionFailure : Int32 := 0x1400

/-- `CQL_ERROR_WRITE_FAILURE`. -/
def cqlErrorWriteFailure : Int32 := 0x1500

/-- `CQL_ERROR_ALREADY_EXISTS`. -/
def cqlErrorAlreadyExists : Int32 := 0x2400

/-- `CQL_ERROR_UNPREPARED`. -/
def cqlErrorUnprepared : Int32 := 0x2500

/-- `CASS_ERROR_SERVER_FUNCTION_FAILURE`. -/
def cassErrorServerFunctionFailure : Int32 := cassErrorServer cqlErrorFunctionFailure

/-- `CASS_ERROR_SERVER_ALREADY_EXISTS`. -/
def cassErrorServerAlreadyExists : Int32 := cassErrorServer cqlErrorAlreadyExists

/-! ## The response -/

/-- `ErrorResponse`. -/
structure ErrorResponse where
  code : Int32
  message : StringRef
  preparedId : StringRef
  cl : UInt16
  received : Int32
  required : Int32
  numFailures : Int32
  failures : List Failure
  dataPresent : UInt8
  writeType : CassWriteType
  keyspace : StringRef
  table : StringRef
  function : StringRef
  argTypes : List StringRef
  deriving DecidableEq, Repr

namespace ErrorResponse

/-- `ErrorResponse()`. -/
def new : ErrorResponse where
  code := -1
  message := ⟨none, 0⟩
  preparedId := ⟨none, 0⟩
  cl := 0xFFFF
  received := -1
  required := -1
  numFailures := -1
  failures := []
  dataPresent := 0
  writeType := .unknown
  keyspace := ⟨none, 0⟩
  table := ⟨none, 0⟩
  function := ⟨none, 0⟩
  argTypes := []

/-- A read that stores into the response. -/
abbrev Read := ErrorResponse → Filling Decoder ErrorResponse

/-- A read whose output is stored if it returns true. -/
def store {α : Type} (operation : Fallible Decoder α) (set : ErrorResponse → α → ErrorResponse) :
    Read := fun response decoder => do
  match ← operation decoder with
  | (none, decoder) => return (false, response, decoder)
  | (some output, decoder) => return (true, set response output, decoder)

/-- The reads of `CHECK_RESULT`, up to the first that returns false. -/
def checkResults : List Read → Read
  | [], response, decoder => some (true, response, decoder)
  | read :: reads, response, decoder => do
    match ← read response decoder with
    | (false, response, decoder) => return (false, response, decoder)
    | (true, response, decoder) => checkResults reads response decoder

def readCl : Read := store Decoder.decodeUint16 fun response cl => { response with cl }

def readReceived : Read := store Decoder.decodeInt32 fun response received => { response with received }

def readRequired : Read := store Decoder.decodeInt32 fun response required => { response with required }

def readDataPresent : Read :=
  store Decoder.decodeByte fun response dataPresent => { response with dataPresent }

def readWriteType : Read :=
  store Decoder.decodeWriteType fun response writeType => { response with writeType }

def readKeyspace : Read := store Decoder.decodeString fun response keyspace => { response with keyspace }

def readTable : Read := store Decoder.decodeString fun response table => { response with table }

def readFunction : Read := store Decoder.decodeString fun response function => { response with function }

def readPreparedId : Read :=
  store Decoder.decodeString fun response preparedId => { response with preparedId }

def readCode : Read := store Decoder.decodeInt32 fun response code => { response with code }

def readMessage : Read := store Decoder.decodeString fun response message => { response with message }

def readFailures : Read := fun response decoder => do
  let (done, (failures, numFailures), decoder) ←
    Decoder.decodeFailures response.failures response.numFailures decoder
  return (done, { response with failures, numFailures }, decoder)

def readArgTypes : Read := fun response decoder => do
  let (done, argTypes, decoder) ← Decoder.decodeStringlist response.argTypes decoder
  return (done, { response with argTypes }, decoder)

/-- The cases of the switch in `ErrorResponse::decode`. -/
def details (code : Int32) : List Read :=
  if code = cqlErrorUnavailable then
    [readCl, readRequired, readReceived]
  else if code = cqlErrorReadTimeout then
    [readCl, readReceived, readRequired, readDataPresent]
  else if code = cqlErrorWriteTimeout then
    [readCl, readReceived, readRequired, readWriteType]
  else if code = cqlErrorReadFailure then
    [readCl, readReceived, readRequired, readFailures, readDataPresent]
  else if code = cqlErrorFunctionFailure then
    [readKeyspace, readFunction, readArgTypes]
  else if code = cqlErrorWriteFailure then
    [readCl, readReceived, readRequired, readFailures, readWriteType]
  else if code = cqlErrorUnprepared then
    [readPreparedId]
  else if code = cqlErrorAlreadyExists then
    [readKeyspace, readTable]
  else
    []

/-- `ErrorResponse::decode`. -/
def decode : Read := fun response decoder => do
  match ← checkResults [readCode, readMessage] response decoder with
  | (false, response, decoder) => return (false, response, decoder)
  | (true, response, decoder) => checkResults (details response.code) response decoder

end ErrorResponse

/-! ## Accessors -/

section

variable (errorResult : ErrorResponse)

/-- `cass_error_result_keyspace`. -/
def cassErrorResultKeyspace : Except CassError StringRef :=
  if errorResult.code ≠ cassErrorServerAlreadyExists ∨
      errorResult.code ≠ cassErrorServerFunctionFailure then
    .error .libInvalidErrorResultType
  else
    .ok errorResult.keyspace

/-- `cass_error_result_table`. -/
def cassErrorResultTable : Except CassError StringRef :=
  if errorResult.code ≠ cassErrorServerAlreadyExists then
    .error .libInvalidErrorResultType
  else
    .ok errorResult.table

/-- `cass_error_result_function`. -/
def cassErrorResultFunction : Except CassError StringRef :=
  if errorResult.code ≠ cassErrorServerFunctionFailure then
    .error .libInvalidErrorResultType
  else
    .ok errorResult.function

/-- `cass_error_result_arg_type`; `none` is a read outside the vector. -/
def cassErrorResultArgType (index : Nat) : Option (Except CassError StringRef) :=
  if errorResult.code ≠ cassErrorServerFunctionFailure then
    some (.error .libInvalidErrorResultType)
  else if index > errorResult.argTypes.length then
    some (.error .libIndexOutOfBounds)
  else
    errorResult.argTypes[index]?.map .ok

end

/-- Each accessor succeeds for the errors that carry what it reads. -/
structure AccessorsSound (response : ErrorResponse) : Prop where
  keyspace : ∀ keyspace, cassErrorResultKeyspace response = .ok keyspace ↔
    (response.code = cqlErrorAlreadyExists ∨ response.code = cqlErrorFunctionFailure) ∧
      keyspace = response.keyspace
  table : ∀ table, cassErrorResultTable response = .ok table ↔
    response.code = cqlErrorAlreadyExists ∧ table = response.table
  function : ∀ function, cassErrorResultFunction response = .ok function ↔
    response.code = cqlErrorFunctionFailure ∧ function = response.function
  argType_defined : ∀ index, (cassErrorResultArgType response index).isSome
  argType : ∀ index argType, cassErrorResultArgType response index = some (.ok argType) ↔
    response.code = cqlErrorFunctionFailure ∧ response.argTypes[index]? = some argType

/-- The codes with which an accessor succeeds or should succeed: the two of the protocol, and what
the accessors compare with. -/
def accessedCodes : List Int32 :=
  [cqlErrorAlreadyExists, cqlErrorFunctionFailure, cassErrorServerAlreadyExists,
    cassErrorServerFunctionFailure]

/-! ## What the accessors do -/

/-- No code is different from neither of two codes. -/
theorem cassErrorResultKeyspace_eq (response : ErrorResponse) :
    cassErrorResultKeyspace response = .error .libInvalidErrorResultType := by
  have different : response.code ≠ cassErrorServerAlreadyExists ∨
      response.code ≠ cassErrorServerFunctionFailure := by
    by_cases same : response.code = cassErrorServerAlreadyExists
    · right
      rw [same]
      decide
    · exact .inl same
  exact if_pos different

theorem accessorsSound_iff_code (response : ErrorResponse) :
    AccessorsSound response ↔ response.code ∉ accessedCodes := by
  constructor
  · intro sound listed
    have keyspace := sound.keyspace response.keyspace
    rw [cassErrorResultKeyspace_eq] at keyspace
    simp only [accessedCodes, mem_cons, not_mem_nil, or_false] at listed
    rcases listed with exists' | failure | server | server
    · exact nomatch keyspace.mpr ⟨.inl exists', rfl⟩
    · exact nomatch keyspace.mpr ⟨.inr failure, rfl⟩
    · have found := (sound.table response.table).mp (if_neg (not_not.mpr server))
      rw [server] at found
      exact absurd found.1 (by decide)
    · have found := (sound.function response.function).mp (if_neg (not_not.mpr server))
      rw [server] at found
      exact absurd found.1 (by decide)
  · intro unlisted
    simp only [accessedCodes, mem_cons, not_mem_nil, or_false, not_or] at unlisted
    obtain ⟨notExists, notFailure, notServerExists, notServerFailure⟩ := unlisted
    have argType (index : Nat) : cassErrorResultArgType response index =
        some (.error .libInvalidErrorResultType) := if_pos notServerFailure
    constructor
    · intro keyspace
      simp [cassErrorResultKeyspace_eq, notExists, notFailure]
    · intro table
      simp [cassErrorResultTable, notExists, notServerExists]
    · intro function
      simp [cassErrorResultFunction, notFailure, notServerFailure]
    · intro index
      rw [argType]
      rfl
    · intro index type
      simp [argType, notFailure]

/-! ## The code of a response -/

namespace ErrorResponse

/-- The read leaves the code in place. -/
def KeepsCode (read : Read) : Prop :=
  ∀ response decoder done response' decoder',
    read response decoder = some (done, response', decoder') → response'.code = response.code

theorem keepsCode_store {α : Type} (operation : Fallible Decoder α)
    {set : ErrorResponse → α → ErrorResponse}
    (kept : ∀ response output, (set response output).code = response.code) :
    KeepsCode (store operation set) := by
  intro response decoder done response' decoder' result
  unfold store at result
  obtain ⟨⟨output, next⟩, ran, result⟩ := bind_eq_some_iff.mp result
  cases output with
  | none =>
    cases result
    rfl
  | some output =>
    cases result
    exact kept response output

theorem keepsCode_checkResults {reads : List Read} (each : ∀ read ∈ reads, KeepsCode read) :
    KeepsCode (checkResults reads) := by
  induction reads with
  | nil =>
    intro response decoder done response' decoder' result
    cases result
    rfl
  | cons read reads ih =>
    intro response decoder done response' decoder' result
    obtain ⟨first, rest⟩ := forall_mem_cons.mp each
    obtain ⟨⟨ok, middle, next⟩, ran, result⟩ := bind_eq_some_iff.mp result
    have kept := first response decoder ok middle next ran
    cases ok with
    | false =>
      cases result
      exact kept
    | true => exact (ih rest middle next done response' decoder' result).trans kept

theorem keepsCode_readFailures : KeepsCode readFailures := by
  intro response decoder done response' decoder' result
  obtain ⟨⟨ok, failures, next⟩, ran, result⟩ := bind_eq_some_iff.mp result
  cases result
  rfl

theorem keepsCode_readArgTypes : KeepsCode readArgTypes := by
  intro response decoder done response' decoder' result
  obtain ⟨⟨ok, argTypes, next⟩, ran, result⟩ := bind_eq_some_iff.mp result
  cases result
  rfl

theorem keepsCode_details (code : Int32) : ∀ read ∈ details code, KeepsCode read := by
  have cl : KeepsCode readCl := keepsCode_store _ fun _ _ => rfl
  have received : KeepsCode readReceived := keepsCode_store _ fun _ _ => rfl
  have required : KeepsCode readRequired := keepsCode_store _ fun _ _ => rfl
  have dataPresent : KeepsCode readDataPresent := keepsCode_store _ fun _ _ => rfl
  have writeType : KeepsCode readWriteType := keepsCode_store _ fun _ _ => rfl
  have keyspace : KeepsCode readKeyspace := keepsCode_store _ fun _ _ => rfl
  have table : KeepsCode readTable := keepsCode_store _ fun _ _ => rfl
  have function : KeepsCode readFunction := keepsCode_store _ fun _ _ => rfl
  have preparedId : KeepsCode readPreparedId := keepsCode_store _ fun _ _ => rfl
  have failures := keepsCode_readFailures
  have argTypes := keepsCode_readArgTypes
  unfold details
  split_ifs <;> simp [cl, received, required, dataPresent, writeType, keyspace, table, function,
    preparedId, failures, argTypes]

/-- An accepted response has the code that its body begins with. -/
theorem code_of_decode {response : ErrorResponse} {decoder rest : Decoder}
    (accepted : new.decode decoder = some (true, response, rest)) :
    ∃ next, decoder.decodeInt32 = some (some response.code, next) := by
  obtain ⟨⟨done, header, middle⟩, readHeader, accepted⟩ := bind_eq_some_iff.mp accepted
  cases done with
  | false => cases accepted
  | true =>
    have details := keepsCode_checkResults (keepsCode_details header.code) _ _ _ _ _ accepted
    obtain ⟨⟨first, coded, next⟩, readFirst, readRest⟩ := bind_eq_some_iff.mp readHeader
    cases first with
    | false => cases readRest
    | true =>
      have message : KeepsCode readMessage := keepsCode_store _ fun _ _ => rfl
      have kept := keepsCode_checkResults (forall_mem_singleton.mpr message) _ _ _ _ _
        readRest
      obtain ⟨⟨output, after⟩, read, stored⟩ := bind_eq_some_iff.mp readFirst
      cases output with
      | none => cases stored
      | some code =>
        cases stored
        exact ⟨_, by rw [read, details, kept]⟩

end ErrorResponse

/-- For every body that is accepted, the accessors are sound unless it begins with the code of a
response that they misjudge. -/
theorem accessorsSound_iff (decoder : Decoder) {response : ErrorResponse} {rest : Decoder}
    (accepted : ErrorResponse.new.decode decoder = some (true, response, rest)) :
    AccessorsSound response ↔
      ∀ code next, decoder.decodeInt32 = some (some code, next) → code ∉ accessedCodes := by
  obtain ⟨after, begins⟩ := ErrorResponse.code_of_decode accepted
  rw [accessorsSound_iff_code]
  constructor
  · intro unlisted code next starts
    rw [begins] at starts
    cases starts
    exact unlisted
  · intro every
    exact every _ _ begins

/-- A decoder for a body of the fourth version. -/
def bodyDecoder (body : List UInt8) : Decoder := .mk' body 0 body.length 4

/-- A server error with an empty message. -/
theorem accessorsSound_serverError :
    AccessorsSound { ErrorResponse.new with code := 0, message := ⟨some 6, 0⟩ } := by
  have accepted : ErrorResponse.new.decode (bodyDecoder [0, 0, 0, 0, 0, 0]) =
      some (true, { ErrorResponse.new with code := 0, message := ⟨some 6, 0⟩ },
        { bodyDecoder [0, 0, 0, 0, 0, 0] with input := 6, remaining := 0 }) := by
    decide +kernel
  refine (accessorsSound_iff _ accepted).mpr fun code next starts => ?_
  have begins : (bodyDecoder [0, 0, 0, 0, 0, 0]).decodeInt32 =
      some (some 0, { bodyDecoder [0, 0, 0, 0, 0, 0] with input := 4, remaining := 2 }) := by
    decide +kernel
  rw [begins] at starts
  cases starts
  decide

/-- The response to creating the table `t` of the keyspace `k` once more. -/
def alreadyExists : ErrorResponse :=
  { ErrorResponse.new with
    code := cqlErrorAlreadyExists
    message := ⟨some 6, 0⟩
    keyspace := ⟨some 8, 1⟩
    table := ⟨some 11, 1⟩ }

/-- Neither the keyspace nor the table is handed out. -/
theorem alreadyExists_not_accessible :
    ErrorResponse.new.decode (bodyDecoder [0, 0, 0x24, 0, 0, 0, 0, 1, 107, 0, 1, 116]) =
        some (true, alreadyExists,
          { bodyDecoder [0, 0, 0x24, 0, 0, 0, 0, 1, 107, 0, 1, 116] with
            input := 12, remaining := 0 }) ∧
      cassErrorResultKeyspace alreadyExists = .error .libInvalidErrorResultType ∧
      cassErrorResultTable alreadyExists = .error .libInvalidErrorResultType ∧
      ¬ AccessorsSound alreadyExists := by
  refine ⟨by decide +kernel, rfl, rfl, fun sound => ?_⟩
  have handedOut := (sound.table alreadyExists.table).mpr ⟨rfl, rfl⟩
  cases handedOut

end DseDriver.Response
