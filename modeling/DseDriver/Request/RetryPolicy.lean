import DseDriver.CassError

/-!
# Retry policies

The decisions of the built-in policies of `retry_policy.cpp` on the errors a server
may answer.  The logging policy decides as the policy it wraps.
-/

namespace DseDriver.Request

/-- `CassConsistency`. -/
inductive Consistency where
  | unknown
  | any
  | one
  | two
  | three
  | quorum
  | all
  | localQuorum
  | eachQuorum
  | serial
  | localSerial
  | localOne
  deriving DecidableEq, Repr

/-- `CassWriteType`. -/
inductive WriteType where
  | unknown
  | simple
  | batch
  | unloggedBatch
  | counter
  | batchLog
  | cas
  deriving DecidableEq, Repr

/-- `RetryPolicy::RetryDecision`. -/
inductive RetryDecision where
  | returnError
  | retry (consistency : Consistency) (retryCurrentHost : Bool)
  | ignore
  deriving DecidableEq, Repr

/-- The built-in policies. -/
inductive RetryPolicy where
  | default
  | downgradingConsistency
  | fallthrough
  | logging (child : RetryPolicy)
  deriving DecidableEq, Repr

/-- `max_likely_to_work`. -/
def maxLikelyToWork (received : Int) : RetryDecision :=
  if received ≥ 3 then
    .retry .three true
  else if received = 2 then
    .retry .two true
  else if received = 1 then
    .retry .one true
  else
    .returnError

namespace RetryPolicy

/-- `on_read_timeout`. -/
def onReadTimeout (consistency : Consistency) (received required : Int) (dataReceived : Bool)
    (numRetries : Nat) : RetryPolicy → RetryDecision
  | default =>
    if numRetries ≠ 0 then
      .returnError
    else if received ≥ required ∧ ¬ dataReceived then
      .retry consistency true
    else
      .returnError
  | downgradingConsistency =>
    if numRetries ≠ 0 then
      .returnError
    else if consistency = .serial ∨ consistency = .localSerial then
      .returnError
    else if received < required then
      maxLikelyToWork received
    else if ¬ dataReceived then
      .retry consistency true
    else
      .returnError
  | fallthrough => .returnError
  | logging child => child.onReadTimeout consistency received required dataReceived numRetries

/-- `on_write_timeout`. -/
def onWriteTimeout (consistency : Consistency) (received : Int) (writeType : WriteType)
    (numRetries : Nat) : RetryPolicy → RetryDecision
  | default =>
    if numRetries ≠ 0 then
      .returnError
    else if writeType = .batchLog then
      .retry consistency true
    else
      .returnError
  | downgradingConsistency =>
    if numRetries ≠ 0 then
      .returnError
    else
      match writeType with
      | .simple | .batch => if received > 0 then .ignore else .returnError
      | .unloggedBatch => maxLikelyToWork received
      | .batchLog => .retry consistency true
      | _ => .returnError
  | fallthrough => .returnError
  | logging child => child.onWriteTimeout consistency received writeType numRetries

/-- `on_unavailable`. -/
def onUnavailable (consistency : Consistency) (alive : Int) (numRetries : Nat) :
    RetryPolicy → RetryDecision
  | default => if numRetries = 0 then .retry consistency false else .returnError
  | downgradingConsistency => if numRetries ≠ 0 then .returnError else maxLikelyToWork alive
  | fallthrough => .returnError
  | logging child => child.onUnavailable consistency alive numRetries

/-- `on_request_error`. -/
def onRequestError (consistency : Consistency) : RetryPolicy → RetryDecision
  | default => .retry consistency false
  | downgradingConsistency => .retry consistency false
  | fallthrough => .returnError
  | logging child => child.onRequestError consistency

end RetryPolicy

end DseDriver.Request
