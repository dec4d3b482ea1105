import DseDriver.Request.RetryPolicy
import Mathlib.Data.List.Induction
import Mathlib.Tactic.TypeStar

/-!
# Executions of a request

A `RequestExecution` goes from host to host of a query plan that it shares with the other executions
of its request.  On each host the pool puts it on a connection, sets the keyspace of the connection
before, or lets it wait; an error sends it to the same host again or to the next one.
-/

namespace DseDriver.Request

open List

/-- What `Connection::write` does with a request: it is on the connection, or there is no free
stream, or it can not be encoded. -/
inductive ConnectionWrite where
  | written
  | noStream
  | notEncoded
  deriving DecidableEq, Repr

/-- What `Pool::write` does: it writes the request, or a statement that sets the keyspace. -/
inductive PoolWrite where
  | request (write : ConnectionWrite)
  | setKeyspace (hasStream : Bool)
  deriving DecidableEq, Repr

/-- What `IOWorker::retry` meets at a host: no pool that is ready, no connection to borrow, or a
connection that is written to. -/
inductive PoolAnswer where
  | notReady
  | busy
  | borrowed (write : PoolWrite)
  deriving DecidableEq, Repr

/-- What a server answers to a request, except that a statement is not prepared. -/
inductive ServerAnswer where
  | result
  | readTimeout (consistency : Consistency) (received required : Int) (dataPresent : Bool)
  | writeTimeout (consistency : Consistency) (received required : Int) (writeType : WriteType)
  | unavailable (consistency : Consistency) (required alive : Int)
  | overloaded
  | serverError
  | isBootstrapping
  | otherError
  deriving DecidableEq, Repr

/-- Where an execution is: not started, among the pending requests of a pool, behind a statement that
sets the keyspace, on a connection, or at its end. -/
inductive ExecutionStage where
  | scheduled
  | pending
  | settingKeyspace
  | written
  | finished
  deriving DecidableEq, Repr

/-- `RequestExecution`, with its query plan. -/
structure RequestExecution (Host : Type*) where
  /-- The hosts that the query plan has still to give; then it gives `NULL`. -/
  plan : List Host
  currentHost : Option Host
  stage : ExecutionStage
  isCancelled : Bool
  consistency : Consistency
  numRetries : Nat
  /-- How often the request was put on a connection. -/
  writes : Nat

/-- What the decisions of an execution depend on. -/
structure ExecutionSettings where
  policy : RetryPolicy
  isIdempotent : Bool
  consistency : Consistency

/-- What happens to an execution, with what the worker meets at the hosts if it tries again.  A
connection calls an execution that it has accepted once. -/
inductive ExecutionEvent where
  /-- The timer of the execution, or the dequeued request. -/
  | execute (answers : Nat → PoolAnswer)
  | onSet (answer : ServerAnswer) (answers : Nat → PoolAnswer)
  | writeError (answers : Nat → PoolAnswer)
  | connectionClosed (answers : Nat → PoolAnswer)
  /-- `Pool::return_connection` takes it from the pending requests. -/
  | connectionReturned (write : PoolWrite) (answers : Nat → PoolAnswer)
  /-- It waited too long, or the pool is gone. -/
  | pendingRequestTimeout (answers : Nat → PoolAnswer)
  | keyspaceSet (write : ConnectionWrite) (answers : Nat → PoolAnswer)
  /-- An error or a timeout of the statement that sets the keyspace. -/
  | keyspaceFailed (answers : Nat → PoolAnswer)
  | cancel
  /-- Another execution takes the next host of the plan. -/
  | otherNextHost

namespace RequestExecution

variable {Host : Type*} (execution : RequestExecution Host)

def new (hosts : List Host) (consistency : Consistency) : RequestExecution Host :=
  { plan := hosts
    currentHost := none
    stage := .scheduled
    isCancelled := false
    consistency
    numRetries := 0
    writes := 0 }

/-- `set_response`, `set_error` and `set_error_with_error_response`: nothing more happens. -/
def finish : RequestExecution Host :=
  { execution with stage := .finished }

/-- `Connection::write` of the request; `none` if it returns false.  A cancelled request is not
written. -/
def write (result : ConnectionWrite) : Option (RequestExecution Host) :=
  if execution.isCancelled then
    some execution.finish
  else
    match result with
    | .written => some { execution with stage := .written, writes := execution.writes + 1 }
    | .noStream => none
    | .notEncoded => some execution.finish

/-- `Pool::write`. -/
def poolWrite : PoolWrite → Option (RequestExecution Host)
  | .request result => execution.write result
  | .setKeyspace true => some { execution with stage := .settingKeyspace }
  | .setKeyspace false => none

/-- The execution on a host, with the hosts behind it in the plan. -/
def moveTo (currentHost : Option Host) (plan : List Host) : RequestExecution Host :=
  { execution with currentHost, plan }

/-- `next_host`. -/
def nextHost : RequestExecution Host :=
  execution.moveTo execution.plan.head? execution.plan.tail

/-- The body of the loop of `IOWorker::retry` on the current host; `none` if the next one is tried. -/
def tryHost : PoolAnswer → Option (RequestExecution Host)
  | .notReady => none
  | .busy =>
    if execution.isCancelled then
      some execution.finish
    else
      some { execution with stage := .pending }
  | .borrowed write => execution.poolWrite write

/-- The loop, with the current host and the plan. -/
def retryFrom (execution : RequestExecution Host) (answers : Nat → PoolAnswer) :
    Option Host → List Host → RequestExecution Host
  | none, plan => (execution.moveTo none plan).finish
  | some host, [] =>
    ((execution.moveTo host []).tryHost (answers 0)).getD (execution.moveTo none []).finish
  | some host, next :: plan =>
    ((execution.moveTo host (next :: plan)).tryHost (answers 0)).getD
      (execution.retryFrom (fun i => answers (i + 1)) (some next) plan)

/-- `retry_current_host`. -/
def retryCurrentHost (answers : Nat → PoolAnswer) : RequestExecution Host :=
  if execution.isCancelled then
    execution.finish
  else
    execution.retryFrom answers execution.currentHost execution.plan

/-- `retry_next_host`. -/
def retryNextHost (answers : Nat → PoolAnswer) : RequestExecution Host :=
  execution.nextHost.retryCurrentHost answers

/-- The decision in `on_error_response`. -/
def decision (settings : ExecutionSettings) (numRetries : Nat) : ServerAnswer → RetryDecision
  | .readTimeout consistency received required dataPresent =>
    settings.policy.onReadTimeout consistency received required dataPresent numRetries
  | .writeTimeout consistency received _ writeType =>
    if settings.isIdempotent then
      settings.policy.onWriteTimeout consistency received writeType numRetries
    else
      .returnError
  | .unavailable consistency _ alive => settings.policy.onUnavailable consistency alive numRetries
  | .overloaded | .serverError =>
    if settings.isIdempotent then
      settings.policy.onRequestError settings.consistency
    else
      .returnError
  | _ => .returnError

/-- `on_set`. -/
def onSet (settings : ExecutionSettings) (execution : RequestExecution Host)
    (answer : ServerAnswer) (answers : Nat → PoolAnswer) : RequestExecution Host :=
  match answer with
  | .result => execution.finish
  | .isBootstrapping => execution.retryNextHost answers
  | answer =>
    match decision settings execution.numRetries answer with
    | .returnError | .ignore => execution.finish
    | .retry consistency retryCurrentHost =>
      let execution := { execution with consistency }
      let retried :=
        if retryCurrentHost then
          execution.retryCurrentHost answers
        else
          execution.retryNextHost answers
      { retried with numRetries := retried.numRetries + 1 }

/-- One event of an execution. -/
def step (settings : ExecutionSettings) (execution : RequestExecution Host) :
    ExecutionEvent → RequestExecution Host
  | .execute answers =>
    match execution.stage with
    | .scheduled =>
      if execution.isCancelled then execution.finish else execution.retryNextHost answers
    | _ => execution
  | .onSet answer answers =>
    match execution.stage with
    | .written =>
      if execution.isCancelled then execution.finish else execution.onSet settings answer answers
    | _ => execution
  | .writeError answers =>
    match execution.stage with
    | .written =>
      if execution.isCancelled then execution.finish else execution.retryNextHost answers
    | _ => execution
  | .connectionClosed answers =>
    match execution.stage with
    | .written =>
      if execution.isCancelled ∨ ¬ settings.isIdempotent then
        execution.finish
      else
        execution.retryNextHost answers
    | _ => execution
  | .connectionReturned write answers =>
    match execution.stage with
    | .pending => (execution.poolWrite write).getD (execution.retryNextHost answers)
    | _ => execution
  | .pendingRequestTimeout answers =>
    match execution.stage with
    | .pending => execution.retryNextHost answers
    | _ => execution
  | .keyspaceSet result answers =>
    match execution.stage with
    | .settingKeyspace => (execution.write result).getD (execution.retryCurrentHost answers)
    | _ => execution
  | .keyspaceFailed answers =>
    match execution.stage with
    | .settingKeyspace => execution.retryNextHost answers
    | _ => execution
  | .cancel => { execution with isCancelled := true }
  | .otherNextHost => { execution with plan := execution.plan.tail }

/-- An execution after some events. -/
def run (settings : ExecutionSettings) (hosts : List Host) (events : List ExecutionEvent) :
    RequestExecution Host :=
  events.foldl (step settings) (new hosts settings.consistency)

/-! ## A bound on the writes -/

/-- The execution is on a host where it was not put on a connection since it came there. -/
def owed : ExecutionStage → Nat
  | .pending | .settingKeyspace => 1
  | _ => 0

/-- The execution has at most so many writes behind it and before it, and has not retried. -/
structure Within (bound numRetries : Nat) (execution : RequestExecution Host) : Prop where
  used : execution.writes + owed execution.stage + execution.plan.length ≤ bound
  retries : execution.numRetries = numRetries

variable {execution after : RequestExecution Host} {bound numRetries : Nat}

theorem within_finish (execution : RequestExecution Host)
    (within : execution.writes + execution.plan.length ≤ bound) :
    execution.finish.Within bound execution.numRetries :=
  ⟨within, rfl⟩

theorem within_write {result : ConnectionWrite} (wrote : execution.write result = some after)
    (within : execution.writes + 1 + execution.plan.length ≤ bound) :
    after.Within bound execution.numRetries := by
  have finished : execution.finish.Within bound execution.numRetries :=
    within_finish execution (by omega)
  unfold write at wrote
  split at wrote
  · cases wrote
    exact finished
  · cases result with
    | written =>
      cases wrote
      exact ⟨within, rfl⟩
    | noStream => cases wrote
    | notEncoded =>
      cases wrote
      exact finished

theorem within_poolWrite {write : PoolWrite} (wrote : execution.poolWrite write = some after)
    (within : execution.writes + 1 + execution.plan.length ≤ bound) :
    after.Within bound execution.numRetries := by
  cases write with
  | request result => exact within_write wrote within
  | setKeyspace hasStream =>
    cases hasStream with
    | true =>
      cases wrote
      exact ⟨within, rfl⟩
    | false => cases wrote

theorem within_tryHost (execution : RequestExecution Host) {answer : PoolAnswer}
    (tried : execution.tryHost answer = some after)
    (within : execution.writes + 1 + execution.plan.length ≤ bound) :
    after.Within bound execution.numRetries := by
  cases answer with
  | notReady => cases tried
  | busy =>
    rw [tryHost] at tried
    split at tried
    · cases tried
      exact within_finish execution (by omega)
    · cases tried
      exact ⟨within, rfl⟩
  | borrowed write => exact within_poolWrite tried within

/-- The worker's loop writes the request once at most, on the current host or on one that it takes
from the plan. -/
theorem within_retryFrom (answers : Nat → PoolAnswer) (host : Host) (plan : List Host)
    (within : execution.writes + 1 + plan.length ≤ bound) :
    (execution.retryFrom answers (some host) plan).Within bound execution.numRetries := by
  induction plan generalizing answers host with
  | nil =>
    rw [retryFrom]
    cases tried : (execution.moveTo host []).tryHost (answers 0) with
    | none => exact within_finish (execution.moveTo none []) (Nat.le_of_succ_le within)
    | some after => exact within_tryHost (execution.moveTo host []) tried within
  | cons next plan ih =>
    rw [retryFrom]
    cases tried : (execution.moveTo host (next :: plan)).tryHost (answers 0) with
    | none => exact ih _ next (Nat.le_of_succ_le within)
    | some after => exact within_tryHost (execution.moveTo host (next :: plan)) tried within

theorem within_retryCurrentHost (execution : RequestExecution Host) (answers : Nat → PoolAnswer)
    (within : execution.writes + 1 + execution.plan.length ≤ bound) :
    (execution.retryCurrentHost answers).Within bound execution.numRetries := by
  have fewer : execution.writes + execution.plan.length ≤ bound := by omega
  rw [retryCurrentHost]
  split
  · exact within_finish execution fewer
  · cases execution.currentHost with
    | none =>
      rw [retryFrom]
      exact within_finish (execution.moveTo none execution.plan) fewer
    | some host => exact within_retryFrom answers host execution.plan within

/-- A host that is taken from the plan allows one more write. -/
theorem within_retryNextHost (execution : RequestExecution Host) (answers : Nat → PoolAnswer)
    (within : execution.writes + execution.plan.length ≤ bound) :
    (execution.retryNextHost answers).Within bound execution.numRetries := by
  rw [retryNextHost, nextHost]
  cases plan : execution.plan with
  | nil =>
    rw [plan] at within
    rw [head?_nil, tail_nil, retryCurrentHost]
    split
    · exact within_finish (execution.moveTo none []) within
    · exact within_finish ((execution.moveTo none []).moveTo none []) within
  | cons host rest =>
    rw [plan, length_cons] at within
    have within : execution.writes + 1 + rest.length ≤ bound := by omega
    exact within_retryCurrentHost (execution.moveTo host rest) answers within

/-! ## Decisions -/

section Policies

variable {consistency retryConsistency : Consistency} {received required alive : Int}
  {dataReceived : Bool} {writeType : WriteType}

theorem onReadTimeout_of_retried (policy : RetryPolicy) (retried : numRetries ≠ 0) :
    policy.onReadTimeout consistency received required dataReceived numRetries = .returnError := by
  induction policy with
  | default | downgradingConsistency => simp [RetryPolicy.onReadTimeout, retried]
  | fallthrough => rfl
  | logging child ih => exact ih

theorem onWriteTimeout_of_retried (policy : RetryPolicy) (retried : numRetries ≠ 0) :
    policy.onWriteTimeout consistency received writeType numRetries = .returnError := by
  induction policy with
  | default | downgradingConsistency => simp [RetryPolicy.onWriteTimeout, retried]
  | fallthrough => rfl
  | logging child ih => exact ih

theorem onUnavailable_of_retried (policy : RetryPolicy) (retried : numRetries ≠ 0) :
    policy.onUnavailable consistency alive numRetries = .returnError := by
  induction policy with
  | default | downgradingConsistency => simp [RetryPolicy.onUnavailable, retried]
  | fallthrough => rfl
  | logging child ih => exact ih

theorem onRequestError_ne (policy : RetryPolicy) :
    policy.onRequestError consistency ≠ .retry retryConsistency true := by
  induction policy with
  | default | downgradingConsistency | fallthrough => simp [RetryPolicy.onRequestError]
  | logging child ih => exact ih

/-- The same host is tried again only if the execution has not retried. -/
theorem numRetries_of_decision {settings : ExecutionSettings} {answer : ServerAnswer}
    (decided : decision settings numRetries answer = .retry consistency true) : numRetries = 0 := by
  by_contra retried
  cases answer with
  | readTimeout =>
    rw [decision, onReadTimeout_of_retried _ retried] at decided
    cases decided
  | writeTimeout =>
    rw [decision, onWriteTimeout_of_retried _ retried, ite_self] at decided
    cases decided
  | unavailable =>
    rw [decision, onUnavailable_of_retried _ retried] at decided
    cases decided
  | overloaded | serverError =>
    rw [decision] at decided
    split at decided
    · exact onRequestError_ne _ decided
    · cases decided
  | result | isBootstrapping | otherError => cases decided

end Policies

/-! ## Runs -/

/-- A write for each host that is or was taken from the plan, and one for a retry. -/
def Sparing (hosts : Nat) (execution : RequestExecution Host) : Prop :=
  execution.Within (hosts + min execution.numRetries 1) execution.numRetries

variable {hosts : Nat} {settings : ExecutionSettings}

theorem Within.sparing (within : after.Within (hosts + min numRetries 1) numRetries) :
    after.Sparing hosts := by
  rw [Sparing, within.retries]
  exact within

theorem sparing_onSet (answer : ServerAnswer) (answers : Nat → PoolAnswer)
    (within : execution.writes + execution.plan.length ≤ hosts + min execution.numRetries 1) :
    (execution.onSet settings answer answers).Sparing hosts := by
  have finished := (within_finish execution within).sparing
  unfold onSet
  split
  · exact finished
  · exact (within_retryNextHost execution answers within).sparing
  · split
    · exact finished
    · exact finished
    next consistency retryCurrentHost decided =>
      cases retryCurrentHost with
      | true =>
        have first := numRetries_of_decision decided
        have more : execution.writes + 1 + execution.plan.length ≤ hosts + 1 := by omega
        have retried := within_retryCurrentHost { execution with consistency } answers more
        refine ⟨Nat.le_trans retried.used ?_, rfl⟩
        simp
      | false =>
        have retried := within_retryNextHost { execution with consistency } answers within
        refine ⟨Nat.le_trans retried.used ?_, rfl⟩
        simp only [Bool.false_eq_true, if_false, retried.retries]
        omega

theorem Sparing.step (sparing : execution.Sparing hosts) (event : ExecutionEvent) :
    (execution.step settings event).Sparing hosts := by
  have used := sparing.used
  -- on a host where it was written to a connection, and on one where it was not
  have fewer : execution.writes + execution.plan.length ≤ hosts + min execution.numRetries 1 := by
    omega
  have finished := (within_finish execution fewer).sparing
  have next (answers : Nat → PoolAnswer) := (within_retryNextHost execution answers fewer).sparing
  have owing {stage : ExecutionStage} (at' : execution.stage = stage) (owes : owed stage = 1) :
      execution.writes + 1 + execution.plan.length ≤ hosts + min execution.numRetries 1 := by
    rw [at', owes] at used
    exact used
  cases event with
  | execute answers | writeError answers | connectionClosed answers =>
    rw [RequestExecution.step]
    split
    · split
      · exact finished
      · exact next answers
    · exact sparing
  | onSet answer answers =>
    rw [RequestExecution.step]
    split
    · split
      · exact finished
      · exact sparing_onSet answer answers fewer
    · exact sparing
  | connectionReturned write answers =>
    rw [RequestExecution.step]
    split
    next pending =>
      cases wrote : execution.poolWrite write with
      | none => exact next answers
      | some after => exact (within_poolWrite wrote (owing pending rfl)).sparing
    next => exact sparing
  | pendingRequestTimeout answers | keyspaceFailed answers =>
    rw [RequestExecution.step]
    split
    · exact next answers
    · exact sparing
  | keyspaceSet result answers =>
    rw [RequestExecution.step]
    split
    next setting =>
      cases wrote : execution.write result with
      | none => exact (within_retryCurrentHost execution answers (owing setting rfl)).sparing
      | some after => exact (within_write wrote (owing setting rfl)).sparing
    next => exact sparing
  | cancel => exact ⟨sparing.used, rfl⟩
  | otherNextHost =>
    refine ⟨Nat.le_trans (Nat.add_le_add_left ?_ _) sparing.used, rfl⟩
    show execution.plan.tail.length ≤ execution.plan.length
    rw [length_tail]
    exact Nat.sub_le _ 1

/-- Whatever happens, an execution puts its request on a connection at most once for each host of the
query plan, and once more. -/
theorem writes_le_hosts (settings : ExecutionSettings) (hosts : List Host)
    (events : List ExecutionEvent) : (run settings hosts events).writes ≤ hosts.length + 1 := by
  have sparing : (run settings hosts events).Sparing hosts.length := by
    induction events using List.reverseRecOn with
    | nil => exact ⟨by simp [run, new, owed], rfl⟩
    | append_singleton events event sparing =>
      rw [run, foldl_append]
      exact sparing.step event
  have used := sparing.used
  omega

end RequestExecution

end DseDriver.Request
