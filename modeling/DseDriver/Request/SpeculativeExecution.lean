import DseDriver.Request.RequestExecution

/-!
# Speculative executions

A `RequestHandler` and its executions, which share a query plan and a future.  Starting an execution
of an idempotent request adds the next one, which waits for a timer or starts at once, inside the
first.  What happens to an execution on its way through a pool and a connection ends in a call of its
methods; a callback that has been cancelled does nothing more.
-/

namespace DseDriver.Request

open List

/-! ## The handler -/

/-- `ConstantSpeculativeExecutionPlan`.  Without speculative executions the count is zero. -/
structure SpeculativeExecutionPlan where
  constantDelayMs : Int
  count : Int
  deriving DecidableEq, Repr

/-- `ConstantSpeculativeExecutionPlan::next_execution`. -/
def SpeculativeExecutionPlan.nextExecution (plan : SpeculativeExecutionPlan) :
    Int × SpeculativeExecutionPlan :=
  let count := plan.count - 1
  (if count ≥ 0 then plan.constantDelayMs else -1, { plan with count })

theorem SpeculativeExecutionPlan.nextExecution_lt {plan : SpeculativeExecutionPlan}
    (more : 0 ≤ plan.nextExecution.1) : plan.nextExecution.2.count.toNat < plan.count.toNat := by
  unfold nextExecution at more ⊢
  dsimp only at more ⊢
  split at more <;> omega

/-- An error that a callback is given; only the worker finds that there are no more hosts. -/
abbrev CallbackError := { code : CassError // code ≠ .libNoHostsAvailable }

/-- What the worker meets at a host: no pool that is ready or no free stream; a pool that takes the
execution, onto a connection or among its pending requests; a connection that can not encode the
request. -/
inductive HostAnswer where
  | unavailable
  | taken
  | notEncoded (code : CallbackError)

/-- What the handler sees of an answer, with the code of a request that can not be encoded. -/
def PoolAnswer.hostAnswer (code : CallbackError) : PoolAnswer → HostAnswer
  | .notReady | .borrowed (.request .noStream) | .borrowed (.setKeyspace false) => .unavailable
  | .busy | .borrowed (.request .written) | .borrowed (.setKeyspace true) => .taken
  | .borrowed (.request .notEncoded) => .notEncoded code

namespace Speculation

variable {Host : Type*}

/-- Where an execution is: its timer runs; with the worker, in a pool or on a connection; at its end
on a host; at its end as the worker has reported that there is none. -/
inductive Place (Host : Type*) where
  | scheduled
  | running (currentHost : Option Host)
  | finished (currentHost : Host)
  | ranOut

/-- `current_host_`, which `next_host` sets to what the plan gives. -/
def Place.currentHost : Place Host → Option Host
  | scheduled | ranOut => none
  | running currentHost => currentHost
  | finished currentHost => some currentHost

def Place.hasRunOut : Place Host → Bool
  | ranOut => true
  | _ => false

/-- `RequestExecution`, as its handler sees it. -/
structure Execution (Host : Type*) where
  place : Place Host
  isCancelled : Bool
  numRetries : Nat

/-- The execution is out of hosts: it has been started, and it has no current host. -/
def Execution.isOut (execution : Execution Host) : Bool :=
  match execution.place with
  | .scheduled => false
  | place => place.currentHost.isNone

/-- What a future is completed with. -/
inductive Outcome where
  | response
  | error (code : CassError)
  deriving DecidableEq, Repr

/-- `RequestHandler`.  The last three fields count what happens to the request: how its future was
completed, each time with the executions added so far, how often it was stopped, and how often the
worker was told. -/
structure RequestHandler (Host : Type*) where
  queryPlan : List Host
  executionPlan : SpeculativeExecutionPlan
  future : Option Outcome
  hasIOWorker : Bool
  hasTimer : Bool
  runningExecutions : Int
  requestExecutions : List (Execution Host)
  completions : List (Outcome × List (Execution Host))
  stops : Nat
  requestsFinished : Nat

/-- `RequestExecution::cancel`. -/
def Execution.cancel (execution : Execution Host) : Execution Host :=
  { execution with isCancelled := true }

namespace RequestHandler

variable (handler : RequestHandler Host)

/-- `RequestHandler()`, with the plans that the session has made for it. -/
def new (queryPlan : List Host) (executionPlan : SpeculativeExecutionPlan) :
    RequestHandler Host where
  queryPlan
  executionPlan
  future := none
  hasIOWorker := false
  hasTimer := false
  runningExecutions := 0
  requestExecutions := []
  completions := []
  stops := 0
  requestsFinished := 0

/-- `RequestHandler::start_request`. -/
def startRequest (hasTimeout : Bool) : RequestHandler Host :=
  { handler with hasIOWorker := true, hasTimer := hasTimeout }

/-- `RequestHandler::add_execution`. -/
def addExecution (currentHost : Option Host) : RequestHandler Host :=
  { handler with
    runningExecutions := handler.runningExecutions + 1
    requestExecutions := handler.requestExecutions ++
      [{ place := .running currentHost, isCancelled := false, numRetries := 0 }] }

/-- `RequestHandler::stop_request`. -/
def stopRequest : RequestHandler Host :=
  { handler with
    hasTimer := false
    requestExecutions := handler.requestExecutions.map Execution.cancel
    stops := handler.stops + 1
    requestsFinished := handler.requestsFinished + handler.hasIOWorker.toNat }

/-- The methods of the handler that set the future, and stop the request if it was not set. -/
def complete (outcome : Outcome) : RequestHandler Host :=
  match handler.future with
  | some _ => handler
  | none =>
    { handler with
      future := some outcome
      completions := handler.completions ++ [(outcome, handler.requestExecutions)] }.stopRequest

/-- `RequestHandler::set_error`, with the host of the execution. -/
def setError (code : CassError) : RequestHandler Host :=
  if code = .libNoHostsAvailable then
    let handler := { handler with runningExecutions := handler.runningExecutions - 1 }
    if handler.runningExecutions > 0 then handler else handler.complete (.error code)
  else
    handler.complete (.error code)

/-! ## Executions -/

def modify (k : Nat) (change : Execution Host → Execution Host) : RequestHandler Host :=
  { handler with requestExecutions := handler.requestExecutions.modify k change }

def setPlace (k : Nat) (place : Place Host) : RequestHandler Host :=
  handler.modify k fun execution => { execution with place }

/-- `RequestExecution::next_host`. -/
def nextHost (k : Nat) : RequestHandler Host :=
  { handler with queryPlan := handler.queryPlan.tail }.setPlace k
    (.running handler.queryPlan.head?)

def isCancelled (k : Nat) : Bool :=
  (handler.requestExecutions[k]?).any Execution.isCancelled

/-- The end of `IOWorker::retry`. -/
def runOut (k : Nat) : RequestHandler Host :=
  (handler.setPlace k .ranOut).setError .libNoHostsAvailable

/-- The body of the loop of `IOWorker::retry`; `none` if the next host is tried. -/
def tryHost (k : Nat) (host : Host) : HostAnswer → Option (RequestHandler Host)
  | .unavailable => none
  | .taken => some (handler.setPlace k (.running host))
  | .notEncoded code =>
    let finished := handler.setPlace k (.finished host)
    some (if handler.isCancelled k then finished else finished.setError code)

/-- The loop of `IOWorker::retry`, with the current host. -/
def retryFrom (handler : RequestHandler Host) (k : Nat) (answers : Nat → HostAnswer) :
    Option Host → List Host → RequestHandler Host
  | none, queryPlan => ({ handler with queryPlan }.setPlace k (.running none)).runOut k
  | some host, [] =>
    ({ handler with queryPlan := [] }.tryHost k host (answers 0)).getD
      (({ handler with queryPlan := [] }.setPlace k (.running none)).runOut k)
  | some host, next :: plan =>
    ({ handler with queryPlan := next :: plan }.tryHost k host (answers 0)).getD
      (handler.retryFrom k (fun i => answers (i + 1)) (some next) plan)

/-- `IOWorker::retry`. -/
def retry (k : Nat) (answers : Nat → HostAnswer) : RequestHandler Host :=
  handler.retryFrom k answers (handler.requestExecutions[k]?.bind (·.place.currentHost))
    handler.queryPlan

/-- The handler after its plan was asked for the next execution. -/
def advance : RequestHandler Host :=
  { handler with executionPlan := handler.executionPlan.nextExecution.2 }

/-- `RequestExecution::execute`, with `RequestHandler::schedule_next_execution` and
`RequestExecution::schedule_next` for the execution that it adds.  The answers are those for each
execution and each host that it tries. -/
def execute (isIdempotent : Bool) (answers : Nat → Nat → HostAnswer)
    (handler : RequestHandler Host) (k : Nat) : RequestHandler Host :=
  let timeout := handler.executionPlan.nextExecution.1
  let next := handler.requestExecutions.length
  let scheduled :=
    if isIdempotent then
      if _ : 0 ≤ timeout then
        if 0 < timeout then
          -- Its timer is started.
          (handler.advance.addExecution none).setPlace next .scheduled
        else
          execute isIdempotent answers ((handler.advance.addExecution none).nextHost next) next
      else
        handler.advance
    else
      handler
  scheduled.retry k (answers k)
termination_by handler.executionPlan.count.toNat
decreasing_by
  exact SpeculativeExecutionPlan.nextExecution_lt ‹_›

/-- `RequestExecution::retry_current_host`. -/
def retryCurrentHost (k : Nat) (answers : Nat → HostAnswer) : RequestHandler Host :=
  if handler.isCancelled k then handler else handler.retry k answers

/-- `RequestExecution::retry_next_host`. -/
def retryNextHost (k : Nat) (answers : Nat → HostAnswer) : RequestHandler Host :=
  (handler.nextHost k).retryCurrentHost k answers

/-- `num_retries_++`. -/
def countRetry (k : Nat) : RequestHandler Host :=
  handler.modify k fun execution => { execution with numRetries := execution.numRetries + 1 }

/-- `RequestExecution::on_set`, for a server's answer. -/
def onSet (settings : ExecutionSettings) (handler : RequestHandler Host) (k : Nat)
    (host : Host) (numRetries : Nat) (answer : ServerAnswer) (code : CallbackError)
    (answers : Nat → HostAnswer) : RequestHandler Host :=
  let finished := handler.setPlace k (.finished host)
  match answer with
  | .result => finished.complete .response
  | .isBootstrapping => handler.retryNextHost k answers
  | answer =>
    match RequestExecution.decision settings numRetries answer with
    | .returnError => finished.complete (.error code)
    | .ignore => finished.complete .response
    | .retry _ retryCurrentHost =>
      if retryCurrentHost then
        (handler.retryCurrentHost k answers).countRetry k
      else
        (handler.retryNextHost k answers).countRetry k

/-- `RequestExecution::on_error`. -/
def onError (k : Nat) (host : Host) (code : CallbackError)
    (answers : Nat → HostAnswer) : RequestHandler Host :=
  if code.val = .libWriteError ∨ code.val = .libUnableToSetKeyspace then
    handler.retryNextHost k answers
  else
    (handler.setPlace k (.finished host)).setError code

/-! ## One execution among the others -/

section Shows

variable {handler} {after : RequestHandler Host} {k : Nat} {execution : RequestExecution Host}

/-- The host of an execution and its retries. -/
def seen (handler : RequestHandler Host) (k : Nat) : Option (Option Host × Nat) :=
  handler.requestExecutions[k]?.map fun execution =>
    (execution.place.currentHost, execution.numRetries)

/-- The handler has an execution where it is by its own account, and the same hosts before it. -/
def Shows (handler : RequestHandler Host) (k : Nat) (execution : RequestExecution Host) : Prop :=
  handler.queryPlan = execution.plan ∧
    handler.seen k = some (execution.currentHost, execution.numRetries)

theorem isCancelled_nextHost : (handler.nextHost k).isCancelled k = handler.isCancelled k := by
  simp only [isCancelled, nextHost, setPlace, modify, getElem?_modify_eq]
  cases handler.requestExecutions[k]? <;> rfl

variable (same : handler.Shows k execution)
include same

theorem Shows.moveTo (place : Place Host) (queryPlan : List Host) :
    ({ handler with queryPlan }.setPlace k place).Shows k
      (execution.moveTo place.currentHost queryPlan) := by
  refine ⟨rfl, ?_⟩
  obtain ⟨shown, found, rest⟩ := Option.map_eq_some_iff.mp same.2
  simp [seen, setPlace, modify, found, RequestExecution.moveTo, (Prod.mk.inj rest).2]

theorem Shows.complete (outcome : Outcome) :
    (handler.complete outcome).Shows k execution := by
  unfold RequestHandler.complete
  split
  · exact same
  · simp only [Shows, seen, stopRequest, getElem?_map, Option.map_map]
    exact same

theorem Shows.setError (code : CassError) :
    (handler.setError code).Shows k execution := by
  have counted : { handler with runningExecutions := handler.runningExecutions - 1 }.Shows k
      execution := same
  unfold RequestHandler.setError
  dsimp only
  split
  · split
    · exact same
    · exact counted.complete _
  · exact same.complete _

theorem Shows.tryHost (free : execution.isCancelled = false) (host : Host)
    (queryPlan : List Host) (answer : PoolAnswer) (code : CallbackError)
    {next : RequestExecution Host} (otherwise : after.Shows k next) :
    (({ handler with queryPlan }.tryHost k host (answer.hostAnswer code)).getD after).Shows k
      (((execution.moveTo host queryPlan).tryHost answer).getD next) := by
  have goes := same.moveTo (.running host) queryPlan
  have ends := same.moveTo (.finished host) queryPlan
  have active : ¬ (execution.moveTo host queryPlan).isCancelled := by
    rw [RequestExecution.moveTo, free]
    exact Bool.false_ne_true
  unfold RequestExecution.tryHost RequestExecution.poolWrite RequestExecution.write
  rcases answer with _ | _ | ⟨(_ | _ | _) | (_ | _)⟩ <;> simp only [if_neg active]
  any_goals assumption
  dsimp only [PoolAnswer.hostAnswer, RequestHandler.tryHost, Option.getD_some]
  split
  · exact ends
  · exact ends.setError code

theorem Shows.retryFrom (free : execution.isCancelled = false) (code : CallbackError)
    (answers : Nat → PoolAnswer) (host : Option Host) (plan : List Host) :
    (handler.retryFrom k (fun i => (answers i).hostAnswer code) host plan).Shows k
      (execution.retryFrom answers host plan) := by
  have out (queryPlan : List Host) :
      (({ handler with queryPlan }.setPlace k (.running none)).runOut k).Shows k
        (execution.moveTo none queryPlan).finish :=
    ((same.moveTo (.running none) queryPlan).moveTo .ranOut queryPlan).setError _
  induction plan generalizing host answers with
  | nil =>
    cases host with
    | none => exact out []
    | some host => exact same.tryHost free host [] _ code (out [])
  | cons next plan ih =>
    cases host with
    | none => exact out (next :: plan)
    | some host => exact same.tryHost free host (next :: plan) _ code (ih _ (some next))

theorem Shows.countRetry : (handler.countRetry k).Shows k
    { execution with numRetries := execution.numRetries + 1 } := by
  refine ⟨same.1, ?_⟩
  obtain ⟨shown, found, rest⟩ := Option.map_eq_some_iff.mp same.2
  obtain ⟨host, retries⟩ := Prod.mk.inj rest
  simp [seen, RequestHandler.countRetry, modify, found, host, retries]

variable (flag : handler.isCancelled k = execution.isCancelled) (code : CallbackError)
  (answers : Nat → PoolAnswer)
include flag

/-- From host to host, an execution is at the same place for its handler and by its own account. -/
theorem Shows.retryCurrentHost :
    (handler.retryCurrentHost k fun i => (answers i).hostAnswer code).Shows k
      (execution.retryCurrentHost answers) := by
  obtain ⟨shown, found, rest⟩ := Option.map_eq_some_iff.mp same.2
  unfold RequestHandler.retryCurrentHost RequestExecution.retryCurrentHost RequestHandler.retry
  rw [flag, found, same.1, Option.bind_some, (Prod.mk.inj rest).1]
  split
  · exact same
  next free => exact same.retryFrom (Bool.eq_false_iff.mpr free) code answers _ _

theorem Shows.retryNextHost :
    (handler.retryNextHost k fun i => (answers i).hostAnswer code).Shows k
      (execution.retryNextHost answers) := by
  have moved : (handler.nextHost k).Shows k execution.nextHost := by
    rw [RequestExecution.nextHost, ← same.1]
    exact same.moveTo (.running handler.queryPlan.head?) handler.queryPlan.tail
  exact moved.retryCurrentHost (isCancelled_nextHost.trans flag) code answers

/-- A response leads an execution to the same host for its handler and by its own account. -/
theorem Shows.onSet (settings : ExecutionSettings) {host : Host}
    (on : execution.currentHost = some host) (answer : ServerAnswer) :
    (handler.onSet settings k host execution.numRetries answer code
      fun i => (answers i).hostAnswer code).Shows k (execution.onSet settings answer answers) := by
  have ends (outcome : Outcome) :
      ((handler.setPlace k (.finished host)).complete outcome).Shows k execution.finish := by
    have shown := (same.moveTo (.finished host) handler.queryPlan).2
    rw [Place.currentHost, ← on] at shown
    have finished : (handler.setPlace k (.finished host)).Shows k execution.finish :=
      ⟨same.1, shown⟩
    exact finished.complete outcome
  -- The consistency of the next try is nothing that the handler has.
  have again (consistency : Consistency) :
      handler.Shows k { execution with consistency } := same
  cases answer with
  | result => exact ends _
  | isBootstrapping => exact same.retryNextHost flag code answers
  | _ =>
    dsimp only [RequestHandler.onSet, RequestExecution.onSet]
    generalize RequestExecution.decision settings execution.numRetries _ = decision
    cases decision with
    | retry consistency retryCurrentHost =>
      cases retryCurrentHost with
      | true => exact ((again consistency).retryCurrentHost flag code answers).countRetry
      | false => exact ((again consistency).retryNextHost flag code answers).countRetry
    | _ => exact ends _

end Shows

end RequestHandler

/-! ## Runs -/

/-- What happens to a request that a worker has started. -/
inductive HandlerEvent where
  /-- The timer of an execution. -/
  | onExecute (k : Nat) (answers : Nat → Nat → HostAnswer)
  /-- A response, with the code of its error. -/
  | onSet (k : Nat) (answer : ServerAnswer) (code : CallbackError) (answers : Nat → HostAnswer)
  | onError (k : Nat) (code : CallbackError) (answers : Nat → HostAnswer)
  /-- A connection closes, a pending request is passed on, or a statement has been prepared or not. -/
  | onRetry (k : Nat) (useNextHost : Bool) (answers : Nat → HostAnswer)
  /-- The timer of the request. -/
  | onTimeout

namespace RequestHandler

/-- The timer of an execution, which `cancel` stops. -/
def onScheduled (handler : RequestHandler Host) (k : Nat)
    (handle : RequestHandler Host) : RequestHandler Host :=
  match handler.requestExecutions[k]? with
  | some ⟨.scheduled, false, _⟩ => handle
  | _ => handler

/-- A callback of an execution on a host, with its retries; it does nothing to one that has been
cancelled. -/
def onRunning (handler : RequestHandler Host) (k : Nat)
    (handle : Host → Nat → RequestHandler Host) : RequestHandler Host :=
  match handler.requestExecutions[k]? with
  | some ⟨.running (some host), false, numRetries⟩ => handle host numRetries
  | _ => handler

/-- One event of a request. -/
def step (settings : ExecutionSettings) (handler : RequestHandler Host) :
    HandlerEvent → RequestHandler Host
  | .onExecute k answers =>
    handler.onScheduled k ((handler.nextHost k).execute settings.isIdempotent answers k)
  | .onSet k answer code answers => handler.onRunning k fun host numRetries =>
    handler.onSet settings k host numRetries answer code answers
  | .onError k code answers => handler.onRunning k fun host _ =>
    handler.onError k host code answers
  | .onRetry k useNextHost answers => handler.onRunning k fun _ _ =>
    if useNextHost then
      handler.retryNextHost k answers
    else
      handler.retryCurrentHost k answers
  | .onTimeout =>
    if handler.hasTimer then
      { handler with hasTimer := false }.complete (.error .libRequestTimedOut)
    else
      handler

/-- `IOWorker::on_execute`, for a request whose session has found a host. -/
def onExecute (settings : ExecutionSettings) (host : Host) (queryPlan : List Host)
    (executionPlan : SpeculativeExecutionPlan) (hasTimeout : Bool)
    (answers : Nat → Nat → HostAnswer) : RequestHandler Host :=
  (((new queryPlan executionPlan).startRequest hasTimeout).addExecution (some host)).execute
    settings.isIdempotent answers 0

/-! ## The invariant -/

/-- The places of the executions added so far. -/
def places (handler : RequestHandler Host) : List (Place Host) :=
  handler.requestExecutions.map Execution.place

/-- The execution has not been reported to be out of hosts. -/
def Live (handler : RequestHandler Host) (k : Nat) : Prop :=
  ∃ place, handler.places[k]? = some place ∧ place.hasRunOut = false

/-- The counters: executions that have not run out, and what has been done for each completion. -/
structure Counted (handler : RequestHandler Host) : Prop where
  running : handler.runningExecutions = handler.places.countP (!·.hasRunOut)
  future : handler.completions.length = handler.future.toList.length
  stops : handler.stops = handler.completions.length
  finished : handler.requestsFinished = handler.completions.length
  ioWorker : handler.hasIOWorker = true
  noHosts : ∀ completion ∈ handler.completions, completion.1 = .error .libNoHostsAvailable →
    ∀ execution ∈ completion.2, execution.isOut = true

/-- The counters are right, and the future is set once all executions have run out. -/
structure Settled (handler : RequestHandler Host) : Prop extends Counted handler where
  complete : (∀ place ∈ handler.places, place.hasRunOut = true) → handler.future.isSome

/-- The executions before one are at the places where they were. -/
def KeepsBefore (k : Nat) (handler after : RequestHandler Host) : Prop :=
  ∀ j < k, after.places[j]? = handler.places[j]?

/-- From an execution on, all that are running have a host. -/
def HostedFrom (k : Nat) (handler : RequestHandler Host) : Prop :=
  ∀ j, k ≤ j → handler.places[j]? ≠ some (.running none)

variable {handler after : RequestHandler Host} {k : Nat}

theorem KeepsBefore.live (keeps : KeepsBefore k handler after) {j : Nat} (before : j < k)
    (live : handler.Live j) : after.Live j := by
  obtain ⟨place, found, notOut⟩ := live
  exact ⟨place, (keeps j before).trans found, notOut⟩

theorem Live.lt_places (live : handler.Live k) : k < handler.places.length := by
  obtain ⟨place, found, _⟩ := live
  exact (List.getElem?_eq_some_iff.mp found).1

theorem Live.lt (live : handler.Live k) : k < handler.requestExecutions.length := by
  have within := live.lt_places
  rwa [places, length_map] at within

/-- The same counters for a change that concerns neither places nor completions. -/
theorem Settled.congr (settled : handler.Settled) (places : after.places = handler.places)
    (running : after.runningExecutions = handler.runningExecutions)
    (future : after.future = handler.future) (completions : after.completions = handler.completions)
    (stops : after.stops = handler.stops)
    (finished : after.requestsFinished = handler.requestsFinished)
    (ioWorker : after.hasIOWorker = handler.hasIOWorker) : after.Settled where
  running := by rw [running, places, settled.running]
  future := by rw [completions, future, settled.future]
  stops := by rw [stops, completions, settled.stops]
  finished := by rw [finished, completions, settled.finished]
  ioWorker := by rw [ioWorker, settled.ioWorker]
  noHosts := by rw [completions]; exact settled.noHosts
  complete := by rw [places, future]; exact settled.complete

theorem Settled.withPlan (settled : handler.Settled) (queryPlan : List Host) :
    ({ handler with queryPlan } : RequestHandler Host).Settled :=
  settled.congr rfl rfl rfl rfl rfl rfl rfl

theorem places_setPlace (handler : RequestHandler Host) (k : Nat) (place : Place Host) :
    (handler.setPlace k place).places = handler.places.set k place := by
  apply ext_getElem?
  intro j
  simp only [places, setPlace, modify, getElem?_map, getElem?_modify, Option.map_eq_map,
    Option.map_map, getElem?_set, length_map]
  by_cases same : k = j
  · subst same
    cases found : handler.requestExecutions[k]? with
    | none =>
      have outside := List.getElem?_eq_none_iff.mp found
      simp [Nat.not_lt.mpr outside]
    | some execution =>
      obtain ⟨within, _⟩ := List.getElem?_eq_some_iff.mp found
      simp [within]
  · cases handler.requestExecutions[j]? <;> simp [same]

theorem places_countRetry (handler : RequestHandler Host) (k : Nat) :
    (handler.countRetry k).places = handler.places := by
  apply ext_getElem?
  intro j
  simp only [places, countRetry, modify, getElem?_map, getElem?_modify,
    Option.map_eq_map, Option.map_map]
  congr 1
  funext execution
  dsimp only [Function.comp_apply]
  split <;> rfl

theorem places_stopRequest (handler : RequestHandler Host) :
    handler.stopRequest.places = handler.places := by
  rw [places, stopRequest, map_map]
  rfl

theorem places_complete (handler : RequestHandler Host) (outcome : Outcome) :
    (handler.complete outcome).places = handler.places := by
  unfold complete
  split
  · rfl
  · exact places_stopRequest _

theorem places_setError (handler : RequestHandler Host) (code : CassError) :
    (handler.setError code).places = handler.places := by
  unfold setError
  dsimp only
  split
  · split
    · rfl
    · exact places_complete ..
  · exact places_complete ..

theorem Settled.countRetry (settled : handler.Settled) (k : Nat) :
    (handler.countRetry k).Settled :=
  settled.congr (places_countRetry handler k) rfl rfl rfl rfl rfl rfl

/-! ## Completing -/

/-- Only the error of missing hosts needs all executions to be out of hosts. -/
theorem Counted.complete (counted : handler.Counted) {outcome : Outcome}
    (allowed : outcome = .error .libNoHostsAvailable →
      ∀ execution ∈ handler.requestExecutions, execution.isOut = true) :
    (handler.complete outcome).Settled := by
  unfold RequestHandler.complete
  cases isSet : handler.future with
  | some _ => exact ⟨counted, fun _ => by rw [isSet]; rfl⟩
  | none =>
    have empty : handler.completions = [] := by
      have length := counted.future
      rw [isSet] at length
      exact eq_nil_of_length_eq_zero length
    have stopped := counted.stops
    have finished := counted.finished
    rw [empty] at stopped finished
    refine ⟨⟨?_, ?_, ?_, ?_, counted.ioWorker, ?_⟩, fun _ => rfl⟩
    · dsimp only
      rw [places_stopRequest]
      exact counted.running
    · simp [stopRequest, empty]
    · simp [stopRequest, empty, stopped]
    · simp [stopRequest, empty, finished, counted.ioWorker]
    · intro completion member
      have single : completion = (outcome, handler.requestExecutions) := by
        simpa [stopRequest, empty] using member
      rw [single]
      exact allowed

theorem Settled.complete_response (settled : handler.Settled) :
    (handler.complete .response).Settled :=
  settled.toCounted.complete fun impossible => nomatch impossible

theorem Settled.complete_error (settled : handler.Settled) {code : CassError}
    (other : code ≠ .libNoHostsAvailable) : (handler.complete (.error code)).Settled :=
  settled.toCounted.complete fun same => absurd (Outcome.error.inj same) other

theorem Settled.setError (settled : handler.Settled) (code : CallbackError) :
    (handler.setError code).Settled := by
  rw [RequestHandler.setError, if_neg code.property]
  exact settled.complete_error code.property

/-- How many executions have not run out, after one of them changes its place. -/
theorem Live.countP_set (live : handler.Live k) (place : Place Host) :
    (handler.places.set k place).countP (!·.hasRunOut) + 1 =
      handler.places.countP (!·.hasRunOut) + if place.hasRunOut then 0 else 1 := by
  obtain ⟨before, found, notOut⟩ := live
  obtain ⟨within, isPlace⟩ := List.getElem?_eq_some_iff.mp found
  have positive : 0 < handler.places.countP (!·.hasRunOut) :=
    List.countP_pos_iff.mpr ⟨before, List.mem_of_getElem? found, by simpa using notOut⟩
  rw [List.countP_set within, isPlace]
  generalize List.countP (fun place => !place.hasRunOut) handler.places = count at positive ⊢
  cases place.hasRunOut <;> simp [notOut] <;> omega

theorem Settled.setPlace (settled : handler.Settled) (live : handler.Live k) {place : Place Host}
    (notOut : place.hasRunOut = false) : (handler.setPlace k place).Settled := by
  have count := live.countP_set place
  rw [notOut] at count
  refine ⟨⟨?_, settled.future, settled.stops, settled.finished, settled.ioWorker,
    settled.noHosts⟩, ?_⟩
  · rw [places_setPlace, Nat.add_right_cancel count]
    exact settled.running
  · rw [places_setPlace]
    intro every
    have out := every place (mem_set live.lt_places place)
    rw [notOut] at out
    cases out

theorem Live.setPlace (live : handler.Live k) {place : Place Host}
    (notOut : place.hasRunOut = false) : (handler.setPlace k place).Live k := by
  refine ⟨place, ?_, notOut⟩
  rw [places_setPlace, getElem?_set_self live.lt_places]

/-- An execution that has not run out of hosts before runs out of them. -/
theorem Settled.runOut (settled : handler.Settled) (live : handler.Live k) :
    (handler.runOut k).Settled := by
  have count := live.countP_set .ranOut
  rw [Place.hasRunOut, if_pos rfl, Nat.add_zero, ← places_setPlace] at count
  have running : handler.runningExecutions - 1 =
      (handler.setPlace k .ranOut).places.countP (!·.hasRunOut) := by
    rw [settled.running]
    omega
  have counted : ({ handler.setPlace k .ranOut with
      runningExecutions := handler.runningExecutions - 1 } : RequestHandler Host).Counted :=
    ⟨running, settled.future, settled.stops, settled.finished, settled.ioWorker, settled.noHosts⟩
  rw [RequestHandler.runOut, RequestHandler.setError, if_pos rfl]
  dsimp only
  split
  next others =>
    refine ⟨counted, fun every => ?_⟩
    have none : (handler.setPlace k .ranOut).places.countP (!·.hasRunOut) = 0 :=
      countP_eq_zero.mpr fun place member => by simp [every place member]
    have positive : handler.runningExecutions - 1 > 0 := others
    omega
  next last =>
    refine counted.complete fun _ execution member => ?_
    have none : (handler.setPlace k .ranOut).places.countP (!·.hasRunOut) = 0 := by
      have notPositive : ¬ handler.runningExecutions - 1 > 0 := last
      omega
    have out := countP_eq_zero.mp none execution.place (mem_map_of_mem member)
    rw [Execution.isOut]
    cases place : execution.place with
    | ranOut => rfl
    | _ => simp [place, Place.hasRunOut] at out

theorem places_addExecution (handler : RequestHandler Host) (currentHost : Option Host) :
    (handler.addExecution currentHost).places = handler.places ++ [.running currentHost] := by
  rw [places, addExecution, map_append]
  rfl

theorem Settled.addExecution (settled : handler.Settled) (currentHost : Option Host) :
    (handler.addExecution currentHost).Settled := by
  refine ⟨⟨?_, settled.future, settled.stops, settled.finished, settled.ioWorker,
    settled.noHosts⟩, ?_⟩
  · have running := settled.running
    rw [places_addExecution, countP_append]
    dsimp only [RequestHandler.addExecution]
    rw [running]
    rfl
  · rw [places_addExecution]
    intro every
    cases every (.running currentHost) (mem_append_right _ mem_cons_self)

/-! ## Trying hosts -/

/-- The outcome of handling an execution: the invariant, nothing for the executions before, and hosts
for those from it on. -/
structure Handled (k : Nat) (handler after : RequestHandler Host) : Prop where
  settled : after.Settled
  keeps : KeepsBefore k handler after
  hosted : HostedFrom k after

/-- What follows a change that leaves all places. -/
theorem Handled.of_same {middle : RequestHandler Host} (handled : Handled k middle after)
    (same : middle.places = handler.places) : Handled k handler after where
  settled := handled.settled
  keeps := fun j before => by rw [handled.keeps j before, same]
  hosted := handled.hosted

/-- What follows a change of the place of the execution itself. -/
theorem Handled.of_setPlace {place : Place Host}
    (handled : Handled k (handler.setPlace k place) after) : Handled k handler after where
  settled := handled.settled
  keeps := fun j before => by
    rw [handled.keeps j before, places_setPlace, getElem?_set_ne (Nat.ne_of_gt before)]
  hosted := handled.hosted

/-- What is followed by a method that leaves all places. -/
theorem Handled.of_places {middle : RequestHandler Host} (handled : Handled k handler middle)
    (settled : after.Settled) (same : after.places = middle.places) : Handled k handler after where
  settled := settled
  keeps := fun j before => by rw [same, handled.keeps j before]
  hosted := fun j later => by rw [same]; exact handled.hosted j later

theorem HostedFrom.setPlace (rest : HostedFrom (k + 1) handler) (place : Place Host) :
    HostedFrom (k + 1) (handler.setPlace k place) := by
  intro j later
  rw [places_setPlace, getElem?_set_ne (Nat.ne_of_lt later)]
  exact rest j later

theorem Live.nextHost (live : handler.Live k) : (handler.nextHost k).Live k := by
  apply Live.setPlace _ rfl
  exact live

theorem Settled.nextHost (settled : handler.Settled) (live : handler.Live k) :
    (handler.nextHost k).Settled := by
  apply (settled.withPlan handler.queryPlan.tail).setPlace _ rfl
  exact live

theorem HostedFrom.nextHost (rest : HostedFrom (k + 1) handler) :
    HostedFrom (k + 1) (handler.nextHost k) := by
  apply HostedFrom.setPlace
  exact rest

theorem Handled.of_nextHost (handled : Handled k (handler.nextHost k) after) :
    Handled k handler after :=
  (Handled.of_setPlace handled).of_same rfl

theorem HostedFrom.extend (rest : HostedFrom (k + 1) handler)
    (hosted : handler.places[k]? ≠ some (.running none)) : HostedFrom k handler := by
  intro j later
  rcases Nat.eq_or_lt_of_le later with rfl | after
  · exact hosted
  · exact rest j after

section Handling

variable (settled : handler.Settled) (live : handler.Live k) (rest : HostedFrom (k + 1) handler)
include settled live rest

theorem handled_setPlace {place : Place Host} (notOut : place.hasRunOut = false)
    (hosted : place ≠ .running none) : Handled k handler (handler.setPlace k place) := by
  refine Handled.of_setPlace ⟨settled.setPlace live notOut, fun _ _ => rfl, ?_⟩
  apply (rest.setPlace place).extend
  rw [places_setPlace, getElem?_set_self live.lt_places]
  exact fun same => hosted (Option.some.inj same)

theorem handled_tryHost {host : Host} {answer : HostAnswer}
    (result : handler.tryHost k host answer = some after) : Handled k handler after := by
  cases answer with
  | unavailable => cases result
  | taken =>
    cases result
    exact handled_setPlace settled live rest rfl (nomatch ·)
  | notEncoded code =>
    cases result
    have finished : Handled k handler (handler.setPlace k (.finished host)) :=
      handled_setPlace settled live rest rfl (nomatch ·)
    split
    · exact finished
    · exact finished.of_places (finished.settled.setError code) (places_setError ..)

theorem handled_runOut :
    Handled k handler ((handler.setPlace k (.running none)).runOut k) := by
  have lost := live.setPlace (show (Place.running none : Place Host).hasRunOut = false from rfl)
  have out := (settled.setPlace live rfl).runOut lost
  have places : ((handler.setPlace k (.running none)).runOut k).places =
      ((handler.setPlace k (.running none)).setPlace k .ranOut).places := places_setError ..
  refine Handled.of_setPlace (Handled.of_setPlace ⟨out, fun _ _ => by rw [places], ?_⟩)
  apply HostedFrom.extend
  · intro j later
    rw [places]
    exact (rest.setPlace _).setPlace _ j later
  · rw [places, places_setPlace, getElem?_set_self lost.lt_places]
    exact (nomatch ·)

theorem handled_retryFrom (answers : Nat → HostAnswer) (currentHost : Option Host)
    (plan : List Host) : Handled k handler (handler.retryFrom k answers currentHost plan) := by
  have out (queryPlan : List Host) : Handled k handler
      (({ handler with queryPlan }.setPlace k (.running none)).runOut k) :=
    (handled_runOut (settled.withPlan queryPlan) live rest).of_same rfl
  have tried (host : Host) (queryPlan : List Host) (answer : HostAnswer)
      (next : RequestHandler Host) (otherwise : Handled k handler next) :
      Handled k handler (({ handler with queryPlan }.tryHost k host answer).getD next) := by
    cases result : { handler with queryPlan }.tryHost k host answer with
    | none => exact otherwise
    | some after =>
      exact (handled_tryHost (settled.withPlan queryPlan) live rest result).of_same rfl
  induction plan generalizing currentHost answers with
  | nil =>
    cases currentHost with
    | none => exact out []
    | some host => exact tried host [] _ _ (out [])
  | cons next plan ih =>
    cases currentHost with
    | none => exact out (next :: plan)
    | some host => exact tried host (next :: plan) _ _ (ih _ (some next))

theorem handled_retry (answers : Nat → HostAnswer) :
    Handled k handler (handler.retry k answers) :=
  handled_retryFrom settled live rest answers _ _

end Handling

/-- Whatever was scheduled before, the execution itself is retried. -/
theorem handled_scheduled {scheduled : RequestHandler Host} (live : handler.Live k)
    (handled : Handled (k + 1) handler scheduled) (answers : Nat → HostAnswer) :
    Handled k handler (scheduled.retry k answers) := by
  obtain ⟨settled, keeps, hosted⟩ := handled
  have retried := handled_retry settled (keeps.live (Nat.lt_succ_self k) live) hosted answers
  refine ⟨retried.settled, fun j before => ?_, retried.hosted⟩
  exact (retried.keeps j before).trans (keeps j (Nat.lt_succ_of_lt before))

theorem live_addExecution (currentHost : Option Host) :
    (handler.addExecution currentHost).Live handler.requestExecutions.length := by
  refine ⟨.running currentHost, ?_, rfl⟩
  simp [places, addExecution]

/-- Nothing is behind an execution that has just been added. -/
theorem hostedFrom_addExecution (handler : RequestHandler Host) (currentHost : Option Host) :
    HostedFrom (handler.requestExecutions.length + 1) (handler.addExecution currentHost) := by
  intro j later found
  obtain ⟨within, _⟩ := List.getElem?_eq_some_iff.mp found
  rw [places_addExecution, length_append, places, length_map] at within
  exact absurd within (Nat.not_lt.mpr later)

/-- What is done for an execution that was added behind another one. -/
theorem Handled.of_addExecution
    (handled : Handled handler.requestExecutions.length (handler.addExecution none) after)
    (live : handler.Live k) (rest : HostedFrom (k + 1) handler) : Handled (k + 1) handler after := by
  have keeps (j : Nat) (before : j < handler.requestExecutions.length) :
      after.places[j]? = handler.places[j]? := by
    rw [handled.keeps j before, places_addExecution, getElem?_append_left]
    rwa [places, length_map]
  refine ⟨handled.settled, fun j before => keeps j (Nat.lt_of_lt_of_le before live.lt), ?_⟩
  intro j later
  rcases Nat.lt_or_ge j handler.requestExecutions.length with before | added
  · rw [keeps j before]
    exact rest j later
  · exact handled.hosted j added

/-- An execution is executed, with those that it starts. -/
theorem handled_execute (isIdempotent : Bool) (answers : Nat → Nat → HostAnswer)
    (handler : RequestHandler Host) (k : Nat) (settled : handler.Settled) (live : handler.Live k)
    (rest : HostedFrom (k + 1) handler) :
    Handled k handler (handler.execute isIdempotent answers k) := by
  have advanced : handler.advance.Settled := settled.congr rfl rfl rfl rfl rfl rfl rfl
  have added := advanced.addExecution none
  have newest : (handler.advance.addExecution none).Live handler.requestExecutions.length :=
    live_addExecution none
  have last : HostedFrom (handler.requestExecutions.length + 1)
      (handler.advance.addExecution none) := hostedFrom_addExecution handler.advance none
  rw [execute]
  refine handled_scheduled live ?_ (answers k)
  split
  · split
    next more =>
      have live : handler.advance.Live k := live
      refine Handled.of_same (Handled.of_addExecution ?_ live rest) rfl
      split
      · exact handled_setPlace added newest last rfl (nomatch ·)
      · -- the next execution starts inside this one
        apply Handled.of_nextHost
        exact handled_execute isIdempotent answers _ _ (added.nextHost newest) newest.nextHost
          last.nextHost
    · exact ⟨advanced, fun _ _ => rfl, rest⟩
  · exact ⟨settled, fun _ _ => rfl, rest⟩
termination_by handler.executionPlan.count.toNat
decreasing_by
  exact SpeculativeExecutionPlan.nextExecution_lt ‹_›

/-! ## Whole runs -/

/-- The invariant between the calls. -/
structure Sound (handler : RequestHandler Host) : Prop extends Settled handler where
  hosted : HostedFrom 0 handler

theorem Sound.rest (sound : handler.Sound) (k : Nat) : HostedFrom k handler :=
  fun j _ => sound.hosted j (Nat.zero_le j)

theorem Handled.sound (handled : Handled k handler after) (sound : handler.Sound) :
    after.Sound := by
  refine ⟨handled.settled, fun j _ => ?_⟩
  rcases Nat.lt_or_ge j k with before | later
  · rw [handled.keeps j before]
    exact sound.hosted j (Nat.zero_le j)
  · exact handled.hosted j later

section Steps

variable (sound : handler.Sound)
include sound

theorem handled_retryNextHost (live : handler.Live k)
    (notCancelled : handler.isCancelled k = false) (answers : Nat → HostAnswer) :
    Handled k handler (handler.retryNextHost k answers) := by
  have same : (handler.nextHost k).isCancelled k = handler.isCancelled k := by
    simp only [isCancelled, nextHost, setPlace, modify, getElem?_modify]
    cases handler.requestExecutions[k]? <;> simp
  rw [retryNextHost, retryCurrentHost, same, notCancelled]
  apply Handled.of_nextHost
  exact handled_retry (sound.nextHost live) live.nextHost (sound.rest (k + 1)).nextHost answers

theorem handled_retryCurrentHost (live : handler.Live k)
    (notCancelled : handler.isCancelled k = false) (answers : Nat → HostAnswer) :
    Handled k handler (handler.retryCurrentHost k answers) := by
  rw [retryCurrentHost, notCancelled]
  exact handled_retry sound.toSettled live (sound.rest (k + 1)) answers

theorem handled_finished (live : handler.Live k) (host : Host) :
    Handled k handler (handler.setPlace k (.finished host)) :=
  handled_setPlace sound.toSettled live (sound.rest (k + 1)) rfl (nomatch ·)

theorem handled_onSet (live : handler.Live k)
    (notCancelled : handler.isCancelled k = false) (settings : ExecutionSettings) (host : Host)
    (numRetries : Nat) (answer : ServerAnswer) (code : CallbackError)
    (answers : Nat → HostAnswer) :
    Handled k handler (handler.onSet settings k host numRetries answer code answers) := by
  have finished := handled_finished sound live host
  have response := finished.of_places finished.settled.complete_response (places_complete ..)
  have current := handled_retryCurrentHost sound live notCancelled answers
  have next := handled_retryNextHost sound live notCancelled answers
  unfold onSet
  dsimp only
  split
  · exact response
  · exact next
  · split
    · exact finished.of_places (finished.settled.complete_error code.property) (places_complete ..)
    · exact response
    · split
      · exact current.of_places (current.settled.countRetry k) (places_countRetry ..)
      · exact next.of_places (next.settled.countRetry k) (places_countRetry ..)

theorem handled_onError (live : handler.Live k)
    (notCancelled : handler.isCancelled k = false) (host : Host) (code : CallbackError)
    (answers : Nat → HostAnswer) : Handled k handler (handler.onError k host code answers) := by
  have finished := handled_finished sound live host
  unfold onError
  split
  · exact handled_retryNextHost sound live notCancelled answers
  · exact finished.of_places (finished.settled.setError code) (places_setError ..)

/-- A callback finds an execution that has not run out and has not been cancelled. -/
theorem Sound.onRunning {handle : Host → Nat → RequestHandler Host}
    (handles : handler.Live k → handler.isCancelled k = false →
      ∀ host numRetries, Handled k handler (handle host numRetries)) :
    (handler.onRunning k handle).Sound := by
  unfold RequestHandler.onRunning
  split
  next host numRetries found =>
    have live : handler.Live k := by
      refine ⟨.running (some host), ?_, rfl⟩
      rw [places, getElem?_map, found]
      rfl
    have notCancelled : handler.isCancelled k = false := by
      rw [isCancelled, found]
      rfl
    exact (handles live notCancelled host numRetries).sound sound
  · exact sound

theorem Sound.step (settings : ExecutionSettings)
    (event : HandlerEvent) : (handler.step settings event).Sound := by
  cases event with
  | onExecute k answers =>
    rw [RequestHandler.step, onScheduled]
    split
    next found =>
      have live : handler.Live k := by
        refine ⟨.scheduled, ?_, rfl⟩
        rw [places, getElem?_map, found]
        rfl
      have handled := handled_execute settings.isIdempotent answers _ k (sound.nextHost live)
        live.nextHost (sound.rest (k + 1)).nextHost
      exact handled.of_nextHost.sound sound
    · exact sound
  | onSet k answer code answers =>
    apply sound.onRunning
    intro live notCancelled host numRetries
    exact handled_onSet sound live notCancelled ..
  | onError k code answers =>
    apply sound.onRunning
    intro live notCancelled host _
    exact handled_onError sound live notCancelled ..
  | onRetry k useNextHost answers =>
    apply sound.onRunning
    intro live notCancelled _ _
    split
    · exact handled_retryNextHost sound live notCancelled answers
    · exact handled_retryCurrentHost sound live notCancelled answers
  | onTimeout =>
    have stopped : ({ handler with hasTimer := false } : RequestHandler Host).Settled :=
      sound.congr rfl rfl rfl rfl rfl rfl rfl
    rw [RequestHandler.step]
    split
    · have other : CassError.libRequestTimedOut ≠ .libNoHostsAvailable := by decide
      refine ⟨stopped.complete_error other, fun j later => ?_⟩
      rw [places_complete]
      exact sound.hosted j later
    · exact sound

end Steps

theorem sound_onExecute (settings : ExecutionSettings) (host : Host) (queryPlan : List Host)
    (executionPlan : SpeculativeExecutionPlan) (hasTimeout : Bool)
    (answers : Nat → Nat → HostAnswer) :
    (onExecute settings host queryPlan executionPlan hasTimeout answers).Sound := by
  have first : (((new queryPlan executionPlan).startRequest hasTimeout).addExecution
      (some host)).Settled := by
    refine ⟨⟨rfl, rfl, rfl, rfl, rfl, ?_⟩, ?_⟩
    · intro completion none
      cases none
    · intro every
      cases every (.running (some host)) mem_cons_self
  have handled := handled_execute settings.isIdempotent answers _ 0 first
    (live_addExecution (some host))
    (hostedFrom_addExecution ((new queryPlan executionPlan).startRequest hasTimeout) (some host))
  exact ⟨handled.settled, handled.hosted⟩

theorem sound_run (settings : ExecutionSettings) (host : Host) (queryPlan : List Host)
    (executionPlan : SpeculativeExecutionPlan) (hasTimeout : Bool)
    (answers : Nat → Nat → HostAnswer) (events : List HandlerEvent) :
    (events.foldl (step settings)
      (onExecute settings host queryPlan executionPlan hasTimeout answers)).Sound := by
  induction events using List.reverseRecOn with
  | nil => exact sound_onExecute ..
  | append_singleton events event ih =>
    rw [foldl_append]
    exact ih.step settings event

/-- Between the calls the executions that are out of hosts are those that were reported. -/
theorem Sound.hasRunOut_iff (sound : handler.Sound) {execution : Execution Host}
    (added : execution ∈ handler.requestExecutions) :
    execution.place.hasRunOut = execution.isOut := by
  obtain ⟨j, found⟩ := mem_iff_getElem?.mp added
  have hosted := sound.hosted j (Nat.zero_le j)
  rw [places, getElem?_map, found] at hosted
  rw [Execution.isOut]
  cases place : execution.place with
  | running currentHost =>
    cases currentHost with
    | none => exact absurd (congrArg some place) hosted
    | some host => rfl
  | _ => rfl

/-- A request is completed at most once; the request is stopped and the worker told exactly as often;
it is completed for want of hosts only when all executions added so far are out of hosts, and it has
been completed when they are. -/
structure CompletesOnce (handler : RequestHandler Host) : Prop where
  once : handler.completions.length ≤ 1
  stopped : handler.stops = handler.completions.length
  finished : handler.requestsFinished = handler.completions.length
  noHosts : ∀ completion ∈ handler.completions, completion.1 = .error .libNoHostsAvailable →
    ∀ execution ∈ completion.2, execution.isOut = true
  ranOut : (∀ execution ∈ handler.requestExecutions, execution.isOut = true) →
    handler.completions.length = 1

/-- This holds after every event of a request that a worker has started. -/
theorem completesOnce_run (settings : ExecutionSettings) (host : Host) (queryPlan : List Host)
    (executionPlan : SpeculativeExecutionPlan) (hasTimeout : Bool)
    (answers : Nat → Nat → HostAnswer) (events : List HandlerEvent) :
    (events.foldl (step settings)
      (onExecute settings host queryPlan executionPlan hasTimeout answers)).CompletesOnce := by
  have sound := sound_run settings host queryPlan executionPlan hasTimeout answers events
  generalize events.foldl (step settings) _ = handler at sound
  refine ⟨?_, sound.stops, sound.finished, sound.noHosts, ?_⟩
  · rw [sound.future]
    cases handler.future <;> simp
  · intro every
    obtain ⟨outcome, isSet⟩ := Option.isSome_iff_exists.mp (sound.complete fun place member => by
      obtain ⟨execution, added, rfl⟩ := mem_map.mp member
      rw [sound.hasRunOut_iff added]
      exact every execution added)
    rw [sound.future, isSet]
    rfl

end RequestHandler

end Speculation

end DseDriver.Request
