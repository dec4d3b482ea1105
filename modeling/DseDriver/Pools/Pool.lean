import Mathlib.Data.List.Basic
import Mathlib.Logic.Function.Iterate
import Mathlib.Tactic.SplitIfs

/-!
# Pools with their connections

A `Pool` with the connections as the objects they are: each has a state of its own, its requests
and streams, and tells its pool when it becomes available or unavailable.  The pool keeps a count of
the available ones and tells the `IOWorker` about its address, where the address is looked up by
the threads that send requests.  Assertions are not compiled in.
-/

namespace DseDriver.Pools

open List

/-! ## Connections -/

/-- `Connection::ConnectionError`. -/
inductive ConnectionError where
  | ok
  | generic
  | timeout
  | invalidProtocol
  | auth
  | sslEncrypt
  | sslDecrypt
  | sslHandshake
  | sslVerify
  | keyspace
  deriving DecidableEq, Repr

/-- The errors of `Pool::is_critical_failure`. -/
def ConnectionError.isCritical : ConnectionError → Bool
  | invalidProtocol | auth | sslHandshake | sslVerify => true
  | _ => false

/-- `Connection::ConnectionState`. -/
inductive ConnectionState where
  | new
  | connecting
  | connected
  | registeringEvents
  | ready
  | overwhelmed
  | close
  | closeDefunct
  deriving DecidableEq, Repr

/-- `Connection::is_closing`. -/
def ConnectionState.isClosing : ConnectionState → Bool
  | close | closeDefunct => true
  | _ => false

/-- The part of a `Connection` that its pool reads. -/
structure Connection where
  state : ConnectionState
  errorCode : ConnectionError
  pendingRequestCount : Nat
  availableStreams : Nat
  deriving DecidableEq, Repr

namespace Connection

/-- `Connection::is_ready`. -/
def isReady (connection : Connection) : Bool := connection.state = .ready

/-- `Connection::is_defunct`. -/
def isDefunct (connection : Connection) : Bool := connection.state = .closeDefunct

end Connection

/-! ## Pools -/

/-- `Pool::PoolState`. -/
inductive PoolState where
  | new
  | connecting
  | waitingToConnect
  | ready
  | closing
  | closed
  deriving DecidableEq, Repr

/-- The two callbacks of the timer of a pool. -/
inductive PoolTimer where
  | waitToConnect
  | partialReconnect
  deriving DecidableEq, Repr

/-- The settings that a pool reads. -/
structure Config where
  coreConnectionsPerHost : Nat
  maxConnectionsPerHost : Nat
  maxConcurrentCreation : Nat
  maxConcurrentRequestsThreshold : Nat
  pendingRequestsHighWaterMark : Nat
  pendingRequestsLowWaterMark : Nat

/-- The settings of a new `Config`. -/
def Config.default : Config where
  coreConnectionsPerHost := 1
  maxConnectionsPerHost := 2
  maxConcurrentCreation := 1
  maxConcurrentRequestsThreshold := 100
  pendingRequestsHighWaterMark := 256
  pendingRequestsLowWaterMark := 128

/-- `Pool`, with the objects that its pointers refer to, and whether its address is in
`unavailable_addresses_` of the worker. -/
structure Pool where
  state : PoolState
  errorCode : ConnectionError
  connections : List Nat
  pendingConnections : List Nat
  pendingRequests : Nat
  availableConnectionCount : Int
  isAvailable : Bool
  cancelReconnect : Bool
  connectTimer : Option PoolTimer
  objects : List Connection
  isUnavailable : Bool
  deriving DecidableEq, Repr

namespace Pool

/-- A new pool, when its address is in `unavailable_addresses_` or not. -/
def new (isUnavailable : Bool) : Pool where
  state := .new
  errorCode := .ok
  connections := []
  pendingConnections := []
  pendingRequests := 0
  availableConnectionCount := 0
  isAvailable := false
  cancelReconnect := false
  connectTimer := none
  objects := []
  isUnavailable

variable (config : Config)

/-- `set_is_available`. -/
def setIsAvailable (isAvailable : Bool) (pool : Pool) : Pool :=
  if isAvailable then
    if !pool.isAvailable ∧ pool.availableConnectionCount > 0 ∧
        pool.pendingRequests < config.pendingRequestsLowWaterMark then
      { pool with isUnavailable := false, isAvailable := true }
    else
      pool
  else
    if pool.isAvailable then
      { pool with isUnavailable := true, isAvailable := false }
    else
      pool

/-- `on_availability_change`. -/
def onAvailabilityChange (id : Nat) (pool : Pool) : Pool :=
  if pool.objects[id]?.any Connection.isReady then
    { pool with
      availableConnectionCount := pool.availableConnectionCount + 1 }.setIsAvailable config true
  else
    let pool := { pool with availableConnectionCount := pool.availableConnectionCount - 1 }
    if pool.availableConnectionCount = 0 then pool.setIsAvailable config false else pool

/-- `Connection::set_state`: a connection that is closing keeps its state. -/
def setState (id : Nat) (newState : ConnectionState) (pool : Pool) : Pool :=
  match pool.objects[id]? with
  | none => pool
  | some connection =>
    if newState = connection.state then
      pool
    else
      let pool :=
        if connection.state.isClosing then
          pool
        else
          { pool with objects := pool.objects.set id { connection with state := newState } }
      if newState = .ready ∨ connection.state = .ready then
        pool.onAvailabilityChange config id
      else
        pool

/-- `Connection::internal_close`. -/
def internalClose (closeState : ConnectionState) (pool : Pool) (id : Nat) : Pool :=
  if pool.objects[id]?.any fun connection => connection.state.isClosing then
    pool
  else
    pool.setState config id closeState

/-- `spawn_connection`. -/
def spawnConnection (pool : Pool) : Pool :=
  if pool.state ≠ .closing ∧ pool.state ≠ .closed then
    { pool with
      objects := pool.objects ++ [⟨.connecting, .ok, 0, 0⟩]
      pendingConnections := pool.pendingConnections ++ [pool.objects.length] }
  else
    pool

/-- `maybe_spawn_connection`. -/
def maybeSpawnConnection (pool : Pool) : Pool :=
  if pool.pendingConnections.length ≥ config.maxConcurrentCreation then pool
  else if pool.connections.length + pool.pendingConnections.length ≥
      config.maxConnectionsPerHost then pool
  else if pool.state ≠ .ready then pool
  else pool.spawnConnection

/-- `maybe_notify_ready`. -/
def maybeNotifyReady (pool : Pool) : Pool :=
  if pool.state = .connecting ∧ pool.pendingConnections = [] then
    { pool with state := .ready }
  else
    pool

/-- `Pool::connect`. -/
def connect (pool : Pool) : Pool :=
  if pool.state = .new ∨ pool.state = .waitingToConnect then
    let pool := spawnConnection^[config.coreConnectionsPerHost] { pool with connectTimer := none }
    { pool with state := .connecting }.maybeNotifyReady
  else
    pool

/-- `delayed_connect`. -/
def delayedConnect (pool : Pool) : Pool :=
  if pool.state = .new then
    { pool with state := .waitingToConnect, connectTimer := some .waitToConnect }
  else
    pool

/-- `maybe_close`.  A pool that has become closed tells the worker. -/
def maybeClose (pool : Pool) : Pool :=
  if pool.state = .closing ∧ pool.connections = [] ∧ pool.pendingConnections = [] then
    { pool with state := .closed }
  else
    pool

/-- `Pool::close`. -/
def close (cancelReconnect : Bool) (pool : Pool) : Pool :=
  let pool :=
    if pool.state ≠ .closing ∧ pool.state ≠ .closed then
      let pool := { pool with connectTimer := none, state := .closing }.setIsAvailable config false
      let pool := { pool with cancelReconnect }
      let pool := pool.connections.foldl (internalClose config .close) pool
      pool.pendingConnections.foldl (internalClose config .close) pool
    else
      pool
  pool.maybeClose

/-- `min_element` over connections that are compared by a number. -/
def leastBy (count : Nat → Nat) (first : Nat) (ids : List Nat) : Nat :=
  ids.foldl (fun smallest id => if count id < count smallest then id else smallest) first

/-- `pending_request_count`. -/
def pendingRequestCount (pool : Pool) (id : Nat) : Nat :=
  (pool.objects[id]?.map Connection.pendingRequestCount).getD 0

/-- The connection is ready and has a free stream. -/
def canWrite (pool : Pool) (id : Nat) : Bool :=
  pool.objects[id]?.any fun connection => connection.isReady && connection.availableStreams > 0

/-- `find_least_busy`, for a pool with connections. -/
def findLeastBusy (pool : Pool) : Option Nat :=
  match pool.connections with
  | [] => none
  | first :: others =>
    let id := leastBy pool.pendingRequestCount first others
    if pool.canWrite id then some id else none

/-- `borrow_connection`. -/
def borrowConnection (pool : Pool) : Option Nat × Pool :=
  if pool.connections = [] then
    (none, (maybeSpawnConnection config)^[config.coreConnectionsPerHost] pool)
  else
    match pool.findLeastBusy with
    | none => (none, pool.maybeSpawnConnection config)
    | some id =>
      if pool.pendingRequestCount id ≥ config.maxConcurrentRequestsThreshold then
        (some id, pool.maybeSpawnConnection config)
      else
        (some id, pool)

/-- `on_ready`, without the requests that are written then. -/
def onReady (id : Nat) (pool : Pool) : Pool :=
  { pool with
    pendingConnections := pool.pendingConnections.filter (· ≠ id)
    connections := pool.connections ++ [id] }.maybeNotifyReady

/-- `Connection::notify_ready`: the startup of a connection is complete. -/
def notifyReady (id : Nat) (pool : Pool) : Pool :=
  if id ∈ pool.pendingConnections then (pool.setState config id .ready).onReady id else pool

/-- `Connection::notify_error` with its code, or `defunct` when the other side has closed. -/
def failConnection (id : Nat) (code : Option ConnectionError) (pool : Pool) : Pool :=
  { pool with
    objects := pool.objects.modify id fun connection =>
      { connection with errorCode := code.getD connection.errorCode } }.internalClose config
        .closeDefunct id

/-- `on_close`. -/
def onClose (id : Nat) (connection : Connection) (pool : Pool) : Pool :=
  let pool :=
    { pool with
      pendingConnections := pool.pendingConnections.filter (· ≠ id)
      connections := pool.connections.erase id }
  if connection.errorCode = .timeout ∧ pool.connections ≠ [] then
    { pool with
      connectTimer :=
        if pool.connectTimer = none then some .partialReconnect else pool.connectTimer
      }.maybeNotifyReady
  else if connection.isDefunct then
    { pool with
      errorCode := if !pool.errorCode.isCritical then connection.errorCode else pool.errorCode
      }.close config false
  else
    pool.maybeNotifyReady.maybeClose

/-- The pool has this connection. -/
def owns (pool : Pool) (id : Nat) : Bool :=
  id ∈ pool.connections ∨ id ∈ pool.pendingConnections

/-- The close of a connection is finished. -/
def connectionClosed (id : Nat) (pool : Pool) : Pool :=
  match pool.objects[id]? with
  | none => pool
  | some connection =>
    if pool.owns id ∧ connection.state.isClosing then pool.onClose config id connection else pool

/-- `on_partial_reconnect`. -/
def onPartialReconnect (pool : Pool) : Pool :=
  spawnConnection^[config.coreConnectionsPerHost -
    (pool.connections.length + pool.pendingConnections.length)] pool

/-- The timer stops and its callback runs. -/
def onTimeout (pool : Pool) : Pool :=
  match pool.connectTimer with
  | none => pool
  | some .waitToConnect => { pool with connectTimer := none }.connect config
  | some .partialReconnect => { pool with connectTimer := none }.onPartialReconnect config

/-- `wait_for_connection`. -/
def waitForConnection (pool : Pool) : Pool :=
  let pool := { pool with pendingRequests := pool.pendingRequests + 1 }
  if pool.pendingRequests > config.pendingRequestsHighWaterMark then
    pool.setIsAvailable config false
  else
    pool

/-- `remove_pending_request`, when there is one. -/
def removePendingRequest (pool : Pool) : Pool :=
  if pool.pendingRequests = 0 then pool
  else { pool with pendingRequests := pool.pendingRequests - 1 }.setIsAvailable config true

/-- `on_pending_request_timeout`. -/
def onPendingRequestTimeout (pool : Pool) : Pool :=
  (pool.removePendingRequest config).maybeClose

end Pool

/-- What happens to a pool and its connections.  A connection moves on in its startup, has too many
bytes to write or has written them, and its requests change; it becomes ready, fails and has
closed. -/
inductive PoolEvent where
  | connect
  | delayedConnect
  | close (cancelReconnect : Bool)
  | borrow
  | startup (id : Nat) (isRegistering : Bool)
  | overwhelmed (id : Nat)
  | relieved (id : Nat)
  | streams (id pending available : Nat)
  | ready (id : Nat)
  | fail (id : Nat) (code : Option ConnectionError)
  | closed (id : Nat)
  | timeout
  | waitForConnection
  | removePendingRequest
  | pendingRequestTimeout
  deriving DecidableEq, Repr

/-- The connection is in this state. -/
def Pool.isIn (state : ConnectionState) (id : Nat) (pool : Pool) : Bool :=
  pool.objects[id]?.any fun connection => connection.state = state

/-- One call of a pool. -/
def Pool.step (config : Config) (pool : Pool) : PoolEvent → Pool
  | .connect => pool.connect config
  | .delayedConnect => pool.delayedConnect
  | .close cancelReconnect => pool.close config cancelReconnect
  | .borrow => (pool.borrowConnection config).2
  | .startup id false =>
    if pool.isIn .connecting id then pool.setState config id .connected else pool
  | .startup id true =>
    if pool.isIn .connected id then pool.setState config id .registeringEvents else pool
  | .overwhelmed id => pool.setState config id .overwhelmed
  | .relieved id => if pool.isIn .overwhelmed id then pool.setState config id .ready else pool
  | .streams id pending available =>
    { pool with
      objects := pool.objects.modify id fun connection =>
        { connection with pendingRequestCount := pending, availableStreams := available } }
  | .ready id => pool.notifyReady config id
  | .fail id code => pool.failConnection config id code
  | .closed id => pool.connectionClosed config id
  | .timeout => pool.onTimeout config
  | .waitForConnection => pool.waitForConnection config
  | .removePendingRequest => pool.removePendingRequest config
  | .pendingRequestTimeout => pool.onPendingRequestTimeout config

/-! ## The worker -/

/-- The pools of an `IOWorker`, and the addresses that requests are not sent to. -/
structure IOWorker (Address : Type) where
  pools : Address → Option Pool
  unavailableAddresses : Address → Bool

/-- The worker is told to add a pool, or something happens to the pool of an address. -/
inductive WorkerEvent where
  | addPool
  | pool (event : PoolEvent)

namespace IOWorker

variable {Address : Type} [DecidableEq Address] (config : Config)

/-- A worker without pools. -/
def new : IOWorker Address :=
  { pools := fun _ => none, unavailableAddresses := fun _ => false }

/-- What `notify_pool_closed` puts in the place of a closed pool. -/
def notifyPoolClosed (pool : Pool) (isUnavailable : Bool) : Option Pool :=
  if !pool.errorCode.isCritical ∧ !pool.cancelReconnect then
    some (Pool.new isUnavailable).delayedConnect
  else
    none

/-- The pool has changed, and it may have changed the addresses or have closed. -/
def changePool (address : Address) (pool : Pool) (worker : IOWorker Address) : IOWorker Address where
  pools := Function.update worker.pools address <|
    if pool.state = .closed then notifyPoolClosed pool pool.isUnavailable else some pool
  unavailableAddresses :=
    Function.update worker.unavailableAddresses address pool.isUnavailable

/-- One event of a worker. -/
def step (worker : IOWorker Address) : Address × WorkerEvent → IOWorker Address
  | (address, .addPool) =>
    worker.changePool address (((worker.pools address).getD (.new true)).connect config)
  | (address, .pool event) =>
    match worker.pools address with
    | none => worker
    | some pool => worker.changePool address (pool.step config event)

end IOWorker

namespace Pool

/-! ## What a connection does not change -/

/-- The connections and the course of the pool are the same. -/
structure Framed (pool after : Pool) : Prop where
  connections : after.connections = pool.connections
  pendingConnections : after.pendingConnections = pool.pendingConnections
  state : after.state = pool.state
  connectTimer : after.connectTimer = pool.connectTimer

/-- The errors of the connections. -/
def errorCodes (pool : Pool) : List ConnectionError :=
  pool.objects.map Connection.errorCode

/-- The errors and what decides about a reconnect are the same, too. -/
structure Kept (pool after : Pool) : Prop extends pool.Framed after where
  cancelReconnect : after.cancelReconnect = pool.cancelReconnect
  errorCode : after.errorCode = pool.errorCode
  errorCodes : after.errorCodes = pool.errorCodes

variable {config : Config} {pool : Pool}

theorem owns_iff {id : Nat} :
    pool.owns id = true ↔ id ∈ pool.connections ∨ id ∈ pool.pendingConnections :=
  decide_eq_true_iff

theorem Kept.refl (pool : Pool) : pool.Kept pool := ⟨⟨rfl, rfl, rfl, rfl⟩, rfl, rfl, rfl⟩

theorem Kept.trans {middle after : Pool} (first : pool.Kept middle)
    (second : middle.Kept after) : pool.Kept after where
  connections := second.connections.trans first.connections
  pendingConnections := second.pendingConnections.trans first.pendingConnections
  state := second.state.trans first.state
  connectTimer := second.connectTimer.trans first.connectTimer
  cancelReconnect := second.cancelReconnect.trans first.cancelReconnect
  errorCode := second.errorCode.trans first.errorCode
  errorCodes := second.errorCodes.trans first.errorCodes

theorem kept_setIsAvailable (isAvailable : Bool) (pool : Pool) :
    pool.Kept (pool.setIsAvailable config isAvailable) := by
  unfold setIsAvailable
  split_ifs <;> exact ⟨⟨rfl, rfl, rfl, rfl⟩, rfl, rfl, rfl⟩

theorem kept_onAvailabilityChange (id : Nat) (pool : Pool) :
    pool.Kept (pool.onAvailabilityChange config id) := by
  unfold onAvailabilityChange
  dsimp only
  split_ifs
  · refine Kept.trans ?_ (kept_setIsAvailable true _)
    exact ⟨⟨rfl, rfl, rfl, rfl⟩, rfl, rfl, rfl⟩
  · refine Kept.trans ?_ (kept_setIsAvailable false _)
    exact ⟨⟨rfl, rfl, rfl, rfl⟩, rfl, rfl, rfl⟩
  · exact ⟨⟨rfl, rfl, rfl, rfl⟩, rfl, rfl, rfl⟩

theorem errorCodes_setState {id : Nat} {connection : Connection}
    (found : pool.objects[id]? = some connection) (newState : ConnectionState) :
    (pool.objects.set id { connection with state := newState }).map Connection.errorCode =
      pool.errorCodes := by
  obtain ⟨bound, rfl⟩ := List.getElem?_eq_some_iff.mp found
  rw [map_set, errorCodes]
  refine ext_getElem? fun other => ?_
  rw [getElem?_set]
  split
  · next same =>
      subst same
      simp [bound]
  · rfl

theorem kept_setState (id : Nat) (newState : ConnectionState) (pool : Pool) :
    pool.Kept (pool.setState config id newState) := by
  unfold setState
  split
  · exact .refl pool
  · next connection found =>
      have codes := errorCodes_setState found newState
      dsimp only
      split_ifs
      · exact .refl pool
      · exact kept_onAvailabilityChange id pool
      · refine Kept.trans ?_ (kept_onAvailabilityChange id _)
        exact ⟨⟨rfl, rfl, rfl, rfl⟩, rfl, rfl, codes⟩
      · exact .refl pool
      · exact ⟨⟨rfl, rfl, rfl, rfl⟩, rfl, rfl, codes⟩

theorem kept_internalClose (closeState : ConnectionState) (pool : Pool) (id : Nat) :
    pool.Kept (pool.internalClose config closeState id) := by
  unfold internalClose
  split
  · exact .refl pool
  · exact kept_setState id closeState pool

theorem kept_closeAll (closeState : ConnectionState) (ids : List Nat) (pool : Pool) :
    pool.Kept (ids.foldl (internalClose config closeState) pool) := by
  induction ids generalizing pool with
  | nil => exact .refl pool
  | cons id ids ih => exact (kept_internalClose closeState pool id).trans (ih _)

/-- Borrowing changes the pool only by new connections. -/
theorem exists_borrowConnection_eq (config : Config) (pool : Pool) :
    ∃ count, (pool.borrowConnection config).2 =
      (maybeSpawnConnection config)^[count] pool := by
  unfold borrowConnection
  split
  · exact ⟨_, rfl⟩
  · split
    · exact ⟨1, rfl⟩
    · split
      · exact ⟨1, rfl⟩
      · exact ⟨0, rfl⟩

end Pool

end DseDriver.Pools
