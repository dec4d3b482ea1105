import DseDriver.Lib.Runs
import DseDriver.Pools.Pool

/-!
# Pools and the commands for them

The session tells an `IOWorker` to add and to remove the pool of a host.  A pool is closed
asynchronously, and a pool that has closed is replaced by one that waits to reconnect, unless that
was cancelled or the failure was critical.  The pools follow the last command if no command comes
while a close is under way that will have the opposite result.
-/

namespace DseDriver.Worker

open Lib Pools List Function Pool

/-! ## What has happened -/

/-- The events of `IOWorkerEvent`. -/
inductive Command where
  | addPool
  | removePool (cancelReconnect : Bool)
  deriving DecidableEq, Repr

/-- The command that an event is: `REMOVE_POOL` closes the pool, if there is one. -/
def Command.of? : WorkerEvent → Option Command
  | .addPool => some .addPool
  | .pool (.close cancelReconnect) => some (.removePool cancelReconnect)
  | .pool _ => none

variable {Address : Type} [DecidableEq Address]

/-- A worker with the last command for each address, and whether a connection has failed with a
critical error since. -/
structure Observed (Address : Type) where
  worker : IOWorker Address
  last : Address → Option Command
  critical : Address → Bool

namespace Observed

/-- Whether the event is a critical error of a connection of the pool. -/
def isCriticalError (pool : Option Pool) : WorkerEvent → Bool
  | .pool (.fail id (some code)) => code.isCritical && pool.any fun pool => pool.owns id
  | _ => false

/-- The worker takes a step, which is noted. -/
def step (config : Config) (observed : Observed Address) (event : Address × WorkerEvent) :
    Observed Address where
  worker := observed.worker.step config event
  last :=
    match Command.of? event.2 with
    | none => observed.last
    | some command => Function.update observed.last event.1 (some command)
  critical := Function.update observed.critical event.1 <|
    match Command.of? event.2 with
    | none => observed.critical event.1 || isCriticalError (observed.worker.pools event.1) event.2
    | some _ => false

/-- A worker without pools. -/
def start : Observed Address where
  worker := .new
  last := fun _ => none
  critical := fun _ => false

end Observed

/-- No close is under way and no timer runs. -/
def IsSettled (pool : Pool) : Prop :=
  pool.state ≠ .closing ∧ pool.connectTimer = none ∧
    ∀ id connection, pool.owns id → pool.objects[id]? = some connection →
      connection.state.isClosing = false

/-- The pool at an address follows the last command, once it is settled.  A reconnect that is
scheduled is a pool that waits. -/
def Observed.Follows (observed : Observed Address) (address : Address) : Prop :=
  (∀ pool ∈ observed.worker.pools address, IsSettled pool) →
    (observed.last address = some .addPool → observed.critical address = false →
      (observed.worker.pools address).isSome = true) ∧
    (observed.last address = some (.removePool true) → observed.worker.pools address = none)

/-! ## Pools that come back and pools that do not -/

/-- Nothing about the pool keeps it from being replaced when it closes. -/
structure Returns (pool : Pool) : Prop where
  notCancelled : pool.cancelReconnect = false
  notCritical : pool.errorCode.isCritical = false
  connections : ∀ id code, pool.owns id → pool.errorCodes[id]? = some code → code.isCritical = false

/-- The pool closes and is not replaced. -/
structure Leaves (pool : Pool) : Prop where
  closing : pool.state = .closing ∨ pool.state = .closed
  final : pool.cancelReconnect = true ∨ pool.errorCode.isCritical = true

/-- The condition on a command: an added pool is not about to be lost, and a removed pool is not
about to come back. -/
def Observed.Timely (observed : Observed Address) (event : Address × WorkerEvent) : Prop :=
  match Command.of? event.2 with
  | some .addPool => ∀ pool ∈ observed.worker.pools event.1, Returns pool
  | some (.removePool true) =>
    ∀ pool ∈ observed.worker.pools event.1, pool.state = .closing → Leaves pool
  | _ => True

variable {pool after : Pool} {config : Config} {id : Nat}

namespace Returns

theorem new (isUnavailable : Bool) : Returns (.new isUnavailable) :=
  ⟨rfl, rfl, fun _ _ _ found => nomatch found⟩

section Returns

variable (returns : Returns pool)
include returns

theorem kept (kept : pool.Kept after) : Returns after where
  notCancelled := kept.cancelReconnect.trans returns.notCancelled
  notCritical := kept.errorCode ▸ returns.notCritical
  connections := by
    intro id code owned found
    rw [Pool.owns, kept.connections, kept.pendingConnections] at owned
    exact returns.connections id code owned (kept.errorCodes ▸ found)

theorem spawnConnection : Returns pool.spawnConnection := by
  unfold Pool.spawnConnection
  split
  · refine ⟨returns.notCancelled, returns.notCritical, fun id code owned found => ?_⟩
    rw [Pool.errorCodes, map_append, getElem?_append] at found
    split at found
    · next old =>
        refine returns.connections id code ?_ found
        have fresh : id ≠ pool.objects.length := by
          rw [length_map] at old
          omega
        simpa [owns_iff, fresh] using owned
    · cases mem_singleton.mp (mem_of_getElem? found)
      rfl
  · exact returns

theorem maybeSpawnConnection : Returns (pool.maybeSpawnConnection config) := by
  unfold Pool.maybeSpawnConnection
  split_ifs
  · exact returns
  · exact returns
  · exact returns
  · exact returns.spawnConnection

theorem maybeNotifyReady : Returns pool.maybeNotifyReady := by
  unfold Pool.maybeNotifyReady
  split
  · exact ⟨returns.1, returns.2, returns.3⟩
  · exact returns

theorem maybeClose : Returns pool.maybeClose := by
  unfold Pool.maybeClose
  split
  · exact ⟨returns.1, returns.2, returns.3⟩
  · exact returns

theorem stopTimer : Returns { pool with connectTimer := none } :=
  ⟨returns.1, returns.2, returns.3⟩

theorem connect : Returns (pool.connect config) := by
  unfold Pool.connect
  split
  · have spawned := Function.Iterate.rec Returns returns.stopTimer (fun _ => spawnConnection)
      config.coreConnectionsPerHost
    exact maybeNotifyReady ⟨spawned.1, spawned.2, spawned.3⟩
  · exact returns

/-- A failure closes the pool, which then comes back. -/
theorem close : Returns (pool.close config false) := by
  unfold Pool.close
  refine maybeClose ?_
  split
  · have closing : Returns { pool with connectTimer := none, state := .closing } :=
      ⟨returns.1, returns.2, returns.3⟩
    have unavailable := closing.kept (@Pool.kept_setIsAvailable config false _)
    refine kept ?_ (kept_closeAll _ _ _)
    refine kept ?_ (kept_closeAll _ _ _)
    exact ⟨rfl, unavailable.2, unavailable.3⟩
  · exact returns

theorem onReady (pending : id ∈ pool.pendingConnections) : Returns (pool.onReady id) := by
  refine maybeNotifyReady ⟨returns.notCancelled, returns.notCritical, ?_⟩
  intro other code owned found
  refine returns.connections other code ?_ found
  rw [owns_iff, mem_append, mem_singleton] at owned
  rcases owned with (ready | rfl) | waiting
  · exact owns_iff.mpr (.inl ready)
  · exact owns_iff.mpr (.inr pending)
  · exact owns_iff.mpr (.inr (mem_of_mem_filter waiting))

end Returns

theorem failConnection {code : Option ConnectionError} (returns : Returns pool)
    (harmless : Observed.isCriticalError (some pool) (.pool (.fail id code)) = false) :
    Returns (pool.failConnection config id code) := by
  unfold Pool.failConnection
  refine kept ?_ (kept_internalClose _ _ id)
  refine ⟨returns.notCancelled, returns.notCritical, fun other after owned found => ?_⟩
  have known := returns.connections other
  simp only [Pool.errorCodes, getElem?_map, getElem?_modify] at known found
  by_cases same : id = other
  · subst same
    cases code with
    | none => exact known after owned (by simpa using found)
    | some code =>
      obtain ⟨-, -, rfl⟩ : ∃ connection, pool.objects[id]? = some connection ∧ code = after := by
        simpa using found
      simpa [Observed.isCriticalError, show pool.owns id = true from owned] using harmless
  · exact known after owned (by simpa [same] using found)

theorem onClose {connection : Connection} (returns : Returns pool)
    (harmless : connection.errorCode.isCritical = false) :
    Returns (pool.onClose config id connection) := by
  have others : ∀ other code,
      { pool with
        pendingConnections := pool.pendingConnections.filter (· ≠ id)
        connections := pool.connections.erase id }.owns other →
      pool.errorCodes[other]? = some code → code.isCritical = false := by
    intro other code owned found
    refine returns.connections other code ?_ found
    rw [owns_iff] at owned ⊢
    exact owned.imp mem_of_mem_erase mem_of_mem_filter
  unfold Pool.onClose
  dsimp only
  split
  · exact maybeNotifyReady ⟨returns.notCancelled, returns.notCritical, others⟩
  · split
    · refine close ⟨returns.notCancelled, ?_, others⟩
      dsimp only
      split
      · exact harmless
      · exact returns.notCritical
    · exact maybeClose (maybeNotifyReady ⟨returns.notCancelled, returns.notCritical, others⟩)

theorem connectionClosed (returns : Returns pool) : Returns (pool.connectionClosed config id) := by
  unfold Pool.connectionClosed
  split
  · exact returns
  · next connection found =>
      split
      · next owned =>
          refine returns.onClose (returns.connections id _ owned.1 ?_)
          rw [Pool.errorCodes, getElem?_map, found]
          rfl
      · exact returns

theorem onTimeout (returns : Returns pool) : Returns (pool.onTimeout config) := by
  unfold Pool.onTimeout
  split
  · exact returns
  · exact returns.stopTimer.connect
  · exact Function.Iterate.rec Returns returns.stopTimer (fun _ => spawnConnection) _

end Returns

namespace Leaves

section Leaves

variable (leaves : Leaves pool)
include leaves

theorem kept (kept : pool.Kept after) : Leaves after where
  closing := kept.state ▸ leaves.closing
  final := kept.cancelReconnect ▸ kept.errorCode ▸ leaves.final

theorem spawnConnection : pool.spawnConnection = pool := by
  unfold Pool.spawnConnection
  refine if_neg fun ⟨notClosing, notClosed⟩ => ?_
  exact leaves.closing.elim notClosing notClosed

theorem maybeSpawnConnection : pool.maybeSpawnConnection config = pool := by
  unfold Pool.maybeSpawnConnection
  simp only [leaves.spawnConnection, ite_self]

theorem maybeNotifyReady : Leaves pool.maybeNotifyReady := by
  unfold Pool.maybeNotifyReady
  rw [if_neg]
  · exact leaves
  · rintro ⟨connecting, -⟩
    rcases leaves.closing with closing | closed
    · exact absurd (connecting.symm.trans closing) nofun
    · exact absurd (connecting.symm.trans closed) nofun

theorem connect : pool.connect config = pool := by
  unfold Pool.connect
  refine if_neg ?_
  rcases leaves.closing with closing | closed
  · rw [closing]
    exact nofun
  · rw [closed]
    exact nofun

theorem maybeClose : Leaves pool.maybeClose := by
  unfold Pool.maybeClose
  split
  · exact ⟨.inr rfl, leaves.final⟩
  · exact leaves

end Leaves

/-- The first close counts. -/
theorem close {cancelReconnect : Bool} (leaves : Leaves pool) :
    Leaves (pool.close config cancelReconnect) := by
  have again : ¬(pool.state ≠ .closing ∧ pool.state ≠ .closed) :=
    fun ⟨notClosing, notClosed⟩ => leaves.closing.elim notClosing notClosed
  unfold Pool.close
  dsimp only
  rw [if_neg again]
  exact leaves.maybeClose

theorem onClose {connection : Connection} (leaves : Leaves pool) :
    Leaves (pool.onClose config id connection) := by
  unfold Pool.onClose
  dsimp only
  split
  · exact maybeNotifyReady ⟨leaves.closing, leaves.final⟩
  · split
    · refine close ⟨leaves.closing, leaves.final.imp_right fun critical => ?_⟩
      -- a critical error is not replaced by another one
      dsimp only
      rw [if_neg (by simp [critical])]
      exact critical
    · exact maybeClose (maybeNotifyReady ⟨leaves.closing, leaves.final⟩)

theorem connectionClosed (leaves : Leaves pool) : Leaves (pool.connectionClosed config id) := by
  unfold Pool.connectionClosed
  split
  · exact leaves
  · split
    · exact leaves.onClose
    · exact leaves

theorem onTimeout (leaves : Leaves pool) : Leaves (pool.onTimeout config) := by
  have kept : Leaves { pool with connectTimer := none } := ⟨leaves.closing, leaves.final⟩
  unfold Pool.onTimeout
  split
  · exact leaves
  · rw [kept.connect]
    exact kept
  · rw [Pool.onPartialReconnect, iterate_fixed kept.spawnConnection]
    exact kept

/-- A pool that is not closing leaves once it is removed for good. -/
theorem of_close (notClosed : pool.state ≠ .closed) (leaving : pool.state = .closing → Leaves pool) :
    Leaves (pool.close config true) := by
  by_cases closing : pool.state = .closing
  · exact (leaving closing).close
  · unfold Pool.close
    dsimp only
    rw [if_pos ⟨closing, notClosed⟩]
    refine maybeClose (kept ?_ (kept_closeAll _ _ _))
    refine kept ⟨?_, .inl rfl⟩ (kept_closeAll _ _ _)
    exact .inl (@Pool.kept_setIsAvailable config false _).state

end Leaves

/-! ## Steps of a pool -/

/-- A step that only tells the pool about a connection or a request. -/
theorem kept_step_setState {state : ConnectionState} (condition : Bool) :
    pool.Kept (if condition then pool.setState config id state else pool) := by
  split
  · exact kept_setState id state pool
  · exact .refl pool

theorem kept_removePendingRequest : pool.Kept (pool.removePendingRequest config) := by
  unfold Pool.removePendingRequest
  split
  · exact .refl pool
  · refine Pool.Kept.trans ?_ (kept_setIsAvailable true _)
    exact ⟨⟨rfl, rfl, rfl, rfl⟩, rfl, rfl, rfl⟩

theorem kept_waitForConnection : pool.Kept (pool.waitForConnection config) := by
  have waits : pool.Kept { pool with pendingRequests := pool.pendingRequests + 1 } :=
    ⟨⟨rfl, rfl, rfl, rfl⟩, rfl, rfl, rfl⟩
  unfold Pool.waitForConnection
  dsimp only
  split
  · exact waits.trans (kept_setIsAvailable false _)
  · exact waits

theorem kept_streams (pending available : Nat) :
    pool.Kept (pool.step config (.streams id pending available)) := by
  refine ⟨⟨rfl, rfl, rfl, rfl⟩, rfl, rfl, ext_getElem? fun other => ?_⟩
  simp only [Pool.step, Pool.errorCodes, getElem?_map, getElem?_modify]
  cases pool.objects[other]? with
  | none => rfl
  | some connection => by_cases same : id = other <;> simp [same]

theorem Returns.step {event : PoolEvent} (returns : Returns pool)
    (noCommand : Command.of? (.pool event) = none)
    (harmless : Observed.isCriticalError (some pool) (.pool event) = false) :
    Returns (pool.step config event) := by
  cases event with
  | connect => exact returns.connect
  | delayedConnect =>
    rw [Pool.step, Pool.delayedConnect]
    split
    · exact ⟨returns.1, returns.2, returns.3⟩
    · exact returns
  | close cancelReconnect => cases noCommand
  | borrow =>
    obtain ⟨count, borrowed⟩ := exists_borrowConnection_eq config pool
    rw [Pool.step, borrowed]
    exact Function.Iterate.rec Returns returns (fun _ => maybeSpawnConnection) count
  | startup id isRegistering =>
    cases isRegistering <;> exact returns.kept (kept_step_setState _)
  | overwhelmed id => exact returns.kept (kept_setState id _ pool)
  | relieved id => exact returns.kept (kept_step_setState _)
  | streams id pending available => exact returns.kept (kept_streams pending available)
  | ready id =>
    rw [Pool.step, Pool.notifyReady]
    split
    next pending =>
      have kept : pool.Kept (pool.setState config id .ready) := kept_setState id .ready pool
      exact (returns.kept kept).onReady (kept.pendingConnections ▸ pending)
    · exact returns
  | fail id code => exact returns.failConnection harmless
  | closed id => exact returns.connectionClosed
  | timeout => exact returns.onTimeout
  | waitForConnection => exact returns.kept kept_waitForConnection
  | removePendingRequest => exact returns.kept kept_removePendingRequest
  | pendingRequestTimeout => exact (returns.kept kept_removePendingRequest).maybeClose

theorem Leaves.step {event : PoolEvent} (leaves : Leaves pool) :
    Leaves (pool.step config event) := by
  cases event with
  | connect =>
    rw [Pool.step, leaves.connect]
    exact leaves
  | delayedConnect =>
    rw [Pool.step, Pool.delayedConnect, if_neg]
    · exact leaves
    · rcases leaves.closing with state | state <;> simp [state]
  | close cancelReconnect => exact leaves.close
  | borrow =>
    obtain ⟨count, borrowed⟩ := exists_borrowConnection_eq config pool
    rw [Pool.step, borrowed, iterate_fixed leaves.maybeSpawnConnection]
    exact leaves
  | startup id isRegistering =>
    cases isRegistering <;> exact leaves.kept (kept_step_setState _)
  | overwhelmed id => exact leaves.kept (kept_setState id _ pool)
  | relieved id => exact leaves.kept (kept_step_setState _)
  | streams id pending available => exact leaves.kept (kept_streams pending available)
  | ready id =>
    rw [Pool.step, Pool.notifyReady]
    split
    · have moved := leaves.kept (@Pool.kept_setState config id .ready pool)
      exact maybeNotifyReady ⟨moved.closing, moved.final⟩
    · exact leaves
  | fail id code =>
    rw [Pool.step, Pool.failConnection]
    refine kept ?_ (kept_internalClose _ _ id)
    exact ⟨leaves.closing, leaves.final⟩
  | closed id => exact leaves.connectionClosed
  | timeout => exact leaves.onTimeout
  | waitForConnection => exact leaves.kept kept_waitForConnection
  | removePendingRequest => exact leaves.kept kept_removePendingRequest
  | pendingRequestTimeout => exact (leaves.kept kept_removePendingRequest).maybeClose

/-! ## Steps of the worker -/

variable {worker : IOWorker Address} {address other : Address}

/-- What is stored for a pool that has changed. -/
theorem pools_changePool : (worker.changePool address pool).pools address =
    if pool.state = .closed then IOWorker.notifyPoolClosed pool pool.isUnavailable
    else some pool :=
  update_self _ _ _

/-- Events at other addresses change nothing. -/
theorem pools_step_of_ne {event : WorkerEvent} (different : other ≠ address) :
    (worker.step config (address, event)).pools other = worker.pools other := by
  cases event with
  | addPool => exact update_of_ne different _ _
  | pool event =>
    rw [IOWorker.step]
    cases worker.pools address with
    | none => rfl
    | some pool => exact update_of_ne different _ _

/-- A pool that returns is stored, or its successor is. -/
theorem changePool_returns (returns : Returns pool) :
    ∃ after, (worker.changePool address pool).pools address = some after ∧ Returns after := by
  rw [pools_changePool]
  split
  · rw [IOWorker.notifyPoolClosed, if_pos (by simp [returns.notCritical, returns.notCancelled])]
    exact ⟨_, rfl, ⟨rfl, rfl, fun _ _ _ found => nomatch found⟩⟩
  · exact ⟨pool, rfl, returns⟩

theorem changePool_leaves (leaves : Leaves pool) :
    ∀ after ∈ (worker.changePool address pool).pools address, Leaves after := by
  rw [pools_changePool]
  split
  · rw [IOWorker.notifyPoolClosed, if_neg]
    · exact fun _ member => nomatch member
    · rcases leaves.final with cancelled | critical
      · simp [cancelled]
      · simp [critical]
  · rintro after ⟨⟩
    exact leaves

/-- A closed pool is not stored. -/
theorem changePool_notClosed :
    ∀ after ∈ (worker.changePool address pool).pools address, after.state ≠ .closed := by
  rw [pools_changePool]
  split
  · unfold IOWorker.notifyPoolClosed
    split
    · rintro after ⟨⟩
      exact nofun
    · exact fun _ member => nomatch member
  · next notClosed =>
      rintro after ⟨⟩
      exact notClosed

/-- The pool of an address takes a step, if there is one. -/
theorem pools_step_pool {event : PoolEvent} (stored : worker.pools address = some pool) :
    worker.step config (address, .pool event) =
      worker.changePool address (pool.step config event) := by
  rw [IOWorker.step, stored]

theorem pools_step_none {event : PoolEvent} (absent : worker.pools address = none) :
    worker.step config (address, .pool event) = worker := by
  rw [IOWorker.step, absent]

namespace Observed

variable {observed : Observed Address} {event : WorkerEvent}

/-- What is known about the pool at an address after the last command. -/
structure SoundAt (observed : Observed Address) (address : Address) : Prop where
  notClosed : ∀ pool ∈ observed.worker.pools address, pool.state ≠ .closed
  added : observed.last address = some .addPool → observed.critical address = false →
    ∃ pool, observed.worker.pools address = some pool ∧ Returns pool
  removed : observed.last address = some (.removePool true) →
    ∀ pool ∈ observed.worker.pools address, Leaves pool

/-- Events at another address. -/
theorem SoundAt.step_of_ne (sound : observed.SoundAt address) (different : address ≠ other) :
    (observed.step config (other, event)).SoundAt address := by
  have pools : (observed.step config (other, event)).worker.pools address =
      observed.worker.pools address := pools_step_of_ne different
  have last : (observed.step config (other, event)).last address = observed.last address := by
    unfold step
    cases Command.of? event with
    | none => rfl
    | some command => exact update_of_ne different _ _
  have critical : (observed.step config (other, event)).critical address =
      observed.critical address := update_of_ne different _ _
  constructor
  · rw [pools]
    exact sound.notClosed
  · rw [pools, last, critical]
    exact sound.added
  · rw [pools, last]
    exact sound.removed

/-- A command is the last one then. -/
theorem last_step {command : Command} (isCommand : Command.of? event = some command) :
    (observed.step config (address, event)).last address = some command := by
  unfold step
  simp [isCommand]

/-- Events that are no commands. -/
theorem SoundAt.step_noCommand {event : PoolEvent} (sound : observed.SoundAt address)
    (noCommand : Command.of? (.pool event) = none) :
    (observed.step config (address, .pool event)).SoundAt address := by
  have last : (observed.step config (address, .pool event)).last = observed.last := by
    unfold step
    simp [noCommand]
  have critical : (observed.step config (address, .pool event)).critical address =
      (observed.critical address ||
        isCriticalError (observed.worker.pools address) (.pool event)) := by
    unfold step
    simp [noCommand]
  have worker : (observed.step config (address, .pool event)).worker =
      observed.worker.step config (address, .pool event) := rfl
  cases stored : observed.worker.pools address with
  | none =>
    rw [pools_step_none stored] at worker
    refine ⟨worker ▸ sound.notClosed, fun isAdd notCritical => ?_, worker ▸ last ▸ sound.removed⟩
    rw [critical, Bool.or_eq_false_iff] at notCritical
    exact worker ▸ sound.added (last ▸ isAdd) notCritical.1
  | some pool =>
    rw [pools_step_pool stored] at worker
    refine ⟨worker ▸ changePool_notClosed, fun isAdd notCritical => ?_, fun isRemove => ?_⟩
    · rw [critical, Bool.or_eq_false_iff, stored] at notCritical
      obtain ⟨found, isFound, returns⟩ := sound.added (last ▸ isAdd) notCritical.1
      cases stored.symm.trans isFound
      exact worker ▸ changePool_returns (returns.step noCommand notCritical.2)
    · exact worker ▸ changePool_leaves (sound.removed (last ▸ isRemove) pool stored).step

theorem soundAt_addPool (timely : ∀ pool ∈ observed.worker.pools address, Returns pool) :
    (observed.step config (address, .addPool)).SoundAt address := by
  have worker : (observed.step config (address, .addPool)).worker = observed.worker.changePool
      address (((observed.worker.pools address).getD (.new true)).connect config) := rfl
  have last := @last_step _ _ config address observed .addPool _ rfl
  have returns : Returns ((observed.worker.pools address).getD (.new true)) := by
    cases stored : observed.worker.pools address with
    | none => exact .new true
    | some pool => exact timely pool stored
  refine ⟨worker ▸ changePool_notClosed, fun _ _ => worker ▸ changePool_returns returns.connect,
    fun isRemove => ?_⟩
  exact absurd (last.symm.trans isRemove) nofun

theorem SoundAt.removePool {cancelReconnect : Bool} (sound : observed.SoundAt address)
    (timely : cancelReconnect = true →
      ∀ pool ∈ observed.worker.pools address, pool.state = .closing → Leaves pool) :
    (observed.step config (address, .pool (.close cancelReconnect))).SoundAt address := by
  have last := @last_step _ _ config address observed (.pool (.close cancelReconnect)) _ rfl
  have worker : (observed.step config (address, .pool (.close cancelReconnect))).worker =
      observed.worker.step config (address, .pool (.close cancelReconnect)) := rfl
  cases stored : observed.worker.pools address with
  | none =>
    rw [pools_step_none stored] at worker
    refine ⟨worker ▸ sound.notClosed, fun isAdd => ?_, fun _ pool found => ?_⟩
    · exact absurd (last.symm.trans isAdd) nofun
    · rw [worker, stored] at found
      cases found
  | some pool =>
    rw [pools_step_pool stored] at worker
    refine ⟨worker ▸ changePool_notClosed, fun isAdd => ?_, fun isRemove => ?_⟩
    · exact absurd (last.symm.trans isAdd) nofun
    · cases last.symm.trans isRemove
      rw [worker]
      exact changePool_leaves (.of_close (sound.notClosed pool stored) (timely rfl pool stored))

/-- What one step keeps, at every address. -/
theorem SoundAt.step {event : Address × WorkerEvent} (sound : observed.SoundAt address)
    (timely : observed.Timely event) : (observed.step config event).SoundAt address := by
  obtain ⟨other, event⟩ := event
  by_cases same : address = other
  · subst same
    cases event with
    | addPool => exact soundAt_addPool timely
    | pool event =>
      cases isCommand : Command.of? (.pool event) with
      | none => exact sound.step_noCommand isCommand
      | some command =>
        cases event with
        | close cancelReconnect =>
          refine sound.removePool fun isCancel => ?_
          subst isCancel
          exact timely
        | _ => cases isCommand
  · exact sound.step_of_ne same

omit [DecidableEq Address] in
theorem soundAt_start (address : Address) : start.SoundAt address :=
  ⟨fun _ member => (nomatch member), fun isAdd => absurd isAdd nofun,
    fun isRemove => absurd isRemove nofun⟩

/-- **In every run whose commands come at the right time, each pool follows the last command for
its address whenever it is settled.** -/
theorem follows_of_timely (config : Config) (events : List (Address × WorkerEvent))
    (timely : Throughout (step config) Timely start events) (address : Address) :
    (events.foldl (step config) start).Follows address := by
  have sound : (events.foldl (step config) start).SoundAt address :=
    @Throughout.invariant _ _ (step config) Timely (SoundAt · address)
      (fun _ _ sound isTimely => sound.step isTimely) _ _ (soundAt_start address) timely
  intro settled
  constructor
  · intro isAdd notCritical
    obtain ⟨pool, isPool, -⟩ := sound.added isAdd notCritical
    rw [isPool]
    rfl
  · intro isRemove
    cases stored : (events.foldl (step config) start).worker.pools address with
    | none => rfl
    | some pool =>
      exfalso
      rcases (sound.removed isRemove pool stored).closing with closing | closed
      · exact (settled pool stored).1 closing
      · exact sound.notClosed pool stored closed

/-- The pool has closed before it is added again. -/
def timelyEvents : List (Nat × WorkerEvent) :=
  [(0, .addPool), (0, .pool (.ready 0)), (0, .pool (.close true)), (0, .pool (.closed 0)),
    (0, .addPool)]

theorem follows_of_timely_timelyEvents :
    (timelyEvents.foldl (step .default) start).Follows 0 := by
  refine follows_of_timely .default timelyEvents ⟨?_, trivial, ?_, trivial, ?_, trivial⟩ 0
  · exact fun _ stored => nomatch stored
  · rintro pool ⟨⟩ closing
    exact absurd closing (by decide)
  · exact fun _ stored => nomatch stored

/-- The pool is added again while it is still closing, and is lost. -/
theorem addPool_lost :
    ¬ ([(0, .addPool), (0, .pool (.close true)), (0, .addPool), (0, .pool (.closed 0))].foldl
      (step .default) start).Follows 0 := by
  intro follows
  have isSome := (follows fun _ stored => nomatch stored).1 rfl rfl
  exact absurd isSome (by decide)

end Observed

end DseDriver.Worker
