import DseDriver.Lib.Runs
import DseDriver.Pools.Pool

/-!
# Availability of pools

A connection tells its pool when it becomes ready or stops to be ready, the pool counts these
notices, and the worker keeps the addresses of the pools that are not available.
-/

namespace DseDriver.Pools

open Lib List Function

namespace Pool

/-- The connections of the pool that are ready, with their ids. -/
def availableConnections (pool : Pool) : List (Connection × Nat) :=
  pool.objects.zipIdx.filter fun (connection, id) => connection.isReady && pool.owns id

/-- The states of all connections that the pool has made. -/
def states (pool : Pool) : List ConnectionState :=
  pool.objects.map Connection.state

/-- A connection is forgotten only when it is closing, and the worker knows whether the pool is
available. -/
structure Consistent (pool : Pool) : Prop where
  owned : ∀ id state, pool.states[id]? = some state → state.isClosing = false → pool.owns id
  emptied : pool.state = .closed → pool.connections = [] ∧ pool.pendingConnections = []
  mirrored : pool.isUnavailable = !pool.isAvailable

/-- The count is right, and an available pool has an available connection. -/
structure Tallied (pool : Pool) : Prop extends pool.Consistent where
  counted : pool.availableConnectionCount = pool.states.count .ready
  available : pool.isAvailable = true → 0 < pool.availableConnectionCount

variable {config : Config} {pool : Pool}

theorem tallied_new : (new true).Tallied where
  owned := nofun
  emptied := nofun
  mirrored := rfl
  counted := rfl
  available := nofun

/-! ## Steps of a pool -/

/-- A pool that becomes unavailable may have lost its last connection. -/
theorem Consistent.setIsAvailable_false {pool : Pool} (consistent : pool.Consistent)
    (counted : pool.availableConnectionCount = pool.states.count .ready) :
    (pool.setIsAvailable config false).Tallied := by
  rw [Pool.setIsAvailable, if_neg Bool.false_ne_true]
  split
  · exact ⟨{ consistent with mirrored := rfl }, counted, nofun⟩
  next notAvailable =>
    exact ⟨consistent, counted, fun isAvailable => absurd isAvailable notAvailable⟩

theorem Tallied.setIsAvailable (tallied : pool.Tallied) (isAvailable : Bool) :
    (pool.setIsAvailable config isAvailable).Tallied := by
  cases isAvailable with
  | true =>
    rw [Pool.setIsAvailable, if_pos rfl]
    split
    next becomes => exact { tallied with available := fun _ => becomes.2.1, mirrored := rfl }
    · exact tallied
  | false => exact tallied.setIsAvailable_false tallied.counted

theorem states_eq_some {id : Nat} {connection : Connection}
    (found : pool.objects[id]? = some connection) :
    pool.states[id]? = some connection.state := by
  rw [states, getElem?_map, found]
  rfl

theorem isIn_iff {id : Nat} {state : ConnectionState} :
    pool.isIn state id = true ↔ pool.states[id]? = some state := by
  rw [isIn, states, getElem?_map]
  cases pool.objects[id]? <;> simp

theorem states_set (id : Nat) (connection : Connection) :
    { pool with objects := pool.objects.set id connection }.states =
      pool.states.set id connection.state :=
  map_set

theorem isIn_set {id : Nat} {old : Connection} (found : pool.objects[id]? = some old)
    (connection : Connection) (state : ConnectionState) :
    { pool with objects := pool.objects.set id connection }.isIn state id = true ↔
      connection.state = state := by
  obtain ⟨inside, -⟩ := List.getElem?_eq_some_iff.mp found
  simp [isIn, inside]

/-- A change of a connection that is not its state. -/
theorem Tallied.modify (tallied : pool.Tallied) (id : Nat) {change : Connection → Connection}
    (same : ∀ connection, (change connection).state = connection.state) :
    { pool with objects := pool.objects.modify id change }.Tallied := by
  have states : { pool with objects := pool.objects.modify id change }.states = pool.states := by
    apply ext_getElem?
    intro index
    simp only [Pool.states, getElem?_map, getElem?_modify]
    cases pool.objects[index]? with
    | none => rfl
    | some connection =>
      simp only [Option.map_some]
      split <;> simp [same]
  refine { tallied with owned := ?_, counted := ?_ }
  · rw [states]
    exact tallied.owned
  · rw [states]
    exact tallied.counted

/-- The notice of a connection makes up for the change of its state. -/
theorem Consistent.onAvailabilityChange {id : Nat} (consistent : pool.Consistent)
    (counted : pool.availableConnectionCount + (if pool.isIn .ready id then 1 else -1) =
      pool.states.count .ready)
    (available : pool.isAvailable = true → 0 < pool.availableConnectionCount) :
    (pool.onAvailabilityChange config id).Tallied := by
  rw [Pool.onAvailabilityChange]
  split
  next isReady =>
    rw [if_pos (show pool.isIn .ready id = true from isReady)] at counted
    have noted : { pool with
        availableConnectionCount := pool.availableConnectionCount + 1 }.Tallied := by
      refine { consistent with counted, available := ?_ }
      intro isAvailable
      have positive := available isAvailable
      show 0 < pool.availableConnectionCount + 1
      omega
    exact noted.setIsAvailable true
  next notReady =>
    rw [if_neg (show ¬ pool.isIn .ready id = true from notReady)] at counted
    dsimp only
    split
    next none =>
      exact Consistent.setIsAvailable_false { consistent with } counted
    next some' =>
      refine { consistent with counted, available := ?_ }
      intro _
      show 0 < pool.availableConnectionCount - 1
      omega

/-- How the number of ready connections changes with one state. -/
theorem count_states_set {id : Nat} {oldState : ConnectionState} (newState : ConnectionState)
    (old : pool.states[id]? = some oldState) :
    ((pool.states.set id newState).count .ready : Int) =
      pool.states.count .ready - (if oldState = .ready then 1 else 0) +
        if newState = .ready then 1 else 0 := by
  obtain ⟨inside, isOld⟩ := List.getElem?_eq_some_iff.mp old
  have positive : oldState = .ready → 0 < pool.states.count .ready := by
    intro wasReady
    rw [← wasReady]
    exact count_pos_iff.mpr (mem_of_getElem? old)
  rw [count_set inside, isOld]
  simp only [beq_iff_eq]
  split
  next wasReady =>
    have := positive wasReady
    split <;> omega
  · split <;> omega

section Tallied

variable (tallied : pool.Tallied)
include tallied

theorem Tallied.owned_set {id : Nat} {oldState : ConnectionState}
    (newState : ConnectionState) (old : pool.states[id]? = some oldState)
    (notClosing : oldState.isClosing = false) (other : Nat) (state : ConnectionState)
    (isState : (pool.states.set id newState)[other]? = some state)
    (isOpen : state.isClosing = false) : pool.owns other := by
  rw [getElem?_set] at isState
  split at isState
  next same =>
    rw [← same]
    exact tallied.owned id _ old notClosing
  · exact tallied.owned other state isState isOpen

/-- A connection may change its state unless it is closing and would become ready. -/
theorem Tallied.setState {id : Nat} {newState : ConnectionState}
    (inTime : newState = .ready → ∀ state, pool.states[id]? = some state → state.isClosing = false) :
    (pool.setState config id newState).Tallied := by
  rw [Pool.setState]
  cases found : pool.objects[id]? with
  | none => exact tallied
  | some connection =>
    have old := states_eq_some found
    dsimp only
    split
    · exact tallied
    next differs =>
      cases closing : connection.state.isClosing with
      | true =>
        have notReady : newState ≠ .ready := by
          intro isReady
          rw [inTime isReady _ old] at closing
          cases closing
        have wasNotReady : connection.state ≠ .ready := by
          intro wasReady
          rw [wasReady] at closing
          cases closing
        rw [if_neg (not_or.mpr ⟨notReady, wasNotReady⟩)]
        exact tallied
      | false =>
        have counted := tallied.counted
        have counts := count_states_set newState old
        have owned := tallied.owned_set newState old closing
        rw [← states_set id { connection with state := newState }] at counts owned
        rw [if_neg Bool.false_ne_true]
        split
        next notifies =>
          refine Consistent.onAvailabilityChange { tallied with owned } ?_ tallied.available
          simp only [isIn_set found]
          rw [counts, counted]
          -- One of the two states is ready, and they differ.
          grind
        next silent =>
          refine { tallied with owned, counted := ?_ }
          rw [not_or] at silent
          rw [if_neg silent.1, if_neg silent.2] at counts
          exact counted.trans (by omega)

theorem Tallied.internalClose {closeState : ConnectionState}
    (closes : closeState.isClosing = true) (id : Nat) :
    (pool.internalClose config closeState id).Tallied := by
  rw [Pool.internalClose]
  split
  · exact tallied
  · apply tallied.setState
    intro isReady
    rw [isReady] at closes
    cases closes

theorem Tallied.closeAll (ids : List Nat) :
    (ids.foldl (Pool.internalClose config .close) pool).Tallied := by
  refine List.foldlRecOn (motive := Tallied) _ _ tallied ?_
  intro closing holds id _
  exact holds.internalClose rfl id

theorem Tallied.spawnConnection : pool.spawnConnection.Tallied := by
  rw [Pool.spawnConnection]
  split
  next isOpen =>
    refine { tallied with
      owned := ?_, counted := ?_, emptied := fun closed => absurd closed isOpen.2 }
    · intro id state found notClosing
      rw [states, map_append, getElem?_append] at found
      split at found
      · have isOwned := tallied.owned id state found notClosing
        rw [owns_iff] at isOwned ⊢
        grind
      next beyond =>
        have last : id = pool.objects.length := by
          rw [map_singleton, getElem?_singleton, length_map] at found
          rw [length_map] at beyond
          split at found
          · omega
          · cases found
        rw [owns_iff, last]
        exact .inr (mem_append_right _ (mem_singleton_self _))
    · rw [states, map_append, count_append]
      exact tallied.counted
  · exact tallied

theorem Tallied.maybeSpawnConnection : (pool.maybeSpawnConnection config).Tallied := by
  unfold Pool.maybeSpawnConnection
  split_ifs
  · exact tallied
  · exact tallied
  · exact tallied
  · exact tallied.spawnConnection

theorem Tallied.maybeNotifyReady : pool.maybeNotifyReady.Tallied := by
  unfold Pool.maybeNotifyReady
  split_ifs
  · exact { tallied with emptied := nofun }
  · exact tallied

theorem Tallied.maybeClose : pool.maybeClose.Tallied := by
  unfold Pool.maybeClose
  split_ifs with empty
  · exact { tallied with emptied := fun _ => empty.2 }
  · exact tallied

theorem Tallied.connect : (pool.connect config).Tallied := by
  rw [Pool.connect]
  split
  · have stopped : { pool with connectTimer := none }.Tallied := { tallied with }
    have spawned := Function.Iterate.rec Tallied stopped (fun _ => Tallied.spawnConnection)
      config.coreConnectionsPerHost
    exact Tallied.maybeNotifyReady { spawned with emptied := nofun }
  · exact tallied

theorem Tallied.close (cancelReconnect : Bool) : (pool.close config cancelReconnect).Tallied := by
  rw [Pool.close]
  apply Tallied.maybeClose
  split
  · have closing : { pool with connectTimer := none, state := .closing }.Tallied :=
      { tallied with emptied := nofun }
    have unavailable : ({ pool with connectTimer := none, state := .closing }.setIsAvailable
        config false).Tallied := closing.setIsAvailable false
    apply Tallied.closeAll
    apply Tallied.closeAll
    exact { unavailable with }
  · exact tallied

theorem Tallied.onReady {id : Nat}
    (pending : id ∈ pool.pendingConnections) : (pool.onReady id).Tallied := by
  apply Tallied.maybeNotifyReady
  refine { tallied with
    owned := ?_, emptied := fun closed => absurd ((tallied.emptied closed).2 ▸ pending) nofun }
  intro other state found notClosing
  have isOwned := tallied.owned other state found notClosing
  rw [owns_iff] at isOwned ⊢
  grind

/-- A connection that is closing may be forgotten. -/
theorem Tallied.onClose {id : Nat} {connection : Connection}
    (found : pool.objects[id]? = some connection) (closing : connection.state.isClosing = true) :
    (pool.onClose config id connection).Tallied := by
  have forgotten : { pool with
      pendingConnections := pool.pendingConnections.filter (· ≠ id)
      connections := pool.connections.erase id }.Tallied := by
    refine { tallied with
      owned := ?_, emptied := fun closed => by simp [tallied.emptied closed] }
    intro other state isState notClosing
    have isOwned := tallied.owned other state isState notClosing
    have differs : other ≠ id := by
      intro same
      have isOld := states_eq_some found
      rw [← same] at isOld
      cases isState.symm.trans isOld
      rw [closing] at notClosing
      cases notClosing
    rw [owns_iff] at isOwned ⊢
    grind
  rw [Pool.onClose]
  dsimp only
  split
  · exact Tallied.maybeNotifyReady { forgotten with }
  · split
    · apply Tallied.close
      exact { forgotten with }
    · exact forgotten.maybeNotifyReady.maybeClose

theorem Tallied.onTimeout : (pool.onTimeout config).Tallied := by
  have stopped : { pool with connectTimer := none }.Tallied := { tallied with }
  rw [Pool.onTimeout]
  split
  · exact tallied
  · exact stopped.connect
  · exact Function.Iterate.rec Tallied stopped (fun _ => Tallied.spawnConnection) _

theorem Tallied.borrowConnection : (pool.borrowConnection config).2.Tallied := by
  obtain ⟨count, borrowed⟩ := exists_borrowConnection_eq config pool
  rw [borrowed]
  exact Function.Iterate.rec Tallied tallied (fun _ => Tallied.maybeSpawnConnection) count

theorem Tallied.removePendingRequest : (pool.removePendingRequest config).Tallied := by
  rw [Pool.removePendingRequest]
  split
  · exact tallied
  · have removed : { pool with pendingRequests := pool.pendingRequests - 1 }.Tallied :=
      { tallied with }
    exact removed.setIsAvailable true

theorem Tallied.waitForConnection : (pool.waitForConnection config).Tallied := by
  have added : { pool with pendingRequests := pool.pendingRequests + 1 }.Tallied :=
    { tallied with }
  rw [Pool.waitForConnection]
  dsimp only
  split
  · exact added.setIsAvailable false
  · exact added

end Tallied

/-- No startup ends on a connection that is closing. -/
def InTime (pool : Pool) (event : PoolEvent) : Prop :=
  ∀ id ∈ pool.pendingConnections, event = .ready id → ∀ connection,
    pool.objects[id]? = some connection → connection.state.isClosing = false

theorem Tallied.step (tallied : pool.Tallied) {event : PoolEvent} (inTime : pool.InTime event) :
    (pool.step config event).Tallied := by
  have moves {id : Nat} {newState : ConnectionState} (differs : newState ≠ .ready) :
      (pool.setState config id newState).Tallied :=
    tallied.setState fun isReady => absurd isReady differs
  cases event with
  | connect => exact tallied.connect
  | delayedConnect =>
    rw [Pool.step, Pool.delayedConnect]
    split
    · exact { tallied with emptied := nofun }
    · exact tallied
  | close cancelReconnect => exact tallied.close cancelReconnect
  | borrow => exact tallied.borrowConnection
  | startup id isRegistering =>
    cases isRegistering <;> rw [Pool.step] <;> split
    · exact moves nofun
    · exact tallied
    · exact moves nofun
    · exact tallied
  | overwhelmed id => exact moves nofun
  | relieved id =>
    rw [Pool.step]
    split
    next isOverwhelmed =>
      apply tallied.setState
      intro _ state found
      cases found.symm.trans (isIn_iff.mp isOverwhelmed)
      rfl
    · exact tallied
  | streams id pending available => exact tallied.modify id fun _ => rfl
  | ready id =>
    rw [Pool.step, Pool.notifyReady]
    split
    next pending =>
      have kept : pool.Kept (pool.setState config id .ready) := kept_setState id .ready pool
      apply Tallied.onReady
      · apply tallied.setState
        intro _ state found
        rw [states, getElem?_map, Option.map_eq_some_iff] at found
        obtain ⟨connection, found, rfl⟩ := found
        exact inTime id pending rfl connection found
      · rw [kept.pendingConnections]
        exact pending
    · exact tallied
  | fail id code =>
    apply Tallied.internalClose
    · exact tallied.modify id fun _ => rfl
    · rfl
  | closed id =>
    rw [Pool.step, Pool.connectionClosed]
    split
    · exact tallied
    next connection found =>
      split
      next finished => exact tallied.onClose found finished.2
      · exact tallied
  | timeout => exact tallied.onTimeout
  | waitForConnection => exact tallied.waitForConnection
  | removePendingRequest => exact tallied.removePendingRequest
  | pendingRequestTimeout => exact tallied.removePendingRequest.maybeClose

/-- The pool has the ready connections, so that they are all counted. -/
theorem Tallied.count_eq (tallied : pool.Tallied) :
    pool.availableConnectionCount = pool.availableConnections.length := by
  have counts : pool.availableConnections.length =
      pool.objects.zipIdx.countP (Connection.isReady ∘ Prod.fst) := by
    rw [availableConnections, ← countP_eq_length_filter]
    apply countP_congr
    rintro ⟨connection, id⟩ member
    have old := states_eq_some (mem_zipIdx_iff_getElem?.mp member)
    simp only [Bool.and_eq_true, comp_apply, and_iff_left_iff_imp]
    intro isReady
    rw [of_decide_eq_true isReady] at old
    exact tallied.owned id _ old rfl
  have ready : pool.objects.countP Connection.isReady = pool.states.count .ready := by
    rw [states, List.count, countP_map]
    rfl
  rw [counts, ← countP_map, zipIdx_map_fst, ready]
  exact tallied.counted

/-- A closed pool has no connection that could be available. -/
theorem Tallied.unavailable_of_closed (tallied : pool.Tallied) (closed : pool.state = .closed) :
    pool.isUnavailable = true := by
  rw [tallied.mirrored]
  cases isAvailable : pool.isAvailable with
  | false => rfl
  | true =>
    have positive := tallied.available isAvailable
    rw [tallied.counted] at positive
    obtain ⟨id, found⟩ := mem_iff_getElem?.mp
      (count_pos_iff.mp (Int.natCast_pos.mp positive))
    obtain ⟨noConnections, noPending⟩ := tallied.emptied closed
    have isOwned := tallied.owned id _ found rfl
    rw [owns_iff, noConnections, noPending] at isOwned
    simp at isOwned

end Pool

/-! ## The worker -/

namespace IOWorker

variable {Address : Type} [DecidableEq Address] (config : Config)

/-- No startup ends on a connection that is closing. -/
def InTime (worker : IOWorker Address) : Address × WorkerEvent → Prop
  | (_, .addPool) => True
  | (address, .pool event) => ∀ pool ∈ worker.pools address, pool.InTime event

/-- The pools are right and the addresses follow them. -/
def Tallied (worker : IOWorker Address) : Prop :=
  ∀ address pool, worker.pools address = some pool →
    pool.Tallied ∧ worker.unavailableAddresses address = pool.isUnavailable

variable {config} {worker : IOWorker Address}

theorem Tallied.changePool (tallied : worker.Tallied) (address : Address) {pool : Pool}
    (changed : pool.Tallied) : (worker.changePool address pool).Tallied := by
  intro other after found
  rw [IOWorker.changePool] at found ⊢
  dsimp only at found ⊢
  by_cases same : other = address
  · subst same
    rw [update_self] at found ⊢
    split at found
    next closed =>
      rw [changed.unavailable_of_closed closed, notifyPoolClosed] at *
      split at found
      · cases found
        exact ⟨{ Pool.tallied_new with emptied := nofun }, rfl⟩
      · cases found
    · cases found
      exact ⟨changed, rfl⟩
  · rw [update_of_ne same] at found ⊢
    exact tallied other after found

theorem Tallied.step (tallied : worker.Tallied) {event : Address × WorkerEvent}
    (inTime : worker.InTime event) : (worker.step config event).Tallied := by
  obtain ⟨address, event⟩ := event
  cases event with
  | addPool =>
    apply tallied.changePool
    cases found : worker.pools address with
    | none => exact Pool.tallied_new.connect
    | some pool => exact (tallied address pool found).1.connect
  | pool event =>
    rw [IOWorker.step]
    cases found : worker.pools address with
    | none => exact tallied
    | some pool =>
      exact tallied.changePool address ((tallied address pool found).1.step (inTime pool found))

/-- The count of a pool is the number of its connections that are ready, and its address is
missing from the unavailable ones exactly if the pool is available. -/
theorem run_availability (config : Config) (events : List (Address × WorkerEvent))
    (inTime : Throughout (step config) InTime new events) (address : Address) (pool : Pool)
    (found : (events.foldl (step config) new).pools address = some pool) :
    pool.availableConnectionCount = pool.availableConnections.length ∧
      ((events.foldl (step config) new).unavailableAddresses address = false ↔
        pool.isAvailable = true) := by
  have started : (new : IOWorker Address).Tallied := by
    intro _ _ none
    cases none
  have tallied := inTime.invariant (fun _ _ holds inTime => holds.step inTime) started
  obtain ⟨right, follows⟩ := tallied address pool found
  constructor
  · exact right.count_eq
  · rw [follows, right.mirrored, Bool.not_eq_false']

/-- The connection of a pool completes its startup. -/
def startupEvents : List (Nat × WorkerEvent) :=
  [(0, .addPool), (0, .pool (.startup 0 false)), (0, .pool (.ready 0))]

theorem run_availability_startup :
    ∃ pool, (startupEvents.foldl (step .default) new).pools 0 = some pool ∧
      pool.availableConnectionCount = pool.availableConnections.length ∧
      (startupEvents.foldl (step .default) new).unavailableAddresses 0 = false := by
  refine ⟨_, rfl, ?_⟩
  have result := run_availability .default startupEvents ?_ 0 _ rfl
  · exact ⟨result.1, result.2.mpr rfl⟩
  · refine ⟨trivial, ?_, ?_, trivial⟩
    · intro pool _ id _ isReady
      cases isReady
    · intro pool found id _ isReady connection isConnection
      cases found
      cases isReady
      cases isConnection
      rfl

/-- The connection fails after the last response of its startup was read and before the write of
the request was confirmed: the count of the pool is negative then. -/
theorem availability_after_late_startup :
    ∃ pool, ([(0, .addPool), (0, .pool (.startup 0 false)), (0, .pool (.fail 0 (some .timeout))),
        (0, .pool (.ready 0))].foldl (step .default) (new : IOWorker Nat)).pools 0 = some pool ∧
      pool.availableConnectionCount = -1 ∧ pool.availableConnections = [] := by
  exact ⟨_, rfl, rfl, rfl⟩

end IOWorker

end DseDriver.Pools
