import DseDriver.Pools.Pool
import Mathlib.Order.Lattice

/-!
# Borrowing a connection

The least busy connection is chosen among all connections of the pool and asked only then whether
it can be written to.  New connections are made in two places with different limits.
-/

namespace DseDriver.Pools

open List

namespace Pool

/-! ## The least busy connection -/

section LeastBusy

variable (count : Nat → Nat)

/-- The first of the connections with the smallest number. -/
def IsLeast (id : Nat) (ids : List Nat) : Prop :=
  ∃ before after, ids = before ++ id :: after ∧
    (∀ other ∈ before, count id < count other) ∧ ∀ other ∈ after, count id ≤ count other

variable {count}

theorem IsLeast.le {id : Nat} {ids : List Nat} (least : IsLeast count id ids) :
    ∀ other ∈ ids, count id ≤ count other := by
  obtain ⟨before, after, rfl, greater, atLeast⟩ := least
  intro other member
  rcases mem_append.mp member with earlier | later
  · exact (greater other earlier).le
  · rcases mem_cons.mp later with rfl | later
    · exact le_rfl
    · exact atLeast other later

theorem IsLeast.unique {id other : Nat} {ids : List Nat} (least : IsLeast count id ids)
    (otherLeast : IsLeast count other ids) : id = other := by
  have le := least.le
  have otherLe := otherLeast.le
  obtain ⟨before, after, rfl, greater, -⟩ := least
  obtain ⟨otherBefore, otherAfter, same, otherGreater, -⟩ := otherLeast
  rcases append_eq_append_iff.mp same with ⟨middle, rfl, rest⟩ | ⟨middle, rfl, rest⟩
  · cases middle with
    | nil => exact (List.cons.inj rest).1
    | cons between middle =>
      -- the first one would come before the other one
      have less := otherGreater id (by simp [(List.cons.inj rest).1])
      exact absurd (le other (by simp [same])) (Nat.not_le.mpr less)
  · cases middle with
    | nil => exact (List.cons.inj rest).1.symm
    | cons between middle =>
      have less := greater other (by simp [(List.cons.inj rest).1])
      exact absurd (otherLe id (by simp)) (Nat.not_le.mpr less)

theorem isLeast_leastBy {first : Nat} {seen : List Nat} (least : IsLeast count first seen)
    (ids : List Nat) : IsLeast count (leastBy count first ids) (seen ++ ids) := by
  induction ids generalizing first seen with
  | nil => simpa [leastBy] using least
  | cons id ids ih =>
    have next : IsLeast count (if count id < count first then id else first) (seen ++ [id]) := by
      split
      next less =>
        refine ⟨seen, [], rfl, fun other member => less.trans_le (least.le other member), ?_⟩
        simp
      next notLess =>
        obtain ⟨before, after, rfl, greater, atLeast⟩ := least
        refine ⟨before, after ++ [id], by simp, greater, fun other member => ?_⟩
        rcases mem_append.mp member with later | last
        · exact atLeast other later
        · rw [mem_singleton.mp last]
          exact Nat.not_lt.mp notLess
    rw [← singleton_append, ← append_assoc]
    exact ih next

end LeastBusy

theorem findLeastBusy_eq_some {pool : Pool} {id : Nat} :
    pool.findLeastBusy = some id ↔
      pool.canWrite id ∧ IsLeast pool.pendingRequestCount id pool.connections := by
  rw [findLeastBusy]
  cases connections : pool.connections with
  | nil =>
    constructor
    · intro found
      cases found
    · rintro ⟨-, before, after, split, -⟩
      exact absurd split (by simp)
  | cons first others =>
    have least : IsLeast pool.pendingRequestCount
        (leastBy pool.pendingRequestCount first others) (first :: others) :=
      isLeast_leastBy ⟨[], [], rfl, by simp, by simp⟩ others
    dsimp only
    constructor
    · intro found
      split at found
      next canWrite =>
        cases found
        exact ⟨canWrite, least⟩
      · cases found
    · rintro ⟨canWrite, isLeast⟩
      rw [least.unique isLeast, if_pos canWrite]

theorem fst_borrowConnection (config : Config) (pool : Pool) :
    (pool.borrowConnection config).1 = pool.findLeastBusy := by
  rw [borrowConnection]
  split
  next empty => rw [findLeastBusy, empty]
  · cases pool.findLeastBusy with
    | none => rfl
    | some id =>
      dsimp only
      split <;> rfl

/-- A connection that can be written to is borrowed, and one with the fewest pending requests of
those, exactly if there is none or if it is the least busy one of all connections. -/
theorem borrowConnection_leastBusy_iff (config : Config) (pool : Pool) :
    ((∃ id ∈ pool.connections, pool.canWrite id) →
      ∃ id ∈ pool.connections, (pool.borrowConnection config).1 = some id ∧ pool.canWrite id ∧
        ∀ other ∈ pool.connections, pool.canWrite other →
          pool.pendingRequestCount id ≤ pool.pendingRequestCount other) ↔
      (∀ id ∈ pool.connections, ¬ pool.canWrite id) ∨
        ∃ id, pool.canWrite id ∧ IsLeast pool.pendingRequestCount id pool.connections := by
  rw [fst_borrowConnection]
  constructor
  · intro borrows
    by_cases some' : ∃ id ∈ pool.connections, pool.canWrite id
    · obtain ⟨id, -, found, -⟩ := borrows some'
      exact .inr ⟨id, findLeastBusy_eq_some.mp found⟩
    · exact .inl fun id member canWrite => some' ⟨id, member, canWrite⟩
  · rintro (none' | ⟨id, canWrite, least⟩) ⟨other, member, otherWrites⟩
    · exact absurd otherWrites (none' other member)
    · refine ⟨id, ?_, findLeastBusy_eq_some.mpr ⟨canWrite, least⟩, canWrite,
        fun other member _ => least.le other member⟩
      obtain ⟨before, after, split, -⟩ := least
      simp [split]

/-- Two connections, of which the less busy one is closing. -/
def closingAndReady : Pool :=
  { new true with
    state := .ready
    connections := [0, 1]
    objects := [⟨.closeDefunct, .timeout, 0, 128⟩, ⟨.ready, .ok, 1, 127⟩] }

theorem borrowConnection_passes_over_ready :
    closingAndReady.canWrite 1 ∧ (closingAndReady.borrowConnection .default).1 = none := by
  decide

/-! ## The size of a pool -/

variable {config : Config} {pool : Pool}

/-- The established and the pending connections. -/
def size (pool : Pool) : Nat :=
  pool.connections.length + pool.pendingConnections.length

/-- The size is within the limits, and a pool that has not begun to connect is empty. -/
structure Bounded (config : Config) (pool : Pool) : Prop where
  size : pool.size ≤ max config.coreConnectionsPerHost config.maxConnectionsPerHost
  idle : pool.state = .new ∨ pool.state = .waitingToConnect →
    pool.size = 0 ∧ pool.connectTimer ≠ some .partialReconnect

theorem Bounded.framed {after : Pool} (bounded : pool.Bounded config) (framed : pool.Framed after) :
    after.Bounded config := by
  refine ⟨?_, ?_⟩
  · rw [Pool.size, framed.connections, framed.pendingConnections]
    exact bounded.size
  · rw [Pool.size, framed.connections, framed.pendingConnections, framed.state,
      framed.connectTimer]
    exact bounded.idle

/-- A pool that has begun to connect and is not larger. -/
theorem Bounded.shrink {after : Pool} (bounded : pool.Bounded config)
    (smaller : after.size ≤ pool.size)
    (busy : after.state ≠ .new ∧ after.state ≠ .waitingToConnect) : after.Bounded config :=
  ⟨smaller.trans bounded.size, fun idle => absurd idle (by simpa using busy)⟩

theorem size_spawnConnection (pool : Pool) : pool.spawnConnection.size ≤ pool.size + 1 := by
  unfold spawnConnection size
  split
  · simp only [length_append, length_singleton]
    omega
  · omega

theorem state_spawnConnection (pool : Pool) : pool.spawnConnection.state = pool.state := by
  unfold spawnConnection
  split <;> rfl

theorem iterate_spawnConnection (count : Nat) (pool : Pool) :
    (spawnConnection^[count] pool).size ≤ pool.size + count ∧
      (spawnConnection^[count] pool).state = pool.state := by
  induction count generalizing pool with
  | zero => exact ⟨le_rfl, rfl⟩
  | succ count ih =>
    obtain ⟨larger, same⟩ := ih pool.spawnConnection
    have one := size_spawnConnection pool
    rw [Function.iterate_succ_apply]
    exact ⟨by omega, same.trans (state_spawnConnection pool)⟩

theorem bounded_spawn {count : Nat}
    (room : pool.size + count ≤ max config.coreConnectionsPerHost config.maxConnectionsPerHost)
    (busy : pool.state ≠ .new ∧ pool.state ≠ .waitingToConnect) :
    (spawnConnection^[count] pool).Bounded config := by
  obtain ⟨larger, same⟩ := iterate_spawnConnection count pool
  refine ⟨larger.trans room, fun idle => ?_⟩
  rw [same] at idle
  exact absurd idle (by simpa using busy)

section Spawning

variable (bounded : pool.Bounded config)
include bounded

theorem Bounded.maybeSpawnConnection : (pool.maybeSpawnConnection config).Bounded config := by
  unfold Pool.maybeSpawnConnection
  split_ifs with creating full notReady
  · exact bounded
  · exact bounded
  · exact bounded
  · have ready : pool.state = .ready := by simpa using notReady
    have room : pool.size < config.maxConnectionsPerHost := by simpa [Pool.size] using full
    show (spawnConnection^[1] pool).Bounded config
    exact bounded_spawn (by omega) (by simp [ready])

theorem Bounded.maybeNotifyReady : pool.maybeNotifyReady.Bounded config := by
  unfold Pool.maybeNotifyReady
  split_ifs
  · exact bounded.shrink le_rfl (by simp)
  · exact bounded

theorem Bounded.maybeClose : pool.maybeClose.Bounded config := by
  unfold Pool.maybeClose
  split_ifs
  · exact bounded.shrink le_rfl (by simp)
  · exact bounded

theorem Bounded.connect : (pool.connect config).Bounded config := by
  unfold Pool.connect
  split_ifs with idle
  · obtain ⟨larger, -⟩ := iterate_spawnConnection config.coreConnectionsPerHost
      { pool with connectTimer := none }
    have empty : pool.size = 0 := (bounded.idle idle).1
    refine Bounded.maybeNotifyReady ⟨?_, by simp⟩
    exact larger.trans ((Nat.add_le_add_right empty.le _).trans (by simp))
  · exact bounded

end Spawning

theorem Bounded.close (cancelReconnect : Bool) (bounded : pool.Bounded config) :
    (pool.close config cancelReconnect).Bounded config := by
  unfold Pool.close
  refine Bounded.maybeClose ?_
  split_ifs
  · have closing : Bounded config { pool with connectTimer := none, state := .closing } :=
      bounded.shrink le_rfl (by simp)
    refine Bounded.framed ?_ (kept_closeAll _ _ _).toFramed
    refine Bounded.framed ?_ (kept_closeAll _ _ _).toFramed
    exact (closing.framed (kept_setIsAvailable false _).toFramed).framed ⟨rfl, rfl, rfl, rfl⟩
  · exact bounded

theorem Bounded.onReady {id : Nat} (bounded : pool.Bounded config)
    (pending : id ∈ pool.pendingConnections) : (pool.onReady id).Bounded config := by
  have fewer : (pool.pendingConnections.filter (· ≠ id)).length < pool.pendingConnections.length :=
    length_filter_lt_length_iff_exists.2 ⟨id, pending, by simp⟩
  have filled : pool.size ≠ 0 := by
    have := length_pos_of_mem pending
    unfold Pool.size
    omega
  refine Bounded.maybeNotifyReady (bounded.shrink ?_ ?_)
  · simp only [Pool.size, length_append, length_singleton]
    omega
  · exact not_or.1 fun idle => filled (bounded.idle idle).1

theorem Bounded.onClose {id : Nat} (connection : Connection) (bounded : pool.Bounded config)
    (owned : pool.owns id) : (pool.onClose config id connection).Bounded config := by
  have filled : pool.size ≠ 0 := by
    intro empty
    simp [Pool.size, owns] at empty owned
    simp [empty] at owned
  have busy := not_or.1 fun idle => filled (bounded.idle idle).1
  have smaller : (pool.connections.erase id).length +
      (pool.pendingConnections.filter (· ≠ id)).length ≤ pool.size :=
    Nat.add_le_add (length_erase_le) (length_filter_le _ _)
  have removed (after : Pool) (connections : after.connections = pool.connections.erase id)
      (pending : after.pendingConnections = pool.pendingConnections.filter (· ≠ id))
      (state : after.state = pool.state) : after.Bounded config := by
    refine bounded.shrink ?_ (state ▸ busy)
    rw [Pool.size, connections, pending]
    exact smaller
  unfold Pool.onClose
  dsimp only
  split_ifs
  · exact Bounded.maybeNotifyReady (removed _ rfl rfl rfl)
  · exact Bounded.maybeNotifyReady (removed _ rfl rfl rfl)
  · exact Bounded.close false (removed _ rfl rfl rfl)
  · exact Bounded.close false (removed _ rfl rfl rfl)
  · exact Bounded.maybeClose (Bounded.maybeNotifyReady (removed _ rfl rfl rfl))

section Calls

variable (bounded : pool.Bounded config)
include bounded

theorem Bounded.onTimeout : (pool.onTimeout config).Bounded config := by
  unfold Pool.onTimeout
  split
  · exact bounded
  · refine Bounded.connect ⟨bounded.size, fun idle => ⟨(bounded.idle idle).1, by simp⟩⟩
  · rename_i timer
    have busy := not_or.1 fun idle => (bounded.idle idle).2 timer
    refine bounded_spawn ?_ busy
    have := bounded.size
    simp only [Pool.size] at this ⊢
    omega

theorem Bounded.borrowConnection : (pool.borrowConnection config).2.Bounded config := by
  obtain ⟨count, borrowed⟩ := exists_borrowConnection_eq config pool
  rw [borrowed]
  exact Function.Iterate.rec (Bounded config) bounded (fun _ => Bounded.maybeSpawnConnection) count

theorem Bounded.removePendingRequest : (pool.removePendingRequest config).Bounded config := by
  unfold Pool.removePendingRequest
  split_ifs
  · exact bounded
  · refine Bounded.framed ?_ (kept_setIsAvailable true _).toFramed
    exact bounded.framed ⟨rfl, rfl, rfl, rfl⟩

theorem Bounded.step (event : PoolEvent) : (pool.step config event).Bounded config := by
  cases event with
  | connect => exact bounded.connect
  | delayedConnect =>
    simp only [Pool.step, delayedConnect]
    split_ifs with fresh
    · exact ⟨bounded.size, fun _ => ⟨(bounded.idle (.inl fresh)).1, by simp⟩⟩
    · exact bounded
  | close cancelReconnect => exact bounded.close cancelReconnect
  | borrow => exact bounded.borrowConnection
  | startup id isRegistering =>
    cases isRegistering <;> simp only [Pool.step] <;> split_ifs
    · exact bounded.framed (kept_setState id _ pool).toFramed
    · exact bounded
    · exact bounded.framed (kept_setState id _ pool).toFramed
    · exact bounded
  | overwhelmed id => exact bounded.framed (kept_setState id _ pool).toFramed
  | relieved id =>
    simp only [Pool.step]
    split_ifs
    · exact bounded.framed (kept_setState id _ pool).toFramed
    · exact bounded
  | streams id pending available => exact bounded.framed ⟨rfl, rfl, rfl, rfl⟩
  | ready id =>
    simp only [Pool.step, notifyReady]
    split_ifs with pending
    · have framed := (@kept_setState config id .ready pool).toFramed
      exact (bounded.framed framed).onReady (framed.pendingConnections ▸ pending)
    · exact bounded
  | fail id code =>
    refine Bounded.framed ?_ (kept_internalClose .closeDefunct _ id).toFramed
    exact bounded.framed ⟨rfl, rfl, rfl, rfl⟩
  | closed id =>
    simp only [Pool.step, connectionClosed]
    split
    · exact bounded
    · split_ifs with finished
      · exact bounded.onClose _ finished.1
      · exact bounded
  | timeout => exact bounded.onTimeout
  | waitForConnection =>
    have added : Bounded config { pool with pendingRequests := pool.pendingRequests + 1 } :=
      bounded.framed ⟨rfl, rfl, rfl, rfl⟩
    simp only [Pool.step, waitForConnection]
    split_ifs
    · exact added.framed (kept_setIsAvailable false _).toFramed
    · exact added
  | removePendingRequest => exact bounded.removePendingRequest
  | pendingRequestTimeout => exact bounded.removePendingRequest.maybeClose

end Calls

/-- The number of established and pending connections stays within the larger of the two limits. -/
theorem size_le_max (config : Config) (isUnavailable : Bool) (events : List PoolEvent) :
    (events.foldl (step config) (new isUnavailable)).size ≤
      max config.coreConnectionsPerHost config.maxConnectionsPerHost := by
  have started : Bounded config (new isUnavailable) := ⟨Nat.zero_le _, fun _ => ⟨rfl, by simp [new]⟩⟩
  suffices ∀ pool : Pool, pool.Bounded config →
      (events.foldl (step config) pool).Bounded config from (this _ started).size
  induction events with
  | nil => exact fun _ bounded => bounded
  | cons event events ih => exact fun pool bounded => ih _ (bounded.step event)

end Pool

end DseDriver.Pools
