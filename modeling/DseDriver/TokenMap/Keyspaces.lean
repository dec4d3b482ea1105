import DseDriver.TokenMap.Ownership

/-!
# Keyspace rows

The rows of the keyspace table as `TokenMapImpl::update_keyspace` reads them.  The options of a
replication setting are the pairs that `init` reads from the map or the JSON text, each with the
count that `strtoul` gives for it; the class is kept apart.
-/

namespace DseDriver.TokenMap

variable {Token Address : Type}

/-- A row of the keyspace table.  A row whose name cannot be read is passed over. -/
structure KeyspaceRow where
  keyspaceName : Option String
  strategyClass : String
  options : List (String × Nat)
  deriving DecidableEq, Repr

/-- `ends_with`. -/
def endsWith (text ending : String) : Bool :=
  ending.toList.isSuffixOf text.toList

/-- The type that `ReplicationStrategy::init` takes from the class. -/
def KeyspaceRow.strategyType (row : KeyspaceRow) : StrategyType :=
  if endsWith row.strategyClass "NetworkTopologyStrategy" then
    .networkTopology
  else if endsWith row.strategyClass "SimpleStrategy" then
    .simple
  else
    .nonReplicated

/-- How `ReplicationStrategy::init` stores one option. -/
def ReplicationStrategy.addOption (state : ReplicationStrategy × IdGenerator)
    (option : String × Nat) : ReplicationStrategy × IdGenerator :=
  let factor : ReplicationFactor := { count := option.2, name := option.1 }
  if option.2 = 0 then
    state
  else if option.1 = "replication_factor" then
    (state.1.setFactor 1 factor, state.2)
  else
    let (id, dcIds) := state.2.get option.1
    (state.1.setFactor id factor, dcIds)

/-- `ReplicationStrategy::init`, on a new strategy. -/
def ReplicationStrategy.init (dcIds : IdGenerator) (row : KeyspaceRow) :
    ReplicationStrategy × IdGenerator :=
  let (strategy, dcIds) := row.options.foldl addOption (.new, dcIds)
  ({ strategy with type := row.strategyType }, dcIds)

namespace TokenMapImpl

/-- `TokenMapImpl::update_keyspace`, for one row. -/
def updateKeyspaceRow (shouldBuildReplicas : Bool) (map : TokenMapImpl Token Address)
    (row : KeyspaceRow) : TokenMapImpl Token Address :=
  match row.keyspaceName with
  | none => map
  | some keyspaceName =>
    let (strategy, dcIds) := ReplicationStrategy.init map.dcIds row
    { map with dcIds }.updateKeyspace keyspaceName strategy shouldBuildReplicas

/-- `TokenMapImpl::update_keyspaces_and_build`. -/
def updateKeyspacesAndBuild (map : TokenMapImpl Token Address) (rows : List KeyspaceRow) :
    TokenMapImpl Token Address :=
  rows.foldl (updateKeyspaceRow true) map

/-- `TokenMapImpl::add_keyspaces`. -/
def addKeyspaces (map : TokenMapImpl Token Address) (rows : List KeyspaceRow) :
    TokenMapImpl Token Address :=
  rows.foldl (updateKeyspaceRow false) map

theorem mem_updateKeyspace (map : TokenMapImpl Token Address) (keyspaceName : String)
    (strategy : ReplicationStrategy) (shouldBuildReplicas : Bool) (other : String) :
    other ∈ (map.updateKeyspace keyspaceName strategy shouldBuildReplicas).strategies ↔
      other = keyspaceName ∨ other ∈ map.strategies := by
  rw [updateKeyspace]
  by_cases changed : map.strategyChanged keyspaceName strategy
  · rw [if_pos changed]
    cases shouldBuildReplicas <;> exact AList.mem_insert _
  · rw [if_neg changed]
    have known : keyspaceName ∈ map.strategies := by
      by_contra absent
      exact changed (by rw [strategyChanged, AList.lookup_eq_none.mpr absent])
    exact ⟨.inr, fun either => either.elim (· ▸ known) id⟩

/-- The map has read these rows since its keyspaces were cleared. -/
structure HasRead (rows : List KeyspaceRow) (map : TokenMapImpl Token Address) : Prop where
  known : map.TablesKnown
  mem_strategies : ∀ keyspaceName, keyspaceName ∈ map.strategies ↔
    ∃ row ∈ rows, row.keyspaceName = some keyspaceName

variable {map : TokenMapImpl Token Address} {rows : List KeyspaceRow}

theorem HasRead.clear (map : TokenMapImpl Token Address) :
    map.clearReplicasAndStrategies.HasRead [] where
  known := .clearReplicasAndStrategies map
  mem_strategies keyspaceName :=
    iff_of_false (AList.notMem_empty keyspaceName) (fun ⟨_, member, _⟩ => nomatch member)

theorem HasRead.updateKeyspaceRow (hasRead : map.HasRead rows) (shouldBuildReplicas : Bool)
    (row : KeyspaceRow) : (map.updateKeyspaceRow shouldBuildReplicas row).HasRead (rows ++ [row]) := by
  rcases row with ⟨keyspaceName, strategyClass, options⟩
  cases keyspaceName with
  | none =>
    refine ⟨hasRead.known, fun keyspaceName => (hasRead.mem_strategies keyspaceName).trans ?_⟩
    simp
  | some name =>
    have known (dcIds : IdGenerator) : { map with dcIds }.TablesKnown := hasRead.known
    constructor
    · exact (known _).updateKeyspace name _ shouldBuildReplicas
    · intro keyspaceName
      refine (mem_updateKeyspace ..).trans ?_
      simp only [hasRead.mem_strategies, List.mem_append, List.mem_singleton, or_and_right,
        exists_or, exists_eq_left, Option.some.injEq]
      rw [or_comm, eq_comm]

theorem HasRead.foldl (hasRead : map.HasRead rows) (shouldBuildReplicas : Bool)
    (more : List KeyspaceRow) :
    (more.foldl (TokenMapImpl.updateKeyspaceRow shouldBuildReplicas) map).HasRead (rows ++ more) := by
  induction more generalizing map rows with
  | nil => simpa using hasRead
  | cons row more ih => simpa using ih (hasRead.updateKeyspaceRow shouldBuildReplicas row)

end TokenMapImpl

end DseDriver.TokenMap
