import Mathlib.Data.Finset.Card
import Mathlib.Data.List.AList
import Mathlib.Data.List.Rotate

/-!
# Replication strategies of the token map

The replica computation of `token_map_impl.hpp`, for any token type and any
address type.  The hash maps of the source are finite maps here, its sets of rack
ids are finite sets, and a walk over the ring that starts at one token and wraps
at the end is the rotated token list.
-/

namespace DseDriver.TokenMap

/-- What the replica computation reads of a `Host`.  Identifier zero stands for an
unknown rack or datacenter. -/
structure Host (Address : Type) where
  address : Address
  rackId : UInt32
  dcId : UInt32
  deriving DecidableEq, Repr

/-- `HostSet`: no two hosts have the same address. -/
structure HostSet (Address : Type) where
  hosts : List (Host Address)
  distinct : (hosts.map Host.address).Nodup

/-- `Datacenter`. -/
structure Datacenter where
  numNodes : Nat
  racks : Finset UInt32

/-- `ReplicationFactor`.  The name is only used in log messages. -/
structure ReplicationFactor where
  count : Nat
  name : String
  deriving DecidableEq, Repr

abbrev DatacenterMap := AList fun _ : UInt32 => Datacenter

abbrev ReplicationFactorMap := AList fun _ : UInt32 => ReplicationFactor

variable {Token Address : Type}

/-- The body of the loop of `build_datacenters`. -/
def addToDatacenters (result : DatacenterMap) (host : Host Address) : DatacenterMap :=
  if host.dcId ≠ 0 ∧ host.rackId ≠ 0 then
    let datacenter := (result.lookup host.dcId).getD { numNodes := 0, racks := ∅ }
    result.insert host.dcId
      { numNodes := datacenter.numNodes + 1, racks := insert host.rackId datacenter.racks }
  else
    result

/-- `build_datacenters`. -/
def buildDatacenters (hosts : List (Host Address)) : DatacenterMap :=
  hosts.foldl addToDatacenters ∅

/-- `ReplicationStrategy::Type`. -/
inductive StrategyType where
  | networkTopology
  | simple
  | nonReplicated
  deriving DecidableEq, Repr

/-- `ReplicationStrategy`.  `init` stores no replication factor of zero. -/
structure ReplicationStrategy where
  type : StrategyType
  replicationFactors : ReplicationFactorMap
  positive : ∀ dc factor, replicationFactors.lookup dc = some factor → 0 < factor.count

namespace ReplicationStrategy

/-- `ReplicationStrategy()`. -/
def new : ReplicationStrategy :=
  { type := .nonReplicated, replicationFactors := ∅, positive := by simp }

/-- How `init` stores the count of one replication option. -/
def setFactor (strategy : ReplicationStrategy) (dc : UInt32) (factor : ReplicationFactor) :
    ReplicationStrategy :=
  if stored : 0 < factor.count then
    { strategy with
      replicationFactors := strategy.replicationFactors.insert dc factor
      positive := by
        intro key found present
        by_cases same : key = dc
        · subst same
          rw [AList.lookup_insert, Option.some.injEq] at present
          exact present ▸ stored
        · rw [AList.lookup_insert_ne same] at present
          exact strategy.positive key found present }
  else
    strategy

end ReplicationStrategy

/-! ## NetworkTopologyStrategy -/

/-- `DatacenterRackInfo`.  A skipped endpoint is only used for its host. -/
structure DatacenterRackInfo (Address : Type) where
  replicaCount : Nat
  replicationFactor : Nat
  racksObserved : Finset UInt32
  rackCount : Nat
  skippedEndpoints : List (Host Address)

abbrev DatacenterRackInfoMap (Address : Type) := AList fun _ : UInt32 => DatacenterRackInfo Address

/-- One round of the loop that sets up the datacenters: datacenters without hosts
are not counted, and a factor does not exceed the number of nodes. -/
def addDcRackInfo (datacenters : DatacenterMap)
    (state : Nat × DatacenterRackInfoMap Address)
    (entry : Sigma fun _ : UInt32 => ReplicationFactor) : Nat × DatacenterRackInfoMap Address :=
  match datacenters.lookup entry.1 with
  | some datacenter =>
    let replicationFactor := min entry.2.count datacenter.numNodes
    (state.1 + replicationFactor,
      state.2.insert entry.1
        { replicaCount := 0
          replicationFactor
          racksObserved := ∅
          rackCount := datacenter.racks.card
          skippedEndpoints := [] })
  | none => state

/-- The number of replicas and the per-datacenter state at the start of a walk. -/
def initDcRacks (factors : ReplicationFactorMap) (datacenters : DatacenterMap) :
    Nat × DatacenterRackInfoMap Address :=
  factors.entries.foldl (addDcRackInfo datacenters) (0, ∅)

/-- The loop that takes hosts back from the skipped endpoints. -/
def drainSkipped (info : DatacenterRackInfo Address) (replicas : List (Host Address)) :
    List (Host Address) → DatacenterRackInfo Address × List (Host Address)
  | [] => ({ info with skippedEndpoints := [] }, replicas)
  | host :: rest =>
    if info.replicaCount < info.replicationFactor then
      drainSkipped { info with replicaCount := info.replicaCount + 1 } (replicas ++ [host]) rest
    else
      ({ info with skippedEndpoints := host :: rest }, replicas)

/-- What one host of a walk does to its datacenter. -/
def placeInDatacenter (info : DatacenterRackInfo Address) (host : Host Address)
    (replicas : List (Host Address)) : DatacenterRackInfo Address × List (Host Address) :=
  if info.replicaCount ≥ info.replicationFactor then
    (info, replicas)
  else if host.rackId = 0 ∨ info.racksObserved.card = info.rackCount then
    ({ info with replicaCount := info.replicaCount + 1 }, replicas ++ [host])
  else if host.rackId ∈ info.racksObserved then
    ({ info with skippedEndpoints := info.skippedEndpoints ++ [host] }, replicas)
  else
    let info := { info with
      replicaCount := info.replicaCount + 1
      racksObserved := insert host.rackId info.racksObserved }
    let replicas := replicas ++ [host]
    if info.racksObserved.card = info.rackCount then
      drainSkipped info replicas info.skippedEndpoints
    else
      (info, replicas)

/-- The body of the walk: hosts of other datacenters are passed over. -/
def placeHost (state : DatacenterRackInfoMap Address × List (Host Address))
    (host : Host Address) : DatacenterRackInfoMap Address × List (Host Address) :=
  match state.1.lookup host.dcId with
  | none => state
  | some info =>
    let (info, replicas) := placeInDatacenter info host state.2
    (state.1.insert host.dcId info, replicas)

/-- The walk around the ring, which ends early once there are enough replicas. -/
def placeHosts (numReplicas : Nat) (state : DatacenterRackInfoMap Address × List (Host Address)) :
    List (Host Address) → List (Host Address)
  | [] => state.2
  | host :: rest =>
    if state.2.length < numReplicas then
      placeHosts numReplicas (placeHost state host) rest
    else
      state.2

/-- The hosts met by walking the ring clockwise from the token at the index. -/
def walk (tokens : List (Token × Host Address)) (index : Nat) : List (Host Address) :=
  (tokens.rotate index).map Prod.snd

/-- One replica list for each token, computed from the walk that starts there. -/
def replicasOfWalks (tokens : List (Token × Host Address))
    (replicas : List (Host Address) → List (Host Address)) :
    List (Token × List (Host Address)) :=
  tokens.zipIdx.map fun (entry, index) => (entry.1, replicas (walk tokens index))

namespace ReplicationStrategy

variable (strategy : ReplicationStrategy) (tokens : List (Token × Host Address))

/-- `ReplicationStrategy::build_replicas_network_topology`.  Clearing the datacenter
state before each walk gives back the state set up before the loop. -/
def buildReplicasNetworkTopology (datacenters : DatacenterMap) : List (Token × List (Host Address)) :=
  if strategy.replicationFactors.entries.isEmpty then
    []
  else
    let (numReplicas, dcRacks) := initDcRacks strategy.replicationFactors datacenters
    if numReplicas = 0 then
      []
    else
      replicasOfWalks tokens fun hosts => placeHosts numReplicas (dcRacks, []) hosts

/-- `ReplicationStrategy::build_replicas_simple`.  The loop pushes one host in each
round and tests the size afterwards, so it runs at least once. -/
def buildReplicasSimple : List (Token × List (Host Address)) :=
  match strategy.replicationFactors.lookup 1 with
  | none => []
  | some factor =>
    let numReplicas := min factor.count tokens.length
    replicasOfWalks tokens fun hosts => hosts.take (max 1 numReplicas)

/-- `ReplicationStrategy::build_replicas_non_replicated`. -/
def buildReplicasNonReplicated : List (Token × List (Host Address)) :=
  tokens.map fun entry => (entry.1, [entry.2])

/-- `ReplicationStrategy::build_replicas`. -/
def buildReplicas (datacenters : DatacenterMap) : List (Token × List (Host Address)) :=
  match strategy.type with
  | .networkTopology => strategy.buildReplicasNetworkTopology tokens datacenters
  | .simple => strategy.buildReplicasSimple tokens
  | .nonReplicated => buildReplicasNonReplicated tokens

end ReplicationStrategy

end DseDriver.TokenMap
