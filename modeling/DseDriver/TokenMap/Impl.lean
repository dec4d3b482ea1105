import Mathlib.Data.List.Sort
import DseDriver.TokenMap.Replication

/-!
# The token map

The operations of `TokenMapImpl`.  There is one `Host` object for each address, and
the host set, the token vector and the caller all point to it, so that the
identifiers stored by `update_host_ids` show in all of them.  Keyspace rows are
taken as the strategies `init` reads from them.  The token vector is sorted by
token; the order of two equal tokens, which the source leaves to the addresses of
the host objects, is the order of insertion here.
-/

namespace DseDriver.TokenMap

open List

variable {Token Address : Type}

/-- `IdGenerator`. -/
structure IdGenerator where
  ids : AList fun _ : String => UInt32

namespace IdGenerator

/-- `IdGenerator()`. -/
def new : IdGenerator := { ids := ∅ }

/-- `IdGenerator::get`.  No identifier is zero until the counter wraps. -/
def get (generator : IdGenerator) (key : String) : UInt32 × IdGenerator :=
  if key = "" then
    (0, generator)
  else
    match generator.ids.lookup key with
    | some id => (id, generator)
    | none =>
      let id := UInt32.ofNat (generator.ids.keys.length + 1)
      (id, { ids := generator.ids.insert key id })

end IdGenerator

section

variable [DecidableEq Address]

/-- The object of the host's address, after its fields have been set. -/
def Host.assign (host other : Host Address) : Host Address :=
  if other.address = host.address then host else other

@[simp]
theorem Host.assign_address (host other : Host Address) :
    (host.assign other).address = other.address := by
  unfold Host.assign
  split
  · rename_i same
    exact same.symm
  · rfl

namespace HostSet

/-- The set as it shows new fields of one of its objects. -/
def assign (hosts : HostSet Address) (host : Host Address) : HostSet Address where
  hosts := hosts.hosts.map host.assign
  distinct := by
    have same : Host.address ∘ host.assign = Host.address := funext host.assign_address
    rw [map_map, same]
    exact hosts.distinct

/-- Inserting a host whose address is present keeps the set. -/
def insert (hosts : HostSet Address) (host : Host Address) : HostSet Address :=
  if absent : host.address ∈ hosts.hosts.map Host.address then
    hosts
  else
    { hosts := host :: hosts.hosts
      distinct := nodup_cons.mpr ⟨absent, hosts.distinct⟩ }

def erase (hosts : HostSet Address) (address : Address) : HostSet Address where
  hosts := hosts.hosts.filter fun host => host.address ≠ address
  distinct := hosts.distinct.sublist (filter_sublist.map _)

end HostSet

end

/-- How dense hash maps of replication factors are compared. -/
def ReplicationFactorMap.same (left right : ReplicationFactorMap) : Bool :=
  left.entries.length = right.entries.length ∧
    ∀ entry ∈ left.entries, right.lookup entry.1 = some entry.2

/-- `ReplicationStrategy::operator!=`. -/
def ReplicationStrategy.differs (left right : ReplicationStrategy) : Bool :=
  left.type ≠ right.type ∨ ¬ ReplicationFactorMap.same left.replicationFactors right.replicationFactors

/-- `TokenMapImpl`. -/
structure TokenMapImpl (Token Address : Type) where
  tokens : List (Token × Host Address)
  hosts : HostSet Address
  datacenters : DatacenterMap
  replicas : AList fun _ : String => List (Token × List (Host Address))
  strategies : AList fun _ : String => ReplicationStrategy
  rackIds : IdGenerator
  dcIds : IdGenerator

namespace TokenMapImpl

variable (map : TokenMapImpl Token Address)

/-- `TokenMapImpl()`. -/
def new : TokenMapImpl Token Address where
  tokens := []
  hosts := { hosts := [], distinct := nodup_nil }
  datacenters := ∅
  replicas := ∅
  strategies := ∅
  rackIds := .new
  dcIds := .new

/-- The replica table stored for one keyspace. -/
def storeReplicas (tokens : List (Token × Host Address)) (datacenters : DatacenterMap)
    (replicas : AList fun _ : String => List (Token × List (Host Address)))
    (entry : Sigma fun _ : String => ReplicationStrategy) :
    AList fun _ : String => List (Token × List (Host Address)) :=
  replicas.insert entry.1 (entry.2.buildReplicas tokens datacenters)

/-- `TokenMapImpl::build_replicas`. -/
def buildReplicas : TokenMapImpl Token Address :=
  let datacenters := buildDatacenters map.hosts.hosts
  { map with
    datacenters
    replicas := map.strategies.entries.foldl (storeReplicas map.tokens datacenters) map.replicas }

/-- Whether the keyspace has no strategy yet or another one. -/
def strategyChanged (keyspaceName : String) (strategy : ReplicationStrategy) : Bool :=
  match map.strategies.lookup keyspaceName with
  | none => true
  | some stored => stored.differs strategy

/-- `TokenMapImpl::update_keyspace`, for one row of the result. -/
def updateKeyspace (keyspaceName : String)
    (strategy : ReplicationStrategy) (shouldBuildReplicas : Bool) : TokenMapImpl Token Address :=
  if map.strategyChanged keyspaceName strategy then
    let map := { map with strategies := map.strategies.insert keyspaceName strategy }
    if shouldBuildReplicas then
      let datacenters := buildDatacenters map.hosts.hosts
      { map with
        datacenters
        replicas := storeReplicas map.tokens datacenters map.replicas ⟨keyspaceName, strategy⟩ }
    else
      map
  else
    map

/-- `TokenMapImpl::drop_keyspace`. -/
def dropKeyspace (keyspaceName : String) : TokenMapImpl Token Address :=
  { map with
    replicas := map.replicas.erase keyspaceName
    strategies := map.strategies.erase keyspaceName }

/-- `TokenMapImpl::clear_replicas_and_strategies`. -/
def clearReplicasAndStrategies : TokenMapImpl Token Address :=
  { map with replicas := ∅, strategies := ∅ }

/-- `TokenMapImpl::clear_tokens_and_hosts`. -/
def clearTokensAndHosts : TokenMapImpl Token Address :=
  { map with tokens := [], hosts := { hosts := [], distinct := nodup_nil } }

section

variable [LinearOrder Token]

/-- The order of `TokenHostCompare`. -/
def sortTokens (tokens : List (Token × Host Address)) : List (Token × Host Address) :=
  tokens.insertionSort fun left right => left.1 ≤ right.1

/-- `std::merge` with `TokenHostCompare`: of two equal tokens, the first range's
comes first. -/
def mergeTokens (left right : List (Token × Host Address)) : List (Token × Host Address) :=
  left.merge right fun first second => first.1 ≤ second.1

/-- `TokenMapImpl::build`. -/
def build : TokenMapImpl Token Address :=
  buildReplicas { map with tokens := sortTokens map.tokens }

/-- `TokenMapImpl::get_replicas`; `none` stands for `no_replicas_`.  On a sorted
table `std::upper_bound` is the first entry above the hash. -/
def getReplicas (hash : List UInt8 → Token) (map : TokenMapImpl Token Address)
    (keyspaceName : String) (routingKey : List UInt8) : Option (List (Host Address)) :=
  match map.replicas.lookup keyspaceName with
  | none => none
  | some replicas =>
    match replicas.find? fun entry => hash routingKey < entry.1 with
    | some entry => some entry.2
    | none => replicas.head?.map Prod.snd

end

section

variable [DecidableEq Address]

/-- `TokenMapImpl::update_host_ids`. -/
def updateHostIds (address : Address) (rack dc : String) :
    Host Address × TokenMapImpl Token Address :=
  let (rackId, rackIds) := map.rackIds.get rack
  let (dcId, dcIds) := map.dcIds.get dc
  let host : Host Address := { address, rackId, dcId }
  (host, { map with
    tokens := map.tokens.map fun entry => (entry.1, host.assign entry.2)
    hosts := map.hosts.assign host
    rackIds
    dcIds })

/-- `TokenMapImpl::remove_host_tokens`. -/
def removeHostTokens (address : Address) : TokenMapImpl Token Address :=
  { map with tokens := map.tokens.filter fun entry => entry.2.address ≠ address }

/-- `TokenMapImpl::add_host`. -/
def addHost (address : Address) (rack dc : String)
    (tokens : List Token) : TokenMapImpl Token Address :=
  let (host, map) := map.updateHostIds address rack dc
  { map with
    hosts := map.hosts.insert host
    tokens := map.tokens ++ tokens.map fun token => (token, host) }

/-- `TokenMapImpl::remove_host_and_build`. -/
def removeHostAndBuild (address : Address) : TokenMapImpl Token Address :=
  let map := map.removeHostTokens address
  buildReplicas { map with hosts := map.hosts.erase address }

variable [LinearOrder Token]

/-- `TokenMapImpl::update_host_and_build`. -/
def updateHostAndBuild (address : Address) (rack dc : String)
    (tokens : List Token) : TokenMapImpl Token Address :=
  let (host, map) := (map.removeHostTokens address).updateHostIds address rack dc
  buildReplicas { map with
    hosts := map.hosts.insert host
    tokens := mergeTokens map.tokens (sortTokens (tokens.map fun token => (token, host))) }

end

end TokenMapImpl

end DseDriver.TokenMap
