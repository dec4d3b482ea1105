import DseDriver.TokenMap.NetworkTopology

/-!
# When replica lists are free of repetitions

A ring gives a host any number of tokens.  SimpleStrategy takes the owners of
consecutive tokens, and NetworkTopologyStrategy the first places of a placement
over racks; neither looks at whether a host is already a replica.  The result
states how far apart the tokens of a host have to be for the replica lists to be
what they are for: different hosts, and for SimpleStrategy the first distinct
owners.
-/

namespace DseDriver.TokenMap

open Lib List

variable {Token Address : Type}

section

variable [DecidableEq Address]

/-- Replica lists as they should be: no host occurs twice, and SimpleStrategy takes
the first distinct owners met from the token on. -/
def ReplicaListsCorrect (strategy : ReplicationStrategy) (hosts : HostSet Address)
    (tokens : List (Token × Host Address)) : Prop :=
  ∀ index token replicas,
    (strategy.buildReplicas tokens (buildDatacenters hosts.hosts))[index]? =
      some (token, replicas) →
    (replicas.map Host.address).Nodup ∧
      (strategy.type = .simple → ∀ factor, strategy.replicationFactors.lookup 1 = some factor →
        replicas = (walk tokens index).eraseDups.take
          (min factor.count (tokens.map Prod.snd).eraseDups.length))

end

/-- Any two tokens of a host are at least the number of replicas apart on the ring. -/
def SimpleSpaced (factor : ReplicationFactor) (tokens : List (Token × Host Address)) : Prop :=
  ∀ first second, first < second → second < tokens.length →
    (tokens[first]?).map Prod.snd = (tokens[second]?).map Prod.snd →
    min factor.count tokens.length ≤ second - first ∧
      min factor.count tokens.length ≤ tokens.length - (second - first)

/-- On every walk, each further token of a host comes late among the tokens of its datacenter.  If
all racks come before it, at least as many tokens as the datacenter has replicas do.  If not, and its
rack is unknown, the racks and the tokens in unknown racks before it are that many.  Otherwise, if
the missing racks come at all, the racks, the tokens in unknown racks before the last of them, and
the tokens before it that are not the first of their rack are that many. -/
def NetworkTopologySpaced (factors : ReplicationFactorMap) (datacenters : DatacenterMap)
    (tokens : List (Token × Host Address)) : Prop :=
  ∀ index < tokens.length, ∀ dc limit rackCount,
    limits factors datacenters dc = some (limit, rackCount) →
    Placement.Late rackOf rackCount limit (inDatacenter dc (walk tokens index))

/-- The tokens of each host are far enough apart for the strategy. -/
def Spaced (strategy : ReplicationStrategy) (hosts : HostSet Address)
    (tokens : List (Token × Host Address)) : Prop :=
  match strategy.type with
  | .simple => ∀ factor, strategy.replicationFactors.lookup 1 = some factor →
      SimpleSpaced factor tokens
  | .networkTopology =>
    NetworkTopologySpaced strategy.replicationFactors (buildDatacenters hosts.hosts) tokens
  | .nonReplicated => True

/-! ## Hosts of a set -/

/-- Among hosts of one set, an address stands for its host. -/
theorem HostSet.map_address_nodup_iff (hosts : HostSet Address) {replicas : List (Host Address)}
    (subset : replicas ⊆ hosts.hosts) :
    (replicas.map Host.address).Nodup ↔ replicas.Nodup := by
  constructor
  · exact List.Nodup.of_map _
  · intro nodup
    refine nodup.map_on fun left leftMember right rightMember same => ?_
    exact inj_on_of_nodup_map hosts.distinct (subset leftMember) (subset rightMember) same

theorem walk_length (tokens : List (Token × Host Address)) (index : Nat) :
    (walk tokens index).length = tokens.length := by
  simp [walk]

variable {tokens : List (Token × Host Address)}

theorem mem_walk {index : Nat} {host : Host Address} :
    host ∈ walk tokens index ↔ host ∈ tokens.map Prod.snd := by
  simp [walk]

theorem replicasOfWalks_getElem? (tokens : List (Token × Host Address))
    (replicas : List (Host Address) → List (Host Address)) (index : Nat) :
    (replicasOfWalks tokens replicas)[index]? =
      (tokens[index]?).map fun entry => (entry.1, replicas (walk tokens index)) := by
  simp only [replicasOfWalks, getElem?_map, getElem?_zipIdx, Option.map_map, Nat.zero_add]
  rfl

/-- Every replica list comes from the walk that starts at its token. -/
theorem forall_replicasOfWalks (tokens : List (Token × Host Address))
    (replicas : List (Host Address) → List (Host Address))
    (property : Nat → List (Host Address) → Prop) :
    (∀ index token found, (replicasOfWalks tokens replicas)[index]? = some (token, found) →
        property index found) ↔
      ∀ index < tokens.length, property index (replicas (walk tokens index)) := by
  constructor
  · intro every index inside
    apply every index (tokens.get ⟨index, inside⟩).1
    rw [replicasOfWalks_getElem?, getElem?_eq_getElem inside]
    rfl
  · intro every index token found present
    rw [replicasOfWalks_getElem?, Option.map_eq_some_iff] at present
    rcases present with ⟨entry, stored, same⟩
    rw [Prod.mk.injEq] at same
    rw [← same.2]
    exact every index (List.getElem?_eq_some_iff.mp stored).1

/-! ## SimpleStrategy -/

theorem simpleSpaced_iff (factor : ReplicationFactor) (tokens : List (Token × Host Address)) :
    SimpleSpaced factor tokens ↔ ∀ index < tokens.length,
      ((walk tokens index).take (min factor.count tokens.length)).Nodup := by
  have short : min factor.count tokens.length ≤ (tokens.map Prod.snd).length := by simp
  have windows := nodup_windows_iff short
  simp only [length_map, getElem?_map] at windows
  unfold SimpleSpaced walk
  simp only [map_rotate]
  exact windows.symm

section

variable [DecidableEq Address]

/-- Windows without repetitions are the first distinct owners. -/
theorem take_walk_eq {factor : ReplicationFactor}
    (windows : ∀ index < tokens.length,
      ((walk tokens index).take (min factor.count tokens.length)).Nodup)
    {index : Nat} (inside : index < tokens.length) :
    (walk tokens index).take (min factor.count tokens.length) =
      (walk tokens index).eraseDups.take
        (min factor.count (tokens.map Prod.snd).eraseDups.length) := by
  have fits : min factor.count tokens.length ≤ (walk tokens index).length := by
    rw [walk_length]
    exact min_le_right ..
  have owners : min factor.count tokens.length ≤ (tokens.map Prod.snd).eraseDups.length := by
    have first := windows 0 (by omega)
    rw [walk, rotate_zero] at first
    exact length_le_eraseDups first (by simp)
  by_cases small : factor.count ≤ tokens.length
  · rw [min_eq_left small] at fits owners ⊢
    have window := windows index inside
    rw [min_eq_left small] at window
    rw [min_eq_left owners, take_eraseDups window fits]
  · have window := windows index inside
    rw [min_eq_right (by omega), ← walk_length tokens index, take_length] at window
    rw [min_eq_right (by omega)] at owners
    rw [eraseDups_of_nodup window, take_of_length_le (by rw [walk_length]; omega),
      take_of_length_le (by rw [walk_length]; omega)]

theorem replicaListsCorrect_simple_iff {strategy : ReplicationStrategy} (hosts : HostSet Address)
    (owned : tokens.map Prod.snd ⊆ hosts.hosts) (simple : strategy.type = .simple) :
    ReplicaListsCorrect strategy hosts tokens ↔
      ∀ factor, strategy.replicationFactors.lookup 1 = some factor → SimpleSpaced factor tokens := by
  unfold ReplicaListsCorrect ReplicationStrategy.buildReplicas
  simp only [simple, ReplicationStrategy.buildReplicasSimple]
  cases stored : strategy.replicationFactors.lookup 1 with
  | none => simp
  | some factor =>
    have positive := strategy.positive 1 factor stored
    simp only [forall_replicasOfWalks, Option.some.injEq, forall_eq', simpleSpaced_iff,
      forall_const]
    have window (index : Nat) (inside : index < tokens.length) :
        max 1 (min factor.count tokens.length) = min factor.count tokens.length := by
      omega
    have sameHosts (index : Nat) : (((walk tokens index).take
        (min factor.count tokens.length)).map Host.address).Nodup ↔
        ((walk tokens index).take (min factor.count tokens.length)).Nodup :=
      hosts.map_address_nodup_iff fun host member =>
        owned (mem_walk.mp (mem_of_mem_take member))
    constructor
    · intro correct index inside
      have here := (correct index inside).1
      rwa [window index inside, sameHosts] at here
    · intro windows index inside
      rw [window index inside, sameHosts]
      exact ⟨windows index inside, take_walk_eq windows inside⟩

end

/-! ## NetworkTopologyStrategy -/

/-- The replicas of one walk are different exactly when they are in each datacenter. -/
theorem nodup_of_places_iff {bounds : UInt32 → Option (Nat × Nat)}
    {hosts replicas : List (Host Address)} (places : Places bounds hosts replicas) :
    replicas.Nodup ↔ ∀ dc limit rackCount, bounds dc = some (limit, rackCount) →
      (((Placement.place rackOf rackCount (inDatacenter dc hosts)).emitted rackCount).take
        limit).Nodup := by
  rw [nodup_iff_forall_class Host.dcId]
  constructor
  · intro classes dc limit rackCount present
    rw [← places.1 dc limit rackCount present]
    exact classes dc
  · intro datacenters dc
    cases present : bounds dc with
    | none =>
      have empty : replicas.filter (·.dcId = dc) = [] := by
        rw [filter_eq_nil_iff]
        intro host member
        have known := places.2 host member
        intro same
        rw [of_decide_eq_true same] at known
        exact known present
      rw [empty]
      exact nodup_nil
    | some own =>
      have here := datacenters dc own.1 own.2 present
      rw [← places.1 dc own.1 own.2 present] at here
      exact here

theorem places_subset {bounds : UInt32 → Option (Nat × Nat)} {hosts replicas : List (Host Address)}
    (places : Places bounds hosts replicas) : replicas ⊆ hosts := by
  intro host member
  cases present : bounds host.dcId with
  | none => exact absurd present (places.2 host member)
  | some own =>
    have here : host ∈ inDatacenter host.dcId replicas :=
      mem_filter.mpr ⟨member, decide_eq_true rfl⟩
    rw [places.1 host.dcId own.1 own.2 present] at here
    have met := Placement.mem_of_mem_emitted (mem_of_mem_take here)
    exact (mem_filter.mp met).1

theorem networkTopologySpaced_iff (factors : ReplicationFactorMap) (datacenters : DatacenterMap)
    (tokens : List (Token × Host Address)) :
    NetworkTopologySpaced factors datacenters tokens ↔ ∀ index < tokens.length,
      (placeHosts (initDcRacks factors datacenters : Nat × DatacenterRackInfoMap Address).1
        ((initDcRacks factors datacenters).2, []) (walk tokens index)).Nodup := by
  unfold NetworkTopologySpaced
  refine forall₂_congr fun index _ => ?_
  rw [nodup_of_places_iff (placeHosts_places factors datacenters (walk tokens index))]
  refine forall₄_congr fun dc limit rackCount present => ?_
  exact (Placement.nodup_take_emitted_iff_late ..).symm

theorem networkTopologySpaced_of_numReplicas_eq_zero {factors : ReplicationFactorMap}
    {datacenters : DatacenterMap}
    (none : (initDcRacks factors datacenters : Nat × DatacenterRackInfoMap Address).1 = 0)
    (tokens : List (Token × Host Address)) : NetworkTopologySpaced factors datacenters tokens := by
  rw [networkTopologySpaced_iff]
  intro index _
  cases walk tokens index with
  | nil => simp [placeHosts]
  | cons host rest => simp [placeHosts, none]

/-- With replicas to place, every token has the replicas of its walk. -/
theorem buildReplicasNetworkTopology_of_ne_zero {strategy : ReplicationStrategy}
    {datacenters : DatacenterMap}
    (counts : (initDcRacks strategy.replicationFactors datacenters :
      Nat × DatacenterRackInfoMap Address).1 ≠ 0)
    (tokens : List (Token × Host Address)) :
    strategy.buildReplicasNetworkTopology tokens datacenters =
      replicasOfWalks tokens fun hosts => placeHosts
        (initDcRacks strategy.replicationFactors datacenters :
          Nat × DatacenterRackInfoMap Address).1
        ((initDcRacks strategy.replicationFactors datacenters).2, []) hosts := by
  have some : strategy.replicationFactors.entries.isEmpty = false := by
    rw [← Bool.not_eq_true, List.isEmpty_iff]
    intro empty
    rw [initDcRacks, empty] at counts
    exact counts rfl
  simp only [ReplicationStrategy.buildReplicasNetworkTopology, some, Bool.false_eq_true, if_false,
    if_neg counts]

section

variable [DecidableEq Address]

theorem replicaListsCorrect_networkTopology_iff {strategy : ReplicationStrategy}
    (hosts : HostSet Address) (owned : tokens.map Prod.snd ⊆ hosts.hosts)
    (topology : strategy.type = .networkTopology) :
    ReplicaListsCorrect strategy hosts tokens ↔
      NetworkTopologySpaced strategy.replicationFactors (buildDatacenters hosts.hosts) tokens := by
  unfold ReplicaListsCorrect ReplicationStrategy.buildReplicas
  simp only [topology, reduceCtorEq, false_implies, and_true]
  by_cases none : (initDcRacks strategy.replicationFactors (buildDatacenters hosts.hosts) :
      Nat × DatacenterRackInfoMap Address).1 = 0
  · have spaced := networkTopologySpaced_of_numReplicas_eq_zero none tokens
    simp [ReplicationStrategy.buildReplicasNetworkTopology, none, spaced]
  · rw [buildReplicasNetworkTopology_of_ne_zero none, forall_replicasOfWalks,
      networkTopologySpaced_iff]
    refine forall₂_congr fun index _ => hosts.map_address_nodup_iff fun host member => ?_
    apply owned
    rw [← mem_walk]
    exact places_subset (placeHosts_places _ _ _) member

/-- The replica lists are correct exactly when the tokens of each host are far
enough apart for the strategy. -/
theorem replicaListsCorrect_iff_spaced (strategy : ReplicationStrategy) (hosts : HostSet Address)
    (tokens : List (Token × Host Address)) (owned : tokens.map Prod.snd ⊆ hosts.hosts) :
    ReplicaListsCorrect strategy hosts tokens ↔ Spaced strategy hosts tokens := by
  unfold Spaced
  cases type : strategy.type with
  | simple => exact replicaListsCorrect_simple_iff hosts owned type
  | networkTopology => exact replicaListsCorrect_networkTopology_iff hosts owned type
  | nonReplicated =>
    rw [iff_true]
    intro index token replicas present
    simp only [ReplicationStrategy.buildReplicas, type,
      ReplicationStrategy.buildReplicasNonReplicated, getElem?_map, Option.map_eq_some_iff,
      Prod.mk.injEq] at present
    rcases present with ⟨entry, -, -, rfl⟩
    simp [type]

end

/-! ## Two hosts -/

/-- Two hosts in one rack, with their numbers as addresses. -/
def twoHosts : HostSet Nat :=
  { hosts := [⟨0, 1, 1⟩, ⟨1, 1, 1⟩], distinct := by decide }

/-- A strategy with two replicas, for any datacenter that gets identifier one. -/
def twoReplicas (type : StrategyType) : ReplicationStrategy :=
  { ReplicationStrategy.new.setFactor 1 { count := 2, name := "replication_factor" } with type }

theorem replicaListsCorrect_single_tokens :
    ReplicaListsCorrect (twoReplicas .simple) twoHosts
      [(0, ⟨0, 1, 1⟩), (10, ⟨1, 1, 1⟩)] := by
  refine (replicaListsCorrect_iff_spaced (twoReplicas .simple) twoHosts
    [(0, ⟨0, 1, 1⟩), (10, ⟨1, 1, 1⟩)] (by decide)).mpr ?_
  intro factor stored first second before inside same
  have positions : first = 0 ∧ second = 1 := by
    simp only [length_cons, length_nil] at inside
    omega
  rw [positions.1, positions.2] at same
  exact absurd same (by decide)

/-- A ring on which the first host has two neighbouring tokens. -/
def neighbouringTokens : List (Nat × Host Nat) :=
  [(0, ⟨0, 1, 1⟩), (10, ⟨0, 1, 1⟩), (20, ⟨1, 1, 1⟩)]

/-- A host with two neighbouring tokens is its own second replica, with either
strategy. -/
theorem replicaLists_repeat_host :
    (((twoReplicas .simple).buildReplicas neighbouringTokens
        (buildDatacenters twoHosts.hosts))[0]? = some (0, [⟨0, 1, 1⟩, ⟨0, 1, 1⟩]) ∧
      ¬ ReplicaListsCorrect (twoReplicas .simple) twoHosts neighbouringTokens) ∧
    (((twoReplicas .networkTopology).buildReplicas neighbouringTokens
        (buildDatacenters twoHosts.hosts))[0]? = some (0, [⟨0, 1, 1⟩, ⟨0, 1, 1⟩]) ∧
      ¬ ReplicaListsCorrect (twoReplicas .networkTopology) twoHosts neighbouringTokens) := by
  have simple : ((twoReplicas .simple).buildReplicas neighbouringTokens
      (buildDatacenters twoHosts.hosts))[0]? = some (0, [⟨0, 1, 1⟩, ⟨0, 1, 1⟩]) := by
    decide
  have topology : ((twoReplicas .networkTopology).buildReplicas neighbouringTokens
      (buildDatacenters twoHosts.hosts))[0]? = some (0, [⟨0, 1, 1⟩, ⟨0, 1, 1⟩]) := by
    decide
  constructor
  · exact ⟨simple, fun correct => absurd (correct 0 0 _ simple).1 (by decide)⟩
  · exact ⟨topology, fun correct => absurd (correct 0 0 _ topology).1 (by decide)⟩

end DseDriver.TokenMap
