import DseDriver.TokenMap.ReplicaLists

/-!
# The share of each datacenter

With NetworkTopologyStrategy every token gets the number of replicas that the keyspace asks for
in each datacenter, or one for each host if there are fewer hosts, and these replicas are spread
over the racks.  The counts are counts of entries: a host with several tokens may be entered
more than once.
-/

namespace DseDriver.TokenMap

open Lib List

variable {Token Address : Type}

/-- The racks of a datacenter in a list of hosts. -/
def racksOf (dc : UInt32) (hosts : List (Host Address)) : Finset UInt32 :=
  ((inDatacenter dc hosts).map Host.rackId).toFinset

/-- A host whose datacenter and rack are known. -/
def Located (host : Host Address) : Prop :=
  host.dcId ≠ 0 ∧ host.rackId ≠ 0

/-! ## Datacenters of a set of hosts -/

theorem inDatacenter_concat (dc : UInt32) (hosts : List (Host Address)) (host : Host Address) :
    inDatacenter dc (hosts ++ [host]) =
      if host.dcId = dc then inDatacenter dc hosts ++ [host] else inDatacenter dc hosts := by
  rw [inDatacenter_append]
  split
  next here => simp [inDatacenter, here]
  next elsewhere => simp [inDatacenter, elsewhere]

theorem racksOf_concat {dc : UInt32} {host : Host Address} (here : host.dcId = dc)
    (hosts : List (Host Address)) :
    racksOf dc (hosts ++ [host]) = insert host.rackId (racksOf dc hosts) := by
  rw [racksOf, inDatacenter_concat, if_pos here, map_append, toFinset_append,
    Finset.union_comm]
  rfl

theorem buildDatacenters_concat {host : Host Address} (located : Located host)
    (hosts : List (Host Address)) :
    buildDatacenters (hosts ++ [host]) =
      let datacenter := ((buildDatacenters hosts).lookup host.dcId).getD ⟨0, ∅⟩
      (buildDatacenters hosts).insert host.dcId
        ⟨datacenter.numNodes + 1, insert host.rackId datacenter.racks⟩ := by
  have known : host.dcId ≠ 0 ∧ host.rackId ≠ 0 := located
  rw [buildDatacenters, foldl_append]
  exact if_pos known

/-- A datacenter is listed with its number of hosts and its racks, if it has hosts. -/
theorem buildDatacenters_lookup {hosts : List (Host Address)}
    (located : ∀ host ∈ hosts, Located host) (dc : UInt32) :
    (buildDatacenters hosts).lookup dc =
      if inDatacenter dc hosts = [] then none
      else some ⟨(inDatacenter dc hosts).length, racksOf dc hosts⟩ := by
  induction hosts using List.reverseRecOn with
  | nil => rfl
  | append_singleton hosts host ih =>
    have before := ih fun other member => located other (mem_append_left _ member)
    rw [buildDatacenters_concat (located host (by simp))]
    by_cases same : host.dcId = dc
    · subst same
      have stored : ((buildDatacenters hosts).lookup host.dcId).getD ⟨0, ∅⟩ =
          ⟨(inDatacenter host.dcId hosts).length, racksOf host.dcId hosts⟩ := by
        rw [before]
        split
        next none => simp [racksOf, none]
        next => rfl
      simp only [stored, AList.lookup_insert, racksOf_concat rfl, inDatacenter_concat, if_true]
      simp
    · simp only [AList.lookup_insert_ne (Ne.symm same), before, racksOf, inDatacenter_concat,
        if_neg same]

/-- What the walk takes from a datacenter with a replication factor. -/
theorem limits_of_lookup {hosts : List (Host Address)} (located : ∀ host ∈ hosts, Located host)
    {factors : ReplicationFactorMap} {dc : UInt32} {factor : ReplicationFactor}
    (stored : factors.lookup dc = some factor) :
    limits factors (buildDatacenters hosts) dc =
      if inDatacenter dc hosts = [] then none
      else some (min factor.count (inDatacenter dc hosts).length, (racksOf dc hosts).card) := by
  rw [limits, stored, buildDatacenters_lookup located]
  by_cases none : inDatacenter dc hosts = []
  · simp [none]
  · simp [none]

/-! ## One walk -/

section Walk

variable {hosts : HostSet Address} {met : List (Host Address)}
  (located : ∀ host ∈ hosts.hosts, Located host)
  (ring : ∀ host, host ∈ met ↔ host ∈ hosts.hosts)

include ring

theorem mem_inDatacenter_iff (dc : UInt32) (host : Host Address) :
    host ∈ inDatacenter dc met ↔ host ∈ inDatacenter dc hosts.hosts := by
  simp [inDatacenter, ring]

/-- A walk meets every host of a datacenter. -/
theorem length_inDatacenter_le (dc : UInt32) :
    (inDatacenter dc hosts.hosts).length ≤ (inDatacenter dc met).length := by
  have distinct : (inDatacenter dc hosts.hosts).Nodup := hosts.distinct.of_map.filter _
  refine (distinct.subperm fun host member => ?_).length_le
  exact (mem_inDatacenter_iff ring dc host).mpr member

include located

theorem rackOf_of_met {dc : UInt32} {host : Host Address} (member : host ∈ inDatacenter dc met) :
    rackOf host = some host.rackId := by
  have inside := (mem_inDatacenter_iff ring dc host).mp member
  rw [rackOf, if_neg (located host (mem_of_mem_filter inside)).2]

theorem filterMap_rackOf {dc : UInt32} {entries : List (Host Address)}
    (subset : entries ⊆ inDatacenter dc met) :
    entries.filterMap rackOf = entries.map Host.rackId := by
  rw [← filterMap_eq_map]
  exact filterMap_congr fun host member => rackOf_of_met located ring (subset member)

/-- A walk meets every rack of a datacenter. -/
theorem complete_of_met (dc : UInt32) :
    (Placement.place rackOf (racksOf dc hosts.hosts).card (inDatacenter dc met)).Complete
      (racksOf dc hosts.hosts).card := by
  refine Placement.complete_iff.mpr (Eq.ge ?_)
  rw [Placement.classes, filterMap_rackOf located ring (List.Subset.refl _)]
  congr 1
  ext rack
  simp only [racksOf, mem_toFinset, mem_map, mem_inDatacenter_iff ring]

/-- The replicas of a walk in one datacenter. -/
theorem share_of_places {factors : ReplicationFactorMap} {replicas : List (Host Address)}
    (places : Places (limits factors (buildDatacenters hosts.hosts)) met replicas)
    {dc : UInt32} {factor : ReplicationFactor} (stored : factors.lookup dc = some factor) :
    (inDatacenter dc replicas).length = min factor.count (inDatacenter dc hosts.hosts).length ∧
      min (min factor.count (inDatacenter dc hosts.hosts).length) (racksOf dc hosts.hosts).card ≤
        (racksOf dc replicas).card := by
  have bounds := limits_of_lookup located stored
  by_cases none : inDatacenter dc hosts.hosts = []
  · rw [if_pos none] at bounds
    have empty : inDatacenter dc replicas = [] := by
      apply inDatacenter_of_forall_ne
      intro host member here
      exact places.2 host member (here ▸ bounds)
    simp [none, empty]
  · rw [if_neg none] at bounds
    have complete := complete_of_met located ring dc
    have first := places.1 dc _ _ bounds
    have enough := length_inDatacenter_le ring dc
    have total := Placement.place_length rackOf (racksOf dc hosts.hosts).card (inDatacenter dc met)
    have known : ∀ host ∈ inDatacenter dc met, (rackOf host).isSome := fun host member =>
      Option.isSome_iff_exists.mpr ⟨_, rackOf_of_met located ring member⟩
    have spread := Placement.classes_take_emitted complete known
      (min factor.count (inDatacenter dc hosts.hosts).length)
    rw [← first] at spread
    constructor
    · rw [first, length_take, Placement.emitted_of_complete complete, length_append, total]
      omega
    · rw [filterMap_rackOf located ring] at spread
      · exact spread
      · rw [first]
        exact fun host member => Placement.mem_of_mem_emitted (mem_of_mem_take member)

end Walk

/-! ## All tokens -/

/-- A datacenter with hosts and a replication factor makes the walks count replicas. -/
theorem numReplicas_ne_zero {strategy : ReplicationStrategy} {hosts : List (Host Address)}
    (located : ∀ host ∈ hosts, Located host)
    (replicated : ∃ host ∈ hosts, (strategy.replicationFactors.lookup host.dcId).isSome) :
    (initDcRacks strategy.replicationFactors (buildDatacenters hosts) :
      Nat × DatacenterRackInfoMap Address).1 ≠ 0 := by
  obtain ⟨host, member, hasFactor⟩ := replicated
  obtain ⟨factor, stored⟩ := Option.isSome_iff_exists.mp hasFactor
  have here : host ∈ inDatacenter host.dcId hosts :=
    List.mem_filter.mpr ⟨member, decide_eq_true rfl⟩
  have bounds := limits_of_lookup located stored
  rw [if_neg (ne_nil_of_mem here)] at bounds
  have listed := (mem_counted_iff _ _ _ _).mpr ⟨_, bounds⟩
  have positive := strategy.positive host.dcId factor stored
  have hosts := length_pos_of_mem here
  rw [initDcRacks_numReplicas, Ne, List.sum_eq_zero_iff_forall_eq_nat]
  intro zero
  have share := zero _ (List.mem_map.mpr ⟨_, listed, rfl⟩)
  simp only at share
  omega

/-- Every token has the share of each datacenter with a replication factor, spread over its racks,
and no replicas in other datacenters. -/
theorem networkTopology_shares (strategy : ReplicationStrategy) (hosts : HostSet Address)
    (tokens : List (Token × Host Address)) (isTopology : strategy.type = .networkTopology)
    (located : ∀ host ∈ hosts.hosts, Located host)
    (ring : ∀ host, host ∈ tokens.map Prod.snd ↔ host ∈ hosts.hosts)
    (replicated : ∃ host ∈ hosts.hosts,
      (strategy.replicationFactors.lookup host.dcId).isSome)
    {index : Nat} {token : Token} {owner : Host Address}
    (present : tokens[index]? = some (token, owner)) :
    ∃ replicas, (strategy.buildReplicas tokens (buildDatacenters hosts.hosts))[index]? =
        some (token, replicas) ∧
      (∀ dc factor, strategy.replicationFactors.lookup dc = some factor →
        (inDatacenter dc replicas).length = min factor.count (inDatacenter dc hosts.hosts).length ∧
          min (min factor.count (inDatacenter dc hosts.hosts).length)
              (racksOf dc hosts.hosts).card ≤ (racksOf dc replicas).card) ∧
      ∀ host ∈ replicas, (strategy.replicationFactors.lookup host.dcId).isSome := by
  have counts := numReplicas_ne_zero located replicated
  have walked : (strategy.buildReplicas tokens (buildDatacenters hosts.hosts))[index]? =
      some (token, placeHosts
        (initDcRacks strategy.replicationFactors (buildDatacenters hosts.hosts) :
          Nat × DatacenterRackInfoMap Address).1
        ((initDcRacks strategy.replicationFactors (buildDatacenters hosts.hosts)).2, [])
        (walk tokens index)) := by
    rw [ReplicationStrategy.buildReplicas, isTopology]
    show (strategy.buildReplicasNetworkTopology tokens _)[index]? = _
    rw [buildReplicasNetworkTopology_of_ne_zero counts, replicasOfWalks_getElem?, present]
    rfl
  refine ⟨_, walked, ?_⟩
  have places := placeHosts_places strategy.replicationFactors (buildDatacenters hosts.hosts)
    (walk tokens index)
  constructor
  · intro dc factor stored
    exact share_of_places located (fun host => mem_walk.trans (ring host)) places stored
  · intro host member
    rw [Option.isSome_iff_ne_none]
    intro noFactor
    exact places.2 host member (by rw [limits, noFactor]; rfl)

/-- Three hosts of one datacenter in two racks, and a host of another datacenter. -/
def fourHosts : HostSet Nat :=
  { hosts := [⟨0, 1, 1⟩, ⟨1, 1, 1⟩, ⟨2, 2, 1⟩, ⟨3, 3, 2⟩], distinct := by decide }

/-- Two replicas in the first datacenter use both of its racks, and the other datacenter has
none. -/
theorem networkTopology_shares_fourHosts :
    ∃ replicas, ((twoReplicas .networkTopology).buildReplicas
        (fourHosts.hosts.map fun host => (host.address, host))
        (buildDatacenters fourHosts.hosts))[3]? = some (3, replicas) ∧
      (inDatacenter 1 replicas).length = 2 ∧ 2 ≤ (racksOf 1 replicas).card ∧
      ∀ host ∈ replicas, host.dcId ≠ 2 := by
  have present : (fourHosts.hosts.map fun host => (host.address, host))[3]? =
      some (3, ⟨3, 3, 2⟩) := by
    decide
  obtain ⟨replicas, found, shares, others⟩ :=
    networkTopology_shares (twoReplicas .networkTopology) fourHosts
      (fourHosts.hosts.map fun host => (host.address, host)) rfl
      (by unfold Located; decide) (fun host => by simp)
      ⟨⟨0, 1, 1⟩, by decide, by decide⟩ present
  have share := shares 1 { count := 2, name := "replication_factor" } (by decide)
  refine ⟨replicas, found, share.1, share.2, ?_⟩
  intro host member elsewhere
  have hasFactor := others host member
  rw [elsewhere] at hasFactor
  exact absurd hasFactor (by decide)

end DseDriver.TokenMap
