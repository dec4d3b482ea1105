import DseDriver.Lib.Placement
import DseDriver.TokenMap.Replication

/-!
# The walk of NetworkTopologyStrategy

Seen from one datacenter, the walk of `build_replicas_network_topology` places
the hosts of that datacenter over its racks: the replicas it collects there are
the first places of the placement of those hosts.  One host is followed through
the datacenter it belongs to, and the run through all datacenters at once.
-/

namespace DseDriver.TokenMap

open Lib List Option Placement

variable {Token Address : Type}

/-- The rack of a host, if it is known. -/
def rackOf (host : Host Address) : Option UInt32 :=
  if host.rackId = 0 then none else some host.rackId

/-! ## One datacenter -/

theorem drainSkipped_eq (info : DatacenterRackInfo Address) (replicas queue : List (Host Address)) :
    drainSkipped info replicas queue =
      ({ info with
          replicaCount := info.replicaCount +
            (queue.take (info.replicationFactor - info.replicaCount)).length
          skippedEndpoints := queue.drop (info.replicationFactor - info.replicaCount) },
        replicas ++ queue.take (info.replicationFactor - info.replicaCount)) := by
  induction queue generalizing info replicas with
  | nil => simp [drainSkipped]
  | cons host rest ih =>
    rw [drainSkipped]
    split
    next room =>
      have left : info.replicationFactor - info.replicaCount =
          info.replicationFactor - (info.replicaCount + 1) + 1 := by
        omega
      rw [ih, left]
      simp
      omega
    next full =>
      have none : info.replicationFactor - info.replicaCount = 0 := by
        omega
      simp [none]

variable {dc : UInt32} {limit rackCount : Nat} {placement : Placement (Host Address) UInt32}
  {info : DatacenterRackInfo Address} {replicas : List (Host Address)} {host : Host Address}

theorem prompt_iff :
    placement.Prompt rackOf rackCount host ↔
      ¬ placement.Complete rackCount ∧ (host.rackId = 0 ∨ host.rackId ∉ placement.observed) := by
  unfold Placement.Prompt rackOf
  by_cases unknown : host.rackId = 0 <;> simp [unknown]

theorem observe_unknown (unknown : host.rackId = 0) (observed : Finset UInt32) :
    Placement.observe rackOf observed host = observed := by
  simp [Placement.observe, rackOf, unknown]

theorem observe_known (known : host.rackId ≠ 0) (observed : Finset UInt32) :
    Placement.observe rackOf observed host = insert host.rackId observed := by
  simp [Placement.observe, rackOf, known]

/-- The state of a datacenter whose hosts have been placed so far, with the
replicas the walk has collected there. -/
structure Tracks (dc : UInt32) (limit rackCount : Nat)
    (placement : Placement (Host Address) UInt32) (info : DatacenterRackInfo Address)
    (replicas : List (Host Address)) : Prop where
  factor : info.replicationFactor = limit
  racks : info.rackCount = rackCount
  count : info.replicaCount = replicas.length
  places : replicas = (placement.emitted rackCount).take limit
  observed : replicas.length < limit → info.racksObserved = placement.observed
  skipped : replicas.length < limit →
    info.skippedEndpoints = if placement.Complete rackCount then [] else placement.waiting
  own : ∀ host ∈ info.skippedEndpoints, host.dcId = dc

namespace Tracks

section Tracks

variable (tracks : Tracks dc limit rackCount placement info replicas)
include tracks

/-- With room left, the replicas are all places. -/
theorem eq_emitted (room : replicas.length < limit) : replicas = placement.emitted rackCount := by
  have places := tracks.places
  rw [places, length_take] at room
  rw [places, take_of_length_le (by omega)]

/-- A full datacenter does not change any more. -/
theorem full (noRoom : ¬ replicas.length < limit) :
    Tracks dc limit rackCount (placement.add rackOf rackCount host) info replicas where
  factor := tracks.factor
  racks := tracks.racks
  count := tracks.count
  places := by
    rcases placement.emitted_prefix_add rackOf rackCount host with ⟨more, extended⟩
    have filled := tracks.places
    have enough : limit ≤ (placement.emitted rackCount).length := by
      rw [filled, length_take] at noRoom
      omega
    rw [← extended, take_append_of_le_length enough]
    exact filled
  observed := fun room => absurd room noRoom
  skipped := fun room => absurd room noRoom
  own := tracks.own

/-- Once every rack is observed, hosts are pushed in the order of the walk. -/
theorem push_complete (room : replicas.length < limit) (complete : placement.Complete rackCount) :
    Tracks dc limit rackCount (placement.add rackOf rackCount host)
      { info with replicaCount := info.replicaCount + 1 } (replicas ++ [host]) := by
  rw [add_of_complete complete]
  have still : ({ placement with waiting := placement.waiting ++ [host] } :
      Placement (Host Address) UInt32).Complete rackCount := complete
  have queue := tracks.skipped room
  rw [if_pos complete] at queue
  constructor
  · exact tracks.factor
  · exact tracks.racks
  · simp [tracks.count]
  · rw [emitted_of_complete still, ← append_assoc,
      ← emitted_of_complete complete, ← tracks.eq_emitted room,
      take_of_length_le (by simp; omega)]
  · exact fun _ => tracks.observed room
  · intro _
    rw [if_pos still]
    exact queue
  · exact tracks.own

/-- A host is pushed at once, and racks are still missing after it. -/
theorem push_prompt (room : replicas.length < limit) (incomplete : ¬ placement.Complete rackCount)
    (prompt : host.rackId = 0 ∨ host.rackId ∉ placement.observed) {racks : Finset UInt32}
    (observes : Placement.observe rackOf placement.observed host = racks)
    (missing : racks.card ≠ rackCount) :
    Tracks dc limit rackCount (placement.add rackOf rackCount host)
      { info with replicaCount := info.replicaCount + 1, racksObserved := racks }
      (replicas ++ [host]) := by
  rw [add_of_prompt (prompt_iff.mpr ⟨incomplete, prompt⟩), observes]
  have still : ¬ ({ placement with prompt := placement.prompt ++ [host], observed := racks } :
      Placement (Host Address) UInt32).Complete rackCount := missing
  have queue := tracks.skipped room
  rw [if_neg incomplete] at queue
  constructor
  · exact tracks.factor
  · exact tracks.racks
  · simp [tracks.count]
  · rw [emitted_of_not_complete still, ← emitted_of_not_complete incomplete,
      ← tracks.eq_emitted room, take_of_length_le (by simp; omega)]
  · exact fun _ => rfl
  · intro _
    rw [if_neg still]
    exact queue
  · exact tracks.own

/-- A host of an unknown rack is pushed at once. -/
theorem push_unknown (room : replicas.length < limit) (incomplete : ¬ placement.Complete rackCount)
    (unknown : host.rackId = 0) :
    Tracks dc limit rackCount (placement.add rackOf rackCount host)
      { info with replicaCount := info.replicaCount + 1 } (replicas ++ [host]) := by
  have pushed := tracks.push_prompt room incomplete (Or.inl unknown) (observe_unknown unknown _)
    incomplete
  rw [← tracks.observed room] at pushed
  exact pushed

/-- A host of a rack that is already used waits. -/
theorem skip (room : replicas.length < limit) (incomplete : ¬ placement.Complete rackCount)
    (known : host.rackId ≠ 0) (seen : host.rackId ∈ placement.observed)
    (here : host.dcId = dc) :
    Tracks dc limit rackCount (placement.add rackOf rackCount host)
      { info with skippedEndpoints := info.skippedEndpoints ++ [host] } replicas := by
  have waits : ¬ placement.Prompt rackOf rackCount host := by
    rw [prompt_iff]
    tauto
  rw [add_of_not_prompt waits]
  have still : ¬ ({ placement with waiting := placement.waiting ++ [host] } :
      Placement (Host Address) UInt32).Complete rackCount := incomplete
  have queue := tracks.skipped room
  rw [if_neg incomplete] at queue
  constructor
  · exact tracks.factor
  · exact tracks.racks
  · exact tracks.count
  · rw [emitted_of_not_complete still, ← emitted_of_not_complete incomplete]
    exact tracks.places
  · exact fun _ => tracks.observed room
  · intro _
    rw [if_neg still]
    simp [queue]
  · intro other member
    rcases mem_append.mp member with earlier | last
    · exact tracks.own other earlier
    · rw [mem_singleton.mp last]
      exact here

/-- A host of a new rack is pushed, and racks may still be missing. -/
theorem push_new (room : replicas.length < limit) (incomplete : ¬ placement.Complete rackCount)
    (known : host.rackId ≠ 0) (unseen : host.rackId ∉ placement.observed)
    (missing : (insert host.rackId placement.observed).card ≠ rackCount) :
    Tracks dc limit rackCount (placement.add rackOf rackCount host)
      { info with
        replicaCount := info.replicaCount + 1
        racksObserved := insert host.rackId info.racksObserved } (replicas ++ [host]) := by
  rw [tracks.observed room]
  exact tracks.push_prompt room incomplete (Or.inr unseen) (observe_known known _) missing

/-- The host of the last missing rack is pushed, and the waiting hosts follow. -/
theorem push_last (room : replicas.length < limit) (incomplete : ¬ placement.Complete rackCount)
    (known : host.rackId ≠ 0) (unseen : host.rackId ∉ placement.observed)
    (last : (insert host.rackId placement.observed).card = rackCount) :
    Tracks dc limit rackCount (placement.add rackOf rackCount host)
      { info with
        replicaCount := info.replicaCount + 1 + (info.skippedEndpoints.take
          (info.replicationFactor - (info.replicaCount + 1))).length
        racksObserved := insert host.rackId info.racksObserved
        skippedEndpoints := info.skippedEndpoints.drop
          (info.replicationFactor - (info.replicaCount + 1)) }
      (replicas ++ ([host] ++ info.skippedEndpoints.take
        (info.replicationFactor - (info.replicaCount + 1)))) := by
  rw [add_of_prompt (prompt_iff.mpr ⟨incomplete, Or.inr unseen⟩), observe_known known]
  have now : ({ placement with
      prompt := placement.prompt ++ [host]
      observed := insert host.rackId placement.observed } :
        Placement (Host Address) UInt32).Complete rackCount := last
  have queue := tracks.skipped room
  rw [if_neg incomplete] at queue
  have same := tracks.eq_emitted room
  rw [emitted_of_not_complete incomplete] at same
  constructor
  · exact tracks.factor
  · exact tracks.racks
  · simp [tracks.count]
    omega
  · have prompt : (replicas ++ [host]).take limit = replicas ++ [host] :=
      take_of_length_le (by rw [length_append, length_singleton]; omega)
    rw [emitted_of_complete now, queue, tracks.factor, tracks.count, ← same,
      ← append_assoc, take_append, prompt, length_append, length_singleton]
  · exact fun _ => congrArg (insert host.rackId) (tracks.observed room)
  · intro more
    rw [if_pos now]
    simp only [length_append, length_singleton, length_take, tracks.count,
      tracks.factor] at more
    exact drop_of_length_le (by rw [tracks.factor, tracks.count]; omega)
  · exact fun other member => tracks.own other (mem_of_mem_drop member)

/-- One host of a datacenter: its replicas grow by hosts of the datacenter, as the
placement says. -/
theorem placeInDatacenter (here : host.dcId = dc) (all : List (Host Address)) :
    ∃ next new, TokenMap.placeInDatacenter info host all = (next, all ++ new) ∧
      Tracks dc limit rackCount (placement.add rackOf rackCount host) next (replicas ++ new) ∧
      ∀ other ∈ new, other.dcId = dc := by
  by_cases room : replicas.length < limit
  · have roomLeft : ¬ info.replicaCount ≥ info.replicationFactor := by
      rw [tracks.count, tracks.factor]
      omega
    have seen := tracks.observed room
    have allRacks : info.racksObserved.card = info.rackCount ↔ placement.Complete rackCount := by
      rw [seen, tracks.racks]
      rfl
    by_cases complete : placement.Complete rackCount
    · refine ⟨_, [host], ?_, tracks.push_complete room complete, by simp [here]⟩
      rw [TokenMap.placeInDatacenter, if_neg roomLeft, if_pos (Or.inr (allRacks.mpr complete))]
    by_cases unknown : host.rackId = 0
    · refine ⟨_, [host], ?_, tracks.push_unknown room complete unknown, by simp [here]⟩
      rw [TokenMap.placeInDatacenter, if_neg roomLeft, if_pos (Or.inl unknown)]
    have ordinary : ¬ (host.rackId = 0 ∨ info.racksObserved.card = info.rackCount) := by
      rw [allRacks]
      tauto
    by_cases used : host.rackId ∈ placement.observed
    · have skipped := tracks.skip room complete unknown used here
      refine ⟨_, [], ?_, (append_nil replicas).symm ▸ skipped, by simp⟩
      rw [TokenMap.placeInDatacenter, if_neg roomLeft, if_neg ordinary, if_pos (seen ▸ used),
        append_nil]
    by_cases last : (insert host.rackId placement.observed).card = rackCount
    · refine ⟨_, _, ?_, tracks.push_last room complete unknown used last, ?_⟩
      · rw [TokenMap.placeInDatacenter, if_neg roomLeft, if_neg ordinary, if_neg (seen ▸ used)]
        simp only [seen, tracks.racks, if_pos last, drainSkipped_eq, append_assoc]
      · intro other member
        rcases mem_append.mp member with first | later
        · rw [mem_singleton.mp first]
          exact here
        · exact tracks.own other (mem_of_mem_take later)
    · refine ⟨_, [host], ?_, tracks.push_new room complete unknown used last, by simp [here]⟩
      rw [TokenMap.placeInDatacenter, if_neg roomLeft, if_neg ordinary, if_neg (seen ▸ used)]
      simp only [seen, tracks.racks, if_neg last]
  · refine ⟨info, [], ?_, ?_, by simp⟩
    · rw [TokenMap.placeInDatacenter, if_pos (by rw [tracks.count, tracks.factor]; omega),
        append_nil]
    · rw [append_nil]
      exact tracks.full room

end Tracks

end Tracks

/-! ## All datacenters -/

/-- The replication factor of a datacenter, at most its number of nodes, and its
number of racks; only datacenters with a factor and hosts have them. -/
def limits (factors : ReplicationFactorMap) (datacenters : DatacenterMap) (dc : UInt32) :
    Option (Nat × Nat) := do
  let factor ← factors.lookup dc
  let datacenter ← datacenters.lookup dc
  return (min factor.count datacenter.numNodes, datacenter.racks.card)

/-- The state of a datacenter before a walk. -/
def freshInfo (bounds : Nat × Nat) : DatacenterRackInfo Address :=
  { replicaCount := 0
    replicationFactor := bounds.1
    racksObserved := ∅
    rackCount := bounds.2
    skippedEndpoints := [] }

/-- The datacenters that are counted, with their replication factors. -/
def counted (datacenters : DatacenterMap)
    (entries : List (Sigma fun _ : UInt32 => ReplicationFactor)) : List (UInt32 × Nat) :=
  entries.filterMap fun entry => (datacenters.lookup entry.1).map fun datacenter =>
    (entry.1, min entry.2.count datacenter.numNodes)

theorem foldl_addDcRackInfo_fst (datacenters : DatacenterMap)
    (entries : List (Sigma fun _ : UInt32 => ReplicationFactor))
    (state : Nat × DatacenterRackInfoMap Address) :
    (entries.foldl (addDcRackInfo datacenters) state).1 =
      state.1 + ((counted datacenters entries).map Prod.snd).sum := by
  induction entries generalizing state with
  | nil => simp [counted]
  | cons entry entries ih =>
    rw [foldl_cons, ih]
    cases found : datacenters.lookup entry.1 with
    | none => simp [addDcRackInfo, counted, found]
    | some datacenter => simp [addDcRackInfo, counted, found, Nat.add_assoc]

variable {dc : UInt32}

theorem addDcRackInfo_lookup_ne (datacenters : DatacenterMap)
    (state : Nat × DatacenterRackInfoMap Address)
    {entry : Sigma fun _ : UInt32 => ReplicationFactor} (different : dc ≠ entry.1) :
    (addDcRackInfo datacenters state entry).2.lookup dc = state.2.lookup dc := by
  cases found : datacenters.lookup entry.1 with
  | none => simp [addDcRackInfo, found]
  | some datacenter => simp [addDcRackInfo, found, AList.lookup_insert_ne different]

theorem foldl_addDcRackInfo_of_not_mem (datacenters : DatacenterMap)
    {entries : List (Sigma fun _ : UInt32 => ReplicationFactor)} (missing : dc ∉ entries.keys)
    (state : Nat × DatacenterRackInfoMap Address) :
    (entries.foldl (addDcRackInfo datacenters) state).2.lookup dc = state.2.lookup dc := by
  induction entries generalizing state with
  | nil => rfl
  | cons entry entries ih =>
    rw [keys_cons, mem_cons, not_or] at missing
    rw [foldl_cons, ih missing.2, addDcRackInfo_lookup_ne datacenters state missing.1]

theorem foldl_addDcRackInfo_of_dlookup (datacenters : DatacenterMap)
    {entries : List (Sigma fun _ : UInt32 => ReplicationFactor)} (distinct : entries.NodupKeys)
    {factor : ReplicationFactor} (found : entries.dlookup dc = some factor)
    (state : Nat × DatacenterRackInfoMap Address) (fresh : state.2.lookup dc = none) :
    (entries.foldl (addDcRackInfo datacenters) state).2.lookup dc =
      (datacenters.lookup dc).map fun datacenter =>
        freshInfo (min factor.count datacenter.numNodes, datacenter.racks.card) := by
  induction entries generalizing state with
  | nil => cases found
  | cons entry entries ih =>
    rw [nodupKeys_cons] at distinct
    rw [foldl_cons]
    by_cases same : dc = entry.1
    · subst same
      rw [dlookup_cons_eq, Option.some.injEq] at found
      rw [foldl_addDcRackInfo_of_not_mem datacenters distinct.1]
      cases present : datacenters.lookup entry.1 with
      | none => simp [addDcRackInfo, present, fresh]
      | some datacenter => simp [addDcRackInfo, present, freshInfo, found]
    · rw [dlookup_cons_ne _ _ same] at found
      apply ih distinct.2 found
      rw [addDcRackInfo_lookup_ne datacenters state same]
      exact fresh

theorem initDcRacks_lookup (factors : ReplicationFactorMap) (datacenters : DatacenterMap)
    (dc : UInt32) :
    (initDcRacks factors datacenters : Nat × DatacenterRackInfoMap Address).2.lookup dc =
      (limits factors datacenters dc).map freshInfo := by
  rw [initDcRacks, limits]
  cases found : factors.lookup dc with
  | none =>
    rw [foldl_addDcRackInfo_of_not_mem datacenters (dlookup_eq_none.mp found)]
    simp
  | some factor =>
    rw [foldl_addDcRackInfo_of_dlookup datacenters factors.nodupKeys found _ (by simp)]
    cases datacenters.lookup dc <;> rfl

/-- The number of replicas is the sum of the factors that are counted. -/
theorem initDcRacks_numReplicas (factors : ReplicationFactorMap) (datacenters : DatacenterMap) :
    (initDcRacks factors datacenters : Nat × DatacenterRackInfoMap Address).1 =
      ((counted datacenters factors.entries).map Prod.snd).sum := by
  rw [initDcRacks, foldl_addDcRackInfo_fst, Nat.zero_add]

theorem mem_counted_iff (factors : ReplicationFactorMap) (datacenters : DatacenterMap)
    (dc : UInt32) (limit : Nat) :
    (dc, limit) ∈ counted datacenters factors.entries ↔
      ∃ rackCount, limits factors datacenters dc = some (limit, rackCount) := by
  simp only [counted, limits, mem_filterMap, map_eq_some_iff, Prod.mk.injEq,
    bind_eq_bind, bind_eq_some_iff, Option.pure_def, Option.some.injEq]
  constructor
  · intro ⟨entry, member, datacenter, found, same, equal⟩
    subst same
    exact ⟨_, entry.2, AList.mem_lookup_iff.mpr member, datacenter, found, equal, rfl⟩
  · intro ⟨rackCount, factor, stored, datacenter, found, equal, _⟩
    exact ⟨⟨dc, factor⟩, AList.mem_lookup_iff.mp stored, datacenter, found, rfl, equal⟩

theorem counted_sublist (datacenters : DatacenterMap)
    (entries : List (Sigma fun _ : UInt32 => ReplicationFactor)) :
    ((counted datacenters entries).map Prod.fst).Sublist entries.keys := by
  induction entries with
  | nil => exact List.Sublist.slnil
  | cons entry entries ih =>
    rw [counted, filterMap_cons, keys_cons]
    cases datacenters.lookup entry.1 with
    | none => exact ih.cons _
    | some datacenter => exact ih.cons_cons _

theorem counted_nodup (factors : ReplicationFactorMap) (datacenters : DatacenterMap) :
    ((counted datacenters factors.entries).map Prod.fst).Nodup :=
  List.Nodup.sublist (counted_sublist datacenters factors.entries) factors.nodupKeys

/-- The hosts of a list that belong to one datacenter. -/
def inDatacenter (dc : UInt32) (hosts : List (Host Address)) : List (Host Address) :=
  hosts.filter (·.dcId = dc)

@[simp] theorem inDatacenter_append (dc : UInt32) (first second : List (Host Address)) :
    inDatacenter dc (first ++ second) = inDatacenter dc first ++ inDatacenter dc second := by
  simp [inDatacenter]

theorem inDatacenter_of_forall {hosts : List (Host Address)}
    (every : ∀ host ∈ hosts, host.dcId = dc) : inDatacenter dc hosts = hosts := by
  simpa [inDatacenter] using every

theorem inDatacenter_of_forall_ne {hosts : List (Host Address)}
    (every : ∀ host ∈ hosts, host.dcId ≠ dc) : inDatacenter dc hosts = [] := by
  simpa [inDatacenter] using every

/-- Every datacenter of the walk is tracked by the hosts of it that were met. -/
structure WalkTracks (bounds : UInt32 → Option (Nat × Nat)) (seen : List (Host Address))
    (state : DatacenterRackInfoMap Address × List (Host Address)) : Prop where
  absent : ∀ dc, bounds dc = none → state.1.lookup dc = none
  tracked : ∀ dc limit rackCount, bounds dc = some (limit, rackCount) →
    ∃ info, state.1.lookup dc = some info ∧
      Tracks dc limit rackCount (Placement.place rackOf rackCount (inDatacenter dc seen)) info
        (inDatacenter dc state.2)
  known : ∀ host ∈ state.2, bounds host.dcId ≠ none

/-- One host of the walk. -/
theorem WalkTracks.placeHost {bounds : UInt32 → Option (Nat × Nat)} {seen : List (Host Address)}
    {state : DatacenterRackInfoMap Address × List (Host Address)}
    (tracks : WalkTracks bounds seen state) (host : Host Address) :
    WalkTracks bounds (seen ++ [host]) (placeHost state host) := by
  cases bound : bounds host.dcId with
  | none =>
    rw [TokenMap.placeHost, tracks.absent host.dcId bound]
    refine ⟨tracks.absent, ?_, tracks.known⟩
    intro dc limit rackCount present
    have elsewhere : inDatacenter dc [host] = [] :=
      inDatacenter_of_forall_ne fun other member same => by
        rw [mem_singleton.mp member] at same
        rw [same, present] at bound
        cases bound
    rw [inDatacenter_append, elsewhere, append_nil]
    exact tracks.tracked dc limit rackCount present
  | some own =>
    rcases own with ⟨ownLimit, ownRacks⟩
    rcases tracks.tracked host.dcId ownLimit ownRacks bound with ⟨info, stored, here⟩
    rcases here.placeInDatacenter rfl state.2 with ⟨next, new, placed, updated, localHosts⟩
    have step : TokenMap.placeHost state host =
        (state.1.insert host.dcId next, state.2 ++ new) := by
      rw [TokenMap.placeHost, stored]
      simp only [placed]
    have inside : inDatacenter host.dcId [host] = [host] :=
      inDatacenter_of_forall (by simp)
    rw [step]
    constructor
    · intro dc missing
      have different : dc ≠ host.dcId := by
        intro same
        rw [same, bound] at missing
        cases missing
      rw [AList.lookup_insert_ne different]
      exact tracks.absent dc missing
    · intro dc limit rackCount present
      by_cases same : dc = host.dcId
      · subst same
        rw [bound, Option.some.injEq, Prod.mk.injEq] at present
        rcases present with ⟨rfl, rfl⟩
        refine ⟨next, AList.lookup_insert _, ?_⟩
        rw [inDatacenter_append, inside, place_concat, inDatacenter_append,
          inDatacenter_of_forall localHosts]
        exact updated
      · have others : inDatacenter dc new = [] :=
          inDatacenter_of_forall_ne fun other member equal => same (equal ▸ localHosts other member)
        have elsewhere : inDatacenter dc [host] = [] :=
          inDatacenter_of_forall_ne fun other member equal => same (by
            rw [mem_singleton.mp member] at equal
            exact equal.symm)
        rw [AList.lookup_insert_ne same, inDatacenter_append, inDatacenter_append, elsewhere,
          others, append_nil, append_nil]
        exact tracks.tracked dc limit rackCount present
    · intro other member
      rcases mem_append.mp member with earlier | added
      · exact tracks.known other earlier
      · rw [localHosts other added, bound]
        exact some_ne_none _

/-- The first places of every datacenter, once all its hosts have been met. -/
def Places (bounds : UInt32 → Option (Nat × Nat)) (hosts replicas : List (Host Address)) : Prop :=
  (∀ dc limit rackCount, bounds dc = some (limit, rackCount) →
    inDatacenter dc replicas =
      ((Placement.place rackOf rackCount (inDatacenter dc hosts)).emitted rackCount).take limit) ∧
  ∀ host ∈ replicas, bounds host.dcId ≠ none

/-- The whole walk.  Leaving it early changes nothing: by then every datacenter is
full. -/
theorem WalkTracks.placeHosts {bounds : UInt32 → Option (Nat × Nat)} {numReplicas : Nat}
    (full : ∀ seen (state : DatacenterRackInfoMap Address × List (Host Address)),
      WalkTracks bounds seen state → numReplicas ≤ state.2.length →
      ∀ dc limit rackCount, bounds dc = some (limit, rackCount) →
        (inDatacenter dc state.2).length = limit)
    {seen : List (Host Address)} {state : DatacenterRackInfoMap Address × List (Host Address)}
    (tracks : WalkTracks bounds seen state) (rest : List (Host Address)) :
    Places bounds (seen ++ rest) (placeHosts numReplicas state rest) := by
  induction rest generalizing seen state with
  | nil =>
    rw [append_nil, TokenMap.placeHosts]
    refine ⟨fun dc limit rackCount present => ?_, tracks.known⟩
    rcases tracks.tracked dc limit rackCount present with ⟨info, -, here⟩
    exact here.places
  | cons host rest ih =>
    rw [TokenMap.placeHosts]
    split
    next more =>
      have next := ih (tracks.placeHost host)
      rwa [append_assoc, singleton_append] at next
    next enough =>
      refine ⟨fun dc limit rackCount present => ?_, tracks.known⟩
      rcases tracks.tracked dc limit rackCount present with ⟨info, -, here⟩
      have filled := full seen state tracks (by omega) dc limit rackCount present
      have places := here.places
      rcases emitted_prefix_append rackOf rackCount (inDatacenter dc seen)
        (inDatacenter dc (host :: rest)) with ⟨more, extended⟩
      rw [inDatacenter_append, ← extended, take_append_of_le_length, ← places]
      rw [places, length_take] at filled
      omega

theorem walkTracks_init (factors : ReplicationFactorMap) (datacenters : DatacenterMap) :
    WalkTracks (limits factors datacenters) []
      ((initDcRacks factors datacenters : Nat × DatacenterRackInfoMap Address).2, []) where
  absent := by
    intro dc missing
    rw [initDcRacks_lookup, missing, map_none]
  tracked := by
    intro dc limit rackCount present
    refine ⟨freshInfo (limit, rackCount), by rw [initDcRacks_lookup, present, map_some], ?_⟩
    constructor
    case places => simp only [inDatacenter, filter_nil, emitted_place_nil, take_nil]
    case skipped =>
      intro _
      split <;> rfl
    all_goals simp [freshInfo, inDatacenter]
  known := by simp

/-- Once there are as many replicas as counted, every datacenter has its share. -/
theorem WalkTracks.full {factors : ReplicationFactorMap} {datacenters : DatacenterMap}
    {seen : List (Host Address)} {state : DatacenterRackInfoMap Address × List (Host Address)}
    (tracks : WalkTracks (limits factors datacenters) seen state)
    (enough : (initDcRacks factors datacenters : Nat × DatacenterRackInfoMap Address).1 ≤
      state.2.length)
    {limit rackCount : Nat}
    (present : limits factors datacenters dc = some (limit, rackCount)) :
    (inDatacenter dc state.2).length = limit := by
  rw [initDcRacks_numReplicas] at enough
  have bounded : ∀ entry ∈ counted datacenters factors.entries,
      (inDatacenter entry.1 state.2).length ≤ entry.2 := by
    intro entry member
    rcases (mem_counted_iff factors datacenters entry.1 entry.2).mp member with ⟨racks, here⟩
    rcases tracks.tracked entry.1 entry.2 racks here with ⟨info, -, tracked⟩
    rw [tracked.places]
    exact length_take_le ..
  have covered : ∀ host ∈ state.2, host.dcId ∈ (counted datacenters factors.entries).map Prod.fst := by
    intro host member
    cases here : limits factors datacenters host.dcId with
    | none => exact absurd here (tracks.known host member)
    | some own =>
      exact List.mem_map_of_mem (f := Prod.fst)
        ((mem_counted_iff factors datacenters host.dcId own.1).mpr ⟨own.2, here⟩)
  exact (class_full_of_sum_le Host.dcId (counted_nodup factors datacenters) covered bounded).2
    enough (dc, limit) ((mem_counted_iff factors datacenters dc limit).mpr ⟨rackCount, present⟩)

/-- The replicas of one walk: in every datacenter the first places, as many as its
replication factor says. -/
theorem placeHosts_places (factors : ReplicationFactorMap) (datacenters : DatacenterMap)
    (hosts : List (Host Address)) :
    Places (limits factors datacenters) hosts
      (placeHosts (initDcRacks factors datacenters : Nat × DatacenterRackInfoMap Address).1
        ((initDcRacks factors datacenters).2, []) hosts) := by
  have run := (walkTracks_init factors datacenters).placeHosts
    (fun _ _ tracks enough _ _ _ present => tracks.full enough present) hosts
  rwa [nil_append] at run

end DseDriver.TokenMap
