import DseDriver.LoadBalancing.Chain
import DseDriver.LoadBalancing.DcAwarePlans

/-!
# The shapes of query plans

What a plan returns call by call while the policies and the hosts stay as they are.  A plan that
wraps another one is described by what the wrapped plan returns, so that the shapes of a chain of
policies follow from one another.
-/

namespace DseDriver.LoadBalancing

open Lib DseDriver.Request Policy

variable {limit : Nat} {heap : Heap} {slow : HostPtr → Bool}

/-- The plan returns these hosts one by one, and then no host for ever. -/
def Policy.Returns (limit : Nat) (heap : Heap) (slow : HostPtr → Bool) (policy : Policy)
    (plan : QueryPlan) (hosts : List HostPtr) : Prop :=
  Gives (fun _ => policy.computeNext limit heap slow) 0 plan hosts

theorem returns_roundRobin (present hosts : List HostPtr) (next index : UInt64)
    (remaining : Nat) :
    (Policy.roundRobin present next).Returns limit heap slow (.roundRobin hosts index remaining)
      ((window hosts remaining index).filter fun host => (heap host).isUp) := by
  refine gives_of_step (fun _ plan items => ∃ index remaining,
    plan = .roundRobin hosts index remaining ∧
      items = (window hosts remaining index).filter fun host => (heap host).isUp) ?_
    ⟨index, remaining, rfl, rfl⟩
  rintro _ _ _ ⟨index, remaining, rfl, rfl⟩
  rcases walk : nextInWindow (fun host => (heap host).isUp) hosts remaining index with
    ⟨_ | host, left, last⟩
  · obtain ⟨nothing, rfl, rfl⟩ := nextInWindow_eq_none walk
    rw [nothing]
    exact ⟨_, by rw [computeNext, walk]; rfl, _, 0, rfl, rfl⟩
  · rw [(nextInWindow_eq_some walk).1]
    exact ⟨_, by rw [computeNext, walk]; rfl, _, left, rfl, rfl⟩

/-! ## The datacenter-aware policy -/

namespace DCAwareQueryPlan

variable {policy : DCAwarePolicy}

/-- The loop over the remote datacenters ends when all of them have been walked through. -/
theorem nextRemote_eq_none {hosts after : List HostPtr} {dcs left : List String}
    {remaining last : Nat} {index position : UInt64}
    (walk : nextRemote heap policy hosts remaining index dcs = (none, after, left, last, position)) :
    left = [] ∧ last = 0 := by
  induction dcs generalizing hosts remaining index with
  | nil =>
    rw [nextRemote] at walk
    rcases inside : nextInWindow (fun host => (heap host).isUp) hosts remaining index with
      ⟨_ | host, count, reached⟩
    · rw [inside] at walk
      cases walk
      exact ⟨rfl, (nextInWindow_eq_none inside).2.1⟩
    · rw [inside] at walk
      cases walk
  | cons dc dcs ih =>
    rw [nextRemote] at walk
    rcases inside : nextInWindow (fun host => (heap host).isUp) hosts remaining index with
      ⟨_ | host, count, reached⟩
    · rw [inside] at walk
      exact ih walk
    · rw [inside] at walk
      cases walk

/-- A plan without a next host has none later. -/
theorem upcoming_eq_nil {plan after : DCAwareQueryPlan}
    (ends : plan.computeNext heap policy = (none, after)) : after.upcoming heap policy = [] := by
  rw [computeNext] at ends
  rcases walk : nextInWindow (fun host => (heap host).isUp) plan.hosts plan.localRemaining
    plan.index with ⟨_ | host, left, last⟩
  · obtain ⟨-, rfl, -⟩ := nextInWindow_eq_none walk
    rw [walk] at ends
    by_cases skips : policy.skipRemoteDcsForLocalCl ∧ isDcLocal plan.cl
    · simp only [if_pos skips] at ends
      cases ends
      simp [upcoming, window, if_pos skips]
    · simp only [if_neg skips] at ends
      rcases remote : nextRemote heap policy plan.hosts plan.remoteRemaining last
        (plan.remoteDcs.getD policy.perRemoteDcLiveHosts.copyDcs) with
        ⟨host, hosts, dcs, remaining, index⟩
      rw [remote] at ends
      cases ends
      obtain ⟨rfl, rfl⟩ := nextRemote_eq_none remote
      simp [upcoming, window, upcomingRemote]
  · rw [walk] at ends
    cases ends

end DCAwareQueryPlan

theorem returns_dcAware (policy : DCAwarePolicy) (plan : DCAwareQueryPlan) :
    (Policy.dcAware policy).Returns limit heap slow (.dcAware plan)
      (plan.upcoming heap policy) := by
  refine gives_of_step (fun _ plan items => ∃ inner,
    plan = .dcAware inner ∧ items = inner.upcoming heap policy) ?_ ⟨plan, rfl, rfl⟩
  rintro _ _ _ ⟨plan, rfl, rfl⟩
  have upcoming := DCAwareQueryPlan.computeNext_spec heap policy plan
  rcases step : plan.computeNext heap policy with ⟨_ | host, after⟩
  · rw [step] at upcoming
    refine ⟨.dcAware after, by rw [computeNext, step, upcoming]; rfl, after, rfl, ?_⟩
    rw [upcoming, DCAwareQueryPlan.upcoming_eq_nil step]
    rfl
  · rw [step] at upcoming
    exact ⟨.dcAware after, by rw [computeNext, step, upcoming]; rfl, after, rfl, by rw [upcoming]; rfl⟩

namespace DCAwarePolicy

variable (heap : Heap) (policy : DCAwarePolicy)

/-- The policy keeps a request of this consistency in the local datacenter. -/
def staysLocal (cl : Consistency) : Bool :=
  policy.skipRemoteDcsForLocalCl && isDcLocal cl

/-- How many hosts a plan looks at. -/
def walkLength (cl : Consistency) : Nat :=
  policy.localDcLiveHosts.length +
    if policy.staysLocal cl then 0 else (policy.perRemoteDcLiveHosts.copyDcs.map policy.used).sum

/-- The hosts of the plan in each remote datacenter. -/
def remoteParts : UInt64 → List String → List (List HostPtr)
  | _, [] => []
  | index, dc :: dcs =>
    (window (policy.perRemoteDcLiveHosts.getHosts dc) (policy.used dc) index).filter
        (fun host => (heap host).isUp) ::
      remoteParts (index + UInt64.ofNat (policy.used dc)) dcs

theorem upcomingRemote_eq (hosts : List HostPtr) (remaining : Nat) (index : UInt64)
    (dcs : List String) :
    DCAwareQueryPlan.upcomingRemote heap policy hosts remaining index dcs =
      (window hosts remaining index).filter (fun host => (heap host).isUp) ++
        (policy.remoteParts heap (index + UInt64.ofNat remaining) dcs).flatten := by
  induction dcs generalizing hosts remaining index with
  | nil => rw [DCAwareQueryPlan.upcomingRemote, remoteParts, List.flatten_nil, List.append_nil]
  | cons dc dcs ih => rw [DCAwareQueryPlan.upcomingRemote, ih, remoteParts, List.flatten_cons]

/-- The index of the policy is for the plans to come. -/
theorem remoteParts_index (next start : UInt64) (dcs : List String) :
    remoteParts heap { policy with index := next } start dcs =
      policy.remoteParts heap start dcs := by
  induction dcs generalizing start with
  | nil => rfl
  | cons dc dcs ih =>
    rw [remoteParts, remoteParts, ih]
    rfl

/-- Some hosts of a remote datacenter that are up, as many as may be used at most. -/
structure UsedIn (dc : String) (hosts : List HostPtr) : Prop where
  few : hosts.length ≤ policy.usedHostsPerRemoteDc
  once : hosts.Nodup
  up : ∀ host ∈ hosts, host ∈ policy.perRemoteDcLiveHosts.getHosts dc ∧ (heap host).isUp

variable {heap policy}

theorem toNat_add_ofNat_le (index : UInt64) (count : Nat) :
    (index + UInt64.ofNat count).toNat ≤ index.toNat + count := by
  rw [UInt64.toNat_add, UInt64.toNat_ofNat']
  exact (Nat.mod_le _ _).trans (Nat.add_le_add_left (Nat.mod_le _ _) _)

theorem usedIn_remoteParts (distinct : ∀ dc, (policy.perRemoteDcLiveHosts.getHosts dc).Nodup)
    {index : UInt64} {dcs : List String}
    (noWrap : index.toNat + (dcs.map policy.used).sum ≤ 2 ^ 64) :
    List.Forall₂ (policy.UsedIn heap) dcs (policy.remoteParts heap index dcs) := by
  induction dcs generalizing index with
  | nil => exact .nil
  | cons dc dcs ih =>
    rw [List.map_cons, List.sum_cons] at noWrap
    have within : policy.used dc ≤ (policy.perRemoteDcLiveHosts.getHosts dc).length :=
      Nat.min_le_left _ _
    rw [remoteParts, window_eq_rotate within (by omega)]
    refine .cons ⟨?_, ?_, fun host member => ?_⟩ (ih ?_)
    · exact (List.length_filter_le _ _).trans
        ((List.length_take_le _ _).trans (Nat.min_le_right _ _))
    · exact ((List.nodup_rotate.mpr (distinct dc)).sublist (List.take_sublist _ _)).filter _
    · obtain ⟨inPart, up⟩ := List.mem_filter.mp member
      exact ⟨List.mem_rotate.mp (List.mem_of_mem_take inPart), up⟩
    · have moved := toNat_add_ofNat_le index (policy.used dc)
      omega

/-- The hosts that a new plan returns in the remote datacenters. -/
def remotesOf (heap : Heap) (policy : DCAwarePolicy) (cl : Consistency) : List (List HostPtr) :=
  if policy.staysLocal cl then [] else
    policy.remoteParts heap (policy.index + UInt64.ofNat policy.localDcLiveHosts.length)
      policy.perRemoteDcLiveHosts.copyDcs

theorem upcoming_newQueryPlan (cl : Consistency) :
    (policy.newQueryPlan cl).1.upcoming heap (policy.newQueryPlan cl).2 =
      (window policy.localDcLiveHosts policy.localDcLiveHosts.length policy.index).filter
          (fun host => (heap host).isUp) ++ (policy.remotesOf heap cl).flatten := by
  have remotes := upcomingRemote_eq heap (policy.newQueryPlan cl).2 policy.localDcLiveHosts 0
    (policy.index + UInt64.ofNat policy.localDcLiveHosts.length)
    policy.perRemoteDcLiveHosts.copyDcs
  have noMore : policy.index + UInt64.ofNat policy.localDcLiveHosts.length + UInt64.ofNat 0 =
      policy.index + UInt64.ofNat policy.localDcLiveHosts.length := UInt64.add_zero _
  rw [window, List.filter_nil, List.nil_append, noMore, newQueryPlan, remoteParts_index] at remotes
  refine congrArg (List.append _) ?_
  rw [remotesOf, staysLocal]
  by_cases stays : policy.skipRemoteDcsForLocalCl ∧ isDcLocal cl
  · exact (if_pos stays).trans (by simp [stays])
  · exact (if_neg stays).trans (remotes.trans (by simp [stays]))

/-- A plan returns each local host that is up once, then some hosts of each remote datacenter
unless it stays local, and then no host any more. -/
theorem plan_shape (limit : Nat) (slow : HostPtr → Bool) (request : Option Request)
    (localDistinct : policy.localDcLiveHosts.Nodup)
    (remoteDistinct : ∀ dc, (policy.perRemoteDcLiveHosts.getHosts dc).Nodup)
    (noWrap : policy.index.toNat +
      policy.walkLength ((request.map Request.consistency).getD .localOne) ≤ 2 ^ 64) :
    ∃ locals remotes,
      ((Policy.dcAware policy).newQueryPlan request).2.Returns limit heap slow
        ((Policy.dcAware policy).newQueryPlan request).1 (locals ++ remotes.flatten) ∧
      locals.Nodup ∧
      (∀ host, host ∈ locals ↔ host ∈ policy.localDcLiveHosts ∧ (heap host).isUp) ∧
      policy.perRemoteDcLiveHosts.copyDcs.Nodup ∧
      if policy.staysLocal ((request.map Request.consistency).getD .localOne) then
        remotes = []
      else
        List.Forall₂ (policy.UsedIn heap) policy.perRemoteDcLiveHosts.copyDcs remotes := by
  refine ⟨(policy.localDcLiveHosts.rotate policy.index.toNat).filter fun host => (heap host).isUp,
    policy.remotesOf heap ((request.map Request.consistency).getD .localOne), ?_, ?_,
    fun host => ?_, ?_, ?_⟩
  · have locals : window policy.localDcLiveHosts policy.localDcLiveHosts.length policy.index =
        policy.localDcLiveHosts.rotate policy.index.toNat := by
      rw [walkLength] at noWrap
      rw [window_eq_rotate le_rfl (by omega), List.take_of_length_le (by simp)]
    rw [← locals, ← upcoming_newQueryPlan]
    exact returns_dcAware _ _
  · exact (List.nodup_rotate.mpr localDistinct).filter _
  · rw [List.mem_filter, List.mem_rotate]
  · exact (List.perm_insertionSort _ _).nodup_iff.mpr policy.perRemoteDcLiveHosts.keys_nodup
  · rw [remotesOf]
    split
    next stays => rfl
    next leaves =>
      rw [walkLength, if_neg leaves] at noWrap
      refine usedIn_remoteParts remoteDistinct ?_
      have moved := toNat_add_ofNat_le policy.index policy.localDcLiveHosts.length
      omega

/-- A local host, and then one of the two remote ones. -/
theorem plan_shape_oneOfTwo :
    (oneOfTwo 0).index.toNat + (oneOfTwo 0).walkLength .one ≤ 2 ^ 64 ∧
      ∃ locals remotes,
        ((Policy.dcAware (oneOfTwo 0)).newQueryPlan (some ⟨.one, [], none⟩)).2.Returns 1 allUp
          (fun _ => false) ((Policy.dcAware (oneOfTwo 0)).newQueryPlan (some ⟨.one, [], none⟩)).1
          (locals ++ remotes.flatten) ∧
        nearHost ∈ locals ∧
        List.Forall₂ ((oneOfTwo 0).UsedIn allUp) (oneOfTwo 0).perRemoteDcLiveHosts.copyDcs
          remotes := by
  have short : (oneOfTwo 0).index.toNat + (oneOfTwo 0).walkLength .one ≤ 2 ^ 64 := by decide
  have remoteDistinct (dc : String) : ((oneOfTwo 0).perRemoteDcLiveHosts.getHosts dc).Nodup := by
    rcases List.eq_nil_or_concat' ((oneOfTwo 0).perRemoteDcLiveHosts.getHosts dc) with
      empty | ⟨hosts, last, list⟩
    · rw [empty]
      exact List.nodup_nil
    · have member : last ∈ (oneOfTwo 0).perRemoteDcLiveHosts.getHosts dc := by
        rw [list]
        exact List.mem_concat_self
      exact ((files_oneOfTwo 0).remote member).2.2.of_map _
  obtain ⟨locals, remotes, returns, -, isLocal, -, used⟩ := plan_shape 1 (fun _ => false)
    (some ⟨.one, [], none⟩) (by decide) remoteDistinct short
  exact ⟨short, locals, remotes, returns, (isLocal nearHost).mpr (by decide), used⟩

end DCAwarePolicy

/-! ## The token-aware policy -/

/-- A replica with this property is returned before the hosts of the wrapped plan. -/
abbrev Policy.isLocalAndUp (heap : Heap) (policy : Policy) : HostPtr → Bool :=
  fun host => (heap host).isUp && (policy.distance heap host = .localDc : Bool)

/-- The hosts of the wrapped plan that are not local replicas. -/
abbrev Policy.isOther (heap : Heap) (policy : Policy) (replicas : List HostPtr) : HostPtr → Bool :=
  fun host => !(replicas.any fun replica => replica.address = host.address) ||
    !(policy.distance heap host = .localDc : Bool)

/-- The wrapped plan is asked when the replicas have been walked through. -/
theorem returns_tokenAware {policy : Policy} {plan : QueryPlan}
    {hosts replicas : List HostPtr} (shuffleReplicas : Bool) (next index : UInt64)
    (remaining : Nat) (child : policy.Returns limit heap slow plan hosts)
    (enough : hosts.length < limit) :
    (Policy.tokenAware shuffleReplicas next policy).Returns limit heap slow
      (.tokenAware plan replicas index remaining)
      ((window replicas remaining index).filter (policy.isLocalAndUp heap) ++
        hosts.filter (policy.isOther heap replicas)) := by
  refine gives_of_step (fun _ outer items => ∃ plan hosts index remaining,
    outer = .tokenAware plan replicas index remaining ∧
      policy.Returns limit heap slow plan hosts ∧ hosts.length < limit ∧
      items = (window replicas remaining index).filter (policy.isLocalAndUp heap) ++
        hosts.filter (policy.isOther heap replicas)) ?_
    ⟨plan, hosts, index, remaining, rfl, child, enough, rfl⟩
  rintro _ _ _ ⟨plan, hosts, index, remaining, rfl, child, enough, rfl⟩
  rcases walk : nextInWindow (policy.isLocalAndUp heap) replicas remaining index with
    ⟨_ | host, left, last⟩
  · obtain ⟨nothing, rfl, -⟩ := nextInWindow_eq_none walk
    obtain ⟨after, found, rest⟩ := Gives.nextWanted child (policy.isOther heap replicas) enough []
    rw [nothing, List.nil_append]
    refine ⟨.tokenAware after replicas last 0, ?_, after, _, last, 0, rfl, rest, ?_, ?_⟩
    · rw [computeNext, walk]
      dsimp only
      rw [found, head?_dropWhile_not]
      rfl
    · exact (length_tail_dropWhile_le _ hosts).trans_lt enough
    · rw [window, List.filter_nil, List.nil_append, filter_tail_dropWhile_not]
  · rw [(nextInWindow_eq_some walk).1]
    exact ⟨_, by rw [computeNext, walk]; rfl, plan, hosts, last, left, rfl, child, enough, rfl⟩

/-- The plan returns the local replicas that are up in rotated order, then the other hosts of the
wrapped plan in its order, and none of them twice. -/
theorem tokenAware_plan_shape {policy : Policy} {plan : QueryPlan} {hosts replicas : List HostPtr}
    (shuffleReplicas : Bool) (next index : UInt64) (distinctReplicas : Distinct replicas)
    (distinctHosts : Distinct hosts) (child : policy.Returns limit heap slow plan hosts)
    (enough : hosts.length < limit) (noWrap : index.toNat + replicas.length ≤ 2 ^ 64) :
    ∃ first others,
      (Policy.tokenAware shuffleReplicas next policy).Returns limit heap slow
        (.tokenAware plan replicas index replicas.length) (first ++ others) ∧
      first = (replicas.rotate (index.toNat % replicas.length)).filter
        (policy.isLocalAndUp heap) ∧
      others = hosts.filter (policy.isOther heap replicas) ∧
      Distinct first ∧ Distinct others := by
  refine ⟨_, _, ?_, rfl, rfl, ?_, distinctHosts.sublist (List.filter_sublist.map _)⟩
  · have rotated := window_eq_rotate (le_refl replicas.length) noWrap
    rw [List.take_of_length_le (by simp), ← List.rotate_mod] at rotated
    rw [← rotated]
    exact returns_tokenAware shuffleReplicas next index replicas.length child enough
  · refine List.Nodup.sublist (List.filter_sublist.map _) ?_
    rw [List.map_rotate]
    exact List.nodup_rotate.mpr distinctReplicas

/-- Two hosts that a round-robin plan returns in this order. -/
def twoHosts : List HostPtr :=
  [⟨⟨"10.0.0.1", 9042⟩, 1⟩, ⟨⟨"10.0.0.2", 9042⟩, 2⟩]

theorem returns_twoHosts (present : List HostPtr) (next : UInt64) :
    (Policy.roundRobin present next).Returns 3 DCAwarePolicy.allUp (fun _ => false)
      (.roundRobin twoHosts 0 2) twoHosts :=
  returns_roundRobin present twoHosts next 0 2

theorem tokenAware_plan_shape_twoHosts :
    ∃ first others,
      (Policy.tokenAware false 0 (.roundRobin [] 0)).Returns 3 DCAwarePolicy.allUp
        (fun _ => false) (.tokenAware (.roundRobin twoHosts 0 2) (twoHosts.drop 1) 0 1)
        (first ++ others) ∧
      first = twoHosts.drop 1 ∧ others = twoHosts.take 1 := by
  obtain ⟨first, others, returns, isFirst, isOther, -⟩ :=
    tokenAware_plan_shape false 0 0 (show Distinct (twoHosts.drop 1) by unfold Distinct; decide)
      (show Distinct twoHosts by unfold Distinct; decide) (returns_twoHosts [] 0) (by decide)
      (by decide)
  exact ⟨first, others, returns, isFirst.trans (by decide), isOther.trans (by decide)⟩

/-! ## The host-targeting policy -/

theorem returns_child {policy : Policy} {plan : QueryPlan} {hosts : List HostPtr}
    (availableHosts : AList fun _ : Address => HostPtr)
    (child : policy.Returns limit heap slow plan hosts) :
    (Policy.hostTargeting availableHosts policy).Returns limit heap slow (.child plan) hosts := by
  refine gives_of_step (fun _ outer items => ∃ plan, outer = .child plan ∧
    policy.Returns limit heap slow plan items) ?_ ⟨plan, rfl, child⟩
  rintro _ _ items ⟨plan, rfl, child⟩
  obtain ⟨after, step, rest⟩ := gives_iff.mp child
  exact ⟨.child after, by rw [computeNext, step]; rfl, after, rfl, rest.renumber 0⟩

/-- The preferred host comes first and is left out where the wrapped plan returns it. -/
theorem returns_hostTargeting {policy : Policy} {plan : QueryPlan} {hosts : List HostPtr}
    (availableHosts : AList fun _ : Address => HostPtr) (preferredHost : HostPtr)
    (distinct : Distinct hosts) (child : policy.Returns limit heap slow plan hosts) :
    (Policy.hostTargeting availableHosts policy).Returns limit heap slow
      (.hostTargeting true preferredHost plan)
      (preferredHost :: hosts.filter fun host => host.address ≠ preferredHost.address) := by
  have later (call : Nat) (plan : QueryPlan) (hosts : List HostPtr) (distinct : Distinct hosts)
      (child : policy.Returns limit heap slow plan hosts) :
      Gives (fun _ => (Policy.hostTargeting availableHosts policy).computeNext limit heap slow) call
        (.hostTargeting false preferredHost plan)
        (hosts.filter fun host => host.address ≠ preferredHost.address) := by
    refine gives_of_step (fun _ outer items => ∃ plan hosts,
      outer = .hostTargeting false preferredHost plan ∧ Distinct hosts ∧
        policy.Returns limit heap slow plan hosts ∧
        items = hosts.filter fun host => host.address ≠ preferredHost.address) ?_
      ⟨plan, hosts, rfl, distinct, child, rfl⟩
    rintro _ _ _ ⟨plan, hosts, rfl, distinct, child, rfl⟩
    obtain ⟨after, step, rest⟩ := gives_iff.mp child
    replace rest := rest.renumber 0
    cases hosts with
    | nil => exact ⟨_, by rw [computeNext, step]; rfl, after, [], rfl, distinct, rest, rfl⟩
    | cons host hosts =>
      obtain ⟨absent, others⟩ := List.nodup_cons.mp distinct
      by_cases same : host.address = preferredHost.address
      · -- the preferred host is not among those behind it
        have differs : ∀ other ∈ hosts, decide (other.address ≠ preferredHost.address) := by
          intro other member
          refine decide_eq_true fun equal => absent ?_
          exact List.mem_map.mpr ⟨other, member, equal.trans same.symm⟩
        obtain ⟨last, second, behind⟩ := gives_iff.mp rest
        rw [List.filter_cons_of_neg (by simpa using same), List.filter_eq_self.mpr differs]
        refine ⟨.hostTargeting false preferredHost last, ?_, last, hosts.tail, rfl,
          others.sublist ((List.tail_sublist hosts).map _), behind.renumber 0, ?_⟩
        · rw [computeNext, step]
          simp [same, second]
        · exact (List.filter_eq_self.mpr fun other member =>
            differs other (List.mem_of_mem_tail member)).symm
      · rw [List.filter_cons_of_pos (by simpa using same)]
        exact ⟨_, by rw [computeNext, step]; simp [same], after, hosts, rfl, others, rest, rfl⟩
  exact gives_iff.mpr ⟨_, rfl, later _ plan hosts distinct child⟩

/-- `available_hosts_`. -/
def Policy.availableHosts : Policy → AList fun _ : Address => HostPtr
  | .hostTargeting availableHosts _ => availableHosts
  | _ => ∅

/-- The host that the last notification about an address was about, if that made it live. -/
def lastLive (address : Address) (history : List (Bool × HostPtr)) : Option HostPtr :=
  (history.filter fun entry => entry.2.address = address).getLast?.bind fun (isLive, host) =>
    if isLive then some host else none

theorem lastLive_append (address : Address) (history : List (Bool × HostPtr)) (isLive : Bool)
    (host : HostPtr) :
    lastLive address (history ++ [(isLive, host)]) =
      if host.address = address then
        if isLive then some host else none
      else
        lastLive address history := by
  by_cases same : host.address = address <;> simp [lastLive, List.filter_append, same]

/-- The hosts of `init` become available. -/
theorem lookup_init (address : Address) (hosts : List HostPtr) :
    (hosts.foldl (fun available host => available.insert host.address host)
        (∅ : AList fun _ : Address => HostPtr)).lookup address =
      lastLive address (hosts.map (true, ·)) := by
  induction hosts using List.reverseRecOn with
  | nil => rfl
  | append_singleton hosts host ih =>
    rw [List.foldl_append, List.map_append, List.map_singleton, lastLive_append]
    split
    next same => rw [← same]; exact AList.lookup_insert _
    next other => exact (AList.lookup_insert_ne (Ne.symm other)).trans ih

/-- A notification, with the hosts as they are at that time. -/
structure HostNotified where
  heap : Heap
  notification : Notification
  host : HostPtr

/-- The policy after notifications. -/
def Policy.afterAll (policy : Policy) (notified : List HostNotified) : Policy :=
  notified.foldl (fun policy entry => policy.notify entry.heap entry.notification entry.host) policy

theorem lookup_afterAll (address : Address) (child : Policy) (connectedHost : Option HostPtr)
    (hosts : List HostPtr) (random : Option (Nat → UInt64)) (notified : List HostNotified) :
    (((Policy.hostTargeting ∅ child).init heap connectedHost hosts random).afterAll
        notified).availableHosts.lookup address =
      lastLive address (hosts.map (true, ·) ++
        notified.map fun entry => (entry.notification.isLive, entry.host)) := by
  -- each notification leaves a host-targeting policy around a changed child
  suffices ∃ available inner,
      ((Policy.hostTargeting ∅ child).init heap connectedHost hosts random).afterAll notified =
        .hostTargeting available inner ∧
      available.lookup address = lastLive address (hosts.map (true, ·) ++
        notified.map fun entry => (entry.notification.isLive, entry.host)) by
    obtain ⟨available, inner, after, found⟩ := this
    rw [after]
    exact found
  induction notified using List.reverseRecOn with
  | nil => exact ⟨_, _, rfl, by simpa using lookup_init address hosts⟩
  | append_singleton notified entry ih =>
    obtain ⟨available, inner, after, found⟩ := ih
    refine ⟨_, _, (List.foldl_append ..).trans (congrArg
      (Policy.notify entry.heap entry.notification entry.host) after), ?_⟩
    rw [List.map_append, List.map_singleton, ← List.append_assoc, lastLive_append, ← found]
    by_cases same : entry.host.address = address
    · rw [if_pos same, ← same]
      cases entry.notification.isLive
      · exact AList.lookup_erase _ _
      · exact AList.lookup_insert _
    · rw [if_neg same]
      cases entry.notification.isLive
      · exact AList.lookup_erase_ne (Ne.symm same)
      · exact AList.lookup_insert_ne (Ne.symm same)

/-- A plan for a request that prefers an available host returns it first and then the other hosts
of the wrapped plan; any other plan is the wrapped one.  Available are the hosts of `init` and those
added or up, until they are removed or down. -/
theorem hostTargeting_plan_shape (child : Policy) {request : Request} {address : Address}
    (prefers : request.preferredAddress = some address) {hosts : List HostPtr}
    (distinct : Distinct hosts)
    (returns : (child.newQueryPlan (some request)).2.Returns limit heap slow
      (child.newQueryPlan (some request)).1 hosts) :
    (∀ available host, available.lookup address = some host →
      ((Policy.hostTargeting available child).newQueryPlan (some request)).2.Returns limit heap slow
        ((Policy.hostTargeting available child).newQueryPlan (some request)).1
        (host :: hosts.filter fun other => other.address ≠ host.address)) ∧
    (∀ available, available.lookup address = none →
      ((Policy.hostTargeting available child).newQueryPlan (some request)).2.Returns limit heap slow
        ((Policy.hostTargeting available child).newQueryPlan (some request)).1 hosts) ∧
    ∀ address connectedHost hosts random notified,
      (((Policy.hostTargeting ∅ child).init heap connectedHost hosts random).afterAll
          notified).availableHosts.lookup address =
        lastLive address (hosts.map (true, ·) ++
          notified.map fun entry => (entry.notification.isLive, entry.host)) := by
  refine ⟨fun available host found => ?_, fun available missing => ?_,
    fun address connectedHost hosts random notified => ?_⟩
  · have plan : (Policy.hostTargeting available child).newQueryPlan (some request) =
        (.hostTargeting true host (child.newQueryPlan (some request)).1,
          .hostTargeting available (child.newQueryPlan (some request)).2) := by
      simp [Policy.newQueryPlan, prefers, found]
    rw [plan]
    exact returns_hostTargeting available host distinct returns
  · have plan : (Policy.hostTargeting available child).newQueryPlan (some request) =
        (.child (child.newQueryPlan (some request)).1,
          .hostTargeting available (child.newQueryPlan (some request)).2) := by
      simp [Policy.newQueryPlan, prefers, missing]
    rw [plan]
    exact returns_child available returns
  · exact lookup_afterAll address child connectedHost hosts random notified

/-- The request prefers the second host, which is available. -/
theorem hostTargeting_plan_shape_twoHosts :
    ((Policy.hostTargeting (AList.insert ⟨"10.0.0.2", 9042⟩ ⟨⟨"10.0.0.2", 9042⟩, 2⟩ ∅)
        (.roundRobin twoHosts 0)).newQueryPlan (some ⟨.one, [], some ⟨"10.0.0.2", 9042⟩⟩)).2.Returns
      3 DCAwarePolicy.allUp (fun _ => false)
      ((Policy.hostTargeting (AList.insert ⟨"10.0.0.2", 9042⟩ ⟨⟨"10.0.0.2", 9042⟩, 2⟩ ∅)
        (.roundRobin twoHosts 0)).newQueryPlan (some ⟨.one, [], some ⟨"10.0.0.2", 9042⟩⟩)).1
      [⟨⟨"10.0.0.2", 9042⟩, 2⟩, ⟨⟨"10.0.0.1", 9042⟩, 1⟩] :=
  (hostTargeting_plan_shape (.roundRobin twoHosts 0) rfl
    (show Distinct twoHosts by unfold Distinct; decide) (returns_twoHosts twoHosts 1)).1 _ _
    (AList.lookup_insert _)

end DseDriver.LoadBalancing
