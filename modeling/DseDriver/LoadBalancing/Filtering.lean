import DseDriver.LoadBalancing.Chain

/-!
# What the list policies keep out

A host reaches the base policy only through all list policies around it, and the token-aware
policy asks for the distance of a replica, which the list policies answer too.  So the plans of
the chain return accepted hosts, whatever notifications arrive.  Only the host-targeting policy
keeps a set of hosts of its own outside of the list policies.
-/

namespace DseDriver.LoadBalancing

open Lib List Option

/-! ## The layers of a chain -/

/-- A policy of a chain, without its state. -/
inductive Layer where
  | list (kind : ListKind)
  | tokenAware
  | latencyAware
  | hostTargeting
  deriving DecidableEq, Repr

/-- The policies around the base policy, the outermost first. -/
def Policy.layers : Policy → List Layer
  | .roundRobin .. | .dcAware _ => []
  | .list kind child => .list kind :: child.layers
  | .tokenAware _ _ child => .tokenAware :: child.layers
  | .latencyAware _ child => .latencyAware :: child.layers
  | .hostTargeting _ child => .hostTargeting :: child.layers

/-- No list policy among the layers rejects the host. -/
def Accepted (heap : Heap) (layers : List Layer) (host : HostPtr) : Prop :=
  ∀ kind, Layer.list kind ∈ layers → kind.isValidHost heap host

theorem Policy.layers_notify (heap : Heap) (notification : Notification) (host : HostPtr)
    (policy : Policy) : (policy.notify heap notification host).layers = policy.layers := by
  induction policy with
  | roundRobin hosts index => rfl
  | dcAware policy => rfl
  | list kind child ih =>
    rw [notify]
    split
    · simp only [layers, ih]
    · rfl
  | tokenAware shuffleReplicas index child ih => simp only [notify, layers, ih]
  | latencyAware hosts child ih => simp only [notify, layers, ih]
  | hostTargeting availableHosts child ih => simp only [notify, layers, ih]

theorem Policy.layers_init (heap : Heap) (connectedHost : Option HostPtr) (policy : Policy)
    (hosts : List HostPtr) (random : Option (Nat → UInt64)) :
    (policy.init heap connectedHost hosts random).layers = policy.layers := by
  induction policy generalizing hosts random with
  | roundRobin present index => rfl
  | dcAware policy => rfl
  | list kind child ih => simp only [init, layers, ih]
  | tokenAware shuffleReplicas index child ih => simp only [init, layers, ih]
  | latencyAware present child ih => simp only [init, layers, ih]
  | hostTargeting availableHosts child ih => simp only [init, layers, ih]

theorem Policy.layers_newQueryPlan (request : Option Request) (policy : Policy) :
    (policy.newQueryPlan request).2.layers = policy.layers := by
  induction policy with
  | roundRobin hosts index => rfl
  | dcAware policy => rfl
  | list kind child ih => simp only [newQueryPlan, layers, ih]
  | tokenAware shuffleReplicas index child ih =>
    simp only [newQueryPlan]
    split <;> simp only [layers, ih]
  | latencyAware hosts child ih => simp only [newQueryPlan, layers, ih]
  | hostTargeting availableHosts child ih =>
    simp only [newQueryPlan]
    split <;> simp only [layers, ih]

variable {heap : Heap} {host : HostPtr}

theorem Accepted.cons_list {layers : List Layer} {kind : ListKind}
    (valid : kind.isValidHost heap host) (accepted : Accepted heap layers host) :
    Accepted heap (.list kind :: layers) host := by
  intro other member
  rcases mem_cons.mp member with same | inside
  · cases same
    exact valid
  · exact accepted other inside

/-- Another layer than a list policy changes nothing. -/
theorem Accepted.cons {layers : List Layer} {layer : Layer} (other : ∀ kind, layer ≠ .list kind)
    (accepted : Accepted heap layers host) :
    Accepted heap (layer :: layers) host := by
  intro kind member
  rcases mem_cons.mp member with same | inside
  · exact absurd same.symm (other kind)
  · exact accepted kind inside

/-- A list policy says that a host it rejects is to be ignored. -/
theorem Policy.accepted_of_distance {policy : Policy} (used : policy.distance heap host ≠ .ignore) :
    Accepted heap policy.layers host := by
  induction policy with
  | roundRobin hosts index => exact fun kind member => absurd member not_mem_nil
  | dcAware policy => exact fun kind member => absurd member not_mem_nil
  | list kind child ih =>
    rw [distance] at used
    split at used
    next valid => exact (ih used).cons_list valid
    · exact absurd rfl used
  | tokenAware shuffleReplicas index child ih => exact (ih used).cons nofun
  | latencyAware hosts child ih => exact (ih used).cons nofun
  | hostTargeting availableHosts child ih => exact (ih used).cons nofun

/-! ## The hosts of the base policy -/

section Holding

variable (accept : HostPtr → Prop)

/-- All hosts in the lists of the policy are of a kind. -/
structure DCAwarePolicy.Holds (policy : DCAwarePolicy) : Prop where
  inLocal : ∀ host ∈ policy.localDcLiveHosts, accept host
  inRemote : ∀ dc, ∀ host ∈ policy.perRemoteDcLiveHosts.getHosts dc, accept host

/-- All hosts the base policy knows are of a kind. -/
def Policy.Holds : Policy → Prop
  | .roundRobin hosts _ => ∀ host ∈ hosts, accept host
  | .dcAware policy => policy.Holds accept
  | .list _ child => child.Holds
  | .tokenAware _ _ child => child.Holds
  | .latencyAware _ child => child.Holds
  | .hostTargeting _ child => child.Holds

/-- All hosts a plan has at hand are of a kind, its replicas apart. -/
def QueryPlan.Holds : QueryPlan → Prop
  | .roundRobin hosts _ _ => ∀ host ∈ hosts, accept host
  | .dcAware plan => ∀ host ∈ plan.hosts, accept host
  | .child plan => plan.Holds
  | .tokenAware plan _ _ _ => plan.Holds
  | .latencyAware plan skipped _ => plan.Holds ∧ ∀ host ∈ skipped, accept host
  | .hostTargeting _ preferredHost plan => accept preferredHost ∧ plan.Holds

variable {accept} {policy : DCAwarePolicy}

theorem DCAwarePolicy.Holds.onAdd (holds : policy.Holds accept) (accepted : accept host) :
    (policy.onAdd heap host).Holds accept := by
  rw [onAdd_eq]
  split
  · refine ⟨fun other member => ?_, holds.inRemote⟩
    rcases mem_append.mp member with before | last
    · exact holds.inLocal other before
    · exact mem_singleton.mp last ▸ accepted
  · refine ⟨holds.inLocal, fun dc other member => ?_⟩
    rw [PerDCHostMap.getHosts_addHostToDc] at member
    split at member
    · rcases mem_addHost member with rfl | before
      · exact accepted
      · exact holds.inRemote _ other before
    · exact holds.inRemote dc other member

theorem DCAwarePolicy.Holds.onRemove (host : HostPtr) (holds : policy.Holds accept) :
    (policy.onRemove heap host).Holds accept := by
  rw [DCAwarePolicy.onRemove]
  split
  · exact ⟨fun other member => holds.inLocal other (mem_of_mem_removeHost member),
      holds.inRemote⟩
  · refine ⟨holds.inLocal, fun dc other member => ?_⟩
    rw [PerDCHostMap.getHosts_removeHostFromDc] at member
    split at member
    · exact holds.inRemote _ other (mem_of_mem_removeHost member)
    · exact holds.inRemote dc other member

theorem DCAwarePolicy.Holds.notify (holds : policy.Holds accept) (accepted : accept host)
    (notification : Notification) :
    (policy.notify heap host notification).Holds accept := by
  cases notification with
  | onAdd => exact holds.onAdd accepted
  | onRemove => exact holds.onRemove host
  | onUp => exact holds.onAdd accepted
  | onDown => exact holds.onRemove host

variable {hosts : List HostPtr}

theorem DCAwarePolicy.Holds.init (holds : policy.Holds accept)
    (accepted : ∀ host ∈ hosts, accept host) (connectedHost : Option HostPtr)
    (random : Option UInt64) :
    (policy.init heap connectedHost hosts random).Holds accept := by
  refine init_induction ?_ (fun policy host member holds => holds.onAdd (accepted host member))
    (fun policy index holds => ⟨holds.inLocal, holds.inRemote⟩) random
  unfold noteConnected
  split
  · split <;> exact ⟨holds.inLocal, holds.inRemote⟩
  · exact holds

theorem Notification.updateHosts_accepted (holds : ∀ other ∈ hosts, accept other)
    (accepted : accept host) (notification : Notification) :
    ∀ other ∈ notification.updateHosts hosts host, accept other := by
  intro other member
  rw [updateHosts] at member
  split at member
  · rcases mem_addHost member with rfl | before
    · exact accepted
    · exact holds other before
  · exact holds other (mem_of_mem_removeHost member)

namespace Policy

/-- A host comes to the base policy only if all list policies accept it. -/
theorem Holds.notify {notification : Notification} {policy : Policy} (holds : policy.Holds accept)
    (accepts : Accepted heap policy.layers host → accept host) :
    (policy.notify heap notification host).Holds accept := by
  induction policy with
  | roundRobin hosts index =>
    exact notification.updateHosts_accepted holds (accepts fun kind => nofun)
  | dcAware policy => exact DCAwarePolicy.Holds.notify holds (accepts fun kind => nofun) notification
  | list kind child ih =>
    rw [Policy.notify]
    split
    next valid => exact ih holds fun accepted => accepts (accepted.cons_list valid)
    · exact holds
  | tokenAware shuffleReplicas index child ih =>
    exact ih holds fun accepted => accepts (accepted.cons nofun)
  | latencyAware hosts child ih => exact ih holds fun accepted => accepts (accepted.cons nofun)
  | hostTargeting availableHosts child ih =>
    exact ih holds fun accepted => accepts (accepted.cons nofun)

theorem Holds.init {connectedHost : Option HostPtr} {policy : Policy}
    {random : Option (Nat → UInt64)} (holds : policy.Holds accept)
    (accepts : ∀ host ∈ hosts, Accepted heap policy.layers host → accept host) :
    (policy.init heap connectedHost hosts random).Holds accept := by
  induction policy generalizing hosts random with
  | roundRobin present index =>
    intro host member
    rcases mem_append.mp member with before | new
    · exact holds host before
    · exact accepts host new fun kind => nofun
  | dcAware policy =>
    exact DCAwarePolicy.Holds.init holds (fun host member => accepts host member fun kind => nofun)
      _ _
  | list kind child ih =>
    refine ih holds fun host member accepted => ?_
    obtain ⟨inside, valid⟩ := mem_filter.mp member
    exact accepts host inside (accepted.cons_list valid)
  | tokenAware shuffleReplicas index child ih =>
    exact ih holds fun host member accepted => accepts host member (accepted.cons nofun)
  | latencyAware present child ih =>
    exact ih holds fun host member accepted => accepts host member (accepted.cons nofun)
  | hostTargeting availableHosts child ih =>
    exact ih holds fun host member accepted => accepts host member (accepted.cons nofun)

theorem Holds.newQueryPlan {policy : Policy} (holds : policy.Holds accept)
    (request : Option Request) : (policy.newQueryPlan request).2.Holds accept := by
  induction policy with
  | roundRobin hosts index => exact holds
  | dcAware policy => exact ⟨holds.inLocal, holds.inRemote⟩
  | list kind child ih => exact ih holds
  | tokenAware shuffleReplicas index child ih =>
    rw [Policy.newQueryPlan]
    dsimp only
    split <;> exact ih holds
  | latencyAware hosts child ih => exact ih holds
  | hostTargeting availableHosts child ih =>
    rw [Policy.newQueryPlan]
    dsimp only
    split <;> exact ih holds

/-- The plans of all policies but the host-targeting one start with the hosts of the base
policy. -/
theorem Holds.plan {policy : Policy} (holds : policy.Holds accept)
    (untargeted : Layer.hostTargeting ∉ policy.layers) (request : Option Request) :
    (policy.newQueryPlan request).1.Holds accept := by
  induction policy with
  | roundRobin hosts index => exact holds
  | dcAware policy => exact holds.inLocal
  | list kind child ih => exact ih holds (not_mem_of_not_mem_cons untargeted)
  | tokenAware shuffleReplicas index child ih =>
    rw [Policy.newQueryPlan]
    dsimp only
    split <;> exact ih holds (not_mem_of_not_mem_cons untargeted)
  | latencyAware hosts child ih =>
    exact ⟨ih holds (not_mem_of_not_mem_cons untargeted), fun host => nofun⟩
  | hostTargeting availableHosts child ih => exact absurd mem_cons_self untargeted

/-- The host that `HostTargetingPolicy::new_query_plan` puts first, if it is outermost. -/
def preferredHost (request : Option Request) : Policy → Option HostPtr
  | .hostTargeting availableHosts _ =>
    (request.bind Request.preferredAddress).bind availableHosts.lookup
  | _ => none

theorem Holds.plan_of_preferred {policy : Policy} (holds : policy.Holds accept)
    (outermost : Layer.hostTargeting ∉ policy.layers.tail) {request : Option Request}
    (preferred : ∀ host, policy.preferredHost request = some host → accept host) :
    (policy.newQueryPlan request).1.Holds accept := by
  cases policy with
  | hostTargeting availableHosts child =>
    have childHolds : child.Holds accept := holds
    have inner := childHolds.plan outermost request
    rw [Policy.newQueryPlan]
    dsimp only
    split
    · exact inner
    next host found => exact ⟨preferred host found, inner⟩
  | roundRobin hosts index => exact holds.plan outermost request
  | dcAware policy => exact Holds.plan holds outermost request
  | list kind child => exact Holds.plan holds (not_mem_cons_of_ne_of_not_mem nofun outermost) request
  | tokenAware shuffleReplicas index child =>
    exact Holds.plan holds (not_mem_cons_of_ne_of_not_mem nofun outermost) request
  | latencyAware hosts child =>
    exact Holds.plan holds (not_mem_cons_of_ne_of_not_mem nofun outermost) request

end Policy

/-! ## What a plan returns -/

theorem DCAwareQueryPlan.nextRemote_accepted (holds : policy.Holds accept)
    (accepted : ∀ host ∈ hosts, accept host) (remaining : Nat) (index : UInt64)
    (dcs : List String) :
    (∀ host, (nextRemote heap policy hosts remaining index dcs).1 = some host → accept host) ∧
      ∀ host ∈ (nextRemote heap policy hosts remaining index dcs).2.1, accept host := by
  induction dcs generalizing hosts remaining index with
  | nil =>
    rw [nextRemote]
    rcases walk : nextInWindow (fun host => (heap host).isUp) hosts remaining index with
      ⟨found, left, last⟩
    refine ⟨fun host isHost => ?_, accepted⟩
    cases isHost
    exact accepted host (mem_of_nextInWindow walk).1
  | cons dc dcs ih =>
    rw [nextRemote]
    rcases walk : nextInWindow (fun host => (heap host).isUp) hosts remaining index with
      ⟨_ | found, left, last⟩
    · exact ih (holds.inRemote dc) _ _
    · refine ⟨fun host isHost => ?_, accepted⟩
      cases isHost
      exact accepted found (mem_of_nextInWindow walk).1

theorem DCAwareQueryPlan.computeNext_accepted (holds : policy.Holds accept)
    {plan : DCAwareQueryPlan} (accepted : ∀ host ∈ plan.hosts, accept host) :
    (∀ host, (plan.computeNext heap policy).1 = some host → accept host) ∧
      ∀ host ∈ (plan.computeNext heap policy).2.hosts, accept host := by
  rw [computeNext]
  rcases walk : nextInWindow (fun host => (heap host).isUp) plan.hosts plan.localRemaining
    plan.index with ⟨_ | found, left, last⟩
  · dsimp only
    split
    · exact ⟨fun host => nofun, accepted⟩
    · exact nextRemote_accepted holds accepted _ _ _
  · refine ⟨fun host isHost => ?_, accepted⟩
    cases isHost
    exact accepted found (mem_of_nextInWindow walk).1

/-- Below each token-aware policy are list policies enough to keep other hosts out. -/
def Guarded (heap : Heap) (accept : HostPtr → Prop) : List Layer → Prop
  | [] => True
  | layer :: layers =>
    (layer = .tokenAware → ∀ host, Accepted heap layers host → accept host) ∧
      Guarded heap accept layers

theorem Policy.computeNext_accepted {limit : Nat} {slow : HostPtr → Bool} {policy : Policy}
    (holds : policy.Holds accept) (guarded : Guarded heap accept policy.layers) (plan : QueryPlan)
    (item : Option HostPtr) (after : QueryPlan) (planHolds : plan.Holds accept)
    (computed : policy.computeNext limit heap slow plan = some (item, after)) :
    (∀ host, item = some host → accept host) ∧ after.Holds accept := by
  induction policy generalizing plan item after with
  | roundRobin present index =>
    cases plan with
    | roundRobin hosts index remaining =>
      rw [computeNext] at computed
      rcases walk : nextInWindow (fun host => (heap host).isUp) hosts remaining index with
        ⟨found, left, last⟩
      rw [walk] at computed
      cases computed
      refine ⟨fun host isHost => ?_, planHolds⟩
      exact planHolds host (mem_of_nextInWindow (isHost ▸ walk)).1
    | _ => simp [computeNext] at computed
  | dcAware policy =>
    cases plan with
    | dcAware plan =>
      cases computed
      exact DCAwareQueryPlan.computeNext_accepted holds planHolds
    | _ => simp [computeNext] at computed
  | list kind child ih =>
    cases plan with
    | child plan =>
      obtain ⟨⟨host, inner⟩, asked, rest⟩ := bind_eq_some_iff.mp computed
      cases rest
      exact ih holds guarded.2 plan _ inner planHolds asked
    | _ => simp [computeNext] at computed
  | tokenAware shuffleReplicas index child ih =>
    cases plan with
    | child plan =>
      obtain ⟨⟨host, inner⟩, asked, rest⟩ := bind_eq_some_iff.mp computed
      cases rest
      exact ih holds guarded.2 plan _ inner planHolds asked
    | tokenAware plan replicas index remaining =>
      rw [computeNext] at computed
      dsimp only at computed
      split at computed
      next host left last walk =>
        cases computed
        refine ⟨fun found isFound => ?_, planHolds⟩
        cases isFound
        obtain ⟨-, wanted⟩ := mem_of_nextInWindow walk
        have isLocal : child.distance heap host = .localDc := by
          simpa using (Bool.and_eq_true_iff.mp wanted).2
        exact guarded.1 rfl host (accepted_of_distance (isLocal ▸ nofun))
      next left last walk =>
        obtain ⟨⟨host, others, inner⟩, asked, rest⟩ := bind_eq_some_iff.mp computed
        cases rest
        have innerHolds : plan.Holds accept := planHolds
        obtain ⟨found, -, kept⟩ :=
          nextWanted_keeps (ih holds guarded.2) innerHolds (forall_mem_nil accept) asked
        exact ⟨found, kept⟩
    | _ => simp [computeNext] at computed
  | latencyAware hosts child ih =>
    cases plan with
    | latencyAware plan skipped skippedIndex =>
      obtain ⟨⟨host, others, inner⟩, asked, rest⟩ := bind_eq_some_iff.mp computed
      obtain ⟨found, skippedHold, kept⟩ :=
        nextWanted_keeps (ih holds guarded.2) planHolds.1 planHolds.2 asked
      cases host with
      | some host =>
        cases rest
        exact ⟨found, kept, skippedHold⟩
      | none =>
        dsimp only at rest
        split at rest
        next host there =>
          cases rest
          refine ⟨fun found isFound => ?_, kept, skippedHold⟩
          cases isFound
          exact skippedHold host (mem_of_getElem? there)
        · cases rest
          exact ⟨found, kept, skippedHold⟩
    | _ => simp [computeNext] at computed
  | hostTargeting availableHosts child ih =>
    cases plan with
    | child plan =>
      obtain ⟨⟨host, inner⟩, asked, rest⟩ := bind_eq_some_iff.mp computed
      cases rest
      exact ih holds guarded.2 plan _ inner planHolds asked
    | hostTargeting first preferredHost plan =>
      rw [computeNext] at computed
      split at computed
      · cases computed
        refine ⟨fun found isFound => ?_, planHolds⟩
        cases isFound
        exact planHolds.1
      · obtain ⟨⟨host, inner⟩, asked, rest⟩ := bind_eq_some_iff.mp computed
        obtain ⟨found, kept⟩ := ih holds guarded.2 plan host inner planHolds.2 asked
        cases host with
        | none =>
          cases rest
          exact ⟨found, planHolds.1, kept⟩
        | some host =>
          dsimp only at rest
          split at rest
          · obtain ⟨⟨next, last⟩, askedAgain, rest⟩ := bind_eq_some_iff.mp rest
            cases rest
            obtain ⟨nextFound, nextKept⟩ :=
              ih holds guarded.2 inner next last kept askedAgain
            exact ⟨nextFound, planHolds.1, nextKept⟩
          · cases rest
            exact ⟨found, planHolds.1, kept⟩
    | _ => simp [computeNext] at computed

end Holding

/-! ## The chain of a configuration -/

namespace Config

/-- The list policies a configuration switches on. -/
def listKinds (config : Config) : List ListKind :=
  (if config.whitelistDc.isEmpty then [] else [.whitelistDc config.whitelistDc]) ++
    (if config.blacklistDc.isEmpty then [] else [.blacklistDc config.blacklistDc]) ++
    (if config.whitelist.isEmpty then [] else [.whitelist config.whitelist]) ++
    (if config.blacklist.isEmpty then [] else [.blacklist config.blacklist])

theorem layers_listPolicies (config : Config) :
    config.listPolicies.layers = config.listKinds.map .list := by
  have base : config.loadBalancingPolicy.newInstance.layers = [] := by
    cases config.loadBalancingPolicy <;> rfl
  have wrapped (skipped : Bool) (kind : ListKind) (chain : Policy) :
      (if skipped then chain else .list kind chain).layers =
        (if skipped then [] else [kind]).map .list ++ chain.layers := by
    cases skipped <;> rfl
  simp only [listPolicies, listKinds, wrapped, base, map_append, append_nil,
    append_assoc]

theorem layers_policyChain (config : Config) :
    config.policyChain.layers =
      (if config.hostTargeting then [.hostTargeting] else []) ++
        ((if config.latencyAware then [.latencyAware] else []) ++
          ((if config.tokenAwareRouting then [.tokenAware] else []) ++
            config.listKinds.map .list)) := by
  rw [← layers_listPolicies, policyChain]
  cases config.hostTargeting <;> cases config.latencyAware <;>
    cases config.tokenAwareRouting <;> rfl

theorem list_mem_layers_policyChain (config : Config) (kind : ListKind) :
    Layer.list kind ∈ config.policyChain.layers ↔ kind ∈ config.listKinds := by
  rw [layers_policyChain]
  cases config.hostTargeting <;> cases config.latencyAware <;>
    cases config.tokenAwareRouting <;> simp

theorem holds_policyChain (config : Config) (accept : HostPtr → Prop) :
    config.policyChain.Holds accept := by
  have base : config.loadBalancingPolicy.newInstance.Holds accept := by
    cases config.loadBalancingPolicy with
    | roundRobin => exact fun host => nofun
    | dcAware localDc used skip => exact ⟨fun host => nofun, fun dc host => nofun⟩
  have wrapped (skipped : Bool) (kind : ListKind) (chain : Policy) :
      (if skipped then chain else .list kind chain).Holds accept ↔ chain.Holds accept := by
    cases skipped <;> rfl
  have lists : config.listPolicies.Holds accept := by
    simpa only [listPolicies, wrapped] using base
  rw [policyChain]
  cases config.hostTargeting <;> cases config.latencyAware <;>
    cases config.tokenAwareRouting <;> exact lists

theorem hostTargeting_notMem_tail (config : Config) :
    Layer.hostTargeting ∉ config.policyChain.layers.tail := by
  have below : Layer.hostTargeting ∉ (if config.latencyAware then [Layer.latencyAware] else []) ++
      ((if config.tokenAwareRouting then [.tokenAware] else []) ++ config.listKinds.map .list) := by
    cases config.latencyAware <;> cases config.tokenAwareRouting <;> simp
  rw [layers_policyChain]
  cases config.hostTargeting
  · exact fun member => below (mem_of_mem_tail member)
  · exact below

variable (heap : Heap) (config : Config) (host : HostPtr)

/-- All configured list policies accept the host. -/
def Accepts : Prop := ∀ kind ∈ config.listKinds, kind.isValidHost heap host

instance : Decidable (config.Accepts heap host) :=
  inferInstanceAs (Decidable (∀ kind ∈ config.listKinds, kind.isValidHost heap host))

theorem accepts_iff : config.Accepts heap host ↔ Accepted heap config.policyChain.layers host := by
  simp only [Accepts, Accepted, list_mem_layers_policyChain]

variable {heap config} in
theorem guarded_policyChain {accept : HostPtr → Prop}
    (accepts : ∀ host, Accepted heap config.policyChain.layers host → accept host) :
    Guarded heap accept config.policyChain.layers := by
  have lists (kinds : List ListKind) : Guarded heap accept (kinds.map .list) := by
    induction kinds with
    | nil => trivial
    | cons kind kinds ih => exact ⟨nofun, ih⟩
  have below (host : HostPtr) (accepted : Accepted heap (config.listKinds.map .list) host) :
      accept host := by
    refine accepts host ((accepts_iff heap config host).mp fun kind member => ?_)
    exact accepted kind (List.mem_map_of_mem member)
  rw [layers_policyChain]
  cases config.hostTargeting <;> cases config.latencyAware <;> cases config.tokenAwareRouting <;>
    simp only [Guarded, lists, reduceIte, Bool.false_eq_true, nil_append, cons_append,
      reduceCtorEq, false_implies, true_and, and_true]
  all_goals exact fun _ => below

end Config

/-! ## Runs -/

/-- The hosts and the latencies as they are at some time.  A host stays in its datacenter. -/
structure Moment (dcs : HostPtr → String) where
  heap : Heap
  slow : HostPtr → Bool
  sameDcs : ∀ host, (heap host).dc = dcs host

variable {dcs : HostPtr → String}

theorem Moment.isValidHost_eq (moment other : Moment dcs) (host : HostPtr) (kind : ListKind) :
    kind.isValidHost moment.heap host = kind.isValidHost other.heap host := by
  cases kind <;> simp only [ListKind.isValidHost, moment.sameDcs, other.sameDcs]

/-- What happens to the policies of a session. -/
inductive PolicyEvent (dcs : HostPtr → String) where
  | notify (moment : Moment dcs) (notification : Notification) (host : HostPtr)
  | newQueryPlan (request : Option Request)

namespace Policy

def handle (policy : Policy) : PolicyEvent dcs → Policy
  | .notify moment notification host => policy.notify moment.heap notification host
  | .newQueryPlan request => (policy.newQueryPlan request).2

/-- The hosts a plan returns in a number of calls, each after further events and at a moment of
its own. -/
def returned (limit : Nat) :
    Policy → QueryPlan → List (List (PolicyEvent dcs) × Moment dcs) → List HostPtr
  | _, _, [] => []
  | policy, plan, (events, moment) :: calls =>
    let policy := events.foldl handle policy
    match policy.computeNext limit moment.heap moment.slow plan with
    | none => []
    | some (none, plan) => returned limit policy plan calls
    | some (some host, plan) => host :: returned limit policy plan calls

/-- What every event keeps. -/
structure Sound (accept : HostPtr → Prop) (layers : List Layer) (policy : Policy) : Prop where
  holds : policy.Holds accept
  sameLayers : policy.layers = layers

variable {accept : HostPtr → Prop} {layers : List Layer} {policy : Policy}

section Accepts

variable (accepts : ∀ (moment : Moment dcs) host, Accepted moment.heap layers host → accept host)
include accepts

theorem Sound.handle (sound : policy.Sound accept layers) (event : PolicyEvent dcs) :
    (policy.handle event).Sound accept layers := by
  cases event with
  | notify moment notification host =>
    constructor
    · refine sound.holds.notify fun accepted => accepts moment host ?_
      exact sound.sameLayers ▸ accepted
    · exact (layers_notify moment.heap notification host policy).trans sound.sameLayers
  | newQueryPlan request =>
    exact ⟨sound.holds.newQueryPlan request,
      (layers_newQueryPlan request policy).trans sound.sameLayers⟩

theorem Sound.events (sound : policy.Sound accept layers) (events : List (PolicyEvent dcs)) :
    (events.foldl Policy.handle policy).Sound accept layers := by
  induction events generalizing policy with
  | nil => exact sound
  | cons event events ih => exact ih (sound.handle accepts event)

/-- A plan that starts with accepted hosts returns accepted hosts, whatever happens meanwhile. -/
theorem Sound.returned (guarded : ∀ moment : Moment dcs, Guarded moment.heap accept layers)
    (sound : policy.Sound accept layers) {plan : QueryPlan} (planHolds : plan.Holds accept)
    (limit : Nat) (calls : List (List (PolicyEvent dcs) × Moment dcs)) :
    ∀ host ∈ policy.returned limit plan calls, accept host := by
  induction calls generalizing policy plan with
  | nil => exact fun host => nofun
  | cons call calls ih =>
    obtain ⟨events, moment⟩ := call
    have now := sound.events accepts events
    have nowGuarded : Guarded moment.heap accept (events.foldl Policy.handle policy).layers :=
      now.sameLayers ▸ guarded moment
    rw [Policy.returned]
    split
    · exact fun host => nofun
    next after computed =>
      exact ih now (computeNext_accepted now.holds nowGuarded plan none after planHolds computed).2
    next found after computed =>
      obtain ⟨isAccepted, kept⟩ :=
        computeNext_accepted now.holds nowGuarded plan (some found) after planHolds computed
      exact forall_mem_cons.mpr ⟨isAccepted found rfl, ih now kept⟩

end Accepts

/-- The host-targeting policy returns the preferred host first. -/
theorem returned_preferredHost {request : Option Request}
    (preferred : policy.preferredHost request = some host) (moment : Moment dcs) :
    (policy.newQueryPlan request).2.returned 0 (policy.newQueryPlan request).1 [([], moment)] =
      [host] := by
  cases policy with
  | hostTargeting availableHosts child =>
    rw [preferredHost] at preferred
    simp [newQueryPlan, preferred, returned, computeNext]
  | _ => cases preferred

end Policy

namespace Config

variable (config : Config)

/-- The chain of policies in a session that starts with a set of hosts, after further events. -/
def policyAfter (start : Moment dcs) (connectedHost : Option HostPtr) (hosts : List HostPtr)
    (random : Option (Nat → UInt64)) (events : List (PolicyEvent dcs)) : Policy :=
  events.foldl Policy.handle (config.policyChain.init start.heap connectedHost hosts random)

/-- The plans of a configuration return only hosts its list policies accept, exactly if they
accept the host that the host-targeting policy finds for the preferred address. -/
theorem plans_accepted_iff (start : Moment dcs) (connectedHost : Option HostPtr)
    (hosts : List HostPtr) (random : Option (Nat → UInt64)) (events : List (PolicyEvent dcs))
    (request : Option Request) :
    (∀ limit calls, ∀ host ∈ Policy.returned limit
        ((config.policyAfter start connectedHost hosts random events).newQueryPlan request).2
        ((config.policyAfter start connectedHost hosts random events).newQueryPlan request).1
        (calls : List (List (PolicyEvent dcs) × Moment dcs)), config.Accepts start.heap host) ↔
      ∀ host, (config.policyAfter start connectedHost hosts random events).preferredHost request =
        some host → config.Accepts start.heap host := by
  constructor
  · intro accepted host preferred
    refine accepted 0 [([], start)] host ?_
    rw [Policy.returned_preferredHost preferred start]
    exact mem_singleton.mpr rfl
  · intro preferred limit calls
    have accepts (moment : Moment dcs) (host : HostPtr)
        (accepted : Accepted moment.heap config.policyChain.layers host) :
        config.Accepts start.heap host := by
      rw [accepts_iff]
      intro kind member
      rw [start.isValidHost_eq moment]
      exact accepted kind member
    have initial : (config.policyChain.init start.heap connectedHost hosts random).Sound
        (config.Accepts start.heap) config.policyChain.layers := by
      refine ⟨Policy.Holds.init ?_ fun host _ => accepts start host, Policy.layers_init ..⟩
      exact config.holds_policyChain _
    have sound := initial.events accepts events
    have outermost := config.hostTargeting_notMem_tail
    rw [← sound.sameLayers] at outermost
    refine Policy.Sound.returned accepts (fun moment => guarded_policyChain (accepts moment)) ?_
      (sound.holds.plan_of_preferred outermost preferred) limit calls
    exact ⟨sound.holds.newQueryPlan request,
      (Policy.layers_newQueryPlan request _).trans sound.sameLayers⟩

/-- A whitelist with one host, and a request that prefers another one. -/
def oneAllowed : Config where
  loadBalancingPolicy := .roundRobin
  blacklist := []
  whitelist := ["10.0.0.1"]
  blacklistDc := []
  whitelistDc := []
  tokenAwareRouting := true
  tokenAwareRoutingShuffleReplicas := false
  latencyAware := false
  hostTargeting := true

/-- A session with both hosts, which are up. -/
def bothUp : Moment fun _ => "dc1" where
  heap := fun _ => { rack := "r1", dc := "dc1", listenAddress := "", state := .up, mark := true }
  slow := fun _ => false
  sameDcs := fun _ => rfl

/-- Its policies, before the request. -/
def oneAllowedPolicy : Policy :=
  oneAllowed.policyAfter bothUp none [⟨⟨"10.0.0.1", 9042⟩, 1⟩, ⟨⟨"10.0.0.2", 9042⟩, 2⟩] none []

def preferringOther : Request where
  consistency := .localOne
  replicas := []
  preferredAddress := some ⟨"10.0.0.2", 9042⟩

theorem plan_returns_rejected :
    (oneAllowedPolicy.newQueryPlan (some preferringOther)).2.returned 1
        (oneAllowedPolicy.newQueryPlan (some preferringOther)).1 [([], bothUp)] =
          [⟨⟨"10.0.0.2", 9042⟩, 2⟩] ∧
      ¬ oneAllowed.Accepts bothUp.heap ⟨⟨"10.0.0.2", 9042⟩, 2⟩ := by
  decide

end Config

end DseDriver.LoadBalancing
