import DseDriver.LoadBalancing.DcAware

/-!
# The chain of load balancing policies

`Config::load_balancing_policy` wraps a base policy in the policies that are switched on, and
each of them passes calls on to the policy it wraps.  A query plan refers to the policies it was
made by, so it is resumed in the state they have then.  Which hosts count as slow depends on
latencies that are measured elsewhere, and the replicas of a request come from the token map,
already shuffled if the policy shuffles them.
-/

namespace DseDriver.LoadBalancing

open Lib DseDriver.Request

/-! ## Policies -/

/-- The policies derived from `ListPolicy`, with the addresses or datacenters they list. -/
inductive ListKind where
  | blacklist (hosts : List String)
  | whitelist (hosts : List String)
  | blacklistDc (dcs : List String)
  | whitelistDc (dcs : List String)
  deriving DecidableEq, Repr

/-- `is_valid_host`. -/
def ListKind.isValidHost (heap : Heap) (host : HostPtr) : ListKind → Bool
  | .blacklist hosts => !(hosts.any fun listed => host.address.ip = listed)
  | .whitelist hosts => hosts.any fun listed => host.address.ip = listed
  | .blacklistDc dcs => !(dcs.any fun listed => (heap host).dc = listed)
  | .whitelistDc dcs => dcs.any fun listed => (heap host).dc = listed

/-- `LoadBalancingPolicy`, with the policies it wraps. -/
inductive Policy where
  | roundRobin (hosts : List HostPtr) (index : UInt64)
  | dcAware (policy : DCAwarePolicy)
  | list (kind : ListKind) (child : Policy)
  | tokenAware (shuffleReplicas : Bool) (index : UInt64) (child : Policy)
  | latencyAware (hosts : List HostPtr) (child : Policy)
  | hostTargeting (availableHosts : AList fun _ : Address => HostPtr) (child : Policy)

/-- The notifications of `Host::StateListener`. -/
inductive Notification where
  | onAdd
  | onRemove
  | onUp
  | onDown
  deriving DecidableEq, Repr

/-- Whether the host is live afterwards. -/
def Notification.isLive : Notification → Bool
  | .onAdd | .onUp => true
  | .onRemove | .onDown => false

/-- `add_host` and `remove_host`, as a notification says. -/
def Notification.updateHosts (notification : Notification) (hosts : List HostPtr)
    (host : HostPtr) : List HostPtr :=
  if notification.isLive then addHost hosts host else removeHost hosts host

def DCAwarePolicy.notify (heap : Heap) (policy : DCAwarePolicy) (host : HostPtr) :
    Notification → DCAwarePolicy
  | .onAdd => policy.onAdd heap host
  | .onRemove => policy.onRemove heap host
  | .onUp => policy.onUp heap host
  | .onDown => policy.onDown heap host

namespace Policy

/-- `init`.  The values that `random` gives are handed down the chain. -/
def init (heap : Heap) (connectedHost : Option HostPtr) :
    Policy → List HostPtr → Option (Nat → UInt64) → Policy
  | .roundRobin present index, hosts, random =>
    .roundRobin (present ++ hosts) ((random.map fun next => next 0).getD index)
  | .dcAware policy, hosts, random =>
    .dcAware (policy.init heap connectedHost hosts (random.map fun next => next 0))
  | .list kind child, hosts, random =>
    .list kind (child.init heap connectedHost (hosts.filter (kind.isValidHost heap ·)) random)
  | .tokenAware shuffleReplicas index child, hosts, random =>
    let next := if shuffleReplicas then none else random.map fun next => next 0
    .tokenAware shuffleReplicas (next.getD index)
      (child.init heap connectedHost hosts (random.map fun next call => next (call + 1)))
  | .latencyAware present child, hosts, random =>
    .latencyAware (present ++ hosts) (child.init heap connectedHost hosts random)
  | .hostTargeting availableHosts child, hosts, random =>
    .hostTargeting
      (hosts.foldl (fun available host => available.insert host.address host) availableHosts)
      (child.init heap connectedHost hosts random)

/-- `distance`. -/
def distance (heap : Heap) (host : HostPtr) : Policy → HostDistance
  | .roundRobin .. => .localDc
  | .dcAware policy => policy.distance heap host
  | .list kind child => if kind.isValidHost heap host then child.distance heap host else .ignore
  | .tokenAware _ _ child => child.distance heap host
  | .latencyAware _ child => child.distance heap host
  | .hostTargeting _ child => child.distance heap host

/-- `on_add`, `on_remove`, `on_up` and `on_down`. -/
def notify (heap : Heap) (notification : Notification) (host : HostPtr) : Policy → Policy
  | .roundRobin hosts index => .roundRobin (notification.updateHosts hosts host) index
  | .dcAware policy => .dcAware (policy.notify heap host notification)
  | .list kind child =>
    if kind.isValidHost heap host then
      .list kind (child.notify heap notification host)
    else
      .list kind child
  | .tokenAware shuffleReplicas index child =>
    .tokenAware shuffleReplicas index (child.notify heap notification host)
  | .latencyAware hosts child =>
    .latencyAware (notification.updateHosts hosts host) (child.notify heap notification host)
  | .hostTargeting availableHosts child =>
    .hostTargeting
      (if notification.isLive then
        availableHosts.insert host.address host
      else
        availableHosts.erase host.address)
      (child.notify heap notification host)

end Policy

/-! ## Query plans -/

/-- What the policies read of a request: its consistency, the replicas of its routing key if it
has one, and the host it prefers. -/
structure Request where
  consistency : Consistency
  replicas : List HostPtr
  preferredAddress : Option Address

/-- `QueryPlan`.  A policy may hand out the plan of the policy it wraps. -/
inductive QueryPlan where
  | roundRobin (hosts : List HostPtr) (index : UInt64) (remaining : Nat)
  | dcAware (plan : DCAwareQueryPlan)
  | child (plan : QueryPlan)
  | tokenAware (childPlan : QueryPlan) (replicas : List HostPtr) (index : UInt64) (remaining : Nat)
  | latencyAware (childPlan : QueryPlan) (skipped : List HostPtr) (skippedIndex : Nat)
  | hostTargeting (first : Bool) (preferredHost : HostPtr) (childPlan : QueryPlan)

namespace Policy

/-- `new_query_plan`, with the policy whose index has moved on.  Without a request the
consistency is `Request::DEFAULT_CONSISTENCY`. -/
def newQueryPlan (request : Option Request) : Policy → QueryPlan × Policy
  | .roundRobin hosts index =>
    (.roundRobin hosts index hosts.length, .roundRobin hosts (index + 1))
  | .dcAware policy =>
    let (plan, policy) := policy.newQueryPlan ((request.map Request.consistency).getD .localOne)
    (.dcAware plan, .dcAware policy)
  | .list kind child =>
    let (plan, child) := child.newQueryPlan request
    (.child plan, .list kind child)
  | .tokenAware shuffleReplicas index child =>
    let (plan, child) := child.newQueryPlan request
    let replicas := (request.map Request.replicas).getD []
    if replicas.isEmpty then
      (.child plan, .tokenAware shuffleReplicas index child)
    else
      (.tokenAware plan replicas index replicas.length, .tokenAware shuffleReplicas index child)
  | .latencyAware hosts child =>
    let (plan, child) := child.newQueryPlan request
    (.latencyAware plan [] 0, .latencyAware hosts child)
  | .hostTargeting availableHosts child =>
    let (plan, child) := child.newQueryPlan request
    match (request.bind Request.preferredAddress).bind availableHosts.lookup with
    | none => (.child plan, .hostTargeting availableHosts child)
    | some host => (.hostTargeting true host plan, .hostTargeting availableHosts child)

end Policy

/-- `compute_next`, as the policies and the hosts are at the time of the call.  The loops that
ask a wrapped plan take at most `limit` turns, and there is no result if that is not enough. -/
def Policy.computeNext (limit : Nat) (heap : Heap) (slow : HostPtr → Bool) :
    Policy → QueryPlan → Option (Option HostPtr × QueryPlan)
  | .roundRobin _ _, .roundRobin hosts index remaining =>
    let (host, remaining, index) :=
      nextInWindow (fun host => (heap host).isUp) hosts remaining index
    some (host, .roundRobin hosts index remaining)
  | .dcAware policy, .dcAware plan =>
    let (host, plan) := plan.computeNext heap policy
    some (host, .dcAware plan)
  | .list _ policy, .child plan => do
    let (host, plan) ← policy.computeNext limit heap slow plan
    return (host, .child plan)
  | .tokenAware _ _ policy, .child plan => do
    let (host, plan) ← policy.computeNext limit heap slow plan
    return (host, .child plan)
  | .hostTargeting _ policy, .child plan => do
    let (host, plan) ← policy.computeNext limit heap slow plan
    return (host, .child plan)
  | .tokenAware _ _ policy, .tokenAware plan replicas index remaining =>
    let isLocal := fun host => policy.distance heap host = .localDc
    match nextInWindow (fun host => (heap host).isUp && isLocal host) replicas remaining index with
    | (some host, remaining, index) => some (some host, .tokenAware plan replicas index remaining)
    | (none, remaining, index) => do
      let (host, _, plan) ← nextWanted (policy.computeNext limit heap slow)
        (fun host => !(replicas.any fun replica => replica.address = host.address) ||
          !(isLocal host)) limit [] plan
      return (host, .tokenAware plan replicas index remaining)
  | .latencyAware _ policy, .latencyAware plan skipped skippedIndex => do
    let (host, skipped, plan) ←
      nextWanted (policy.computeNext limit heap slow) (fun host => !(slow host)) limit skipped plan
    match host with
    | some host => return (some host, .latencyAware plan skipped skippedIndex)
    | none =>
      match skipped[skippedIndex]? with
      | some host => return (some host, .latencyAware plan skipped (skippedIndex + 1))
      | none => return (none, .latencyAware plan skipped skippedIndex)
  | .hostTargeting _ policy, .hostTargeting first preferredHost plan =>
    if first then
      some (some preferredHost, .hostTargeting false preferredHost plan)
    else do
      let (host, plan) ← policy.computeNext limit heap slow plan
      match host with
      | some host =>
        if host.address = preferredHost.address then
          let (host, plan) ← policy.computeNext limit heap slow plan
          return (host, .hostTargeting false preferredHost plan)
        else
          return (some host, .hostTargeting false preferredHost plan)
      | none => return (none, .hostTargeting false preferredHost plan)
  | _, _ => none

/-! ## Configuration -/

/-- The base policies a cluster can be configured with. -/
inductive BasePolicy where
  | roundRobin
  | dcAware (localDc : String) (usedHostsPerRemoteDc : Nat) (skipRemoteDcsForLocalCl : Bool)
  deriving DecidableEq, Repr

/-- `new_instance` of a base policy. -/
def BasePolicy.newInstance : BasePolicy → Policy
  | .roundRobin => .roundRobin [] 0
  | .dcAware localDc usedHostsPerRemoteDc skipRemoteDcsForLocalCl =>
    .dcAware (.new localDc usedHostsPerRemoteDc skipRemoteDcsForLocalCl)

/-- The part of `Config` that the policies are made from. -/
structure Config where
  loadBalancingPolicy : BasePolicy
  blacklist : List String
  whitelist : List String
  blacklistDc : List String
  whitelistDc : List String
  tokenAwareRouting : Bool
  tokenAwareRoutingShuffleReplicas : Bool
  latencyAware : Bool
  hostTargeting : Bool
  deriving DecidableEq, Repr

namespace Config

/-- The list policies around the base policy. -/
def listPolicies (config : Config) : Policy :=
  let chain := config.loadBalancingPolicy.newInstance
  let chain := if config.blacklist.isEmpty then chain else .list (.blacklist config.blacklist) chain
  let chain := if config.whitelist.isEmpty then chain else .list (.whitelist config.whitelist) chain
  let chain :=
    if config.blacklistDc.isEmpty then chain else .list (.blacklistDc config.blacklistDc) chain
  if config.whitelistDc.isEmpty then chain else .list (.whitelistDc config.whitelistDc) chain

/-- `Config::load_balancing_policy`. -/
def policyChain (config : Config) : Policy :=
  let chain := config.listPolicies
  let chain :=
    if config.tokenAwareRouting then
      .tokenAware config.tokenAwareRoutingShuffleReplicas 0 chain
    else
      chain
  let chain := if config.latencyAware then .latencyAware [] chain else chain
  if config.hostTargeting then .hostTargeting ∅ chain else chain

end Config

end DseDriver.LoadBalancing
