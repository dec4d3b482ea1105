import Mathlib.Data.List.AList
import Mathlib.Data.List.Sort
import Mathlib.Data.String.Basic
import DseDriver.Lib.Rotation
import DseDriver.LoadBalancing.Hosts
import DseDriver.Request.RetryPolicy

/-!
# The datacenter-aware policy

`DCAwarePolicy`: the live hosts of the local datacenter and of each remote one, and the query
plans that walk them.  A plan shares the state of the policy, so that what it returns next
depends on the lists of the remote datacenters at that time.
-/

namespace DseDriver.LoadBalancing

open Lib DseDriver.Request Option

/-- `CassHostDistance`. -/
inductive HostDistance where
  | localDc
  | remoteDc
  | ignore
  deriving DecidableEq, Repr

/-- `is_dc_local`. -/
def isDcLocal (cl : Consistency) : Bool :=
  cl = .localOne ∨ cl = .localQuorum

/-- `DCAwarePolicy::PerDCHostMap`. -/
abbrev PerDCHostMap := AList fun _ : String => List HostPtr

namespace PerDCHostMap

variable (map : PerDCHostMap)

/-- `PerDCHostMap::get_hosts`. -/
def getHosts (dc : String) : List HostPtr :=
  (map.lookup dc).getD []

/-- `PerDCHostMap::add_host_to_dc`. -/
def addHostToDc (dc : String) (host : HostPtr) : PerDCHostMap :=
  match map.lookup dc with
  | none => map.insert dc [host]
  | some hosts => map.insert dc (addHost hosts host)

/-- `PerDCHostMap::remove_host_from_dc`. -/
def removeHostFromDc (dc : String) (host : HostPtr) : PerDCHostMap :=
  match map.lookup dc with
  | none => map
  | some hosts => map.insert dc (removeHost hosts host)

/-- `PerDCHostMap::copy_dcs`: the keys in the order of the set. -/
def copyDcs : List String :=
  map.keys.insertionSort (· ≤ ·)

theorem getHosts_insert (map : PerDCHostMap) (dc other : String) (hosts : List HostPtr) :
    getHosts (map.insert dc hosts) other = if other = dc then hosts else map.getHosts other := by
  by_cases same : other = dc
  · rw [if_pos same, getHosts, same, AList.lookup_insert, getD_some]
  · rw [if_neg same, getHosts, AList.lookup_insert_ne same, getHosts]

theorem getHosts_addHostToDc (map : PerDCHostMap) (dc other : String) (host : HostPtr) :
    (map.addHostToDc dc host).getHosts other =
      if other = dc then addHost (map.getHosts dc) host else map.getHosts other := by
  rw [addHostToDc]
  cases found : map.lookup dc with
  | none =>
    rw [getHosts_insert]
    simp only [getHosts, found, getD_none, addHost]
  | some hosts =>
    rw [getHosts_insert]
    simp only [getHosts, found, getD_some]

theorem getHosts_removeHostFromDc (map : PerDCHostMap) (dc other : String) (host : HostPtr) :
    (map.removeHostFromDc dc host).getHosts other =
      if other = dc then removeHost (map.getHosts dc) host else map.getHosts other := by
  rw [removeHostFromDc]
  cases found : map.lookup dc with
  | none =>
    by_cases same : other = dc
    · rw [if_pos same, same]
      simp only [getHosts, found, getD_none, removeHost, List.eraseP_nil]
    · rw [if_neg same]
  | some hosts =>
    rw [getHosts_insert]
    simp only [getHosts, found, getD_some]

end PerDCHostMap

/-- `DCAwarePolicy`. -/
structure DCAwarePolicy where
  localDc : String
  usedHostsPerRemoteDc : Nat
  skipRemoteDcsForLocalCl : Bool
  localDcLiveHosts : List HostPtr
  perRemoteDcLiveHosts : PerDCHostMap
  index : UInt64

namespace DCAwarePolicy

/-- `DCAwarePolicy(local_dc, used_hosts_per_remote_dc, skip_remote_dcs_for_local_cl)`. -/
def new (localDc : String) (usedHostsPerRemoteDc : Nat) (skipRemoteDcsForLocalCl : Bool) :
    DCAwarePolicy where
  localDc
  usedHostsPerRemoteDc
  skipRemoteDcsForLocalCl
  localDcLiveHosts := []
  perRemoteDcLiveHosts := ∅
  index := 0

/-- `DCAwarePolicy::distance`. -/
def distance (heap : Heap) (policy : DCAwarePolicy) (host : HostPtr) : HostDistance :=
  if policy.localDc = "" ∨ (heap host).dc = policy.localDc then
    .localDc
  else
    let hosts := policy.perRemoteDcLiveHosts.getHosts (heap host).dc
    let numHosts := min hosts.length policy.usedHostsPerRemoteDc
    if (hosts.take numHosts).any fun other => other.address = host.address then
      .remoteDc
    else
      .ignore

/-- `DCAwarePolicy::on_add`. -/
def onAdd (heap : Heap) (policy : DCAwarePolicy) (host : HostPtr) : DCAwarePolicy :=
  let dc := (heap host).dc
  let policy :=
    if policy.localDc = "" ∧ dc ≠ "" then { policy with localDc := dc } else policy
  if dc = policy.localDc then
    { policy with localDcLiveHosts := policy.localDcLiveHosts ++ [host] }
  else
    { policy with perRemoteDcLiveHosts := policy.perRemoteDcLiveHosts.addHostToDc dc host }

/-- The local datacenter after a host of a datacenter is seen. -/
def seenDc (policy : DCAwarePolicy) (dc : String) : String :=
  if policy.localDc = "" then dc else policy.localDc

theorem onAdd_eq (heap : Heap) (policy : DCAwarePolicy) (host : HostPtr) :
    policy.onAdd heap host =
      if (heap host).dc = policy.seenDc (heap host).dc then
        { policy with
          localDc := policy.seenDc (heap host).dc
          localDcLiveHosts := policy.localDcLiveHosts ++ [host] }
      else
        { policy with
          perRemoteDcLiveHosts := policy.perRemoteDcLiveHosts.addHostToDc (heap host).dc host } := by
  rw [onAdd, seenDc]
  by_cases unset : policy.localDc = ""
  · by_cases known : (heap host).dc = ""
    · simp [unset, known]
    · simp [unset, known]
  · simp only [unset, false_and, if_false]

/-- `DCAwarePolicy::on_remove`. -/
def onRemove (heap : Heap) (policy : DCAwarePolicy) (host : HostPtr) : DCAwarePolicy :=
  let dc := (heap host).dc
  if dc = policy.localDc then
    { policy with localDcLiveHosts := removeHost policy.localDcLiveHosts host }
  else
    { policy with perRemoteDcLiveHosts := policy.perRemoteDcLiveHosts.removeHostFromDc dc host }

/-- `DCAwarePolicy::on_up`. -/
def onUp (heap : Heap) (policy : DCAwarePolicy) (host : HostPtr) : DCAwarePolicy :=
  policy.onAdd heap host

/-- `DCAwarePolicy::on_down`. -/
def onDown (heap : Heap) (policy : DCAwarePolicy) (host : HostPtr) : DCAwarePolicy :=
  policy.onRemove heap host

/-- The first part of `DCAwarePolicy::init`. -/
def noteConnected (heap : Heap) (policy : DCAwarePolicy) (connectedHost : Option HostPtr) :
    DCAwarePolicy :=
  match connectedHost with
  | some host =>
    if policy.localDc = "" ∧ (heap host).dc ≠ "" then
      { policy with localDc := (heap host).dc }
    else
      policy
  | none => policy

/-- `DCAwarePolicy::init`, with the index that `random` gives, if there is one. -/
def init (heap : Heap) (policy : DCAwarePolicy) (connectedHost : Option HostPtr)
    (hosts : List HostPtr) (random : Option UInt64) : DCAwarePolicy :=
  let policy := hosts.foldl (DCAwarePolicy.onAdd heap) (policy.noteConnected heap connectedHost)
  { policy with index := random.getD policy.index }

/-- What each added host keeps is kept by `init`. -/
theorem init_induction {invariant : DCAwarePolicy → Prop} {heap : Heap} {policy : DCAwarePolicy}
    {connectedHost : Option HostPtr} {hosts : List HostPtr}
    (noted : invariant (policy.noteConnected heap connectedHost))
    (added : ∀ policy, ∀ host ∈ hosts, invariant policy → invariant (policy.onAdd heap host))
    (indexed : ∀ policy index, invariant policy → invariant { policy with index })
    (random : Option UInt64) : invariant (policy.init heap connectedHost hosts random) := by
  have each (start : DCAwarePolicy) (startKeeps : invariant start) :
      invariant (hosts.foldl (DCAwarePolicy.onAdd heap) start) := by
    induction hosts generalizing start with
    | nil => exact startKeeps
    | cons host hosts ih =>
      obtain ⟨first, others⟩ := List.forall_mem_cons.mp fun host member policy =>
        added policy host member
      exact ih (fun policy host member => others host member policy) _ (first start startKeeps)
  exact indexed _ _ (each _ noted)

end DCAwarePolicy

/-! ## Query plans -/

/-- `DCAwarePolicy::DCAwareQueryPlan`. -/
structure DCAwareQueryPlan where
  cl : Consistency
  hosts : List HostPtr
  remoteDcs : Option (List String)
  localRemaining : Nat
  remoteRemaining : Nat
  index : UInt64

/-- `DCAwarePolicy::new_query_plan`. -/
def DCAwarePolicy.newQueryPlan (policy : DCAwarePolicy) (cl : Consistency) :
    DCAwareQueryPlan × DCAwarePolicy :=
  ({ cl
     hosts := policy.localDcLiveHosts
     remoteDcs := none
     localRemaining := policy.localDcLiveHosts.length
     remoteRemaining := 0
     index := policy.index },
    { policy with index := policy.index + 1 })

namespace DCAwareQueryPlan

variable (heap : Heap) (policy : DCAwarePolicy)

/-- The loop over the remote datacenters: the walk goes on in the next one when it has reached
its end. -/
def nextRemote (hosts : List HostPtr) (remaining : Nat) (index : UInt64) :
    List String → Option HostPtr × List HostPtr × List String × Nat × UInt64
  | [] =>
    let (host, remaining, index) :=
      nextInWindow (fun host => (heap host).isUp) hosts remaining index
    (host, hosts, [], remaining, index)
  | dc :: dcs =>
    match nextInWindow (fun host => (heap host).isUp) hosts remaining index with
    | (some host, remaining, index) => (some host, hosts, dc :: dcs, remaining, index)
    | (none, _, index) =>
      let hosts := policy.perRemoteDcLiveHosts.getHosts dc
      nextRemote hosts (min hosts.length policy.usedHostsPerRemoteDc) index dcs

/-- `DCAwareQueryPlan::compute_next`. -/
def computeNext (plan : DCAwareQueryPlan) : Option HostPtr × DCAwareQueryPlan :=
  match nextInWindow (fun host => (heap host).isUp) plan.hosts plan.localRemaining plan.index with
  | (some host, localRemaining, index) => (some host, { plan with localRemaining, index })
  | (none, localRemaining, index) =>
    let plan := { plan with localRemaining, index }
    if policy.skipRemoteDcsForLocalCl ∧ isDcLocal plan.cl then
      (none, plan)
    else
      let remoteDcs := plan.remoteDcs.getD policy.perRemoteDcLiveHosts.copyDcs
      let (host, hosts, remoteDcs, remoteRemaining, index) :=
        nextRemote heap policy plan.hosts plan.remoteRemaining plan.index remoteDcs
      (host, { plan with hosts, remoteDcs := some remoteDcs, remoteRemaining, index })

end DCAwareQueryPlan

end DseDriver.LoadBalancing
