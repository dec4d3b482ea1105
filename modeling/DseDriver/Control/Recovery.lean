import DseDriver.Control.Session
import DseDriver.LoadBalancing.DcAwareLists

/-!
# Hosts that come back

`Session::on_down` takes a host out of the live lists, and `Session::on_up` asks the policy for
its distance before it puts the host back.  For a host of a remote datacenter the
datacenter-aware policy answers from the list that no longer holds it, so the host stays ignored.
-/

namespace DseDriver.LoadBalancing.DCAwarePolicy

open List

/-- The policy states a session can bring about. -/
inductive Reachable : DCAwarePolicy → Prop where
  | new (localDc : String) (usedHostsPerRemoteDc : Nat) (skipRemoteDcsForLocalCl : Bool) :
      Reachable (.new localDc usedHostsPerRemoteDc skipRemoteDcsForLocalCl)
  | init {policy : DCAwarePolicy} (heap : Heap) (connectedHost : Option HostPtr)
      (hosts : List HostPtr) (random : Option UInt64) (reachable : Reachable policy) :
      Reachable (policy.init heap connectedHost hosts random)
  | notify {policy : DCAwarePolicy} (heap : Heap) (host : HostPtr) (notification : Notification)
      (reachable : Reachable policy) : Reachable (policy.notify heap host notification)
  | newQueryPlan {policy : DCAwarePolicy} (cl : Request.Consistency)
      (reachable : Reachable policy) : Reachable (policy.newQueryPlan cl).2

/-- The remote lists hold each address once. -/
def RemoteDistinct (policy : DCAwarePolicy) : Prop :=
  ∀ dc, Distinct (policy.perRemoteDcLiveHosts.getHosts dc)

variable {policy : DCAwarePolicy}

theorem RemoteDistinct.onAdd (distinct : policy.RemoteDistinct) (heap : Heap) (host : HostPtr) :
    (policy.onAdd heap host).RemoteDistinct := by
  rw [onAdd_eq]
  split
  · exact distinct
  · intro dc
    rw [PerDCHostMap.getHosts_addHostToDc]
    split
    · exact (distinct _).addHost host
    · exact distinct dc

theorem RemoteDistinct.onRemove (distinct : policy.RemoteDistinct) (heap : Heap) (host : HostPtr) :
    (policy.onRemove heap host).RemoteDistinct := by
  rw [DCAwarePolicy.onRemove]
  split
  · exact distinct
  · intro dc
    rw [PerDCHostMap.getHosts_removeHostFromDc]
    split
    · exact (distinct _).removeHost host
    · exact distinct dc

theorem RemoteDistinct.init (distinct : policy.RemoteDistinct) (heap : Heap)
    (connectedHost : Option HostPtr) (hosts : List HostPtr) (random : Option UInt64) :
    (policy.init heap connectedHost hosts random).RemoteDistinct := by
  refine init_induction ?_ (fun policy host _ distinct => distinct.onAdd heap host)
    (fun policy index distinct => distinct) random
  unfold noteConnected
  split
  · split <;> exact distinct
  · exact distinct

theorem Reachable.remoteDistinct (reachable : policy.Reachable) :
    policy.RemoteDistinct := by
  induction reachable with
  | new localDc used skips => exact fun dc => nodup_nil
  | init heap connectedHost hosts random _ ih => exact ih.init heap connectedHost hosts random
  | notify heap host notification _ ih =>
    cases notification with
    | onAdd => exact ih.onAdd heap host
    | onRemove => exact ih.onRemove heap host
    | onUp => exact ih.onAdd heap host
    | onDown => exact ih.onRemove heap host
  | newQueryPlan cl _ ih => exact ih

variable {policy : DCAwarePolicy} {heap : Heap} {host : HostPtr}

theorem distance_eq_localDc_iff :
    policy.distance heap host = .localDc ↔
      policy.localDc = "" ∨ (heap host).dc = policy.localDc := by
  rw [distance]
  by_cases isLocal : policy.localDc = "" ∨ (heap host).dc = policy.localDc
  · rw [if_pos isLocal]
    exact iff_of_true rfl isLocal
  · rw [if_neg isLocal]
    dsimp only
    split <;> exact iff_of_false nofun isLocal

theorem distance_congr {other : Heap} (same : (other host).dc = (heap host).dc) :
    policy.distance other host = policy.distance heap host := by
  simp only [distance, same]

/-- A remote host is in no list any more when it was removed. -/
theorem RemoteDistinct.notMem_liveHostsOf_onRemove (distinct : policy.RemoteDistinct)
    (isRemote : (heap host).dc ≠ policy.localDc) {other : HostPtr}
    (member : other ∈ (policy.onRemove heap host).liveHostsOf (heap host).dc) :
    other.address ≠ host.address := by
  rw [liveHostsOf_onRemove, if_pos rfl, liveHostsOf, if_neg isRemote] at member
  exact (distinct _).notMem_removeHost member

theorem distance_eq_ignore (known : policy.localDc ≠ "") (isRemote : (heap host).dc ≠ policy.localDc)
    (absent : ∀ other ∈ policy.liveHostsOf (heap host).dc, other.address ≠ host.address) :
    policy.distance heap host = .ignore := by
  rw [liveHostsOf, if_neg isRemote] at absent
  rw [distance, if_neg (not_or.mpr ⟨known, isRemote⟩)]
  refine if_neg fun present => ?_
  obtain ⟨other, member, same⟩ := any_eq_true.mp present
  exact absent other (mem_of_mem_take member) (of_decide_eq_true same)

end DseDriver.LoadBalancing.DCAwarePolicy

namespace DseDriver.Control.Session

open LoadBalancing

/-- The host is in the live list of its datacenter, and the IO workers were asked last to add a
pool for it. -/
def Uses (session : Session) (host : HostPtr) : Prop :=
  host ∈ session.loadBalancingPolicy.liveHostsOf (session.heap host).dc ∧
    ∀ events ∈ session.ioWorkers, events.getLast? = some (.addPool host false)

instance (session : Session) (host : HostPtr) : Decidable (session.Uses host) :=
  inferInstanceAs (Decidable (_ ∧ _))

variable (session : Session) (host : HostPtr)

@[simp] theorem setState_dc (state : HostState) (other : HostPtr) :
    ((session.setState host state).heap other).dc = (session.heap other).dc := by
  simp only [setState, modifyHost, Function.update_apply]
  split
  next same => rw [same]
  · rfl

theorem onDown_dc (other : HostPtr) :
    ((session.onDown host).heap other).dc = (session.heap other).dc :=
  session.setState_dc host .down other

/-- When the distance is asked for, the host is up already, which changes nothing. -/
theorem onUp_eq {policy : DCAwarePolicy} (isPolicy : session.loadBalancingPolicy = .dcAware policy) :
    session.onUp host =
      if policy.distance session.heap host = .ignore then
        session.setState host .up
      else
        ((session.setState host .up).notify .onUp host).sendAll (.addPool host false) := by
  have kept : (session.setState host .up).loadBalancingPolicy = .dcAware policy := isPolicy
  have same : policy.distance (session.setState host .up).heap host =
      policy.distance session.heap host :=
    DCAwarePolicy.distance_congr (session.setState_dc host .up host)
  rw [onUp]
  simp only [distance, kept, Policy.distance, same]

theorem onDown_policy {policy : DCAwarePolicy}
    (isPolicy : session.loadBalancingPolicy = .dcAware policy) :
    (session.onDown host).loadBalancingPolicy =
      .dcAware (policy.onRemove (session.setState host .down).heap host) := by
  have kept : (session.setState host .down).loadBalancingPolicy = .dcAware policy := isPolicy
  rw [onDown, sendAll, notify, kept]
  rfl

variable {session host} {policy : DCAwarePolicy}

theorem uses_of_localDc (isPolicy : session.loadBalancingPolicy = .dcAware policy)
    (isLocal : policy.distance session.heap host = .localDc) :
    ((session.onDown host).onUp host).Uses host := by
  have downPolicy := onDown_policy session host isPolicy
  have stillLocal : (policy.onRemove (session.setState host .down).heap host).distance
      (session.onDown host).heap host = .localDc := by
    rw [DCAwarePolicy.distance_eq_localDc_iff] at isLocal ⊢
    rwa [DCAwarePolicy.onRemove_localDc, onDown_dc]
  rw [onUp_eq _ host downPolicy, stillLocal, if_neg nofun]
  constructor
  · simp only [sendAll, notify, setState, modifyHost, downPolicy, Policy.notify]
    exact DCAwarePolicy.mem_liveHostsOf_onAdd _ _ host
  · intro events member
    obtain ⟨earlier, -, rfl⟩ := List.mem_map.mp member
    exact List.getLast?_concat

theorem not_uses_of_remoteDc (isPolicy : session.loadBalancingPolicy = .dcAware policy)
    (distinct : policy.RemoteDistinct)
    (isRemote : ¬ (policy.localDc = "" ∨ (session.heap host).dc = policy.localDc)) :
    ¬ ((session.onDown host).onUp host).Uses host := by
  obtain ⟨known, otherDc⟩ := not_or.mp isRemote
  have downPolicy := onDown_policy session host isPolicy
  have sameDc := session.setState_dc host .down host
  have absent (other : HostPtr) (member : other ∈
      (policy.onRemove (session.setState host .down).heap host).liveHostsOf
        (session.heap host).dc) : other.address ≠ host.address := by
    rw [← sameDc] at member
    exact distinct.notMem_liveHostsOf_onRemove (by rwa [sameDc]) member
  have ignored : (policy.onRemove (session.setState host .down).heap host).distance
      (session.onDown host).heap host = .ignore := by
    refine DCAwarePolicy.distance_eq_ignore ?_ ?_ ?_
    · rwa [DCAwarePolicy.onRemove_localDc]
    · rwa [DCAwarePolicy.onRemove_localDc, onDown_dc]
    · rwa [onDown_dc]
  rw [onUp_eq _ host downPolicy, if_pos ignored]
  rintro ⟨member, -⟩
  have unchanged : ((session.onDown host).setState host .up).loadBalancingPolicy =
      .dcAware (policy.onRemove (session.setState host .down).heap host) := downPolicy
  rw [unchanged, Policy.liveHostsOf, setState_dc, onDown_dc] at member
  exact absent host member rfl

/-- A host is used again after it was down and up exactly if it is local; a remote one never is. -/
theorem uses_iff_localDc (session : Session) (host : HostPtr) (policy : DCAwarePolicy)
    (isPolicy : session.loadBalancingPolicy = .dcAware policy) (reachable : policy.Reachable) :
    ((session.onDown host).onUp host).Uses host ↔ session.distance host = .localDc := by
  rw [distance, isPolicy, Policy.distance]
  constructor
  · intro uses
    by_contra isRemote
    rw [DCAwarePolicy.distance_eq_localDc_iff] at isRemote
    exact not_uses_of_remoteDc isPolicy reachable.remoteDistinct isRemote uses
  · exact uses_of_localDc isPolicy

/-! ## A remote host that comes back -/

/-- The hosts of two datacenters, all up. -/
def twoDatacenters : Heap := fun host =>
  { rack := "r1"
    dc := if host.id = 1 then "dc1" else "dc2"
    listenAddress := ""
    state := .up
    mark := true }

def localHost : HostPtr := ⟨⟨"10.0.0.1", 9042⟩, 1⟩

def remoteHost : HostPtr := ⟨⟨"10.0.0.2", 9042⟩, 2⟩

/-- The policy of a session whose local datacenter is the first one, and which may use one host
of the other. -/
def oneRemote : DCAwarePolicy :=
  (DCAwarePolicy.new "dc1" 1 false).init twoDatacenters none [localHost, remoteHost] none

def oneRemoteSession : Session :=
  { Session.new (.dcAware oneRemote) 1 with
    heap := twoDatacenters
    hosts := (HostMap.empty.insert localHost).insert remoteHost }

theorem oneRemote_reachable : oneRemote.Reachable :=
  .init twoDatacenters none _ none (.new "dc1" 1 false)

theorem uses_iff_localDc_localHost :
    ((oneRemoteSession.onDown localHost).onUp localHost).Uses localHost :=
  (uses_iff_localDc oneRemoteSession localHost oneRemote rfl oneRemote_reachable).mpr (by decide)

theorem remoteHost_not_used :
    oneRemoteSession.loadBalancingPolicy = .dcAware oneRemote ∧ oneRemote.Reachable ∧
      oneRemote.usedHostsPerRemoteDc = 1 ∧ oneRemoteSession.distance remoteHost = .remoteDc ∧
      ¬ ((oneRemoteSession.onDown remoteHost).onUp remoteHost).Uses remoteHost :=
  ⟨rfl, oneRemote_reachable, rfl, by decide, by decide⟩

end DseDriver.Control.Session
