import DseDriver.LoadBalancing.DcAwareLists

/-!
# The hosts of a datacenter-aware plan

All that a plan will return, as long as the policy stays as it is: the hosts that are up in a
rotated window of the local list and, datacenter by datacenter, in windows of the remote lists.
The distance of a host looks at the first hosts of the list instead of a rotated window, so the
plan returns ignored hosts unless the windows reach only hosts at the front.
-/

namespace DseDriver.LoadBalancing

open Lib DseDriver.Request List

variable (heap : Heap) (policy : DCAwarePolicy)

/-- How many hosts of a remote datacenter a plan goes through. -/
def DCAwarePolicy.used (dc : String) : Nat :=
  min (policy.perRemoteDcLiveHosts.getHosts dc).length policy.usedHostsPerRemoteDc

namespace DCAwareQueryPlan

/-- What the loop over the remote datacenters is still going to return. -/
def upcomingRemote (hosts : List HostPtr) (remaining : Nat) (index : UInt64) :
    List String → List HostPtr
  | [] => (window hosts remaining index).filter fun host => (heap host).isUp
  | dc :: dcs =>
    (window hosts remaining index).filter (fun host => (heap host).isUp) ++
      upcomingRemote (policy.perRemoteDcLiveHosts.getHosts dc) (policy.used dc)
        (index + UInt64.ofNat remaining) dcs

/-- What the plan is still going to return. -/
def upcoming (plan : DCAwareQueryPlan) : List HostPtr :=
  (window plan.hosts plan.localRemaining plan.index).filter (fun host => (heap host).isUp) ++
    if policy.skipRemoteDcsForLocalCl ∧ isDcLocal plan.cl then
      []
    else
      upcomingRemote heap policy plan.hosts plan.remoteRemaining
        (plan.index + UInt64.ofNat plan.localRemaining)
        (plan.remoteDcs.getD policy.perRemoteDcLiveHosts.copyDcs)

theorem nextRemote_spec (hosts : List HostPtr) (remaining : Nat) (index : UInt64)
    (dcs : List String) :
    upcomingRemote heap policy hosts remaining index dcs =
      match nextRemote heap policy hosts remaining index dcs with
      | (none, _) => []
      | (some host, hosts, dcs, remaining, index) =>
        host :: upcomingRemote heap policy hosts remaining index dcs := by
  induction dcs generalizing hosts remaining index with
  | nil =>
    rw [nextRemote, upcomingRemote]
    rcases walk : nextInWindow (fun host => (heap host).isUp) hosts remaining index with
      ⟨_ | host, left, last⟩
    · exact (nextInWindow_eq_none walk).1
    · exact (nextInWindow_eq_some walk).1
  | cons dc dcs ih =>
    rw [nextRemote, upcomingRemote]
    rcases walk : nextInWindow (fun host => (heap host).isUp) hosts remaining index with
      ⟨_ | host, left, last⟩
    · obtain ⟨none, -, rfl⟩ := nextInWindow_eq_none walk
      rw [none, nil_append]
      exact ih (policy.perRemoteDcLiveHosts.getHosts dc) (policy.used dc) _
    · obtain ⟨found, total⟩ := nextInWindow_eq_some walk
      simp only [found, upcomingRemote, total, cons_append]

theorem computeNext_spec (plan : DCAwareQueryPlan) :
    plan.upcoming heap policy =
      match plan.computeNext heap policy with
      | (none, _) => []
      | (some host, after) => host :: after.upcoming heap policy := by
  rw [computeNext, upcoming]
  rcases walk : nextInWindow (fun host => (heap host).isUp) plan.hosts plan.localRemaining
    plan.index with ⟨_ | host, left, last⟩
  · obtain ⟨none, rfl, rfl⟩ := nextInWindow_eq_none walk
    rw [none, nil_append]
    by_cases skips : policy.skipRemoteDcsForLocalCl ∧ isDcLocal plan.cl
    · simp only [if_pos skips]
    · have remote := nextRemote_spec heap policy plan.hosts plan.remoteRemaining
        (plan.index + UInt64.ofNat plan.localRemaining)
        (plan.remoteDcs.getD policy.perRemoteDcLiveHosts.copyDcs)
      simp only [if_neg skips]
      rw [remote]
      rcases nextRemote heap policy plan.hosts plan.remoteRemaining _ _ with
        ⟨_ | host, hosts, dcs, remaining, index⟩
      · rfl
      · simp [upcoming, window, if_neg skips]
  · obtain ⟨found, total⟩ := nextInWindow_eq_some walk
    simp only [found, upcoming, total, cons_append]

end DCAwareQueryPlan

namespace DCAwarePolicy

variable {heap policy}

theorem Files.remote {filed : HostPtr → String → Prop} (files : policy.Files filed) {dc : String}
    {host : HostPtr} (member : host ∈ policy.perRemoteDcLiveHosts.getHosts dc) :
    dc ≠ policy.localDc ∧ filed host dc ∧ Distinct (policy.perRemoteDcLiveHosts.getHosts dc) := by
  have other : dc ≠ policy.localDc := by
    rintro rfl
    rw [files.noLocal] at member
    cases member
  have list : policy.liveHostsOf dc = policy.perRemoteDcLiveHosts.getHosts dc := if_neg other
  exact ⟨other, files.listed dc host (list ▸ member), list ▸ files.distinct dc⟩

def nearHost : HostPtr := ⟨⟨"10.0.1.1", 9042⟩, 0⟩

/-- All hosts are up, and all but one are remote. -/
def allUp : Heap := fun host =>
  { rack := "r1", dc := if host = nearHost then "dc1" else "dc2", listenAddress := "", state := .up
    mark := true }

/-- A local host, and a remote datacenter with two hosts of which one may be used. -/
def oneOfTwo (index : UInt64) : DCAwarePolicy :=
  (new "dc1" 1 true).init allUp none
    [nearHost, ⟨⟨"10.0.0.1", 9042⟩, 1⟩, ⟨⟨"10.0.0.2", 9042⟩, 2⟩] (some index)

theorem files_oneOfTwo (index : UInt64) :
    (oneOfTwo index).Files fun host dc => (allUp host).dc = dc :=
  (files_init (.inl (by decide)) 1 true (show List.Nodup _ by decide) (some index)).imp
    fun _ _ _ ⟨_, here⟩ => here.symm

end DCAwarePolicy

end DseDriver.LoadBalancing
