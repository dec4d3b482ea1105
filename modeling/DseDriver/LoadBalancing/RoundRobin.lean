import DseDriver.Lib.CopyOnWrite
import DseDriver.LoadBalancing.Chain

/-!
# Round-robin plans

`RoundRobinPolicy` and its plans share one vector of hosts copy-on-write, so that a plan walks
through the hosts that were there when it was made, whatever the policy is told meanwhile.  Whether
a host is up is read when the plan comes to it, and may have changed since the last one.
-/

namespace DseDriver.LoadBalancing

open Lib List

/-! ## The plan and what happens around it -/

/-- The loop of `RoundRobinQueryPlan::compute_next`: the host, `remaining_` and `index_`.  The hosts
are read as they are when so many of them are left to be visited. -/
def nextUp (heaps : Nat → Heap) (hosts : List HostPtr) :
    Nat → UInt64 → Option HostPtr × Nat × UInt64
  | 0, index => (none, 0, index)
  | remaining + 1, index =>
    match hosts[index.toNat % hosts.length]? with
    | some host =>
      if (heaps remaining host).isUp then
        (some host, remaining, index + 1)
      else
        nextUp heaps hosts remaining (index + 1)
    | none => nextUp heaps hosts remaining (index + 1)

/-- A `RoundRobinQueryPlan` beside the policy that made it: the policy holds the writing handle of
the vector, the plan the watched one, and further plans the others. -/
structure RoundRobinPlan where
  hosts : Shared (List HostPtr)
  index : UInt64
  remaining : Nat

/-- A plan made by `new_query_plan` when the policy has this vector and index. -/
def RoundRobinPlan.new (vectors : List (List HostPtr)) (hosts : Nat) (others : List Nat)
    (index : UInt64) : RoundRobinPlan where
  hosts := { objects := vectors, writer := hosts, reader := hosts, others }
  index
  remaining := (vectors[hosts]?.getD []).length

/-- What may happen while the plan is used: the policy is told about a host, it makes another plan,
another plan is destroyed, and the plan is asked for a host. -/
inductive PlanEvent where
  | notify (notification : Notification) (host : HostPtr)
  | newQueryPlan
  | destroyPlan (hosts : Nat)
  | computeNext
  deriving DecidableEq

namespace RoundRobinPlan

/-- `RoundRobinQueryPlan::compute_next`. -/
def computeNext (heaps : Nat → Heap) (plan : RoundRobinPlan) : Option HostPtr × RoundRobinPlan :=
  let (host, remaining, index) :=
    nextUp heaps (plan.hosts.seen.getD []) plan.remaining plan.index
  (host, { plan with index, remaining })

/-- What the plan returns, call by call. -/
def returned (heaps : Nat → Heap) : RoundRobinPlan → List PlanEvent → List (Option HostPtr)
  | _, [] => []
  | plan, .notify notification host :: events =>
    returned heaps { plan with
      hosts := plan.hosts.write fun hosts => notification.updateHosts hosts host } events
  | plan, .newQueryPlan :: events => returned heaps { plan with hosts := plan.hosts.share } events
  | plan, .destroyPlan object :: events =>
    returned heaps { plan with hosts := plan.hosts.release object } events
  | plan, .computeNext :: events =>
    (plan.computeNext heaps).1 :: returned heaps (plan.computeNext heaps).2 events

end RoundRobinPlan

/-! ## What the plan returns -/

/-- The hosts of a list that are up when it is their turn, from the first to the last. -/
def upWhenVisited (heaps : Nat → Heap) : List HostPtr → List HostPtr
  | [] => []
  | host :: hosts =>
    if (heaps hosts.length host).isUp then
      host :: upWhenVisited heaps hosts
    else
      upWhenVisited heaps hosts

theorem nextUp_spec (heaps : Nat → Heap) {hosts : List HostPtr} {remaining : Nat}
    (index : UInt64) (short : remaining ≤ hosts.length) :
    ∃ left last, nextUp heaps hosts remaining index =
        ((upWhenVisited heaps (window hosts remaining index)).head?, left, last) ∧
      left ≤ remaining ∧
      upWhenVisited heaps (window hosts left last) =
        (upWhenVisited heaps (window hosts remaining index)).tail := by
  induction remaining generalizing index with
  | zero => exact ⟨0, index, rfl, le_rfl, rfl⟩
  | succ remaining ih =>
    have nonempty : 0 < hosts.length := by omega
    obtain ⟨host, here, unrolled⟩ := window_succ nonempty remaining index
    obtain ⟨left, last, found, fewer, rest⟩ := ih (index + 1) (by omega)
    rw [nextUp, here, unrolled, upWhenVisited, length_window nonempty]
    dsimp only
    split
    · exact ⟨remaining, index + 1, rfl, by omega, rfl⟩
    · exact ⟨left, last, found, by omega, rest⟩

/-- Nothing but `compute_next` changes what the plan is going to return. -/
theorem RoundRobinPlan.returned_eq (heaps : Nat → Heap) {plan : RoundRobinPlan}
    {hosts : List HostPtr} (sees : plan.hosts.seen = some hosts)
    (short : plan.remaining ≤ hosts.length) (events : List PlanEvent) :
    plan.returned heaps events = (List.range (events.count .computeNext)).map fun call =>
      (upWhenVisited heaps (window hosts plan.remaining plan.index))[call]? := by
  induction events generalizing plan with
  | nil => rfl
  | cons event events ih =>
    cases event with
    | notify notification host => exact ih (Shared.seen_write _ sees) short
    | newQueryPlan => exact ih sees short
    | destroyPlan object => exact ih sees short
    | computeNext =>
      obtain ⟨left, last, found, fewer, rest⟩ := nextUp_spec heaps plan.index short
      have next : plan.computeNext heaps =
          ((upWhenVisited heaps (window hosts plan.remaining plan.index)).head?,
            { plan with index := last, remaining := left }) := by
        rw [computeNext, sees, Option.getD_some, found]
      rw [returned, next, count_cons_self, range_succ_eq_map, map_cons,
        map_map, head?_eq_getElem?]
      have later := @ih { plan with index := last, remaining := left } sees (fewer.trans short)
      refine congrArg (List.cons _) (later.trans (map_congr_left fun call _ => ?_))
      rw [rest, getElem?_tail]
      rfl

/-- A plan visits the hosts that the policy had when it was made, each once and from the position
of the index on, and returns those that are up then; after them it returns no host any more. -/
theorem roundRobin_returned {vectors : List (List HostPtr)} {vector : Nat} {hosts : List HostPtr}
    (present : vectors[vector]? = some hosts) (others : List Nat) {index : UInt64}
    (noWrap : index.toNat + hosts.length ≤ 2 ^ 64) (heaps : Nat → Heap) (events : List PlanEvent) :
    (RoundRobinPlan.new vectors vector others index).returned heaps events =
      (List.range (events.count .computeNext)).map fun call =>
        (upWhenVisited heaps (hosts.rotate (index.toNat % hosts.length)))[call]? := by
  have sees : (RoundRobinPlan.new vectors vector others index).hosts.seen = some hosts := present
  have size : (RoundRobinPlan.new vectors vector others index).remaining = hosts.length := by
    rw [RoundRobinPlan.new, present, Option.getD_some]
  have start : (RoundRobinPlan.new vectors vector others index).index = index := rfl
  rw [RoundRobinPlan.returned_eq heaps sees size.le, size, start, rotate_mod,
    window_eq_rotate le_rfl noWrap, take_of_length_le (length_rotate ..).le]

/-- The second of two hosts is removed and the first goes down after its visit. -/
theorem roundRobin_returned_removed :
    (RoundRobinPlan.new [[⟨⟨"10.0.0.1", 9042⟩, 1⟩, ⟨⟨"10.0.0.2", 9042⟩, 2⟩]] 0 [] 0).returned
        (fun left _ => { Host.new true with state := if left = 1 then .up else .down })
        [.computeNext, .notify .onRemove ⟨⟨"10.0.0.2", 9042⟩, 2⟩, .computeNext, .computeNext] =
      [some ⟨⟨"10.0.0.1", 9042⟩, 1⟩, none, none] :=
  (roundRobin_returned rfl [] (by decide) _ _).trans (by decide)

end DseDriver.LoadBalancing
