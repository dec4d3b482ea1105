import Mathlib.Data.List.Nodup

/-!
# Hosts

The hosts a session shares with its load balancing policies.  A host is an object that the host
map, the live lists of the policies and pending requests point to; the address it was made with
stays, and its other fields are read and written through a heap.  A `CopyOnWriteHostVec` is
detached before it is written, so it is a list.
-/

namespace DseDriver.LoadBalancing

open List

/-- `Address`: the text of the IP address, as `to_string(false)` gives it, and the port. -/
structure Address where
  ip : String
  port : Nat
  deriving DecidableEq, Repr

/-- `Host::HostState`. -/
inductive HostState where
  | added
  | up
  | down
  deriving DecidableEq, Repr

/-- The fields of a `Host` that change. -/
structure Host where
  rack : String
  dc : String
  listenAddress : String
  state : HostState
  mark : Bool
  deriving DecidableEq, Repr

/-- `Host(address, mark)`. -/
def Host.new (mark : Bool) : Host :=
  { rack := "", dc := "", listenAddress := "", state := .added, mark }

def Host.isUp (host : Host) : Bool := host.state = .up

def Host.isDown (host : Host) : Bool := host.state = .down

def Host.wasJustAdded (host : Host) : Bool := host.state = .added

/-- `Host::Ptr`. -/
structure HostPtr where
  address : Address
  id : Nat
  deriving DecidableEq, Repr

/-- What the pointers point to. -/
abbrev Heap := HostPtr → Host

/-- `add_host`: a host with the same address is replaced. -/
def addHost : List HostPtr → HostPtr → List HostPtr
  | [], host => [host]
  | other :: hosts, host =>
    if other.address = host.address then host :: hosts else other :: addHost hosts host

/-- `remove_host`: the first host with the same address is erased. -/
def removeHost (hosts : List HostPtr) (host : HostPtr) : List HostPtr :=
  hosts.eraseP fun other => other.address = host.address

/-- No two hosts have the same address. -/
def Distinct (hosts : List HostPtr) : Prop := (hosts.map HostPtr.address).Nodup

theorem mem_addHost_self (hosts : List HostPtr) (host : HostPtr) : host ∈ addHost hosts host := by
  induction hosts with
  | nil => exact mem_singleton.mpr rfl
  | cons other hosts ih =>
    rw [addHost]
    split
    · exact mem_cons_self
    · exact mem_cons_of_mem other ih

variable {hosts : List HostPtr}

theorem mem_addHost {host other : HostPtr} (member : other ∈ addHost hosts host) :
    other = host ∨ other ∈ hosts := by
  induction hosts with
  | nil => exact .inl (mem_singleton.mp member)
  | cons first hosts ih =>
    rw [addHost] at member
    split at member
    · rcases mem_cons.mp member with same | later
      · exact .inl same
      · exact .inr (mem_cons_of_mem first later)
    · rcases mem_cons.mp member with same | later
      · exact .inr (same ▸ mem_cons_self)
      · exact (ih later).imp_right (mem_cons_of_mem first)

theorem addHost_addresses (hosts : List HostPtr) (host : HostPtr) :
    (addHost hosts host).map HostPtr.address =
      if host.address ∈ hosts.map HostPtr.address then
        hosts.map HostPtr.address
      else
        hosts.map HostPtr.address ++ [host.address] := by
  induction hosts with
  | nil => simp [addHost]
  | cons first hosts ih =>
    by_cases same : first.address = host.address
    · simp [addHost, same]
    · have other : host.address ≠ first.address := Ne.symm same
      simp only [addHost, if_neg same, map_cons, ih, mem_cons, other, false_or]
      split <;> rfl

theorem Distinct.addHost (distinct : Distinct hosts) (host : HostPtr) :
    Distinct (addHost hosts host) := by
  rw [Distinct, addHost_addresses]
  split
  · exact distinct
  next absent =>
    refine nodup_append.mpr ⟨distinct, nodup_singleton _, ?_⟩
    intro address member last isLast equal
    exact absent (mem_singleton.mp isLast ▸ equal ▸ member)

theorem mem_of_mem_removeHost {host other : HostPtr} (member : other ∈ removeHost hosts host) :
    other ∈ hosts :=
  mem_of_mem_eraseP member

theorem Distinct.removeHost (distinct : Distinct hosts) (host : HostPtr) :
    Distinct (removeHost hosts host) :=
  distinct.sublist ((eraseP_sublist).map _)

/-- A list with distinct addresses does not hold the address of the host any more. -/
theorem Distinct.notMem_removeHost (distinct : Distinct hosts) {host other : HostPtr}
    (member : other ∈ LoadBalancing.removeHost hosts host) :
    other.address ≠ host.address := by
  induction hosts with
  | nil => cases member
  | cons first hosts ih =>
    obtain ⟨absent, rest⟩ := nodup_cons.mp distinct
    by_cases same : first.address = host.address
    · rw [LoadBalancing.removeHost, eraseP_cons_of_pos (by simpa using same)] at member
      intro equal
      exact absent (mem_map.mpr ⟨other, member, equal.trans same.symm⟩)
    · rw [LoadBalancing.removeHost, eraseP_cons_of_neg (by simpa using same)] at member
      rcases mem_cons.mp member with rfl | later
      · exact same
      · exact ih rest later

end DseDriver.LoadBalancing
