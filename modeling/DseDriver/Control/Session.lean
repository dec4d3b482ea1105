import DseDriver.LoadBalancing.Chain

/-!
# The hosts of a session

The host map of `Session`, the state of each host, the load balancing policies that are told
about changes and the requests that are sent to the IO workers.  Names of hosts are not
resolved.
-/

namespace DseDriver.Control

open LoadBalancing List

/-! ## The host map -/

/-- `HostMap`: hosts by their addresses. -/
structure HostMap where
  entries : AList fun _ : Address => HostPtr
  keyed : ∀ address host, entries.lookup address = some host → host.address = address

namespace HostMap

def empty : HostMap where
  entries := ∅
  keyed := fun address host found => by cases found

def find (map : HostMap) (address : Address) : Option HostPtr :=
  map.entries.lookup address

def insert (map : HostMap) (host : HostPtr) : HostMap where
  entries := map.entries.insert host.address host
  keyed := by
    intro address other found
    by_cases same : address = host.address
    · rw [same, AList.lookup_insert] at found
      cases found
      exact same.symm
    · rw [AList.lookup_insert_ne same] at found
      exact map.keyed address other found

def erase (map : HostMap) (address : Address) : HostMap where
  entries := map.entries.erase address
  keyed := by
    intro other host found
    by_cases same : other = address
    · rw [same, AList.lookup_erase] at found
      cases found
    · rw [AList.lookup_erase_ne same] at found
      exact map.keyed other host found

def toList (map : HostMap) : List HostPtr :=
  map.entries.entries.map Sigma.snd

theorem address_of_find {map : HostMap} {address : Address} {host : HostPtr}
    (found : map.find address = some host) : host.address = address :=
  map.keyed address host found

@[simp] theorem find_insert (map : HostMap) (host : HostPtr) (address : Address) :
    (map.insert host).find address =
      if address = host.address then some host else map.find address := by
  by_cases same : address = host.address
  · rw [if_pos same, find, same]
    exact AList.lookup_insert _
  · rw [if_neg same, find]
    exact AList.lookup_insert_ne same

@[simp] theorem find_erase (map : HostMap) (erased address : Address) :
    (map.erase erased).find address = if address = erased then none else map.find address := by
  by_cases same : address = erased
  · rw [if_pos same, find, same]
    exact AList.lookup_erase _ _
  · rw [if_neg same, find]
    exact AList.lookup_erase_ne same

theorem mem_toList {map : HostMap} {host : HostPtr} :
    host ∈ map.toList ↔ map.find host.address = some host := by
  rw [toList, mem_map]
  constructor
  · rintro ⟨⟨address, other⟩, member, rfl⟩
    have found := AList.mem_lookup_iff.mpr member
    rwa [← map.keyed address other found] at found
  · intro found
    exact ⟨⟨host.address, host⟩, AList.mem_lookup_iff.mp found, rfl⟩

theorem toList_distinct (map : HostMap) : Distinct map.toList := by
  have addresses : map.toList.map HostPtr.address = map.entries.keys := by
    rw [toList, map_map, AList.keys, List.keys]
    refine map_congr_left fun entry member => ?_
    exact map.keyed entry.1 entry.2 (AList.mem_lookup_iff.mpr member)
  rw [Distinct, addresses]
  exact map.entries.keys_nodup

end HostMap

/-! ## Sessions -/

/-- The events that `add_pool_async` and `remove_pool_async` send to an IO worker. -/
inductive IOWorkerEvent where
  | addPool (host : HostPtr) (isInitialConnection : Bool)
  | removePool (host : HostPtr) (cancelReconnect : Bool)
  deriving DecidableEq, Repr

/-- `Session`, with the objects its pointers point to, the number of hosts made so far, and the
events each IO worker was sent. -/
structure Session where
  heap : Heap
  allocated : Nat
  hosts : HostMap
  currentHostMark : Bool
  loadBalancingPolicy : Policy
  ioWorkers : List (List IOWorkerEvent)
  pendingPoolCount : Nat

namespace Session

variable (session : Session)

/-- Write the fields of a host. -/
def modifyHost (host : HostPtr) (change : Host → Host) : Session :=
  { session with heap := Function.update session.heap host (change (session.heap host)) }

/-- `Host::set_up`, `Host::set_down`. -/
def setState (host : HostPtr) (state : HostState) : Session :=
  session.modifyHost host fun fields => { fields with state }

/-- `Host::set_mark`. -/
def setMark (host : HostPtr) (mark : Bool) : Session :=
  session.modifyHost host fun fields => { fields with mark }

/-- `Host::set_rack_and_dc`. -/
def setRackAndDc (host : HostPtr) (rack dc : String) : Session :=
  session.modifyHost host fun fields => { fields with rack, dc }

/-- Tell the policies about a host. -/
def notify (notification : Notification) (host : HostPtr) : Session :=
  { session with
    loadBalancingPolicy := session.loadBalancingPolicy.notify session.heap notification host }

def distance (host : HostPtr) : HostDistance :=
  session.loadBalancingPolicy.distance session.heap host

/-- Send an event to all IO workers. -/
def sendAll (event : IOWorkerEvent) : Session :=
  { session with ioWorkers := session.ioWorkers.map (· ++ [event]) }

/-- `Session::get_host`. -/
def getHost (address : Address) : Option HostPtr :=
  session.hosts.find address

/-- `Session::add_host`. -/
def addHost (address : Address) : HostPtr × Session :=
  let host : HostPtr := { address, id := session.allocated }
  (host,
    { session with
      heap := Function.update session.heap host (.new (!session.currentHostMark))
      allocated := session.allocated + 1
      hosts := session.hosts.insert host })

/-- `Session::on_add`, in a session that does not resolve the names of hosts, as by default: it is
`Session::internal_on_add` then. -/
def onAdd (host : HostPtr) (isInitialConnection : Bool) : Session :=
  let session := session.setState host .up
  if session.distance host = .ignore then
    session
  else
    let session :=
      if isInitialConnection then
        { session with pendingPoolCount := session.pendingPoolCount + session.ioWorkers.length }
      else
        session.notify .onAdd host
    session.sendAll (.addPool host isInitialConnection)

/-- `Session::on_remove`. -/
def onRemove (host : HostPtr) : Session :=
  let session := session.notify .onRemove host
  let session := { session with hosts := session.hosts.erase host.address }
  session.sendAll (.removePool host true)

/-- `Session::on_up`. -/
def onUp (host : HostPtr) : Session :=
  let session := session.setState host .up
  if session.distance host = .ignore then
    session
  else
    (session.notify .onUp host).sendAll (.addPool host false)

/-- `Session::on_down`. -/
def onDown (host : HostPtr) : Session :=
  let session := (session.setState host .down).notify .onDown host
  session.sendAll (.removePool host (session.distance host = .ignore))

/-- One turn of the loop in `Session::purge_hosts`. -/
def purgeHost (isInitialConnection : Bool) (session : Session) (host : HostPtr) : Session :=
  if (session.heap host).mark = session.currentHostMark then
    session
  else if isInitialConnection then
    { session with hosts := session.hosts.erase host.address }
  else
    session.onRemove host

/-- `Session::purge_hosts`. -/
def purgeHosts (isInitialConnection : Bool) : Session :=
  let session := session.hosts.toList.foldl (purgeHost isInitialConnection) session
  { session with currentHostMark := !session.currentHostMark }

/-- `Session::on_control_connection_ready`. -/
def onControlConnectionReady (connectedHost : Option HostPtr)
    (random : Option (Nat → UInt64)) : Session :=
  let session :=
    { session with
      loadBalancingPolicy :=
        session.loadBalancingPolicy.init session.heap connectedHost session.hosts.toList random }
  session.hosts.toList.foldl (fun session host => session.onAdd host true) session

/-- A session before it connects. -/
def new (policy : Policy) (ioWorkers : Nat) : Session where
  heap := fun _ => .new false
  allocated := 0
  hosts := .empty
  currentHostMark := true
  loadBalancingPolicy := policy
  ioWorkers := List.replicate ioWorkers []
  pendingPoolCount := 0

end Session

end DseDriver.Control
