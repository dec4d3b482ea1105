import DseDriver.Control.ControlConnection

/-!
# What the steps of a session change

Each step of the session and the control connection writes the fields of one host and at most
the entry of its address in the host map.
-/

namespace DseDriver.Control.Session

open LoadBalancing Function

variable {session : Session} {host : HostPtr}

/-- Other addresses keep their hosts, and other hosts their fields. -/
structure KeepsOthers (host : HostPtr) (before after : Session) : Prop where
  hosts : ∀ address, address ≠ host.address → after.getHost address = before.getHost address
  heap : ∀ other, other ≠ host → after.heap other = before.heap other

theorem KeepsOthers.of_hosts {before after : Session} (hosts : after.hosts = before.hosts)
    (heap : ∀ other, other ≠ host → after.heap other = before.heap other) :
    KeepsOthers host before after :=
  ⟨fun address _ => by rw [getHost, getHost, hosts], heap⟩

theorem KeepsOthers.refl : KeepsOthers host session session :=
  ⟨fun _ _ => rfl, fun _ _ => rfl⟩

theorem KeepsOthers.trans {before middle after : Session} (first : KeepsOthers host before middle)
    (second : KeepsOthers host middle after) : KeepsOthers host before after :=
  ⟨fun address elsewhere => (second.hosts address elsewhere).trans (first.hosts address elsewhere),
    fun other different => (second.heap other different).trans (first.heap other different)⟩

@[simp] theorem modifyHost_heap_self (change : Host → Host) :
    (session.modifyHost host change).heap host = change (session.heap host) :=
  update_self ..

theorem modifyHost_heap_of_ne {other : HostPtr} (different : other ≠ host)
    (change : Host → Host) : (session.modifyHost host change).heap other = session.heap other :=
  update_of_ne different ..

theorem onAdd_hosts (isInitialConnection : Bool) :
    (session.onAdd host isInitialConnection).hosts = session.hosts := by
  rw [onAdd]
  dsimp only
  split
  · rfl
  · cases isInitialConnection <;> rfl

theorem onAdd_heap (isInitialConnection : Bool) :
    (session.onAdd host isInitialConnection).heap = (session.setState host .up).heap := by
  rw [onAdd]
  dsimp only
  split
  · rfl
  · cases isInitialConnection <;> rfl

theorem onUp_hosts : (session.onUp host).hosts = session.hosts := by
  rw [onUp]
  split <;> rfl

theorem onUp_heap : (session.onUp host).heap = (session.setState host .up).heap := by
  rw [onUp]
  split <;> rfl

theorem onDown_heap : (session.onDown host).heap = (session.setState host .down).heap :=
  rfl

theorem keepsOthers_onAdd (isInitialConnection : Bool) :
    KeepsOthers host session (session.onAdd host isInitialConnection) :=
  .of_hosts (onAdd_hosts isInitialConnection) fun _ different => by
    rw [onAdd_heap]
    exact modifyHost_heap_of_ne different _

theorem keepsOthers_onUp : KeepsOthers host session (session.onUp host) :=
  .of_hosts onUp_hosts fun _ different => by
    rw [onUp_heap]
    exact modifyHost_heap_of_ne different _

theorem keepsOthers_onDown : KeepsOthers host session (session.onDown host) :=
  .of_hosts rfl fun _ different => by
    rw [onDown_heap]
    exact modifyHost_heap_of_ne different _

theorem keepsOthers_onRemove : KeepsOthers host session (session.onRemove host) where
  hosts := by
    intro address different
    exact (HostMap.find_erase ..).trans (if_neg different)
  heap := fun _ _ => rfl

theorem keepsOthers_addHost (address : Address) :
    KeepsOthers (session.addHost address).1 session (session.addHost address).2 where
  hosts := by
    intro other different
    exact (HostMap.find_insert ..).trans (if_neg different)
  heap := fun _ different => update_of_ne different ..

/-! ## Node information -/

variable {row : NodeRow}

/-- The policies are not told about a host that was just added. -/
theorem updateRackAndDc_of_added (moves : row.Moves (session.heap host))
    (added : (session.heap host).state = .added) :
    session.updateRackAndDc host row = session.setRackAndDc host row.rack row.dc := by
  have justAdded : (session.heap host).wasJustAdded := by simp [Host.wasJustAdded, added]
  rw [updateRackAndDc, if_pos moves]
  dsimp only
  rw [if_pos justAdded]
  refine if_pos ?_
  rw [setRackAndDc, modifyHost_heap_self]
  exact justAdded

/-- They file another host anew. -/
theorem updateRackAndDc_of_not_added (moves : row.Moves (session.heap host))
    (notAdded : (session.heap host).state ≠ .added) :
    session.updateRackAndDc host row =
      ((session.notify .onRemove host).setRackAndDc host row.rack row.dc).notify .onAdd host := by
  have notJust : ¬ (session.heap host).wasJustAdded := by simp [Host.wasJustAdded, notAdded]
  rw [updateRackAndDc, if_pos moves]
  dsimp only
  rw [if_neg notJust]
  refine if_neg ?_
  rw [setRackAndDc, modifyHost_heap_self]
  exact notJust

theorem updateRackAndDc_hosts : (session.updateRackAndDc host row).hosts = session.hosts := by
  unfold updateRackAndDc
  dsimp only
  split
  · split <;> split <;> rfl
  · rfl

theorem updateRackAndDc_heap :
    (session.updateRackAndDc host row).heap =
      if row.Moves (session.heap host) then
        (session.setRackAndDc host row.rack row.dc).heap
      else
        session.heap := by
  unfold updateRackAndDc
  dsimp only
  split
  · split <;> split <;> rfl
  · rfl

theorem updateListenAddress_eq (session : Session) (host : HostPtr) (row : NodeRow) :
    ∃ listenAddress, session.updateListenAddress host row =
      session.modifyHost host fun fields => { fields with listenAddress } := by
  unfold updateListenAddress
  split
  next ip _ => exact ⟨ip, rfl⟩
  · refine ⟨(session.heap host).listenAddress, ?_⟩
    rw [modifyHost, update_eq_self]

theorem updateNodeInfo_hosts : (session.updateNodeInfo host row).hosts = session.hosts := by
  obtain ⟨listenAddress, eq⟩ := updateListenAddress_eq session host row
  rw [updateNodeInfo, updateRackAndDc_hosts, eq]
  rfl

/-- A change of other fields keeps the state and the mark. -/
theorem modifyHost_status (session : Session) (host other : HostPtr) {change : Host → Host}
    (keeps : ∀ fields, (change fields).state = fields.state ∧ (change fields).mark = fields.mark) :
    ((session.modifyHost host change).heap other).state = (session.heap other).state ∧
      ((session.modifyHost host change).heap other).mark = (session.heap other).mark := by
  by_cases same : other = host
  · rw [same, modifyHost_heap_self]
    exact keeps _
  · rw [modifyHost_heap_of_ne same]
    exact ⟨rfl, rfl⟩

theorem updateNodeInfo_status (other : HostPtr) :
    ((session.updateNodeInfo host row).heap other).state = (session.heap other).state ∧
      ((session.updateNodeInfo host row).heap other).mark = (session.heap other).mark := by
  obtain ⟨listenAddress, eq⟩ := updateListenAddress_eq session host row
  have listened : ((session.updateListenAddress host row).heap other).state =
        (session.heap other).state ∧
      ((session.updateListenAddress host row).heap other).mark = (session.heap other).mark := by
    rw [eq]
    exact modifyHost_status session host other fun _ => ⟨rfl, rfl⟩
  rw [updateNodeInfo, updateRackAndDc_heap]
  split
  · rw [← listened.1, ← listened.2]
    exact modifyHost_status _ host other fun _ => ⟨rfl, rfl⟩
  · exact listened

theorem updateNodeInfo_heap_of_ne {other : HostPtr} (different : other ≠ host) :
    (session.updateNodeInfo host row).heap other = session.heap other := by
  obtain ⟨listenAddress, eq⟩ := updateListenAddress_eq session host row
  rw [updateNodeInfo, updateRackAndDc_heap, eq]
  split
  · rw [setRackAndDc, modifyHost_heap_of_ne different, modifyHost_heap_of_ne different]
  · rw [modifyHost_heap_of_ne different]

theorem keepsOthers_updateNodeInfo : KeepsOthers host session (session.updateNodeInfo host row) :=
  .of_hosts updateNodeInfo_hosts fun _ different => updateNodeInfo_heap_of_ne different

end DseDriver.Control.Session
