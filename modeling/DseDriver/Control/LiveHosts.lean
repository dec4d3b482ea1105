import DseDriver.Control.Changes
import DseDriver.LoadBalancing.DcAwareLists
import DseDriver.Lib.Runs

/-!
# The live lists under node events

With the datacenter-aware policy, a host is in a live list only if it is the host of its address
in the host map and is up, and it is in the list of its datacenter.  Node events keep this.  A
reply to a refresh keeps it only if the host is still in the state the reply was asked for in:
a reply for a new node that comes after the node went up puts it into the list a second time,
and one that comes after the node went down or was removed puts it back.
-/

namespace DseDriver.Control

open LoadBalancing Lib Function

namespace Session

variable {session after : Session} {host : HostPtr}

/-- The host is the one of its address, it is up, and it is in the datacenter. -/
structure Live (session : Session) (host : HostPtr) (dc : String) : Prop where
  mapped : session.getHost host.address = some host
  up : (session.heap host).state = .up
  inDc : (session.heap host).dc = dc

/-- The policy is the datacenter-aware one, and its lists hold live hosts of their datacenters. -/
def Filed (session : Session) : Prop :=
  ∃ policy, session.loadBalancingPolicy = .dcAware policy ∧ policy.Files session.Live

/-- No live list holds the address. -/
def Lacks (session : Session) (address : Address) : Prop :=
  ∀ dc, ∀ host ∈ session.loadBalancingPolicy.liveHostsOf dc, host.address ≠ address

theorem Live.eq_of_address {other : HostPtr} {dc otherDc : String} (live : session.Live host dc)
    (otherLive : session.Live other otherDc) (same : host.address = other.address) :
    host = other := by
  have mapped := live.mapped
  rw [same, otherLive.mapped] at mapped
  exact (Option.some.inj mapped).symm

theorem Filed.live (filed : session.Filed) {dc : String}
    (listed : host ∈ session.loadBalancingPolicy.liveHostsOf dc) : session.Live host dc := by
  obtain ⟨policy, isPolicy, files⟩ := filed
  rw [isPolicy] at listed
  exact files.listed dc host listed

/-- A host that is not up is in no list. -/
theorem Filed.lacks_of_not_up (filed : session.Filed) {address : Address}
    (notUp : ∀ host, session.getHost address = some host → (session.heap host).state ≠ .up) :
    session.Lacks address := by
  rintro dc host listed rfl
  have live := filed.live listed
  exact notUp host live.mapped live.up

theorem KeepsOthers.live {other : HostPtr} {dc : String} (keeps : KeepsOthers host session after)
    (elsewhere : other.address ≠ host.address) (live : session.Live other dc) :
    after.Live other dc := by
  have heap := keeps.heap other fun same => elsewhere (congrArg HostPtr.address same)
  constructor
  · rw [keeps.hosts _ elsewhere]
    exact live.mapped
  · rw [heap]
    exact live.up
  · rw [heap]
    exact live.inDc

section Filed

variable (filed : session.Filed)
include filed

/-- The policies are as before, and the hosts in the lists are still live. -/
theorem Filed.frame (samePolicy : after.loadBalancingPolicy = session.loadBalancingPolicy)
    (kept : ∀ dc, ∀ host ∈ session.loadBalancingPolicy.liveHostsOf dc,
      session.Live host dc → after.Live host dc) : after.Filed := by
  obtain ⟨policy, isPolicy, files⟩ := filed
  refine ⟨policy, samePolicy.trans isPolicy, files.imp fun dc host listed live => ?_⟩
  refine kept dc host ?_ live
  rwa [isPolicy]

/-- A host is taken out of the lists by the datacenter it was filed under. -/
theorem Filed.removed (mapped : session.getHost host.address = some host)
    {heap : Heap} (notification : Notification) (isRemoval : notification.isLive = false)
    (sameDc : (heap host).dc = (session.heap host).dc)
    (told : after.loadBalancingPolicy = session.loadBalancingPolicy.notify heap notification host)
    (keeps : KeepsOthers host session after) : after.Filed ∧ after.Lacks host.address := by
  obtain ⟨policy, isPolicy, files⟩ := filed
  have after_eq : after.loadBalancingPolicy = .dcAware (policy.onRemove heap host) := by
    rw [told, isPolicy]
    cases notification with
    | onAdd => cases isRemoval
    | onUp => cases isRemoval
    | onRemove => rfl
    | onDown => rfl
  have elsewhere (dc : String) (other : HostPtr)
      (listed : other ∈ (policy.onRemove heap host).liveHostsOf dc) :
      session.Live other dc ∧ other.address ≠ host.address := by
    obtain ⟨live, removed⟩ := files.onRemove.listed dc other listed
    refine ⟨live, fun same => ?_⟩
    have isHost : other = host := by
      have both := live.mapped
      rw [same, mapped] at both
      exact (Option.some.inj both).symm
    subst isHost
    exact removed (live.inDc.symm.trans sameDc.symm) rfl
  constructor
  · refine ⟨policy.onRemove heap host, after_eq, files.onRemove.imp ?_⟩
    intro dc other listed _
    obtain ⟨live, notHere⟩ := elsewhere dc other listed
    exact keeps.live notHere live
  · intro dc other listed
    rw [after_eq] at listed
    exact (elsewhere dc other listed).2

/-- A live host whose address is in no list is put into the list of its datacenter. -/
theorem Filed.added (lacks : session.Lacks host.address)
    {heap : Heap} (notification : Notification) (isAddition : notification.isLive = true)
    (told : after.loadBalancingPolicy = session.loadBalancingPolicy.notify heap notification host)
    (live : after.Live host (heap host).dc) (keeps : KeepsOthers host session after) :
    after.Filed := by
  obtain ⟨policy, isPolicy, files⟩ := filed
  have absent : policy.Lacks host.address := by
    rw [Lacks, isPolicy] at lacks
    exact lacks
  have others : policy.Files fun other dc =>
      session.Live other dc ∧ other.address ≠ host.address :=
    files.imp fun dc other listed live => ⟨live, absent dc other listed⟩
  refine ⟨policy.onAdd heap host, ?_, (others.onAdd absent).imp ?_⟩
  · rw [told, isPolicy]
    cases notification with
    | onAdd => rfl
    | onUp => rfl
    | onRemove => cases isAddition
    | onDown => cases isAddition
  · rintro dc other - (⟨otherLive, elsewhere⟩ | ⟨rfl, rfl⟩)
    · exact keeps.live elsewhere otherLive
    · exact live

/-! ## The steps of the session -/

/-- What `Session::on_up` and `Session::internal_on_add` have in common: the host is set up, and
the policies are told about it unless it is ignored. -/
theorem Filed.broughtUp (lacks : session.Lacks host.address)
    (mapped : session.getHost host.address = some host) (hosts : after.hosts = session.hosts)
    (heap : after.heap = (session.setState host .up).heap)
    (told : after.loadBalancingPolicy = session.loadBalancingPolicy ∨
      ∃ notification : Notification, notification.isLive = true ∧
        after.loadBalancingPolicy =
          session.loadBalancingPolicy.notify (session.setState host .up).heap notification host) :
    after.Filed := by
  have keeps : KeepsOthers host session after := by
    refine .of_hosts hosts fun other different => ?_
    rw [heap]
    exact modifyHost_heap_of_ne different _
  rcases told with untold | ⟨notification, isAddition, told⟩
  · refine filed.frame untold fun dc other listed live => ?_
    exact keeps.live (lacks dc other listed) live
  · refine filed.added lacks notification isAddition told ⟨?_, ?_, ?_⟩ keeps
    · rw [getHost, hosts]
      exact mapped
    · rw [heap, setState, modifyHost_heap_self]
    · rw [heap]

theorem Filed.onUp (mapped : session.getHost host.address = some host)
    (lacks : session.Lacks host.address) : (session.onUp host).Filed := by
  refine filed.broughtUp lacks mapped onUp_hosts onUp_heap ?_
  rw [Session.onUp]
  split
  · exact .inl rfl
  · exact .inr ⟨.onUp, rfl, rfl⟩

theorem Filed.onAdd (mapped : session.getHost host.address = some host)
    (lacks : session.Lacks host.address) : (session.onAdd host false).Filed := by
  refine filed.broughtUp lacks mapped (onAdd_hosts false) (onAdd_heap false) ?_
  rw [Session.onAdd]
  dsimp only
  split
  · exact .inl rfl
  · exact .inr ⟨.onAdd, rfl, rfl⟩

theorem Filed.onDown (mapped : session.getHost host.address = some host) :
    (session.onDown host).Filed := by
  refine (filed.removed mapped .onDown rfl ?_ rfl keepsOthers_onDown).1
  rw [setState, modifyHost_heap_self]

theorem Filed.onRemove (mapped : session.getHost host.address = some host) :
    (session.onRemove host).Filed :=
  (filed.removed mapped .onRemove rfl rfl rfl keepsOthers_onRemove).1

theorem Filed.addHost {address : Address}
    (unknown : session.getHost address = none) : (session.addHost address).2.Filed := by
  refine filed.frame rfl fun dc other listed live => ?_
  refine (keepsOthers_addHost address).live (fun same => ?_) live
  have mapped := live.mapped
  rw [same] at mapped
  exact absurd (mapped.symm.trans unknown) nofun

/-- A host in the list of a datacenter is filed again when it moves, provided that it is live. -/
theorem Filed.updateRackAndDc {row : NodeRow}
    (timely : row.Moves (session.heap host) → (session.heap host).state = .added ∨
      session.getHost host.address = some host ∧ (session.heap host).state = .up) :
    (session.updateRackAndDc host row).Filed := by
  by_cases moves : row.Moves (session.heap host)
  · rcases timely moves with added | ⟨mapped, up⟩
    · rw [updateRackAndDc_of_added moves added]
      refine filed.frame rfl fun dc other listed live => ?_
      have different : other ≠ host := by
        rintro rfl
        exact absurd (added.symm.trans live.up) (by simp)
      refine ⟨live.mapped, ?_, ?_⟩
      · rw [setRackAndDc, modifyHost_heap_of_ne different, live.up]
      · rw [setRackAndDc, modifyHost_heap_of_ne different, live.inDc]
    · rw [updateRackAndDc_of_not_added moves (by simp [up])]
      have changes : KeepsOthers host session
          ((session.notify .onRemove host).setRackAndDc host row.rack row.dc) :=
        .of_hosts rfl fun _ different => modifyHost_heap_of_ne different _
      obtain ⟨moved, lacks⟩ := filed.removed mapped .onRemove rfl rfl rfl changes
      refine moved.added lacks .onAdd rfl rfl ⟨mapped, ?_, rfl⟩ (.of_hosts rfl fun _ _ => rfl)
      rw [notify, setRackAndDc, modifyHost_heap_self]
      exact up
  · rw [Session.updateRackAndDc, if_neg moves]
    exact filed

theorem Filed.updateNodeInfo {row : NodeRow}
    (timely : row.Moves (session.heap host) → (session.heap host).state = .added ∨
      session.getHost host.address = some host ∧ (session.heap host).state = .up) :
    (session.updateNodeInfo host row).Filed := by
  obtain ⟨listenAddress, eq⟩ := updateListenAddress_eq session host row
  rw [Session.updateNodeInfo, eq]
  refine Filed.updateRackAndDc ?_ ?_
  · refine filed.frame rfl fun dc other listed live => ?_
    by_cases same : other = host
    · subst same
      refine ⟨live.mapped, ?_, ?_⟩
      · rw [modifyHost_heap_self, live.up]
      · rw [modifyHost_heap_self, live.inDc]
    · refine ⟨live.mapped, ?_, ?_⟩
      · rw [modifyHost_heap_of_ne same, live.up]
      · rw [modifyHost_heap_of_ne same, live.inDc]
  · rw [modifyHost_heap_self]
    exact timely

end Filed

end Session

/-! ## Runs of events and replies -/

/-- What the events say of a node. -/
inductive NodeStatus where
  | added
  | removed
  | up
  | down
  deriving DecidableEq, Repr

/-- A node event, or the reply to one of the awaited refreshes. -/
inductive HostEvent where
  | node (event : ControlConnection.NodeEvent)
  | reply (position : Nat) (rows : List NodeRow)

/-- The control connection, with the last status that was announced for each address. -/
structure Observed where
  control : ControlConnection
  lastStatus : Address → Option NodeStatus

namespace Observed

/-- The status an event announces. -/
def announce (lastStatus : Address → Option NodeStatus) :
    ControlConnection.NodeEvent → Address → Option NodeStatus
  | .newNode address => Function.update lastStatus address (some .added)
  | .removedNode address => Function.update lastStatus address (some .removed)
  | .movedNode _ => lastStatus
  | .up address => Function.update lastStatus address (some .up)
  | .down address => Function.update lastStatus address (some .down)

def step (observed : Observed) : HostEvent → Observed
  | .node event =>
    { control := observed.control.onEvent event
      lastStatus := announce observed.lastStatus event }
  | .reply position rows => { observed with control := observed.control.onReply position rows }

/-- The host is as the refresh expects it when the row arrives: a new node is the host of its
address and neither up nor down yet; another host that moves was just added, or is the host of its
address and up. -/
def Expected (session : Session) (refresh : RefreshNode) (row : NodeRow) : Prop :=
  if refresh.isNewNode then
    session.getHost refresh.host.address = some refresh.host ∧
      (session.heap refresh.host).state = .added
  else
    row.Moves (session.heap refresh.host) → (session.heap refresh.host).state = .added ∨
      session.getHost refresh.host.address = some refresh.host ∧
        (session.heap refresh.host).state = .up

instance (session : Session) (refresh : RefreshNode) (row : NodeRow) :
    Decidable (Expected session refresh row) :=
  inferInstanceAs (Decidable (ite _ _ _))

/-- The refresh that a reply belongs to, with the row it finds. -/
def answered (control : ControlConnection) (position : Nat) (rows : List NodeRow) :
    Option (RefreshNode × NodeRow) := do
  let refresh ← control.refreshes[position]?
  let address ← control.connection
  let row ← ControlConnection.rowOf address refresh rows
  return (refresh, row)

/-- Replies arrive while their hosts are as expected. -/
def Timely (observed : Observed) : HostEvent → Prop
  | .node _ => True
  | .reply position rows =>
    ∀ answer ∈ answered observed.control position rows,
      Expected observed.control.session answer.1 answer.2

instance (observed : Observed) (event : HostEvent) : Decidable (observed.Timely event) :=
  match event with
  | .node _ => inferInstanceAs (Decidable True)
  | .reply position rows =>
    inferInstanceAs (Decidable (∀ answer ∈ answered observed.control position rows,
      Expected observed.control.session answer.1 answer.2))

end Observed

namespace Session

/-- The live lists are in order, and the host map agrees with what was announced. -/
structure Agrees (lastStatus : Address → Option NodeStatus) (session : Session) : Prop where
  filed : session.Filed
  isDown : ∀ address host, lastStatus address = some .down → session.getHost address = some host →
    (session.heap host).state = .down
  isRemoved : ∀ address, lastStatus address = some .removed → session.getHost address = none

variable {session after : Session} {host : HostPtr} {lastStatus : Address → Option NodeStatus}

/-- A host at another address is another host. -/
theorem KeepsOthers.heap_of_getHost (keeps : KeepsOthers host session after) {address : Address}
    {other : HostPtr} (mapped : session.getHost address = some other)
    (elsewhere : address ≠ host.address) : after.heap other = session.heap other := by
  refine keeps.heap other fun same => elsewhere ?_
  rw [← same]
  exact (HostMap.address_of_find mapped).symm

/-- A step that changes one host, whose status is announced. -/
theorem Agrees.announced (agrees : session.Agrees lastStatus) (host : HostPtr)
    (keeps : KeepsOthers host session after) (filed : after.Filed) {status : NodeStatus}
    (isDown : status = .down → ∀ other, after.getHost host.address = some other →
      (after.heap other).state = .down)
    (isRemoved : status = .removed → after.getHost host.address = none) :
    after.Agrees (Function.update lastStatus host.address (some status)) := by
  refine ⟨filed, fun address other announced mapped => ?_, fun address announced => ?_⟩
  · by_cases here : address = host.address
    · subst here
      rw [update_self] at announced
      exact isDown (Option.some.inj announced) other mapped
    · rw [update_of_ne here] at announced
      rw [keeps.hosts address here] at mapped
      rw [keeps.heap_of_getHost mapped here]
      exact agrees.isDown address other announced mapped
  · by_cases here : address = host.address
    · subst here
      rw [update_self] at announced
      exact isRemoved (Option.some.inj announced)
    · rw [update_of_ne here] at announced
      rw [keeps.hosts address here]
      exact agrees.isRemoved address announced

/-- A step without an announcement, in which the host does not stop to be down. -/
theorem Agrees.kept (agrees : session.Agrees lastStatus) (keeps : KeepsOthers host session after)
    (filed : after.Filed) (hosts : after.hosts = session.hosts)
    (stays : session.getHost host.address = some host → (session.heap host).state = .down →
      (after.heap host).state = .down) : after.Agrees lastStatus := by
  have mapped_eq (address : Address) : after.getHost address = session.getHost address := by
    rw [getHost, hosts, getHost]
  refine ⟨filed, fun address other announced mapped => ?_, fun address announced => ?_⟩
  · rw [mapped_eq] at mapped
    have down := agrees.isDown address other announced mapped
    by_cases same : other = host
    · subst same
      rw [← HostMap.address_of_find mapped] at mapped
      exact stays mapped down
    · rwa [keeps.heap other same]
  · rw [mapped_eq]
    exact agrees.isRemoved address announced

end Session

namespace ControlConnection

variable {control : ControlConnection} {lastStatus : Address → Option NodeStatus}

theorem refreshNodeInfo_session (host : HostPtr) (isNewNode : Bool) :
    (control.refreshNodeInfo host isNewNode).session = control.session := by
  unfold refreshNodeInfo
  split <;> rfl

theorem refreshNodeInfo_state (host : HostPtr) (isNewNode : Bool) :
    (control.refreshNodeInfo host isNewNode).state = control.state := by
  unfold refreshNodeInfo
  split <;> rfl

theorem onEvent_state (event : NodeEvent) : (control.onEvent event).state = control.state := by
  unfold onEvent
  split
  · cases event with
    | newNode address =>
      dsimp only
      split
      · rfl
      · exact refreshNodeInfo_state ..
    | removedNode address =>
      dsimp only
      split <;> rfl
    | movedNode address =>
      dsimp only
      split
      · exact refreshNodeInfo_state ..
      · rfl
    | up address =>
      dsimp only [onUp]
      split
      · split
        · rfl
        · exact refreshNodeInfo_state ..
      · exact refreshNodeInfo_state ..
    | down address =>
      dsimp only [onDown]
      split
      · split <;> rfl
      · rfl
  · rfl

section Agrees

variable (agrees : control.session.Agrees lastStatus)
include agrees

theorem agrees_addNode {address : Address}
    (unknown : control.session.getHost address = none) {status : NodeStatus}
    (notDown : status ≠ .down) (notRemoved : status ≠ .removed) :
    (control.addNode address).session.Agrees
      (Function.update lastStatus address (some status)) := by
  rw [addNode, refreshNodeInfo_session]
  exact agrees.announced _ (Session.keepsOthers_addHost address) (agrees.filed.addHost unknown)
    (fun isDown => absurd isDown notDown) (fun isRemoved => absurd isRemoved notRemoved)

theorem agrees_onUp (address : Address) :
    (control.onUp address).session.Agrees (Function.update lastStatus address (some .up)) := by
  rw [onUp]
  split
  next host mapped =>
    obtain rfl := HostMap.address_of_find mapped
    split
    · exact agrees.announced host .refl agrees.filed nofun nofun
    next notUp =>
      rw [refreshNodeInfo_session]
      have lacks : control.session.Lacks host.address := by
        refine agrees.filed.lacks_of_not_up fun other otherMapped up => notUp ?_
        cases mapped.symm.trans otherMapped
        simp [Host.isUp, up]
      exact agrees.announced host Session.keepsOthers_onUp (agrees.filed.onUp mapped lacks) nofun nofun
  next unknown => exact agrees_addNode agrees unknown nofun nofun

theorem agrees_onDown (address : Address) : (control.onDown address).session.Agrees
      (Function.update lastStatus address (some .down)) := by
  rw [onDown]
  split
  next host mapped =>
    obtain rfl := HostMap.address_of_find mapped
    split
    next down =>
      refine agrees.announced host .refl agrees.filed (fun _ other otherMapped => ?_) nofun
      cases mapped.symm.trans otherMapped
      simpa [Host.isDown] using down
    · refine agrees.announced host Session.keepsOthers_onDown (agrees.filed.onDown mapped)
        (fun _ other otherMapped => ?_) nofun
      cases mapped.symm.trans otherMapped
      rw [Session.onDown_heap, Session.setState, Session.modifyHost_heap_self]
  next unknown =>
    refine agrees.announced ⟨address, 0⟩ .refl agrees.filed
      (fun _ other otherMapped => ?_) nofun
    exact absurd (otherMapped.symm.trans unknown) nofun

theorem agrees_onEvent (ready : control.state = .ready) (event : NodeEvent) :
    (control.onEvent event).session.Agrees (Observed.announce lastStatus event) := by
  unfold onEvent
  rw [if_pos ready]
  cases event with
  | newNode address =>
    dsimp only
    split
    next host mapped =>
      obtain rfl := HostMap.address_of_find mapped
      exact agrees.announced host .refl agrees.filed nofun nofun
    next unknown => exact agrees_addNode agrees unknown nofun nofun
  | removedNode address =>
    dsimp only
    split
    next host mapped =>
      obtain rfl := HostMap.address_of_find mapped
      refine agrees.announced host Session.keepsOthers_onRemove (agrees.filed.onRemove mapped)
        nofun fun _ => ?_
      exact (HostMap.find_erase ..).trans (if_pos rfl)
    next unknown =>
      exact agrees.announced ⟨address, 0⟩ .refl agrees.filed nofun fun _ => unknown
  | movedNode address =>
    dsimp only
    split
    · rw [refreshNodeInfo_session]
      exact agrees
    · exact agrees
  | up address => exact agrees_onUp agrees address
  | down address => exact agrees_onDown agrees address

/-- A row that is found while the host is as expected. -/
theorem agrees_foundNodeInfo {refresh : RefreshNode}
    {row : NodeRow} (expected : Observed.Expected control.session refresh row) :
    (control.foundNodeInfo refresh row).session.Agrees lastStatus := by
  rw [Observed.Expected] at expected
  rw [foundNodeInfo]
  dsimp only
  split at expected
  next isNew =>
    obtain ⟨mapped, added⟩ := expected
    have updated : (control.session.updateNodeInfo refresh.host row).Filed :=
      agrees.filed.updateNodeInfo fun _ => .inl added
    have stillMapped : (control.session.updateNodeInfo refresh.host row).getHost
        refresh.host.address = some refresh.host := by
      rw [Session.getHost, Session.updateNodeInfo_hosts]
      exact mapped
    have lacks : (control.session.updateNodeInfo refresh.host row).Lacks refresh.host.address := by
      refine updated.lacks_of_not_up fun other otherMapped => ?_
      cases stillMapped.symm.trans otherMapped
      rw [(Session.updateNodeInfo_status refresh.host).1, added]
      simp
    rw [if_pos isNew]
    refine agrees.kept (Session.keepsOthers_updateNodeInfo.trans (Session.keepsOthers_onAdd false))
      (updated.onAdd stillMapped lacks) ?_ fun _ down => absurd (added.symm.trans down) (by simp)
    rw [Session.onAdd_hosts, Session.updateNodeInfo_hosts]
  next known =>
    rw [if_neg known]
    refine agrees.kept Session.keepsOthers_updateNodeInfo
      (agrees.filed.updateNodeInfo expected) Session.updateNodeInfo_hosts fun _ down => ?_
    rw [(Session.updateNodeInfo_status refresh.host).1, down]

end Agrees

end ControlConnection

namespace Observed

/-- What events and timely replies keep. -/
structure Sound (observed : Observed) : Prop where
  ready : observed.control.state = .ready
  agrees : observed.control.session.Agrees observed.lastStatus

theorem Sound.step {observed : Observed} {event : HostEvent} (sound : observed.Sound)
    (timely : observed.Timely event) : (observed.step event).Sound := by
  cases event with
  | node event =>
    refine ⟨?_, ControlConnection.agrees_onEvent sound.agrees sound.ready event⟩
    exact (ControlConnection.onEvent_state event).trans sound.ready
  | reply position rows =>
    unfold Observed.step ControlConnection.onReply
    dsimp only
    split
    · exact sound
    next refresh awaited =>
      unfold ControlConnection.onRefreshNodeInfo
      dsimp only
      split
      · exact ⟨sound.ready, sound.agrees⟩
      next address connected =>
        split
        · exact ⟨sound.ready, sound.agrees⟩
        next row found =>
          refine ⟨sound.ready, ?_⟩
          have expected := timely (refresh, row) (by simp [answered, awaited, connected, found])
          exact ControlConnection.agrees_foundNodeInfo sound.agrees expected

end Observed

/-! ## The start -/

namespace Session

/-- The initial additions set the hosts up, and tell the policies nothing. -/
theorem foldl_onAdd_initial (hosts : List HostPtr) (session : Session) :
    (hosts.foldl (fun session host => session.onAdd host true) session).hosts = session.hosts ∧
      (hosts.foldl (fun session host => session.onAdd host true) session).loadBalancingPolicy =
        session.loadBalancingPolicy ∧
      ∀ host, ((hosts.foldl (fun session host => session.onAdd host true) session).heap host).dc =
          (session.heap host).dc ∧
        (host ∈ hosts ∨ (session.heap host).state = .up →
          ((hosts.foldl (fun session host => session.onAdd host true) session).heap host).state =
            .up) := by
  induction hosts generalizing session with
  | nil => exact ⟨rfl, rfl, fun host => ⟨rfl, fun or => or.resolve_left nofun⟩⟩
  | cons first hosts ih =>
    obtain ⟨hostsKept, policyKept, each⟩ := ih (session.onAdd first true)
    have policy : (session.onAdd first true).loadBalancingPolicy =
        session.loadBalancingPolicy := by
      rw [onAdd]
      dsimp only
      split <;> rfl
    refine ⟨hostsKept.trans (onAdd_hosts true), policyKept.trans policy, fun host => ?_⟩
    obtain ⟨dcKept, isUp⟩ := each host
    rw [onAdd_heap] at dcKept isUp
    by_cases same : host = first
    · subst same
      refine ⟨dcKept.trans ?_, fun _ => isUp (.inr ?_)⟩
      · rw [setState, modifyHost_heap_self]
      · rw [setState, modifyHost_heap_self]
    · rw [setState, modifyHost_heap_of_ne same] at dcKept isUp
      refine ⟨dcKept, fun or => isUp ?_⟩
      rwa [List.mem_cons, or_iff_right same] at or

variable {session : Session} {localDc : String} {used : Nat} {skips : Bool}

/-- A session that has just become ready, if the local datacenter is configured or that of the
connected host is known. -/
theorem filed_onControlConnectionReady {connectedHost : Option HostPtr}
    (isPolicy : session.loadBalancingPolicy = .dcAware (.new localDc used skips))
    (known : localDc ≠ "" ∨ ∃ host, connectedHost = some host ∧ (session.heap host).dc ≠ "")
    (random : Option (Nat → UInt64)) :
    (session.onControlConnectionReady connectedHost random).Filed := by
  have files := DCAwarePolicy.files_init known used skips session.hosts.toList_distinct
    (random.map fun next => next 0)
  have isDcAware : session.loadBalancingPolicy.init session.heap connectedHost
      session.hosts.toList random = .dcAware ((DCAwarePolicy.new localDc used skips).init
        session.heap connectedHost session.hosts.toList (random.map fun next => next 0)) := by
    rw [isPolicy, Policy.init]
  rw [onControlConnectionReady, isDcAware]
  generalize (DCAwarePolicy.new localDc used skips).init _ _ _ _ = policy at files
  obtain ⟨hosts, policyKept, each⟩ := foldl_onAdd_initial session.hosts.toList
    { session with loadBalancingPolicy := .dcAware policy }
  refine ⟨policy, policyKept, files.imp fun dc host _ ⟨member, inDc⟩ => ⟨?_, ?_, ?_⟩⟩
  · rw [getHost, hosts]
    exact HostMap.mem_toList.mp member
  · exact (each host).2 (.inl member)
  · exact (each host).1.trans inDc.symm

end Session

namespace Observed

/-- The control connection when it has become ready, before any event. -/
def start (control : ControlConnection) (random : Option (Nat → UInt64)) : Observed where
  control := control.becomeReady random
  lastStatus := fun _ => none

/-- With the datacenter-aware policy, events and timely replies keep each address in at most one
place of the live lists, and a host that was last down or removed in none. -/
theorem liveHosts_sound (control : ControlConnection) (localDc : String) (used : Nat)
    (skips : Bool) (random : Option (Nat → UInt64))
    (isPolicy : control.session.loadBalancingPolicy = .dcAware (.new localDc used skips))
    (known : localDc ≠ "" ∨
      ∃ host, control.currentHost = some host ∧ (control.session.heap host).dc ≠ "")
    (events : List HostEvent)
    (timely : Throughout Observed.step Timely (start control random) events) :
    ∃ policy, (events.foldl Observed.step (start control random)).control.session.loadBalancingPolicy =
        .dcAware policy ∧
      Distinct policy.liveHosts ∧
      ∀ address, (events.foldl Observed.step (start control random)).lastStatus address = some .down ∨
          (events.foldl Observed.step (start control random)).lastStatus address = some .removed →
        ∀ host ∈ policy.liveHosts, host.address ≠ address := by
  have sound : (events.foldl Observed.step (start control random)).Sound := by
    refine timely.invariant (fun _ _ sound isTimely => sound.step isTimely) ⟨rfl, ?_, ?_, ?_⟩
    · exact Session.filed_onControlConnectionReady isPolicy known random
    · exact fun _ _ announced => nomatch announced
    · exact fun _ announced => nomatch announced
  obtain ⟨policy, dcAware, files⟩ := sound.agrees.filed
  refine ⟨policy, dcAware, files.liveHosts_distinct ?_, ?_⟩
  · intro host other dc otherDc live otherLive same
    obtain rfl := live.eq_of_address otherLive same
    exact live.inDc.symm.trans otherLive.inDc
  · rintro address lastStatus host listed rfl
    obtain ⟨dc, inDc⟩ := files.mem_liveHosts listed
    have live := files.listed dc host inDc
    rcases lastStatus with down | removed
    · exact absurd (live.up.symm.trans (sound.agrees.isDown _ host down live.mapped)) nofun
    · exact absurd (live.mapped.symm.trans (sound.agrees.isRemoved _ removed)) nofun

/-- A cluster of one host, to which the control connection is made. -/
def firstNode : HostPtr := ⟨⟨"10.0.0.1", 9042⟩, 0⟩

/-- The host object of a node that is announced later. -/
def secondNode : HostPtr := ⟨⟨"10.0.0.2", 9042⟩, 1⟩

def oneNode : ControlConnection where
  session :=
    { Session.new (.dcAware (.new "" 0 false)) 1 with
      heap := fun _ => { Host.new false with rack := "r1", dc := "dc1" }
      allocated := 1
      hosts := HostMap.empty.insert firstNode }
  state := .new
  currentHost := some firstNode
  connection := some firstNode.address
  useSchema := false
  tokenAwareRouting := false
  refreshes := []

def secondRow : NodeRow where
  peer := .address "10.0.0.2"
  rpcAddress := .address "10.0.0.2"
  rack := "r1"
  dc := "dc1"

/-- The reply comes before the node is announced to be up, and the node goes down later. -/
def timelyEvents : List HostEvent :=
  [.node (.newNode secondNode.address), .reply 0 [secondRow], .node (.up secondNode.address),
    .node (.down secondNode.address)]

theorem liveHosts_sound_timelyEvents :
    ∃ policy, (timelyEvents.foldl Observed.step
        (start oneNode none)).control.session.loadBalancingPolicy = .dcAware policy ∧
      Distinct policy.liveHosts ∧
      ∀ address, (timelyEvents.foldl Observed.step (start oneNode none)).lastStatus address =
            some .down ∨
          (timelyEvents.foldl Observed.step (start oneNode none)).lastStatus address =
            some .removed →
        ∀ host ∈ policy.liveHosts, host.address ≠ address :=
  liveHosts_sound oneNode "" 0 false none rfl (.inr ⟨firstNode, rfl, by decide⟩) timelyEvents
    ⟨trivial, by decide, trivial, trivial, trivial⟩

/-- The node goes up before the reply that was asked for when it was new. -/
theorem newNode_listed_twice :
    ∃ policy, ([.node (.newNode secondNode.address), .node (.up secondNode.address),
        .reply 0 [secondRow]].foldl Observed.step
          (start oneNode none)).control.session.loadBalancingPolicy = .dcAware policy ∧
      policy.liveHosts = [firstNode, secondNode, secondNode] ∧ ¬ Distinct policy.liveHosts := by
  refine ⟨_, rfl, by decide, ?_⟩
  unfold Distinct
  decide

end Observed

end DseDriver.Control
