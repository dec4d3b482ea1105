import DseDriver.Control.LiveHosts

/-!
# Rounds that load the hosts

`ControlConnection::on_query_hosts` marks the hosts it finds with the current mark, purges the
others and flips the mark.  Between rounds no host of the map has the current mark, so that a
completed round leaves exactly the connected host and the valid peers.  A round that finds no row
in `system.local` breaks this: it has marked the connected host already when it gives up.
-/

namespace DseDriver.Control

open LoadBalancing Lib List

/-! ## Marks -/

namespace Session

/-- No host of the map has the current mark. -/
def Unmarked (session : Session) : Prop :=
  ∀ address host, session.getHost address = some host →
    (session.heap host).mark ≠ session.currentHostMark

/-- Marks stay, and no host comes into the map. -/
structure KeepsMarks (before after : Session) : Prop where
  current : after.currentHostMark = before.currentHostMark
  mark : ∀ host, (after.heap host).mark = (before.heap host).mark
  hosts : ∀ address host, after.getHost address = some host → before.getHost address = some host

variable {session after : Session} {host : HostPtr}

theorem KeepsMarks.unmarked (keeps : KeepsMarks session after) (unmarked : session.Unmarked) :
    after.Unmarked := by
  intro address host mapped
  rw [keeps.mark, keeps.current]
  exact unmarked address host (keeps.hosts address host mapped)

theorem KeepsMarks.refl : KeepsMarks session session :=
  ⟨rfl, fun _ => rfl, fun _ _ => id⟩

theorem KeepsMarks.trans {before middle after : Session} (first : KeepsMarks before middle)
    (second : KeepsMarks middle after) : KeepsMarks before after :=
  ⟨second.current.trans first.current, fun host => (second.mark host).trans (first.mark host),
    fun address host mapped => first.hosts address host (second.hosts address host mapped)⟩

theorem KeepsMarks.of_hosts (hosts : after.hosts = session.hosts)
    (current : after.currentHostMark = session.currentHostMark)
    (mark : ∀ host, (after.heap host).mark = (session.heap host).mark) :
    KeepsMarks session after :=
  ⟨current, mark, fun address host mapped => by rwa [getHost, hosts] at mapped⟩

theorem setState_mark (state : HostState) (other : HostPtr) :
    ((session.setState host state).heap other).mark = (session.heap other).mark := by
  by_cases same : other = host
  · rw [same, setState, modifyHost_heap_self]
  · rw [setState, modifyHost_heap_of_ne same]

theorem onAdd_currentHostMark (isInitialConnection : Bool) :
    (session.onAdd host isInitialConnection).currentHostMark = session.currentHostMark := by
  rw [onAdd]
  dsimp only
  split
  · rfl
  · cases isInitialConnection <;> rfl

theorem keepsMarks_onAdd (isInitialConnection : Bool) :
    KeepsMarks session (session.onAdd host isInitialConnection) := by
  refine .of_hosts (onAdd_hosts _) (onAdd_currentHostMark _) fun other => ?_
  rw [onAdd_heap]
  exact setState_mark .up other

theorem keepsMarks_onUp : KeepsMarks session (session.onUp host) := by
  refine .of_hosts onUp_hosts ?_ fun other => ?_
  · rw [onUp]
    split <;> rfl
  · rw [onUp_heap]
    exact setState_mark .up other

theorem keepsMarks_onDown : KeepsMarks session (session.onDown host) :=
  .of_hosts rfl rfl fun other => setState_mark .down other

theorem keepsMarks_onRemove : KeepsMarks session (session.onRemove host) := by
  refine ⟨rfl, fun _ => rfl, fun address other mapped => ?_⟩
  have erased : (session.onRemove host).getHost address =
      if address = host.address then none else session.getHost address :=
    HostMap.find_erase ..
  rw [erased] at mapped
  split at mapped
  · cases mapped
  · exact mapped

theorem updateRackAndDc_currentHostMark {row : NodeRow} :
    (session.updateRackAndDc host row).currentHostMark = session.currentHostMark := by
  unfold updateRackAndDc
  dsimp only
  split
  · split <;> split <;> rfl
  · rfl

theorem keepsMarks_updateNodeInfo {row : NodeRow} :
    KeepsMarks session (session.updateNodeInfo host row) := by
  refine .of_hosts updateNodeInfo_hosts ?_ fun other => (updateNodeInfo_status other).2
  obtain ⟨listenAddress, eq⟩ := updateListenAddress_eq session host row
  rw [updateNodeInfo, updateRackAndDc_currentHostMark, eq]
  rfl

theorem keepsMarks_onControlConnectionReady (connectedHost : Option HostPtr)
    (random : Option (Nat → UInt64)) :
    KeepsMarks session (session.onControlConnectionReady connectedHost random) := by
  have each (hosts : List HostPtr) (start : Session) :
      KeepsMarks start (hosts.foldl (fun session host => session.onAdd host true) start) := by
    induction hosts generalizing start with
    | nil => exact .refl
    | cons first hosts ih => exact (keepsMarks_onAdd true).trans (ih (start.onAdd first true))
  have started : KeepsMarks session
      { session with
        loadBalancingPolicy :=
          session.loadBalancingPolicy.init session.heap connectedHost session.hosts.toList random } :=
    .of_hosts rfl rfl fun _ => rfl
  exact started.trans (each session.hosts.toList _)

theorem addHost_getHost (address other : Address) :
    (session.addHost address).2.getHost other =
      if other = address then some (session.addHost address).1 else session.getHost other :=
  HostMap.find_insert ..

theorem Unmarked.addHost (unmarked : session.Unmarked) (address : Address) :
    (session.addHost address).2.Unmarked := by
  intro other host mapped
  have fields : (session.addHost address).2.heap host =
      if host = (session.addHost address).1 then .new (!session.currentHostMark)
      else session.heap host :=
    Function.update_apply ..
  rw [fields]
  split
  · exact Bool.not_ne_self _
  next different =>
    rw [addHost_getHost] at mapped
    split at mapped
    · exact absurd (Option.some.inj mapped).symm different
    · exact unmarked other host mapped

/-! ## A round -/

/-- Exactly the hosts at some addresses have the current mark, and these are in the map. -/
structure Marked (addresses : Address → Prop) (session : Session) : Prop where
  mark : ∀ address host, session.getHost address = some host →
    ((session.heap host).mark = session.currentHostMark ↔ addresses address)
  present : ∀ address, addresses address → (session.getHost address).isSome

theorem Unmarked.marked (unmarked : session.Unmarked) : session.Marked fun _ => False :=
  ⟨fun address host mapped => iff_of_false (unmarked address host mapped) id, fun _ => False.elim⟩

theorem Marked.congr {addresses others : Address → Prop} (marked : session.Marked addresses)
    (same : ∀ address, addresses address ↔ others address) : session.Marked others := by
  rwa [show others = addresses from funext fun address => propext (same address).symm]

variable {addresses : Address → Prop}

/-- Marks and the map are as before. -/
theorem Marked.of_hosts (marked : session.Marked addresses) (hosts : after.hosts = session.hosts)
    (keeps : KeepsMarks session after) :
    after.Marked addresses := by
  constructor
  · intro address host mapped
    rw [keeps.mark, keeps.current]
    exact marked.mark address host (keeps.hosts address host mapped)
  · intro address member
    rw [getHost, hosts]
    exact marked.present address member

/-- The host of an address is marked. -/
theorem Marked.setMark (marked : session.Marked addresses)
    (mapped : session.getHost host.address = some host) :
    (session.setMark host session.currentHostMark).Marked fun address =>
      address = host.address ∨ addresses address := by
  constructor
  · intro address other otherMapped
    by_cases same : other = host
    · subst same
      rw [Session.setMark, modifyHost_heap_self]
      exact iff_of_true rfl (.inl (HostMap.address_of_find otherMapped).symm)
    · have elsewhere : address ≠ host.address := by
        rintro rfl
        exact same (Option.some.inj (otherMapped.symm.trans mapped))
      rw [Session.setMark, modifyHost_heap_of_ne same]
      exact (marked.mark address other otherMapped).trans (or_iff_right elsewhere).symm
  · rintro address (rfl | member)
    · exact Option.isSome_iff_exists.mpr ⟨host, mapped⟩
    · exact marked.present address member

theorem Marked.addHost (marked : session.Marked addresses) {address : Address}
    (unknown : session.getHost address = none) :
    (session.addHost address).2.Marked addresses := by
  have notYet : ¬ addresses address := by
    intro member
    have present := marked.present address member
    rw [unknown] at present
    cases present
  constructor
  · intro other host mapped
    rw [addHost_getHost] at mapped
    split at mapped
    next here =>
      cases mapped
      have fields : (session.addHost address).2.heap (session.addHost address).1 =
          .new (!session.currentHostMark) :=
        Function.update_self ..
      rw [fields, here]
      exact iff_of_false (Bool.not_ne_self _) notYet
    next elsewhere =>
      have different : host ≠ (session.addHost address).1 := by
        rintro rfl
        exact elsewhere (HostMap.address_of_find mapped).symm
      rw [(keepsOthers_addHost address).heap host different]
      exact marked.mark other host mapped
  · intro other member
    have elsewhere : other ≠ address := by
      rintro rfl
      exact notYet member
    rw [addHost_getHost, if_neg elsewhere]
    exact marked.present other member

/-- Purging goes through the hosts one by one, and erases those without the current mark. -/
theorem foldl_purgeHost (isInitialConnection : Bool) (hosts : List HostPtr) (session : Session) :
    (hosts.foldl (purgeHost isInitialConnection) session).heap = session.heap ∧
      (hosts.foldl (purgeHost isInitialConnection) session).currentHostMark =
        session.currentHostMark ∧
      ∀ address host,
        (hosts.foldl (purgeHost isInitialConnection) session).getHost address = some host ↔
          session.getHost address = some host ∧ ∀ other ∈ hosts, other.address = address →
            (session.heap other).mark = session.currentHostMark := by
  induction hosts generalizing session with
  | nil => simp
  | cons first hosts ih =>
    obtain ⟨heap, current, mapped⟩ := ih (purgeHost isInitialConnection session first)
    rw [foldl_cons]
    by_cases marked : (session.heap first).mark = session.currentHostMark
    · have kept : purgeHost isInitialConnection session first = session := if_pos marked
      rw [kept] at heap current mapped ⊢
      refine ⟨heap, current, fun address host => (mapped address host).trans ?_⟩
      rw [forall_mem_cons]
      simp only [marked, implies_true, true_and]
    · have erased : (purgeHost isInitialConnection session first).heap = session.heap ∧
          (purgeHost isInitialConnection session first).currentHostMark =
            session.currentHostMark ∧
          (purgeHost isInitialConnection session first).hosts =
            session.hosts.erase first.address := by
        rw [purgeHost, if_neg marked]
        split <;> exact ⟨rfl, rfl, rfl⟩
      obtain ⟨sameHeap, sameCurrent, sameHosts⟩ := erased
      rw [sameHeap, sameCurrent] at mapped
      refine ⟨heap.trans sameHeap, current.trans sameCurrent, fun address host => ?_⟩
      rw [mapped, getHost, sameHosts, HostMap.find_erase, forall_mem_cons]
      by_cases here : address = first.address
      · simp [here, marked]
      · simp [here, Ne.symm here, getHost]

/-- A purge leaves the marked hosts, and flips the mark. -/
theorem Marked.purgeHosts (marked : session.Marked addresses) (isInitialConnection : Bool) :
    (session.purgeHosts isInitialConnection).Unmarked ∧
      ∀ address, ((session.purgeHosts isInitialConnection).getHost address).isSome ↔
        addresses address := by
  obtain ⟨heap, current, mapped⟩ :=
    foldl_purgeHost isInitialConnection session.hosts.toList session
  have left (address : Address) (host : HostPtr) :
      (session.purgeHosts isInitialConnection).getHost address = some host ↔
        session.getHost address = some host ∧ addresses address := by
    refine (mapped address host).trans (and_congr_right fun isMapped => ?_)
    rw [← marked.mark address host isMapped]
    constructor
    · intro each
      refine each host (HostMap.mem_toList.mpr ?_) (HostMap.address_of_find isMapped)
      rw [HostMap.address_of_find isMapped]
      exact isMapped
    · intro isMarked other member here
      have otherMapped := HostMap.mem_toList.mp member
      rw [here] at otherMapped
      cases isMapped.symm.trans otherMapped
      exact isMarked
  constructor
  · intro address host isLeft
    obtain ⟨isMapped, member⟩ := (left address host).mp isLeft
    have isMarked := (marked.mark address host isMapped).mpr member
    rw [Session.purgeHosts]
    dsimp only
    rw [heap, current, isMarked]
    exact (Bool.not_ne_self _).symm
  · intro address
    rw [Option.isSome_iff_exists]
    constructor
    · rintro ⟨host, isLeft⟩
      exact ((left address host).mp isLeft).2
    · intro member
      obtain ⟨host, isMapped⟩ := Option.isSome_iff_exists.mp (marked.present address member)
      exact ⟨host, (left address host).mpr ⟨isMapped, member⟩⟩

end Session

namespace ControlConnection

variable {session : Session} {connectedAddress : Address} {isInitialConnection : Bool}

variable {addresses : Address → Prop}

theorem marked_getOrAddHost (marked : session.Marked addresses) {address : Address}
    {host : HostPtr} {after : Session} {isNew : Bool}
    (found : getOrAddHost session address = (host, after, isNew)) :
    host.address = address ∧ after.getHost address = some host ∧ after.Marked addresses := by
  unfold getOrAddHost at found
  split at found
  next known mapped =>
    cases found
    exact ⟨HostMap.address_of_find mapped, mapped, marked⟩
  next unknown =>
    cases found
    refine ⟨rfl, ?_, marked.addHost unknown⟩
    exact (Session.addHost_getHost address address).trans (if_pos rfl)

/-- A row of a valid peer marks its host. -/
theorem marked_updatePeer (marked : session.Marked addresses) (row : NodeRow) :
    (updatePeer connectedAddress isInitialConnection session row).Marked fun address =>
      determineAddressForPeerHost connectedAddress row = some address ∨ addresses address := by
  unfold updatePeer
  cases peer : determineAddressForPeerHost connectedAddress row with
  | none => exact marked.congr fun address => by simp
  | some address =>
    rcases found : getOrAddHost session address with ⟨host, after, isNew⟩
    obtain ⟨rfl, mapped, stillMarked⟩ := marked_getOrAddHost marked found
    have updated : ((after.setMark host after.currentHostMark).updateNodeInfo host row).Marked
        fun address => some host.address = some address ∨ addresses address := by
      refine ((stillMarked.setMark mapped).of_hosts Session.updateNodeInfo_hosts
        Session.keepsMarks_updateNodeInfo).congr fun address => ?_
      rw [Option.some.injEq, eq_comm]
    simp only [found]
    split
    · exact updated.of_hosts (Session.onAdd_hosts false) (Session.keepsMarks_onAdd false)
    · exact updated

theorem marked_foldl_updatePeer (rows : List NodeRow) {session : Session}
    (marked : session.Marked addresses) :
    (rows.foldl (updatePeer connectedAddress isInitialConnection) session).Marked fun address =>
      address ∈ rows.filterMap (determineAddressForPeerHost connectedAddress) ∨
        addresses address := by
  induction rows generalizing session addresses with
  | nil => exact marked.congr fun address => by simp
  | cons row rows ih =>
    refine (ih (marked_updatePeer marked row)).congr fun address => ?_
    simp only [mem_filterMap, exists_mem_cons_iff]
    rw [← or_assoc, or_comm (a := ∃ _, _)]

/-! ## Runs -/

/-- What happens to a control connection. -/
inductive ControlEvent where
  | host (event : HostEvent)
  | connected (host : HostPtr)
  | closed
  | queryHosts (responses : HostResponses) (random : Option (Nat → UInt64))
  | schemaLoaded (random : Option (Nat → UInt64))

/-- One event.  A query error makes the connection close, and a new one is made. -/
def step (control : ControlConnection) : ControlEvent → ControlConnection
  | .host (.node event) => control.onEvent event
  | .host (.reply position rows) => control.onReply position rows
  | .connected host => { control with currentHost := some host, connection := some host.address }
  | .closed => { control with connection := none }
  | .queryHosts responses random => (control.onQueryHosts responses random).2
  | .schemaLoaded random => if control.state = .new then control.becomeReady random else control

/-- A round that finds its connected host in the map also finds a row in `system.local`. -/
def HasLocalRow (control : ControlConnection) : ControlEvent → Prop
  | .queryHosts responses _ =>
    (control.connection.bind control.session.getHost).isSome → responses.localRows ≠ []
  | _ => True

/-- The addresses that a round finds. -/
def listedBy (control : ControlConnection) (responses : HostResponses) (address : Address) : Prop :=
  ∃ connectedAddress, control.connection = some connectedAddress ∧
    (address = connectedAddress ∨
      address ∈ responses.peerRows.filterMap (determineAddressForPeerHost connectedAddress))

variable {control : ControlConnection}

/-- The hosts after an update that found a row for the connected host. -/
theorem updateHosts_marked {session : Session} (unmarked : session.Unmarked) {host : HostPtr}
    (mapped : session.getHost host.address = some host) (isInitialConnection : Bool)
    (row : NodeRow) (peerRows : List NodeRow) :
    (updateHosts (session.setMark host session.currentHostMark) isInitialConnection host row
        peerRows).Unmarked ∧
      ∀ address, ((updateHosts (session.setMark host session.currentHostMark) isInitialConnection
          host row peerRows).getHost address).isSome ↔
        address = host.address ∨
          address ∈ peerRows.filterMap (determineAddressForPeerHost host.address) := by
  have connected : ((session.setMark host session.currentHostMark).updateNodeInfo host row).Marked
      fun address => address = host.address := by
    refine ((unmarked.marked.setMark mapped).of_hosts Session.updateNodeInfo_hosts
      Session.keepsMarks_updateNodeInfo).congr fun address => ?_
    rw [or_false]
  exact ((marked_foldl_updatePeer peerRows connected).congr fun address => or_comm).purgeHosts
    isInitialConnection

theorem onControlConnectionReady_hosts (session : Session) (connectedHost : Option HostPtr)
    (random : Option (Nat → UInt64)) :
    (session.onControlConnectionReady connectedHost random).hosts = session.hosts :=
  (Session.foldl_onAdd_initial session.hosts.toList _).1

variable {responses : HostResponses} {random : Option (Nat → UInt64)} {host : HostPtr}

theorem onQueryHosts_of_unknown (unknown : control.connection.bind control.session.getHost = none) :
    control.onQueryHosts responses random = (.aborted, control) := by
  unfold onQueryHosts
  split
  · rfl
  next address connection =>
    rw [connection, Option.bind_some] at unknown
    rw [unknown]

/-- Without a row for the connected host, its mark is all that changes. -/
theorem onQueryHosts_of_no_row (connection : control.connection = some host.address)
    (mapped : control.session.getHost host.address = some host)
    (rows : responses.localRows = []) :
    control.onQueryHosts responses random =
      (.aborted,
        { control with
          session := control.session.setMark host control.session.currentHostMark }) := by
  simp only [onQueryHosts, connection, mapped, rows]

theorem onQueryHosts_of_row (random : Option (Nat → UInt64))
    (connection : control.connection = some host.address)
    (mapped : control.session.getHost host.address = some host) {row : NodeRow}
    {others : List NodeRow} (rows : responses.localRows = row :: others) :
    ∃ updated, updated = updateHosts (control.session.setMark host control.session.currentHostMark)
        (control.state = .new) host row responses.peerRows ∧
      ((control.onQueryHosts responses random).2.session = updated ∨
        (control.onQueryHosts responses random).2.session =
          updated.onControlConnectionReady control.currentHost random) := by
  refine ⟨_, rfl, ?_⟩
  simp only [onQueryHosts, connection, mapped, rows]
  split
  · exact .inl rfl
  · split
    · exact .inr rfl
    · exact .inl rfl

section Unmarked

variable (unmarked : control.session.Unmarked)
include unmarked

/-- A round with a row for the connected host leaves the hosts it has found, none of them with
the current mark. -/
theorem onQueryHosts_marked (connection : control.connection = some host.address)
    (mapped : control.session.getHost host.address = some host)
    (rows : responses.localRows ≠ []) :
    (control.onQueryHosts responses random).2.session.Unmarked ∧
      ∀ address, ((control.onQueryHosts responses random).2.session.getHost address).isSome ↔
        address = host.address ∨
          address ∈ responses.peerRows.filterMap (determineAddressForPeerHost host.address) := by
  obtain ⟨row, others, rows⟩ := exists_cons_of_ne_nil rows
  obtain ⟨updated, isUpdated, result⟩ := onQueryHosts_of_row random connection mapped rows
  have found := updateHosts_marked unmarked mapped (control.state = .new) row responses.peerRows
  rw [← isUpdated] at found
  rcases result with same | ready
  · rw [same]
    exact found
  · rw [ready]
    refine ⟨(Session.keepsMarks_onControlConnectionReady _ random).unmarked found.1, ?_⟩
    intro address
    rw [Session.getHost, onControlConnectionReady_hosts]
    exact found.2 address

theorem unmarked_addNode (address : Address) : (control.addNode address).session.Unmarked := by
  rw [addNode, refreshNodeInfo_session]
  exact unmarked.addHost address

theorem unmarked_onEvent (event : NodeEvent) : (control.onEvent event).session.Unmarked := by
  unfold onEvent
  split
  · cases event with
    | newNode address =>
      dsimp only
      split
      · exact unmarked
      · exact unmarked_addNode unmarked address
    | removedNode address =>
      dsimp only
      split
      · exact Session.keepsMarks_onRemove.unmarked unmarked
      · exact unmarked
    | movedNode address =>
      dsimp only
      split
      · rwa [refreshNodeInfo_session]
      · exact unmarked
    | up address =>
      dsimp only [onUp]
      split
      · split
        · exact unmarked
        · rw [refreshNodeInfo_session]
          exact Session.keepsMarks_onUp.unmarked unmarked
      · exact unmarked_addNode unmarked address
    | down address =>
      dsimp only [onDown]
      split
      · split
        · exact unmarked
        · exact Session.keepsMarks_onDown.unmarked unmarked
      · exact unmarked
  · exact unmarked

theorem unmarked_onReply (position : Nat)
    (rows : List NodeRow) : (control.onReply position rows).session.Unmarked := by
  unfold onReply onRefreshNodeInfo
  split
  · exact unmarked
  next refresh _ =>
    dsimp only
    split
    · exact unmarked
    · split
      · exact unmarked
      next row _ =>
        have updated : (control.session.updateNodeInfo refresh.host row).Unmarked :=
          Session.keepsMarks_updateNodeInfo.unmarked unmarked
        dsimp only [foundNodeInfo]
        split
        · exact (Session.keepsMarks_onAdd false).unmarked updated
        · exact updated

/-- Between rounds no host has the current mark, if each round that finds its connected host
also finds a row for it. -/
theorem unmarked_step {event : ControlEvent}
    (hasRow : control.HasLocalRow event) : (control.step event).session.Unmarked := by
  cases event with
  | host event =>
    cases event with
    | node event => exact unmarked_onEvent unmarked event
    | reply position rows => exact unmarked_onReply unmarked position rows
  | connected host => exact unmarked
  | closed => exact unmarked
  | queryHosts responses random =>
    rw [step]
    cases found : control.connection.bind control.session.getHost with
    | none =>
      rw [onQueryHosts_of_unknown found]
      exact unmarked
    | some host =>
      obtain ⟨address, connection, mapped⟩ := Option.bind_eq_some_iff.mp found
      obtain rfl := HostMap.address_of_find mapped
      refine (onQueryHosts_marked unmarked connection mapped (hasRow ?_)).1
      rw [found, Option.isSome_some]
  | schemaLoaded random =>
    rw [step]
    split
    · exact (Session.keepsMarks_onControlConnectionReady _ random).unmarked unmarked
    · exact unmarked

end Unmarked

/-- A control connection before it connects, with the hosts that the session was given. -/
def initial (policy : Policy) (ioWorkers : Nat) (addresses : List Address)
    (useSchema tokenAwareRouting : Bool) : ControlConnection where
  session :=
    addresses.foldl (fun session address => (session.addHost address).2) (.new policy ioWorkers)
  state := .new
  currentHost := none
  connection := none
  useSchema
  tokenAwareRouting
  refreshes := []

theorem unmarked_initial (policy : Policy) (ioWorkers : Nat) (addresses : List Address)
    (useSchema tokenAwareRouting : Bool) :
    (initial policy ioWorkers addresses useSchema tokenAwareRouting).session.Unmarked := by
  have each (session : Session) (unmarked : session.Unmarked) :
      (addresses.foldl (fun session address => (session.addHost address).2) session).Unmarked := by
    induction addresses generalizing session with
    | nil => exact unmarked
    | cons address addresses ih => exact ih _ (unmarked.addHost address)
  exact each _ fun address host mapped => nomatch mapped

/-- After a completed round the host map holds the connected host and the valid peers of this
round, if all rounds before that found their connected host also found a row for it. -/
theorem hosts_after_round (policy : Policy) (ioWorkers : Nat) (addresses : List Address)
    (useSchema tokenAwareRouting : Bool) (events : List ControlEvent)
    (within : Throughout step HasLocalRow
      (initial policy ioWorkers addresses useSchema tokenAwareRouting) events)
    (control : ControlConnection)
    (reached : control =
      events.foldl step (initial policy ioWorkers addresses useSchema tokenAwareRouting))
    (responses : HostResponses) (random : Option (Nat → UInt64))
    (completed : (control.onQueryHosts responses random).1 = .completed) (address : Address) :
    ((control.onQueryHosts responses random).2.session.getHost address).isSome ↔
      control.listedBy responses address := by
  have unmarked : control.session.Unmarked := by
    rw [reached]
    exact @Throughout.invariant _ _ step HasLocalRow (fun control => control.session.Unmarked)
      (fun _ _ unmarked hasRow => unmarked_step unmarked hasRow) _ _
      (unmarked_initial policy ioWorkers addresses useSchema tokenAwareRouting) within
  cases found : control.connection.bind control.session.getHost with
  | none =>
    rw [onQueryHosts_of_unknown found] at completed
    cases completed
  | some host =>
    obtain ⟨connected, connection, mapped⟩ := Option.bind_eq_some_iff.mp found
    obtain rfl := HostMap.address_of_find mapped
    by_cases rows : responses.localRows = []
    · rw [onQueryHosts_of_no_row connection mapped rows] at completed
      cases completed
    · rw [(onQueryHosts_marked unmarked connection mapped rows).2 address, listedBy]
      simp [connection]

/-! ## A round without a local row -/

def contactA : Address := ⟨"10.0.0.1", 9042⟩

def contactB : Address := ⟨"10.0.0.2", 9042⟩

/-- A session with two contact points. -/
def twoContacts : ControlConnection :=
  initial (.roundRobin [] 0) 1 [contactA, contactB] false false

def localRow : NodeRow where
  peer := .missing
  rpcAddress := .missing
  rack := "r1"
  dc := "dc1"

/-- The connection to the first one closes before its round, and one to the second is made. -/
def reconnected : List ControlEvent :=
  [.connected ⟨contactA, 0⟩, .closed, .connected ⟨contactB, 1⟩]

theorem hosts_after_round_reconnected :
    (((reconnected.foldl step twoContacts).onQueryHosts
        ⟨[localRow], []⟩ none).2.session.getHost contactA).isSome ↔
      (reconnected.foldl step twoContacts).listedBy ⟨[localRow], []⟩ contactA :=
  hosts_after_round (.roundRobin [] 0) 1 [contactA, contactB] false false reconnected
    ⟨trivial, trivial, trivial, trivial⟩ _ rfl ⟨[localRow], []⟩ none (by decide) contactA

/-- The first one has no row for itself before the connection closes. -/
def reconnectedWithoutRow : List ControlEvent :=
  [.connected ⟨contactA, 0⟩, .queryHosts ⟨[], []⟩ none, .closed, .connected ⟨contactB, 1⟩]

/-- When the second one completes a round in which it knows no peers, the first stays. -/
theorem unlisted_host_stays :
    ((reconnectedWithoutRow.foldl step twoContacts).onQueryHosts ⟨[localRow], []⟩ none).1 =
        .completed ∧
      (((reconnectedWithoutRow.foldl step twoContacts).onQueryHosts
        ⟨[localRow], []⟩ none).2.session.getHost contactA).isSome ∧
      ¬ (reconnectedWithoutRow.foldl step twoContacts).listedBy ⟨[localRow], []⟩ contactA := by
  refine ⟨by decide, by decide, ?_⟩
  rintro ⟨connectedAddress, connection, same | peer⟩
  · cases connection
    exact absurd same (by decide)
  · cases peer

end ControlConnection

end DseDriver.Control
