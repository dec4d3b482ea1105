import DseDriver.Control.Session

/-!
# The control connection

What `ControlConnection` does to the hosts of its session: node events, the refreshes of a node's
information that they start, whose replies come later and in any order, and the rounds that load
all hosts when a connection is made.  Tokens and schema metadata are kept by other modules.
-/

namespace DseDriver.Control

open LoadBalancing

/-! ## Rows of the system tables -/

/-- A column of type `inet`: not in the result, null, not an address, or an address. -/
inductive InetValue where
  | missing
  | null
  | invalid
  | address (ip : String)
  deriving DecidableEq, Repr

/-- `as_inet`, with the port of the connection. -/
def InetValue.asInet (port : Nat) : InetValue → Option Address
  | .address ip => some { ip, port }
  | _ => none

/-- A row of `system.local` or `system.peers`.  A text that is null or not in the result is
read as empty. -/
structure NodeRow where
  peer : InetValue
  rpcAddress : InetValue
  rack : String
  dc : String
  deriving DecidableEq, Repr

/-- `Address::BIND_ANY_IPV4` and `Address::BIND_ANY_IPV6`, compared without a port. -/
def isBindAny (address : Address) : Bool :=
  address.ip = "0.0.0.0" || address.ip = "::"

/-- `determine_address_for_peer_host`. -/
def determineAddressForPeerHost (connectedAddress : Address) (row : NodeRow) : Option Address := do
  let peerAddress ← row.peer.asInet connectedAddress.port
  let output ← row.rpcAddress.asInet connectedAddress.port
  if connectedAddress = output ∨ connectedAddress = peerAddress then
    none
  else if isBindAny output then
    some peerAddress
  else
    some output

/-! ## Node information -/

/-- `RefreshNodeData`, and which of the two callbacks is going to handle the reply. -/
structure RefreshNode where
  host : HostPtr
  isNewNode : Bool
  all : Bool
  deriving DecidableEq, Repr

/-- `ControlConnection::ControlState`. -/
inductive ControlState where
  | new
  | ready
  deriving DecidableEq, Repr

/-- `ControlConnection`, with the address of its connection if it has one, and the refreshes
whose replies are awaited. -/
structure ControlConnection where
  session : Session
  state : ControlState
  currentHost : Option HostPtr
  connection : Option Address
  useSchema : Bool
  tokenAwareRouting : Bool
  refreshes : List RefreshNode

/-- The row says that the host is in another rack or datacenter. -/
def NodeRow.Moves (row : NodeRow) (host : Host) : Prop :=
  row.rack ≠ "" ∧ row.rack ≠ host.rack ∨ row.dc ≠ "" ∧ row.dc ≠ host.dc

instance (row : NodeRow) (host : Host) : Decidable (row.Moves host) :=
  inferInstanceAs (Decidable (_ ∨ _))

/-- Where `ControlConnection::update_node_info` sets the listen address. -/
def Session.updateListenAddress (session : Session) (host : HostPtr) (row : NodeRow) : Session :=
  match row.peer with
  | .address ip => session.modifyHost host fun fields => { fields with listenAddress := ip }
  | _ => session

/-- Where `ControlConnection::update_node_info` sets the rack and the datacenter. -/
def Session.updateRackAndDc (session : Session) (host : HostPtr) (row : NodeRow) : Session :=
  if row.Moves (session.heap host) then
    let session :=
      if (session.heap host).wasJustAdded then session else session.notify .onRemove host
    let session := session.setRackAndDc host row.rack row.dc
    if (session.heap host).wasJustAdded then session else session.notify .onAdd host
  else
    session

/-- `ControlConnection::update_node_info`. -/
def Session.updateNodeInfo (session : Session) (host : HostPtr) (row : NodeRow) : Session :=
  (session.updateListenAddress host row).updateRackAndDc host row

namespace ControlConnection

variable (control : ControlConnection)

/-- `ControlConnection::refresh_node_info`. -/
def refreshNodeInfo (host : HostPtr) (isNewNode : Bool) : ControlConnection :=
  match control.connection with
  | none => control
  | some address =>
    let single := host.address = address ∨ (control.session.heap host).listenAddress ≠ ""
    { control with
      refreshes := control.refreshes ++ [{ host, isNewNode, all := ¬ single }] }

/-- What both callbacks do when they have found the row of the host. -/
def foundNodeInfo (refresh : RefreshNode) (row : NodeRow) : ControlConnection :=
  let session := control.session.updateNodeInfo refresh.host row
  { control with
    session := if refresh.isNewNode then session.onAdd refresh.host false else session }

/-- The row that `ControlConnection::on_refresh_node_info` or
`ControlConnection::on_refresh_node_info_all` uses. -/
def rowOf (connectedAddress : Address) (refresh : RefreshNode) (rows : List NodeRow) :
    Option NodeRow :=
  if refresh.all then
    rows.find? fun row =>
      determineAddressForPeerHost connectedAddress row = some refresh.host.address
  else
    rows.head?

/-- `ControlConnection::on_refresh_node_info` and `ControlConnection::on_refresh_node_info_all`. -/
def onRefreshNodeInfo (refresh : RefreshNode) (rows : List NodeRow) : ControlConnection :=
  match control.connection with
  | none => control
  | some address =>
    match rowOf address refresh rows with
    | none => control
    | some row => control.foundNodeInfo refresh row

/-- The reply to one of the awaited refreshes. -/
def onReply (position : Nat) (rows : List NodeRow) : ControlConnection :=
  match control.refreshes[position]? with
  | none => control
  | some refresh =>
    { control with refreshes := control.refreshes.eraseIdx position }.onRefreshNodeInfo refresh rows

/-! ## Node events -/

/-- A host that is not known is added, and refreshed as a new one. -/
def addNode (address : Address) : ControlConnection :=
  let (host, session) := control.session.addHost address
  { control with session }.refreshNodeInfo host true

/-- `ControlConnection::on_up`. -/
def onUp (address : Address) : ControlConnection :=
  match control.session.getHost address with
  | some host =>
    if (control.session.heap host).isUp then
      control
    else
      { control with session := control.session.onUp host }.refreshNodeInfo host false
  | none => control.addNode address

/-- `ControlConnection::on_down`. -/
def onDown (address : Address) : ControlConnection :=
  match control.session.getHost address with
  | some host =>
    if (control.session.heap host).isDown then
      control
    else
      { control with session := control.session.onDown host }
  | none => control

/-- The events about nodes. -/
inductive NodeEvent where
  | newNode (address : Address)
  | removedNode (address : Address)
  | movedNode (address : Address)
  | up (address : Address)
  | down (address : Address)
  deriving DecidableEq, Repr

/-- `ControlConnection::on_event`, for events about nodes. -/
def onEvent (event : NodeEvent) : ControlConnection :=
  if control.state = .ready then
    match event with
    | .newNode address =>
      match control.session.getHost address with
      | some _ => control
      | none => control.addNode address
    | .removedNode address =>
      match control.session.getHost address with
      | some host => { control with session := control.session.onRemove host }
      | none => control
    | .movedNode address =>
      match control.session.getHost address with
      | some host => control.refreshNodeInfo host false
      | none => control
    | .up address => control.onUp address
    | .down address => control.onDown address
  else
    control

/-! ## Host rounds -/

/-- The host of an address, which is added if there is none, and whether it is new. -/
def getOrAddHost (session : Session) (address : Address) : HostPtr × Session × Bool :=
  match session.getHost address with
  | some host => (host, session, false)
  | none =>
    let (host, session) := session.addHost address
    (host, session, true)

/-- One turn of the loop over the rows of `system.peers` in `ControlConnection::on_query_hosts`. -/
def updatePeer (connectedAddress : Address) (isInitialConnection : Bool) (session : Session)
    (row : NodeRow) : Session :=
  match determineAddressForPeerHost connectedAddress row with
  | none => session
  | some address =>
    let (host, session, isNew) := getOrAddHost session address
    let session := session.setMark host session.currentHostMark
    let session := session.updateNodeInfo host row
    if isNew ∧ ¬ isInitialConnection then session.onAdd host false else session

/-- The responses of a round: the rows of `system.local` and `system.peers`. -/
structure HostResponses where
  localRows : List NodeRow
  peerRows : List NodeRow
  deriving DecidableEq, Repr

/-- How a round ends. -/
inductive RoundEnd where
  | aborted
  | completed
  deriving DecidableEq, Repr

/-- `CONTROL_STATE_READY` is reached for the first time. -/
def becomeReady (random : Option (Nat → UInt64)) : ControlConnection :=
  { control with
    state := .ready
    session := control.session.onControlConnectionReady control.currentHost random }

/-- The part of `ControlConnection::on_query_hosts` that updates the hosts, once there is a row for
the connected host. -/
def updateHosts (session : Session) (isInitialConnection : Bool) (host : HostPtr) (row : NodeRow)
    (peerRows : List NodeRow) : Session :=
  let session := session.updateNodeInfo host row
  let session := peerRows.foldl (updatePeer host.address isInitialConnection) session
  session.purgeHosts isInitialConnection

/-- `ControlConnection::on_query_hosts`. -/
def onQueryHosts (responses : HostResponses)
    (random : Option (Nat → UInt64)) : RoundEnd × ControlConnection :=
  match control.connection with
  | none => (.aborted, control)
  | some address =>
    match control.session.getHost address with
    | none => (.aborted, control)
    | some host =>
      let isInitialConnection : Bool := control.state = .new
      let session := control.session.setMark host control.session.currentHostMark
      match responses.localRows with
      | [] => (.aborted, { control with session })
      | row :: _ =>
        let session := updateHosts session isInitialConnection host row responses.peerRows
        let control := { control with session }
        if control.useSchema ∨ control.tokenAwareRouting then
          (.completed, control)
        else if isInitialConnection then
          (.completed, control.becomeReady random)
        else
          (.completed, control)

end ControlConnection

end DseDriver.Control
