import DseDriver.Control.ControlConnection
import DseDriver.TokenMap.Impl

/-!
# Topology events and the token map

What `ControlConnection::on_event` does to the token map of the session.  The host that it has
looked up goes into the token map as a pointer, which may be null, and the map compares the
address behind it with that of each token's host.  Reading an address through a null pointer is
`none` here.
-/

namespace DseDriver.TokenMap.TokenMapImpl

variable {Token Address : Type} [DecidableEq Address]

/-- `TokenMapImpl::remove_host_and_build` on a pointer.  `RemoveTokenHostIf` reads the address behind
it for every token, and the host set has no null pointer to erase. -/
def removeHostPtrAndBuild (map : TokenMapImpl Token Address) (host : Option Address) :
    Option (TokenMapImpl Token Address) :=
  match host, map.tokens with
  | some address, _ => some (map.removeHostAndBuild address)
  | none, [] => some map.buildReplicas
  | none, _ :: _ => none

/-- The host of the first token is compared with a null host. -/
theorem removeHostPtrAndBuild_none {map : TokenMapImpl Token Address} (nonempty : map.tokens ≠ []) :
    map.removeHostPtrAndBuild none = none := by
  obtain ⟨entry, entries, tokens⟩ := List.exists_cons_of_ne_nil nonempty
  simp only [removeHostPtrAndBuild, tokens]

end DseDriver.TokenMap.TokenMapImpl

namespace DseDriver.Control

open LoadBalancing
open DseDriver.TokenMap (TokenMapImpl)
open ControlConnection (NodeEvent)

/-- A control connection, and the token map of its session. -/
structure RoutingControl (Token : Type) where
  control : ControlConnection
  tokenMap : TokenMapImpl Token Address

namespace RoutingControl

variable {Token : Type}

/-- `ControlConnection::on_event`, for events about nodes, with what it does to the token map. -/
def onEvent (routing : RoutingControl Token) (event : NodeEvent) :
    Option (RoutingControl Token) :=
  let after := { routing with control := routing.control.onEvent event }
  let removeHostAndBuild (host : Option HostPtr) : Option (RoutingControl Token) := do
    let tokenMap ← routing.tokenMap.removeHostPtrAndBuild (host.map HostPtr.address)
    return { after with tokenMap }
  if routing.control.state = .ready then
    match event with
    | .removedNode address =>
      match routing.control.session.getHost address with
      | some host => removeHostAndBuild (some host)
      | none => some after
    | .movedNode address =>
      match routing.control.session.getHost address with
      | some _ => some after
      -- The token map is given the host that was not found.
      | none => removeHostAndBuild none
    | .newNode _ | .up _ | .down _ => some after
  else
    some after

end RoutingControl

/-! ## Events about unknown hosts -/

/-- `EventResponse::TopologyChange`. -/
inductive TopologyChange where
  | newNode
  | removedNode
  | movedNode
  deriving DecidableEq, Repr

/-- The event about a node. -/
def TopologyChange.event (address : Address) : TopologyChange → NodeEvent
  | .newNode => .newNode address
  | .removedNode => .removedNode address
  | .movedNode => .movedNode address

namespace RoutingControl

variable {Token : Type}

/-- The event is handled, and unless it adds the node it changes neither the host map nor the
token map. -/
def Harmless (routing : RoutingControl Token) (change : TopologyChange) (address : Address) :
    Prop :=
  ∃ after, routing.onEvent (change.event address) = some after ∧
    (change ≠ .newNode → after.control.session.hosts = routing.control.session.hosts ∧
      after.tokenMap = routing.tokenMap)

variable {routing : RoutingControl Token} {address : Address}

/-- Before the session is ready events are ignored. -/
theorem harmless_of_not_ready (waiting : routing.control.state ≠ .ready) (change : TopologyChange) :
    routing.Harmless change address := by
  have control : routing.control.onEvent (change.event address) = routing.control := if_neg waiting
  refine ⟨_, if_neg waiting, fun _ => ⟨?_, rfl⟩⟩
  rw [control]

theorem harmless_newNode : routing.Harmless .newNode address := by
  refine ⟨_, ite_self (some _), ?_⟩
  intro notNew
  exact absurd rfl notNew

theorem harmless_removedNode (unknown : routing.control.session.getHost address = none) :
    routing.Harmless .removedNode address := by
  have control : routing.control.onEvent (.removedNode address) = routing.control := by
    simp only [ControlConnection.onEvent, unknown, ite_self]
  refine ⟨routing, ?_, fun _ => ⟨rfl, rfl⟩⟩
  simp only [onEvent, TopologyChange.event, unknown, control, ite_self]

theorem onEvent_movedNode (unknown : routing.control.session.getHost address = none)
    (ready : routing.control.state = .ready) (nonempty : routing.tokenMap.tokens ≠ []) :
    routing.onEvent (.movedNode address) = none := by
  simp only [onEvent, if_pos ready, unknown, Option.map_none,
    TokenMapImpl.removeHostPtrAndBuild_none nonempty]
  rfl

/-- With tokens in the ring, a topology event about an unknown host is harmless unless it says that
the host has moved, and the session is ready. -/
theorem harmless_iff (routing : RoutingControl Token) (nonempty : routing.tokenMap.tokens ≠ [])
    (change : TopologyChange) (address : Address)
    (unknown : routing.control.session.getHost address = none) :
    routing.Harmless change address ↔
      change ≠ .movedNode ∨ routing.control.state ≠ .ready := by
  by_cases ready : routing.control.state = .ready
  · cases change with
    | newNode => exact iff_of_true harmless_newNode (.inl (by decide))
    | removedNode => exact iff_of_true (harmless_removedNode unknown) (.inl (by decide))
    | movedNode =>
      refine iff_of_false ?_ (by simp [ready])
      intro ⟨after, handled, _⟩
      rw [TopologyChange.event, onEvent_movedNode unknown ready nonempty] at handled
      cases handled
  · exact iff_of_true (harmless_of_not_ready ready change) (.inr ready)

/-- A session that is ready, with one host and its token. -/
def oneToken : RoutingControl Nat where
  control :=
    { session := ((Session.new (.roundRobin [] 0) 1).addHost ⟨"10.0.0.1", 9042⟩).2
      state := .ready
      currentHost := none
      connection := none
      useSchema := false
      tokenAwareRouting := true
      refreshes := [] }
  tokenMap := TokenMapImpl.new.addHost ⟨"10.0.0.1", 9042⟩ "r1" "dc1" [5]

theorem harmless_iff_removedNode :
    oneToken.Harmless .removedNode ⟨"10.0.0.2", 9042⟩ ↔
      TopologyChange.removedNode ≠ .movedNode ∨ oneToken.control.state ≠ .ready :=
  harmless_iff oneToken (by decide) .removedNode ⟨"10.0.0.2", 9042⟩ rfl

/-- An unknown host has moved: the address of a null host is read. -/
theorem movedNode_null_host :
    oneToken.tokenMap.tokens ≠ [] ∧
      oneToken.control.session.getHost ⟨"10.0.0.2", 9042⟩ = none ∧
      oneToken.onEvent (.movedNode ⟨"10.0.0.2", 9042⟩) = none :=
  ⟨by decide, rfl, rfl⟩

end RoutingControl

end DseDriver.Control
