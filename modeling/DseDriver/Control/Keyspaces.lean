import DseDriver.TokenMap.Keyspaces

/-!
# Schema events about keyspaces

What `ControlConnection::on_event` does with events about keyspaces, and the replies to the
refreshes they start.  The session keeps keyspaces twice, in the schema metadata and in the token
map.  A dropped keyspace is taken out of the metadata only.
-/

namespace DseDriver.Control

open TokenMap List Option

/-- `EventResponse::SchemaChange`. -/
inductive SchemaChange where
  | created
  | updated
  | dropped
  deriving DecidableEq, Repr

/-- A schema event about a keyspace, or the reply to one of the awaited refreshes. -/
inductive KeyspaceEvent where
  | change (change : SchemaChange) (keyspaceName : String)
  | reply (position : Nat) (rows : List KeyspaceRow)
  deriving DecidableEq, Repr

/-- What was last said about the keyspace. -/
def lastChange (events : List KeyspaceEvent) (keyspaceName : String) : Option SchemaChange :=
  events.foldl (fun last event =>
    match event with
    | .change change changed => if changed = keyspaceName then some change else last
    | .reply _ _ => last) none

/-- The rows in the replies. -/
def KeyspaceEvent.rows : KeyspaceEvent → List KeyspaceRow
  | .change _ _ => []
  | .reply _ rows => rows

/-- The session as far as keyspaces go: the token map if there is one, the names in the schema
metadata, and the keyspaces whose refreshes are awaited. -/
structure KeyspaceSession (Token Address : Type) where
  tokenMap : Option (TokenMapImpl Token Address)
  metadata : List String
  useSchema : Bool
  refreshes : List String

namespace KeyspaceSession

variable {Token Address : Type} (session : KeyspaceSession Token Address)

/-- `Metadata::update_keyspaces`, as far as the names go. -/
def updateKeyspaces (metadata : List String) (rows : List KeyspaceRow) : List String :=
  rows.foldl (fun names row => row.keyspaceName.elim names (names.insert ·)) metadata

/-- `ControlConnection::on_query_meta_schema`, with the rows of the keyspace table. -/
def onQueryMetaSchema [LinearOrder Token] (rows : List KeyspaceRow) :
    KeyspaceSession Token Address :=
  { session with
    tokenMap := session.tokenMap.map fun map =>
      (map.clearReplicasAndStrategies.addKeyspaces rows).build
    metadata := if session.useSchema then updateKeyspaces [] rows else session.metadata }

/-- `ControlConnection::on_event`, for events about keyspaces. -/
def onEvent (change : SchemaChange) (keyspaceName : String) : KeyspaceSession Token Address :=
  match change with
  | .created | .updated => { session with refreshes := session.refreshes ++ [keyspaceName] }
  | .dropped => { session with metadata := session.metadata.filter (· ≠ keyspaceName) }

/-- `ControlConnection::on_refresh_keyspace`. -/
def onRefreshKeyspace (rows : List KeyspaceRow) : KeyspaceSession Token Address :=
  if rows.isEmpty then
    session
  else
    { session with
      tokenMap := session.tokenMap.map fun map => map.updateKeyspacesAndBuild rows
      metadata :=
        if session.useSchema then updateKeyspaces session.metadata rows else session.metadata }

/-- One event.  Replies come in any order, and may not come at all; there is no reply without a
refresh that is awaited. -/
def step : KeyspaceEvent → Option (KeyspaceSession Token Address)
  | .change change keyspaceName => some (session.onEvent change keyspaceName)
  | .reply position rows =>
    if position < session.refreshes.length then
      some <|
        { session with refreshes := session.refreshes.eraseIdx position }.onRefreshKeyspace rows
    else
      none

/-- The token map, if there is one, has read these rows. -/
def HasRead (rows : List KeyspaceRow) : Prop :=
  ∀ map ∈ session.tokenMap, map.HasRead rows

variable {session} {rows : List KeyspaceRow}

theorem HasRead.onQueryMetaSchema [LinearOrder Token] (session : KeyspaceSession Token Address)
    (rows : List KeyspaceRow) : (session.onQueryMetaSchema rows).HasRead rows := by
  intro after isAfter
  obtain ⟨map, -, rfl⟩ := map_eq_some_iff.mp isAfter
  have added := (TokenMapImpl.HasRead.clear map).foldl false rows
  exact ⟨TokenMapImpl.TablesKnown.buildReplicas added.known, added.mem_strategies⟩

theorem HasRead.onRefreshKeyspace (hasRead : session.HasRead rows) (more : List KeyspaceRow) :
    (session.onRefreshKeyspace more).HasRead (rows ++ more) := by
  unfold KeyspaceSession.onRefreshKeyspace
  split
  next isEmpty =>
    rw [List.isEmpty_iff.mp isEmpty, append_nil]
    exact hasRead
  · intro after isAfter
    obtain ⟨map, isMap, rfl⟩ := map_eq_some_iff.mp isAfter
    exact (hasRead map isMap).foldl true more

/-- Events leave the token map alone; it reads the rows of the replies. -/
theorem HasRead.step (hasRead : session.HasRead rows) {event : KeyspaceEvent}
    {after : KeyspaceSession Token Address} (isStep : session.step event = some after) :
    after.HasRead (rows ++ event.rows) := by
  cases event with
  | change change keyspaceName =>
    obtain rfl := Option.some.inj isStep
    rw [KeyspaceEvent.rows, append_nil]
    cases change <;> exact hasRead
  | reply position more =>
    rw [KeyspaceSession.step, ite_none_right_eq_some] at isStep
    obtain ⟨-, ⟨⟩⟩ := isStep
    exact @HasRead.onRefreshKeyspace _ _
      { session with refreshes := session.refreshes.eraseIdx position } _ hasRead more

theorem HasRead.run (hasRead : session.HasRead rows) {events : List KeyspaceEvent}
    {after : KeyspaceSession Token Address}
    (isRun : events.foldlM KeyspaceSession.step session = some after) :
    after.HasRead (rows ++ events.flatMap KeyspaceEvent.rows) := by
  induction events generalizing session rows with
  | nil =>
    obtain rfl := Option.some.inj isRun
    simpa using hasRead
  | cons event events ih =>
    obtain ⟨next, isStep, isRest⟩ := bind_eq_some_iff.mp isRun
    simpa using ih (hasRead.step isStep) isRest

variable [LinearOrder Token]

/-- After any events, the token map has no strategy and no replicas for the keyspaces whose last
event was that they are dropped, exactly if neither the schema nor a reply had a row for such a
keyspace: `on_event` does not take it out. -/
theorem dropped_gone_iff (session : KeyspaceSession Token Address) (schema : List KeyspaceRow)
    (events : List KeyspaceEvent) (after : KeyspaceSession Token Address)
    (isRun : events.foldlM step (session.onQueryMetaSchema schema) = some after)
    (map : TokenMapImpl Token Address) (isMap : after.tokenMap = some map) :
    (∀ keyspaceName, lastChange events keyspaceName = some .dropped →
      map.strategies.lookup keyspaceName = none ∧ map.replicas.lookup keyspaceName = none ∧
        ∀ (hash : List UInt8 → Token) routingKey,
          map.getReplicas hash keyspaceName routingKey = none) ↔
      ∀ keyspaceName, lastChange events keyspaceName = some .dropped →
        ∀ row ∈ schema ++ events.flatMap KeyspaceEvent.rows,
          row.keyspaceName ≠ some keyspaceName := by
  have hasRead := (HasRead.onQueryMetaSchema session schema).run isRun map isMap
  refine forall_congr' fun keyspaceName => imp_congr_right fun _ => ?_
  have unnamed : keyspaceName ∉ map.strategies ↔ ∀ row ∈ schema ++ events.flatMap KeyspaceEvent.rows,
      row.keyspaceName ≠ some keyspaceName := by
    rw [hasRead.mem_strategies]
    simp only [not_exists, not_and, ne_eq]
  rw [← unnamed]
  constructor
  · intro gone
    exact AList.lookup_eq_none.mp gone.1
  · intro noStrategy
    have noReplicas : map.replicas.lookup keyspaceName = none :=
      AList.lookup_eq_none.mpr fun member => noStrategy (hasRead.known keyspaceName member)
    refine ⟨AList.lookup_eq_none.mpr noStrategy, noReplicas, fun hash routingKey => ?_⟩
    rw [TokenMapImpl.getReplicas, noReplicas]

/-! ## A keyspace that is dropped -/

/-- The row of a keyspace with one replica. -/
def simpleRow (keyspaceName : String) : KeyspaceRow where
  keyspaceName := some keyspaceName
  strategyClass := "SimpleStrategy"
  options := [("replication_factor", 1)]

/-- A session with two hosts. -/
def twoHosts : KeyspaceSession (List Nat) Nat where
  tokenMap := some twoTokenMap
  metadata := []
  useSchema := true
  refreshes := []

/-- A keyspace is created, dropped before the reply comes, and the reply has no row; another one
is created and read. -/
def droppedUnread : List KeyspaceEvent :=
  [.change .created "short", .change .created "ks", .change .dropped "short", .reply 0 [],
    .reply 0 [simpleRow "ks"]]

theorem dropped_gone_iff_unread :
    ∃ after map, droppedUnread.foldlM step (twoHosts.onQueryMetaSchema []) = some after ∧
      after.tokenMap = some map ∧ (map.strategies.lookup "ks").isSome ∧
      lastChange droppedUnread "short" = some .dropped ∧ map.strategies.lookup "short" = none := by
  have dropped : lastChange droppedUnread "short" = some .dropped := by decide
  have gone := (dropped_gone_iff twoHosts [] droppedUnread _ rfl _ rfl).mpr
    (by
      intro keyspaceName isDropped row member isName
      obtain rfl := mem_singleton.mp member
      obtain rfl := Option.some.inj isName
      exact absurd isDropped (by decide))
  exact ⟨_, _, rfl, rfl, by decide, dropped, (gone "short" dropped).1⟩

/-- The keyspace leaves the metadata, and the token map goes on to route to its replicas. -/
theorem dropped_keyspace_stays :
    ∃ after map, [KeyspaceEvent.change .dropped "ks"].foldlM step
        (twoHosts.onQueryMetaSchema [simpleRow "ks"]) = some after ∧
      after.tokenMap = some map ∧ after.metadata = [] ∧
      (map.strategies.lookup "ks").isSome ∧
      (map.getReplicas ByteOrderedPartitioner.hash "ks" [97]).isSome := by
  refine ⟨_, _, rfl, rfl, rfl, by decide, by decide⟩

end KeyspaceSession

end DseDriver.Control
