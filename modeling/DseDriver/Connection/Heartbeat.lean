import DseDriver.StreamManager

/-!
# Heartbeats of a connection

A connection that is idle writes a heartbeat, one at a time: `heartbeat_outstanding_` is set when it
was written and reset by its callback.  A callback goes through the states of its request, from the
write to the response, a failure, a timeout or the end of the connection.
-/

namespace DseDriver.Heartbeats

open Lib List

/-- `RequestCallback::State` of a request that was written. -/
inductive CallbackState where
  | writing
  | reading
  | readBeforeWrite
  | finished
  | cancelled
  | cancelledWriting
  | cancelledReading
  | cancelledReadBeforeWrite
  deriving DecidableEq, Repr

namespace CallbackState

/-- The callback has still to be told how the request ends. -/
def isActive : CallbackState → Bool
  | writing | reading | readBeforeWrite => true
  | _ => false

/-- A response in `Connection::consume`, and whether the callback is told. -/
def received : CallbackState → CallbackState × Bool
  | reading => (finished, true)
  | writing => (readBeforeWrite, false)
  | cancelledReading => (cancelled, false)
  | cancelledWriting => (cancelledReadBeforeWrite, false)
  | state => (state, false)

/-- `PendingWriteBase::on_write`. -/
def written (succeeded : Bool) : CallbackState → CallbackState × Bool
  | writing => if succeeded then (reading, false) else (finished, true)
  | readBeforeWrite => (finished, true)
  | cancelledWriting => (cancelledReading, false)
  | cancelledReadBeforeWrite => (cancelled, false)
  | state => (state, false)

/-- `SimpleRequestCallback::on_timeout`; the timer runs until the callback is told. -/
def timedOut : CallbackState → CallbackState × Bool
  | writing => (cancelledWriting, true)
  | reading => (cancelledReading, true)
  | readBeforeWrite => (cancelledReadBeforeWrite, true)
  | state => (state, false)

/-- `cleanup_pending_callback`. -/
def cleanedUp : CallbackState → CallbackState × Bool
  | writing | reading | readBeforeWrite => (finished, true)
  | cancelledWriting | cancelledReading | cancelledReadBeforeWrite => (cancelled, false)
  | state => (state, false)

/-- A callback is told once: when it stops to be active. -/
def Tells (change : CallbackState → CallbackState × Bool) : Prop :=
  ∀ state, (change state).1.isActive = (state.isActive && !(change state).2) ∧
    ((change state).2 = true → state.isActive = true)

theorem tells_received : Tells received := by
  intro state
  cases state <;> decide

theorem tells_written (succeeded : Bool) : Tells (written succeeded) := by
  intro state
  cases succeeded <;> cases state <;> decide

theorem tells_timedOut : Tells timedOut := by
  intro state
  cases state <;> decide

theorem tells_cleanedUp : Tells cleanedUp := by
  intro state
  cases state <;> decide

end CallbackState

/-- A callback of the connection: a heartbeat or another request. -/
structure PendingCallback where
  isHeartbeat : Bool
  stream : Int
  state : CallbackState

/-- A heartbeat that was written and neither answered nor failed. -/
def PendingCallback.isActiveHeartbeat (callback : PendingCallback) : Bool :=
  callback.isHeartbeat && callback.state.isActive

/-- `Connection`, with its stream ids. -/
structure Connection where
  streamManager : StreamManager Nat
  callbacks : List PendingCallback
  heartbeatOutstanding : Bool
  isClosing : Bool
  isClosed : Bool

/-- What happens to a connection.  A callback is named by its place among the written ones, and
`onTimeout` is its timer or, for a request, that it is cancelled. -/
inductive ConnectionEvent where
  | write (requestSize : Int)
  | onHeartbeat
  | onTerminate
  | consume (stream : Int)
  | onWrite (callback : Nat) (succeeded : Bool)
  | onTimeout (callback : Nat)
  | close
  | onClose
  deriving DecidableEq

namespace Connection

variable (connection : Connection)

def new (protocolVersion : Int) : Connection :=
  { streamManager := .new protocolVersion
    callbacks := []
    heartbeatOutstanding := false
    isClosing := false
    isClosed := false }

def requestErrorNoAvailableStreamIds : Int := -4

/-- `internal_write` of a request that is not cancelled; `true` is returned as the number 1. -/
def internalWrite (isHeartbeat : Bool) (requestSize : Int) : Int × Connection :=
  let (stream, streamManager) := connection.streamManager.acquire connection.callbacks.length
  if stream < 0 then
    (requestErrorNoAvailableStreamIds, { connection with streamManager })
  else if requestSize < 0 then
    (requestSize, { connection with
      streamManager := (streamManager.release stream).getD streamManager })
  else
    (1, { connection with
      streamManager
      callbacks := connection.callbacks ++ [{ isHeartbeat, stream, state := .writing }] })

/-- `internal_close`, which `close`, `defunct` and `notify_error` call. -/
def internalClose : Connection :=
  { connection with isClosing := true }

/-- The size of an `OPTIONS` request: its header in the newer protocol versions. -/
def optionsRequestSize : Int := 9

/-- `on_heartbeat`. -/
def onHeartbeat : Connection :=
  if connection.heartbeatOutstanding then
    connection
  else
    let (result, connection) := connection.internalWrite true optionsRequestSize
    if result = 0 then
      connection.internalClose
    else
      { connection with heartbeatOutstanding := true }

/-- A callback changes its state; a heartbeat that is told resets the flag, as each of
`on_internal_set`, `on_internal_error` and `on_internal_timeout` does. -/
def changeState (index : Nat) (change : CallbackState → CallbackState × Bool) : Connection :=
  match connection.callbacks[index]? with
  | none => connection
  | some callback =>
    { connection with
      callbacks := connection.callbacks.set index
        { callback with state := (change callback.state).1 }
      heartbeatOutstanding := connection.heartbeatOutstanding &&
        !(callback.isHeartbeat && (change callback.state).2) }

/-- `consume`, for one response. -/
def consume (stream : Int) : Connection :=
  if connection.isClosing then
    connection
  else
    match connection.streamManager.getPendingAndRelease stream with
    | some (some index, streamManager) =>
      { connection with streamManager }.changeState index CallbackState.received
    | _ => connection.internalClose

/-- A failed write also closes the connection and frees the stream id. -/
def onWrite (index : Nat) (succeeded : Bool) : Connection :=
  match connection.callbacks[index]? with
  | some { stream, state := .writing, .. } =>
    let changed := connection.changeState index (CallbackState.written succeeded)
    if succeeded then
      changed
    else
      { changed with
        streamManager := (changed.streamManager.release stream).getD changed.streamManager
        isClosing := true }
  | _ => connection.changeState index (CallbackState.written succeeded)

/-- The callbacks of a closed connection, in any order. -/
def onClose : Connection :=
  if connection.isClosing then
    let cleanup := fun connection index => changeState connection index CallbackState.cleanedUp
    { (List.range connection.callbacks.length).foldl cleanup connection with isClosed := true }
  else
    connection

def step (event : ConnectionEvent) : Connection :=
  if connection.isClosed then
    connection
  else
    match event with
    | .write requestSize => (connection.internalWrite false requestSize).2
    | .onHeartbeat => connection.onHeartbeat
    | .onTerminate | .close => connection.internalClose
    | .consume stream => connection.consume stream
    | .onWrite index succeeded => connection.onWrite index succeeded
    | .onTimeout index => connection.changeState index CallbackState.timedOut
    | .onClose => connection.onClose

/-- A heartbeat that is due finds a free stream id. -/
def StreamIsFree (event : ConnectionEvent) : Prop :=
  event = .onHeartbeat → connection.heartbeatOutstanding = false →
    0 ≤ (connection.streamManager.acquire connection.callbacks.length).1

/-! ## One heartbeat at a time -/

/-- There is one active heartbeat when the flag is set, and none otherwise. -/
def Accounted : Prop :=
  connection.callbacks.countP PendingCallback.isActiveHeartbeat =
    if connection.heartbeatOutstanding then 1 else 0

variable {connection}

theorem Accounted.changeState (accounted : connection.Accounted)
    (index : Nat) {change : CallbackState → CallbackState × Bool}
    (tells : CallbackState.Tells change) : (connection.changeState index change).Accounted := by
  rw [Connection.changeState]
  cases found : connection.callbacks[index]? with
  | none => exact accounted
  | some callback =>
    obtain ⟨inside, rfl⟩ := List.getElem?_eq_some_iff.mp found
    obtain ⟨active, told⟩ := tells connection.callbacks[index].state
    have counts : connection.callbacks[index].isActiveHeartbeat = true →
        0 < connection.callbacks.countP PendingCallback.isActiveHeartbeat := fun holds =>
      countP_pos_iff.mpr ⟨_, getElem_mem inside, holds⟩
    rw [Accounted] at accounted
    rw [accounted] at counts
    simp only [Accounted, countP_set inside, accounted]
    simp only [PendingCallback.isActiveHeartbeat, active] at counts ⊢
    -- Only an active heartbeat is told; the flag was set for it, and for no other.
    grind

theorem Accounted.internalWrite (accounted : connection.Accounted)
    (requestSize : Int) : (connection.internalWrite false requestSize).2.Accounted := by
  rw [Connection.internalWrite]
  dsimp only
  split
  · exact accounted
  · split
    · exact accounted
    · change List.countP _ (connection.callbacks ++ _) = _
      rw [countP_append]
      exact accounted

theorem Accounted.onHeartbeat (accounted : connection.Accounted)
    (isFree : connection.StreamIsFree .onHeartbeat) : connection.onHeartbeat.Accounted := by
  rw [Connection.onHeartbeat]
  cases outstanding : connection.heartbeatOutstanding with
  | true => exact accounted
  | false =>
    have written := isFree rfl outstanding
    rw [Accounted, outstanding] at accounted
    simp only [Connection.internalWrite, if_neg (Int.not_lt.mpr written), optionsRequestSize]
    change List.countP _ (connection.callbacks ++ _) = 1
    rw [countP_append, accounted]
    rfl

theorem Accounted.consume (accounted : connection.Accounted)
    (stream : Int) : (connection.consume stream).Accounted := by
  rw [Connection.consume]
  split
  · exact accounted
  · split
    · next index streamManager _ =>
        have released : { connection with streamManager }.Accounted := accounted
        exact released.changeState index CallbackState.tells_received
    · exact accounted

theorem Accounted.onWrite (accounted : connection.Accounted)
    (index : Nat) (succeeded : Bool) : (connection.onWrite index succeeded).Accounted := by
  have changed := accounted.changeState index (CallbackState.tells_written succeeded)
  rw [Connection.onWrite]
  split
  · split <;> exact changed
  · exact changed

theorem Accounted.onClose (accounted : connection.Accounted) : connection.onClose.Accounted := by
  rw [Connection.onClose]
  split
  · refine List.foldlRecOn (motive := Accounted) _ _ accounted ?_
    intro cleaned holds index _
    exact holds.changeState index CallbackState.tells_cleanedUp
  · exact accounted

theorem Accounted.step {event : ConnectionEvent}
    (accounted : connection.Accounted) (isFree : connection.StreamIsFree event) :
    (connection.step event).Accounted := by
  unfold Connection.step
  split
  · exact accounted
  · cases event with
    | write requestSize => exact accounted.internalWrite requestSize
    | onHeartbeat => exact accounted.onHeartbeat isFree
    | onTerminate => exact accounted
    | consume stream => exact accounted.consume stream
    | onWrite index succeeded => exact accounted.onWrite index succeeded
    | onTimeout index => exact accounted.changeState index CallbackState.tells_timedOut
    | close => exact accounted
    | onClose => exact accounted.onClose

theorem Accounted.outstanding_iff (accounted : connection.Accounted) :
    connection.heartbeatOutstanding = true ↔
      ∃ callback ∈ connection.callbacks, callback.isActiveHeartbeat = true := by
  rw [← countP_pos_iff, accounted]
  cases connection.heartbeatOutstanding <;> decide

/-- While heartbeats find free stream ids, the flag says whether one is in flight. -/
theorem run_outstanding_iff (protocolVersion : Int) (events : List ConnectionEvent)
    (isFree : Throughout step StreamIsFree (new protocolVersion) events) :
    (events.foldl step (new protocolVersion)).heartbeatOutstanding = true ↔
      ∃ callback ∈ (events.foldl step (new protocolVersion)).callbacks,
        callback.isActiveHeartbeat = true := by
  have start : (new protocolVersion).Accounted := rfl
  exact (isFree.invariant (fun _ _ => Accounted.step) start).outstanding_iff

/-- A heartbeat that times out before its response makes way for the next one. -/
theorem run_outstanding_iff_second :
    ∃ callback ∈ ([.onHeartbeat, .onWrite 0 true, .onTimeout 0, .onHeartbeat].foldl step
      (new 4)).callbacks, callback.isActiveHeartbeat = true := by
  refine (run_outstanding_iff 4 _ ?_).mp ?_
  · refine ⟨?_, ?_, ?_, ?_, trivial⟩
    · intro _ _
      decide +kernel
    · intro other
      cases other
    · intro other
      cases other
    · intro _ _
      decide +kernel
  · decide +kernel

/-- The 128 stream ids of the older protocol versions are taken when a heartbeat is due. -/
def exhausted : List ConnectionEvent :=
  List.replicate 128 (.write 9) ++ [.onHeartbeat]

/-- The heartbeat finds no stream id and is not written; the flag is set all the same, as the code
of the error is not zero. -/
theorem outstanding_without_heartbeat :
    (exhausted.foldl step (new 2)).heartbeatOutstanding = true ∧
      ¬ ∃ callback ∈ (exhausted.foldl step (new 2)).callbacks,
        callback.isActiveHeartbeat = true := by
  have outcome : (exhausted.foldl step (new 2)).heartbeatOutstanding = true ∧
      (exhausted.foldl step (new 2)).callbacks.any PendingCallback.isActiveHeartbeat = false := by
    decide +kernel
  refine ⟨outcome.1, ?_⟩
  intro written
  rw [any_eq_true.mpr written] at outcome
  cases outcome.2

end Connection

end DseDriver.Heartbeats
