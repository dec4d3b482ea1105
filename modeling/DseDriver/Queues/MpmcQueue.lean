import DseDriver.Queues.SpscQueue

/-!
# The queue of many producers and consumers

Any number of threads are in `enqueue` or `dequeue` of an `MPMCQueue`, each between two accesses to
what they share, and an event is the next access of one of them.  Positions are numbers without a
bound, as there are fewer than `2 ^ 63` operations.
-/

namespace DseDriver.Queues

open HashTable Lib List Function

variable {α : Type*}

/-- A call of a thread. -/
inductive MpmcCall (α : Type*) where
  | enqueue (data : α)
  | dequeue

/-- Where a thread is: outside, before the load of the tail or the head, before the load of a node's
number, before the exchange of the tail or the head, before the access to the node's data, before
the store of the node's number. -/
inductive MpmcThread (α : Type*) where
  | idle
  | loading (call : MpmcCall α)
  | positioned (call : MpmcCall α) (pos : Nat)
  | claiming (call : MpmcCall α) (pos : Nat)
  | claimed (call : MpmcCall α) (pos : Nat)
  | accessed (call : MpmcCall α) (pos : Nat) (data : α)

/-- `MPMCQueue`: what the threads share. -/
structure MpmcQueue (α : Type*) where
  mask : Nat
  seq : Nat → Nat
  data : Nat → α
  tail : Nat
  head : Nat

/-- What was seen of the calls. -/
structure MpmcHistory (α : Type*) where
  /-- The positions that were claimed, in the order of the claims. -/
  claims : TicketSide → List Nat
  /-- The inputs of the claims of `enqueue`, in their order. -/
  inputs : List α
  /-- The positions and the data of the calls that returned `true`. -/
  returned : TicketSide → List (Nat × α)

/-- A queue, its threads and their history. -/
structure MpmcState (α : Type*) where
  queue : MpmcQueue α
  threads : Nat → MpmcThread α
  history : MpmcHistory α

/-- A thread that is outside makes a call, or one that is not makes its next access.  A weak exchange
can fail for no reason. -/
inductive MpmcEvent (α : Type*) where
  | call (thread : Nat) (call : MpmcCall α)
  | access (thread : Nat) (spurious : Bool)

namespace MpmcCall

/-- `enqueue` puts, `dequeue` takes. -/
def side : MpmcCall α → TicketSide
  | enqueue _ => .put
  | dequeue => .take

/-- The number `dif` is a difference to. -/
def expected : MpmcCall α → Nat → Nat
  | enqueue _, pos => pos
  | dequeue, pos => pos + 1

/-- The number of the node that is stored at the end. -/
def stored (mask : Nat) : MpmcCall α → Nat → Nat
  | enqueue _, pos => pos + 1
  | dequeue, pos => pos + mask + 1

theorem expected_eq (call : MpmcCall α) (pos : Nat) : call.expected pos = call.side.ready pos := by
  cases call <;> rfl

theorem stored_eq (call : MpmcCall α) (mask pos : Nat) :
    call.stored mask pos = call.side.next (mask + 1) pos := by
  cases call <;> rfl

end MpmcCall

namespace MpmcQueue

/-- The constructed queue; the data of the nodes is arbitrary. -/
def new (size : Nat) (data : Nat → α) : MpmcQueue α :=
  { mask := nextPow2 size - 1
    seq := id
    data
    tail := 0
    head := 0 }

/-- The counter that a call works on. -/
def position (queue : MpmcQueue α) : TicketSide → Nat
  | .put => queue.tail
  | .take => queue.head

/-- The exchange that succeeds. -/
def claim (queue : MpmcQueue α) (pos : Nat) : MpmcCall α → MpmcQueue α
  | .enqueue _ => { queue with tail := pos + 1 }
  | .dequeue => { queue with head := pos + 1 }

/-- The store of the number, after which the call returns. -/
def finish (queue : MpmcQueue α) (call : MpmcCall α) (pos : Nat) : MpmcQueue α :=
  { queue with
    seq := update queue.seq (pos &&& queue.mask) (call.stored queue.mask pos) }

/-- The next access of a thread. -/
def access (queue : MpmcQueue α) (spurious : Bool) : MpmcThread α → MpmcQueue α × MpmcThread α
  | .idle => (queue, .idle)
  | .loading call => (queue, .positioned call (queue.position call.side))
  | .positioned call pos =>
    let dif : Int := queue.seq (pos &&& queue.mask) - call.expected pos
    if dif = 0 then
      (queue, .claiming call pos)
    else if dif < 0 then
      (queue, .idle)
    else
      (queue, .loading call)
  | .claiming call pos =>
    if spurious ∨ queue.position call.side ≠ pos then
      (queue, .positioned call (queue.position call.side))
    else
      (queue.claim pos call, .claimed call pos)
  | .claimed (.enqueue data) pos =>
    ({ queue with data := update queue.data (pos &&& queue.mask) data },
      .accessed (.enqueue data) pos data)
  | .claimed .dequeue pos => (queue, .accessed .dequeue pos (queue.data (pos &&& queue.mask)))
  | .accessed call pos _ => (queue.finish call pos, .idle)

/-- The values between the head and the tail. -/
def content (queue : MpmcQueue α) : List α :=
  (List.range' queue.head (queue.tail - queue.head)).map fun pos => queue.data (pos &&& queue.mask)

end MpmcQueue

namespace MpmcHistory

/-- Before the first call. -/
def new : MpmcHistory α := ⟨fun _ => [], [], fun _ => []⟩

/-- A call has got its position. -/
def claim (history : MpmcHistory α) (pos : Nat) (call : MpmcCall α) : MpmcHistory α where
  claims := update history.claims call.side (history.claims call.side ++ [pos])
  inputs :=
    match call with
    | .enqueue data => history.inputs ++ [data]
    | .dequeue => history.inputs
  returned := history.returned

/-- A call returns `true`, with its data. -/
def finish (history : MpmcHistory α) (call : MpmcCall α) (pos : Nat) (data : α) : MpmcHistory α :=
  { history with
    returned := update history.returned call.side
      (history.returned call.side ++ [(pos, data)]) }

/-- What a call shows from one access to the next. -/
def note (history : MpmcHistory α) : MpmcThread α → MpmcThread α → MpmcHistory α
  | .claiming _ _, .claimed call pos => history.claim pos call
  | .accessed call pos data, .idle => history.finish call pos data
  | _, _ => history

end MpmcHistory

namespace MpmcState

/-- A call or an access, which is noted. -/
def step (state : MpmcState α) : MpmcEvent α → MpmcState α
  | .call thread call =>
    match state.threads thread with
    | .idle => { state with threads := update state.threads thread (.loading call) }
    | _ => state
  | .access thread spurious =>
    let next := state.queue.access spurious (state.threads thread)
    { queue := next.1
      threads := update state.threads thread next.2
      history := state.history.note (state.threads thread) next.2 }

/-- The queue after some events. -/
def run (size : Nat) (data : Nat → α) (events : List (MpmcEvent α)) : MpmcState α :=
  events.foldl step ⟨.new size data, fun _ => .idle, .new⟩

end MpmcState

/-! ## Who holds which position -/

namespace MpmcThread

/-- The position of a thread that has claimed one. -/
def held : MpmcThread α → Option (TicketSide × Nat)
  | claimed call pos | accessed call pos _ => some (call.side, pos)
  | _ => none

end MpmcThread

section Holding

variable {threads : Nat → MpmcThread α} {thread : Nat} {next : MpmcThread α} {side : TicketSide}
  {pos : Nat}

/-- A thread has claimed the position. -/
def holding (threads : Nat → MpmcThread α) (side : TicketSide) (pos : Nat) : Prop :=
  ∃ thread, (threads thread).held = some (side, pos)

/-- A position has one holder. -/
def HeldOnce (threads : Nat → MpmcThread α) : Prop :=
  ∀ thread other ticket, (threads thread).held = some ticket →
    (threads other).held = some ticket → thread = other

theorem held_update (threads : Nat → MpmcThread α) (thread : Nat) (next : MpmcThread α)
    (other : Nat) : (update threads thread next other).held =
      update (fun other => (threads other).held) thread next.held other := by
  by_cases same : other = thread
  · rw [same, update_self, update_self]
  · rw [update_of_ne same, update_of_ne same]

theorem holding_update_same (same : next.held = (threads thread).held) :
    holding (update threads thread next) = holding threads := by
  funext side pos
  simp only [holding, held_update]
  rw [same, update_eq_self thread fun other => (threads other).held]

theorem HeldOnce.update_same (once : HeldOnce threads)
    (same : next.held = (threads thread).held) :
    HeldOnce (update threads thread next) := by
  intro first second ticket
  rw [held_update, held_update, same,
    update_eq_self thread fun other => (threads other).held]
  exact once first second ticket

theorem holding_update_claim (free : (threads thread).held = none)
    (claims : next.held = some (side, pos)) :
    holding (update threads thread next) =
      fun other held => holding threads other held ∨ (other = side ∧ held = pos) := by
  funext other held
  apply propext
  constructor
  · rintro ⟨holder, holds⟩
    rw [held_update] at holds
    by_cases same : holder = thread
    · rw [same, update_self, claims] at holds
      cases holds
      exact .inr ⟨rfl, rfl⟩
    · rw [update_of_ne same] at holds
      exact .inl ⟨holder, holds⟩
  · rintro (⟨holder, holds⟩ | ⟨rfl, rfl⟩)
    · refine ⟨holder, ?_⟩
      have different : holder ≠ thread := by
        rintro rfl
        rw [free] at holds
        cases holds
      rw [held_update, update_of_ne different]
      exact holds
    · exact ⟨thread, by rw [held_update, update_self, claims]⟩

theorem HeldOnce.update_claim (once : HeldOnce threads) (claims : next.held = some (side, pos))
    (new : ¬ holding threads side pos) : HeldOnce (update threads thread next) := by
  intro first second ticket
  rw [held_update, held_update]
  by_cases isFirst : first = thread <;> by_cases isSecond : second = thread
  · exact fun _ _ => isFirst.trans isSecond.symm
  · rw [isFirst, update_self, update_of_ne isSecond, claims]
    rintro ⟨⟩ holds
    exact absurd ⟨second, holds⟩ new
  · rw [isSecond, update_self, update_of_ne isFirst, claims]
    rintro holds ⟨⟩
    exact absurd ⟨first, holds⟩ new
  · rw [update_of_ne isFirst, update_of_ne isSecond]
    exact once first second ticket

theorem holding_update_release (once : HeldOnce threads)
    (holds : (threads thread).held = some (side, pos)) (releases : next.held = none) :
    holding (update threads thread next) =
      fun other held => holding threads other held ∧ ¬ (other = side ∧ held = pos) := by
  funext other held
  apply propext
  constructor
  · rintro ⟨holder, stillHolds⟩
    rw [held_update] at stillHolds
    by_cases same : holder = thread
    · rw [same, update_self, releases] at stillHolds
      cases stillHolds
    · rw [update_of_ne same] at stillHolds
      refine ⟨⟨holder, stillHolds⟩, ?_⟩
      rintro ⟨rfl, rfl⟩
      exact same (once holder thread _ stillHolds holds)
  · rintro ⟨⟨holder, stillHolds⟩, different⟩
    refine ⟨holder, ?_⟩
    have apart : holder ≠ thread := by
      rintro rfl
      rw [holds] at stillHolds
      cases stillHolds
      exact different ⟨rfl, rfl⟩
    rw [held_update, update_of_ne apart]
    exact stillHolds

theorem HeldOnce.update_release (once : HeldOnce threads) (releases : next.held = none) :
    HeldOnce (update threads thread next) := by
  intro first second ticket
  rw [held_update, held_update]
  by_cases isFirst : first = thread
  · rw [isFirst, update_self, releases]
    rintro ⟨⟩
  · by_cases isSecond : second = thread
    · rw [isSecond, update_self, releases]
      rintro _ ⟨⟩
    · rw [update_of_ne isFirst, update_of_ne isSecond]
      exact once first second ticket

end Holding

/-! ## What holds between the accesses -/

namespace MpmcQueue

variable {size thread pos : Nat} {call : MpmcCall α} {queue : MpmcQueue α} {history : MpmcHistory α}

/-- The ring of the tickets of the queue. -/
def ring (queue : MpmcQueue α) (threads : Nat → MpmcThread α) : TicketRing :=
  ⟨queue.seq, queue.position, holding threads⟩

/-- What a thread knows about the position it is at. -/
def Knows (size : Nat) (queue : MpmcQueue α) (history : MpmcHistory α) : MpmcThread α → Prop
  | .claiming call pos => call.side.ready pos ≤ queue.seq (pos % size)
  | .claimed (.enqueue data) pos => history.inputs[pos]? = some data
  | .accessed call pos data => history.inputs[pos]? = some data ∧
      (call.side = .put → queue.data (pos % size) = data)
  | _ => True

/-- What holds of what was recorded. -/
structure Records (size : Nat) (queue : MpmcQueue α) (history : MpmcHistory α)
    (holding : TicketSide → Nat → Prop) : Prop where
  mask : queue.mask + 1 = size ∧ ∀ pos, pos &&& queue.mask = pos % size
  claims : ∀ side, history.claims side = List.range (queue.position side)
  inputs : history.inputs.length = queue.tail
  published : ∀ pos, queue.seq (pos % size) = pos + 1 →
    history.inputs[pos]? = some (queue.data (pos % size))
  values : ∀ side, ∀ entry ∈ history.returned side, history.inputs[entry.1]? = some entry.2
  finished : ∀ side pos, pos ∈ (history.returned side).map Prod.fst ↔
    pos < queue.position side ∧ ¬ holding side pos
  once : ∀ side, ((history.returned side).map Prod.fst).Nodup

theorem position_claim (queue : MpmcQueue α) (pos : Nat) (call : MpmcCall α) :
    (queue.claim pos call).position = update queue.position call.side (pos + 1) := by
  funext side
  cases call <;> cases side <;> rfl

theorem seq_claim (queue : MpmcQueue α) (pos : Nat) (call : MpmcCall α) :
    (queue.claim pos call).seq = queue.seq := by
  cases call <;> rfl

theorem data_claim (queue : MpmcQueue α) (pos : Nat) (call : MpmcCall α) :
    (queue.claim pos call).data = queue.data := by
  cases call <;> rfl

theorem inputs_claim {data : α} {held : Nat} (there : history.inputs[held]? = some data) (pos : Nat)
    (call : MpmcCall α) : (history.claim pos call).inputs[held]? = some data := by
  cases call with
  | enqueue data =>
    rw [MpmcHistory.claim, getElem?_append_left (List.getElem?_eq_some_iff.1 there).1]
    exact there
  | dequeue => exact there

theorem ring_claim (queue : MpmcQueue α) {threads : Nat → MpmcThread α}
    (free : (threads thread).held = none) (pos : Nat) (call : MpmcCall α) :
    (queue.claim pos call).ring (update threads thread (.claimed call pos)) =
      (queue.ring threads).claim call.side pos := by
  rw [ring, seq_claim, position_claim, holding_update_claim free rfl]
  rfl

theorem Knows.claim {other : MpmcThread α} (knows : queue.Knows size history other)
    (pos : Nat) (call : MpmcCall α) :
    (queue.claim pos call).Knows size (history.claim pos call) other := by
  cases other with
  | claiming other held =>
    rw [Knows, seq_claim]
    exact knows
  | claimed other held =>
    cases other with
    | enqueue data => exact inputs_claim knows pos call
    | dequeue => trivial
  | accessed other held value =>
    rw [Knows, data_claim]
    exact ⟨inputs_claim knows.1 pos call, knows.2⟩
  | _ => trivial

theorem Records.claim {holding : TicketSide → Nat → Prop}
    (records : queue.Records size history holding) (next : queue.position call.side = pos) :
    (queue.claim pos call).Records size (history.claim pos call)
      fun side held => holding side held ∨ (side = call.side ∧ held = pos) where
  mask := by
    cases call <;> exact records.mask
  claims := by
    intro side
    rw [position_claim]
    unfold MpmcHistory.claim
    dsimp only
    by_cases same : side = call.side
    · rw [same, update_self, update_self, records.claims, next, range_succ]
    · rw [update_of_ne same, update_of_ne same, records.claims]
  inputs := by
    cases call with
    | enqueue data =>
      rw [MpmcHistory.claim, length_append, records.inputs, ← next]
      rfl
    | dequeue => exact records.inputs
  published := by
    intro held full
    rw [seq_claim] at full
    rw [data_claim]
    exact inputs_claim (records.published held full) pos call
  values := by
    intro side entry member
    exact inputs_claim (records.values side entry member) pos call
  finished := by
    intro side held
    have before := records.finished side held
    unfold MpmcHistory.claim
    rw [before, position_claim]
    by_cases this : side = call.side
    · rw [this, update_self, next]
      grind
    · rw [update_of_ne this]
      simp [this]
  once := records.once

theorem Records.finish {holding : TicketSide → Nat → Prop} {data : α} (large : 2 ≤ size)
    (records : queue.Records size history holding) (holds : holding call.side pos)
    (counted : pos < queue.position call.side)
    (knows : queue.Knows size history (.accessed call pos data)) :
    (queue.finish call pos).Records size (history.finish call pos data)
      fun side held => holding side held ∧ ¬ (side = call.side ∧ held = pos) where
  mask := records.mask
  claims := records.claims
  inputs := records.inputs
  published := by
    intro held full
    rw [MpmcQueue.finish, records.mask.2, call.stored_eq, records.mask.1] at full
    by_cases same : held % size = pos % size
    · rw [same] at full
      have full : call.side.next size pos = held + 1 := (update_self ..).symm.trans full
      cases call with
      | enqueue data =>
        have equal : pos = held := Nat.succ.inj full
        rw [← equal]
        exact knows.1.trans (congrArg some (knows.2 rfl).symm)
      | dequeue =>
        have full : pos + size = held + 1 := full
        exact absurd (by rw [← full, Nat.add_mod_right, same]) (succ_mod_ne large held)
    · exact records.published held ((update_of_ne same ..).symm.trans full)
  values := by
    intro side entry member
    change entry ∈ update history.returned call.side _ side at member
    by_cases same : side = call.side
    · subst same
      rw [update_self, mem_append, mem_singleton] at member
      rcases member with before | rfl
      · exact records.values _ entry before
      · exact knows.1
    · rw [update_of_ne same] at member
      exact records.values side entry member
  finished := by
    intro side held
    have before := records.finished side held
    show held ∈ (update history.returned call.side _ side).map Prod.fst ↔
      held < queue.position side ∧ _
    by_cases same : side = call.side
    · subst same
      rw [update_self, map_append, mem_append, before]
      simp only [map_cons, map_nil, mem_singleton, true_and]
      grind
    · rw [update_of_ne same, before]
      simp [same]
  once := by
    intro side
    show ((update history.returned call.side _ side).map Prod.fst).Nodup
    by_cases same : side = call.side
    · subst same
      have new : pos ∉ (history.returned call.side).map Prod.fst :=
        fun member => ((records.finished _ pos).1 member).2 holds
      rw [update_self, map_append]
      exact (records.once _).append (nodup_singleton pos) (disjoint_singleton.2 new)
    · rw [update_of_ne same]
      exact records.once side

end MpmcQueue

/-- What holds between two events. -/
structure MpmcState.Consistent (size : Nat) (state : MpmcState α) : Prop where
  sound : (state.queue.ring state.threads).Sound size
  heldOnce : HeldOnce state.threads
  records : state.queue.Records size state.history (holding state.threads)
  knows : ∀ thread, state.queue.Knows size state.history (state.threads thread)

namespace MpmcState

open MpmcQueue

variable {size thread pos : Nat} {state : MpmcState α} {call : MpmcCall α}

section Consistent

variable (consistent : state.Consistent size)
include consistent

/-- An access that changes nothing that is shared. -/
theorem Consistent.move {next : MpmcThread α} (same : next.held = (state.threads thread).held)
    (knows : state.queue.Knows size state.history next) :
    Consistent size { state with threads := update state.threads thread next } where
  sound := by
    rw [ring, holding_update_same same]
    exact consistent.sound
  heldOnce := consistent.heldOnce.update_same same
  records := by
    rw [holding_update_same same]
    exact consistent.records
  knows := (forall_update_iff _ fun _ other => Knows size _ _ other).2
    ⟨knows, fun other _ => consistent.knows other⟩

theorem Consistent.claim (claiming : state.threads thread = .claiming call pos)
    (next : state.queue.position call.side = pos) :
    Consistent size
      ⟨state.queue.claim pos call, update state.threads thread (.claimed call pos),
        state.history.claim pos call⟩ := by
  have free : (state.threads thread).held = none := by rw [claiming]; rfl
  have ready : call.side.ready pos ≤ state.queue.seq (pos % size) := by
    have knows := consistent.knows thread
    rwa [claiming] at knows
  have new : ¬ holding state.threads call.side pos := by
    intro holds
    have counted : pos < state.queue.position call.side := (consistent.sound.held _ _ holds).1
    omega
  refine ⟨?_, consistent.heldOnce.update_claim rfl new, ?_, ?_⟩
  · rw [ring_claim state.queue free]
    exact consistent.sound.claim next ready
  · rw [holding_update_claim free rfl]
    exact consistent.records.claim next
  · refine (forall_update_iff _ fun _ other => Knows size _ _ other).2
      ⟨?_, fun other _ => Knows.claim (consistent.knows other) pos call⟩
    cases call with
    | enqueue data =>
      have length : state.history.inputs.length = pos := consistent.records.inputs.trans next
      show (state.history.inputs ++ [data])[pos]? = some data
      rw [← length, getElem?_concat_length]
    | dequeue => trivial

theorem Consistent.holder (holds : (state.threads thread).held = some (call.side, pos)) :
    pos < state.queue.position call.side ∧ state.queue.seq (pos % size) = call.side.ready pos :=
  consistent.sound.held call.side pos ⟨thread, holds⟩

/-- The data goes to a node that nobody reads, and that no other thread writes. -/
theorem Consistent.store {data : α}
    (claimed : state.threads thread = .claimed (.enqueue data) pos) :
    Consistent size
      ⟨{ state.queue with data := update state.queue.data (pos &&& state.queue.mask) data },
        update state.threads thread (.accessed (.enqueue data) pos data), state.history⟩ := by
  have holds : (state.threads thread).held = some (.put, pos) := by rw [claimed]; rfl
  have same : (MpmcThread.accessed (.enqueue data) pos data).held = (state.threads thread).held :=
    holds.symm
  have ready : state.queue.seq (pos % size) = pos := (consistent.sound.held .put pos ⟨_, holds⟩).2
  have place := consistent.records.mask.2 pos
  have large := consistent.sound.large
  rw [place]
  refine ⟨?_, consistent.heldOnce.update_same same, ?_, ?_⟩
  · rw [ring, holding_update_same same]
    exact consistent.sound
  · rw [holding_update_same same]
    obtain ⟨mask, claims, inputs, published, values, finished, once⟩ := consistent.records
    refine ⟨mask, claims, inputs, fun held full => ?_, values, finished, once⟩
    have apart : held % size ≠ pos % size := by
      intro equal
      have number : held + 1 = pos := by rw [← ready, ← equal]; exact full.symm
      exact succ_mod_ne large held (by rw [number, equal])
    rw [published held full]
    exact congrArg some (update_of_ne apart ..).symm
  · refine (forall_update_iff _ fun _ other => Knows size _ _ other).2 ⟨?_, ?_⟩
    · have knows := consistent.knows thread
      rw [claimed] at knows
      exact ⟨knows, fun _ => update_self ..⟩
    · intro other different
      have knows := consistent.knows other
      cases at' : state.threads other with
      | claiming call held => rw [at'] at knows; exact knows
      | claimed call held =>
        rw [at'] at knows
        cases call <;> exact knows
      | accessed call held value =>
        rw [at'] at knows
        refine ⟨knows.1, fun putting => Eq.trans ?_ (knows.2 putting)⟩
        have otherHolds : (state.threads other).held = some (.put, held) := by
          rw [at', ← putting]
          rfl
        apply update_of_ne
        intro equal
        have number := (consistent.sound.held .put held ⟨_, otherHolds⟩).2
        have number : state.queue.seq (held % size) = held := number
        rw [equal, ready] at number
        exact different (consistent.heldOnce other thread _ otherHolds (number ▸ holds))
      | _ => trivial

theorem Consistent.finish {data : α} (accessed : state.threads thread = .accessed call pos data) :
    Consistent size
      ⟨state.queue.finish call pos, update state.threads thread .idle,
        state.history.finish call pos data⟩ := by
  have holds : (state.threads thread).held = some (call.side, pos) := by rw [accessed]; rfl
  have knows := consistent.knows thread
  rw [accessed] at knows
  have release := holding_update_release consistent.heldOnce holds
    (show (MpmcThread.idle : MpmcThread α).held = none from rfl)
  have seq : (state.queue.finish call pos).seq =
      ((state.queue.ring state.threads).release size call.side pos).seq := by
    rw [MpmcQueue.finish, consistent.records.mask.2, call.stored_eq, consistent.records.mask.1]
    rfl
  refine ⟨?_, consistent.heldOnce.update_release rfl, ?_, ?_⟩
  · rw [ring, release, seq]
    exact consistent.sound.release ⟨thread, holds⟩
  · rw [release]
    exact consistent.records.finish consistent.sound.large ⟨thread, holds⟩
      (consistent.holder holds).1 knows
  · refine (forall_update_iff _ fun _ other => Knows size _ _ other).2
      ⟨trivial, fun other _ => ?_⟩
    have knows := consistent.knows other
    cases at' : state.threads other with
    | claiming call held =>
      rw [at'] at knows
      rw [Knows, seq]
      exact Nat.le_trans knows (consistent.sound.seq_le_release ⟨thread, holds⟩ _)
    | claimed call held =>
      rw [at'] at knows
      cases call <;> exact knows
    | accessed call held value => rw [at'] at knows; exact knows
    | _ => trivial

theorem Consistent.access (thread : Nat) (spurious : Bool) :
    (state.step (.access thread spurious)).Consistent size := by
  rw [step]
  cases at' : state.threads thread with
  | idle => exact consistent.move (by rw [at']; rfl) trivial
  | loading call => exact consistent.move (by rw [at']; rfl) trivial
  | positioned call pos =>
    dsimp only [MpmcQueue.access]
    split
    next ready =>
      refine consistent.move (by rw [at']; rfl) ?_
      rw [consistent.records.mask.2, call.expected_eq] at ready
      show call.side.ready pos ≤ state.queue.seq (pos % size)
      omega
    next =>
      split
      · exact consistent.move (by rw [at']; rfl) trivial
      · exact consistent.move (by rw [at']; rfl) trivial
  | claiming call pos =>
    dsimp only [MpmcQueue.access]
    split
    next => exact consistent.move (by rw [at']; rfl) trivial
    next succeeds =>
      rw [not_or, not_not] at succeeds
      exact consistent.claim at' succeeds.2
  | claimed call pos =>
    cases call with
    | enqueue data => exact consistent.store at'
    | dequeue =>
      have holds : (state.threads thread).held = some (.take, pos) := by rw [at']; rfl
      refine consistent.move holds.symm ⟨?_, fun putting => by cases putting⟩
      have ready := (consistent.sound.held .take pos ⟨thread, holds⟩).2
      rw [consistent.records.mask.2]
      exact consistent.records.published pos ready
  | accessed call pos data => exact consistent.finish at'

theorem Consistent.step (event : MpmcEvent α) : (state.step event).Consistent size := by
  cases event with
  | access thread spurious => exact consistent.access thread spurious
  | call thread call =>
    rw [MpmcState.step]
    split
    next idle => exact consistent.move (by rw [idle]; rfl) trivial
    next => exact consistent

end Consistent

theorem consistent_run (size : Nat) (data : Nat → α) (events : List (MpmcEvent α)) :
    (run size data events).Consistent (nextPow2 size) := by
  induction events using List.reverseRecOn with
  | nil =>
    have large := two_le_nextPow2 size
    have free : holding (fun _ : Nat => (MpmcThread.idle : MpmcThread α)) =
        fun _ _ => False := by
      funext side pos
      simp [holding, MpmcThread.held]
    have position : (MpmcQueue.new size data).position = fun _ => 0 := by
      funext side
      cases side <;> rfl
    refine ⟨?_, ?_, ⟨⟨?_, and_mask size⟩, ?_, rfl, ?_, ?_, ?_, ?_⟩, fun _ => trivial⟩
    · show TicketRing.Sound _ ⟨id, (MpmcQueue.new size data).position, holding fun _ => .idle⟩
      rw [position, free]
      exact TicketRing.sound_new large
    · rintro thread other ticket ⟨⟩
    · show nextPow2 size - 1 + 1 = nextPow2 size
      omega
    · intro side
      show [] = List.range ((MpmcQueue.new size data).position side)
      rw [position, range_zero]
    · intro pos full
      have full : pos % nextPow2 size = pos + 1 := full
      have small := Nat.mod_le pos (nextPow2 size)
      omega
    · rintro side entry ⟨⟩
    · intro side pos
      show pos ∈ [] ↔ pos < (MpmcQueue.new size data).position side ∧ _
      simp [position]
    · exact fun _ => nodup_nil
  | append_singleton events event consistent =>
    rw [run, foldl_append]
    exact consistent.step event

/-! ## A bounded queue -/

/-- Positions are claimed by `enqueue` and by `dequeue` one after the other, with at most the size of
the ring between them; a call that returned has the value that was put in at its position, which no
other call of its kind has; what was taken was put in; and when all threads are outside, the values
between the head and the tail are those that were put in and not taken, in the order of their
positions. -/
structure BoundedFifo (size : Nat) (state : MpmcState α) : Prop where
  claims : ∀ side, state.history.claims side = List.range (state.queue.position side)
  bounded : state.queue.tail ≤ state.queue.head + size
  values : ∀ side, ∀ entry ∈ state.history.returned side, state.history.inputs[entry.1]? = some entry.2
  once : ∀ side, ((state.history.returned side).map Prod.fst).Nodup
  taken : state.history.returned .take ⊆ state.history.returned .put
  quiescent : (∀ thread, state.threads thread = .idle) →
    state.queue.content = state.history.inputs.drop state.queue.head ∧
      ((state.history.returned .put).map Prod.snd).Perm
        ((state.history.returned .take).map Prod.snd ++ state.queue.content)

/-- Calls with the positions below a count and the values of these positions have the values below
the count. -/
theorem perm_take {inputs : List α} {entries : List (Nat × α)} {count : Nat}
    (values : ∀ entry ∈ entries, inputs[entry.1]? = some entry.2)
    (positions : (entries.map Prod.fst).Perm (List.range count)) (within : count ≤ inputs.length) :
    (entries.map Prod.snd).Perm (inputs.take count) := by
  have valued : (entries.map Prod.fst).map (inputs[·]?) = (entries.map Prod.snd).map some := by
    rw [map_map, map_map]
    exact map_congr_left values
  have all : (List.range count).map (inputs[·]?) = (inputs.take count).map some := by
    apply ext_getElem
    · simp [within]
    · intro i _ _
      simp
  have options := positions.map (inputs[·]?)
  rw [valued, all] at options
  exact (map_perm_map_iff (Option.some_injective α)).1 options

/-- After any events of any threads the queue is a bounded queue of the values in the order of their
positions. -/
theorem run_boundedFifo (size : Nat) (data : Nat → α) (events : List (MpmcEvent α)) :
    BoundedFifo (nextPow2 size) (run size data events) := by
  obtain ⟨sound, heldOnce, records, knows⟩ := consistent_run size data events
  generalize run size data events = state at sound heldOnce records knows
  have order : state.queue.head ≤ state.queue.tail := sound.order
  refine ⟨records.claims, sound.bounded, records.values, records.once, ?_, fun idle => ?_⟩
  · intro entry member
    obtain ⟨counted, -⟩ := (records.finished .take entry.1).1 (mem_map_of_mem member)
    have counted : entry.1 < state.queue.head := counted
    have put : entry.1 ∈ (state.history.returned .put).map Prod.fst := by
      refine (records.finished .put entry.1).2 ⟨Nat.lt_of_lt_of_le counted order, fun holds => ?_⟩
      have waiting := (sound.free_of_seq (sound.held .put entry.1 holds).2).notTaken
      exact absurd counted (Nat.not_lt_of_le waiting)
    obtain ⟨other, returned, same⟩ := mem_map.1 put
    have value := records.values .put other returned
    rw [same, records.values .take entry member] at value
    have equal : other = entry := Prod.ext same (Option.some.inj value).symm
    exact equal ▸ returned
  · have free : ∀ side pos, ¬ holding state.threads side pos := by
      rintro side pos ⟨thread, holds⟩
      rw [idle thread] at holds
      cases holds
    have positions (side : TicketSide) : ((state.history.returned side).map Prod.fst).Perm
        (List.range (state.queue.position side)) := by
      refine (perm_ext_iff_of_nodup (records.once side) nodup_range).2 fun pos => ?_
      rw [records.finished side pos, mem_range]
      exact and_iff_left (free side pos)
    have content : state.queue.content = state.history.inputs.drop state.queue.head := by
      apply ext_getElem?
      intro i
      rw [MpmcQueue.content, getElem?_map, getElem?_drop]
      by_cases within : i < state.queue.tail - state.queue.head
      · have counted : state.queue.head + i < state.queue.tail := by omega
        have full : (state.queue.ring state.threads).Full _ (state.queue.head + i) :=
          sound.full_of_not_holding free (Nat.le_add_right _ i) counted
        rw [records.published _ full.seq, getElem?_range' within, Nat.one_mul, Option.map_some,
          records.mask.2]
      · have length := records.inputs
        rw [getElem?_eq_none (by simp; omega), getElem?_eq_none (by omega)]
        rfl
    refine ⟨content, ?_⟩
    have put := perm_take (records.values .put) (positions .put) (Nat.le_of_eq records.inputs.symm)
    have taken := perm_take (records.values .take) (positions .take)
      (Nat.le_trans order (Nat.le_of_eq records.inputs.symm))
    rw [show state.queue.position .put = state.history.inputs.length from records.inputs.symm,
      take_length] at put
    rw [content]
    refine put.trans (List.Perm.trans (.of_eq ?_) (taken.symm.append_right _))
    exact (take_append_drop ..).symm

end MpmcState

end DseDriver.Queues
