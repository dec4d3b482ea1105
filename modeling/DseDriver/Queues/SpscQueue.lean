import DseDriver.HashTable.Table
import DseDriver.Lib.TicketRing

/-!
# The queue of one producer and one consumer

Each thread of an `SPSCQueue` is between two accesses to what they share, and an event is the next
access of one of them.  A history keeps what the threads see of the queue: the inputs of the calls
of `enqueue` that returned true, and the outputs of those of `dequeue`.
-/

namespace DseDriver.Queues

open HashTable Lib List

variable {α : Type*}

/-! ## Rings -/

theorem two_le_nextPow2 (num : Nat) : 2 ≤ nextPow2 num := by
  have large := (nextPow2_spec num).2
  by_cases small : num ≤ 2
  · rw [nextPow2, nextPow2Loop, if_neg (by omega)]
  · omega

/-- The mask of a ring takes positions to places. -/
theorem and_mask (num pos : Nat) : pos &&& (nextPow2 num - 1) = pos % nextPow2 num := by
  obtain ⟨exponent, power⟩ := (nextPow2_spec num).1
  rw [power, Nat.and_two_pow_sub_one_eq_mod]

/-! ## The queue -/

/-- Where the producer is in `enqueue`: outside, or before the load of the head, before the store of
the input, before the store of the tail. -/
inductive SpscProducer (α : Type*) where
  | idle
  | loaded (input : α) (pos : Nat)
  | free (input : α) (pos nextPos : Nat)
  | stored (input : α) (nextPos : Nat)

/-- The input of the call the producer is in. -/
def SpscProducer.input : SpscProducer α → Option α
  | .idle => none
  | .loaded input _ | .free input _ _ | .stored input _ => some input

/-- Where the consumer is in `dequeue`: outside, or before the load of the tail, before the load of
the output, before the store of the head. -/
inductive SpscConsumer (α : Type*) where
  | idle
  | loaded (pos : Nat)
  | filled (pos : Nat)
  | taken (output : α) (pos : Nat)

/-- What the threads share. -/
structure SpscQueue (α : Type*) where
  mask : Nat
  buffer : Nat → α
  tail : Nat
  head : Nat

/-- The queue and its two threads. -/
structure SpscState (α : Type*) where
  queue : SpscQueue α
  producer : SpscProducer α
  consumer : SpscConsumer α

/-- The next access of a thread; a producer that is outside calls `enqueue` with the input. -/
inductive SpscEvent (α : Type*) where
  | enqueue (input : α)
  | dequeue

/-- The constructed queue; what is in the buffer is arbitrary. -/
def SpscQueue.new (size : Nat) (buffer : Nat → α) : SpscQueue α :=
  { mask := nextPow2 size - 1, buffer, tail := 0, head := 0 }

namespace SpscState

/-- The next access of the producer, and what the call returns if it ends. -/
def enqueue (state : SpscState α) (input : α) : SpscState α × Option Bool :=
  let queue := state.queue
  match state.producer with
  | .idle => ({ state with producer := .loaded input queue.tail }, none)
  | .loaded input pos =>
    let nextPos := (pos + 1) &&& queue.mask
    if nextPos = queue.head then
      ({ state with producer := .idle }, some false)
    else
      ({ state with producer := .free input pos nextPos }, none)
  | .free input pos nextPos =>
    ({ state with
      queue := { queue with buffer := Function.update queue.buffer pos input }
      producer := .stored input nextPos }, none)
  | .stored _ nextPos =>
    ({ state with
      queue := { queue with tail := nextPos }
      producer := .idle }, some true)

/-- The next access of the consumer, and the output if the call ends, which is absent when it returns
false. -/
def dequeue (state : SpscState α) : SpscState α × Option (Option α) :=
  let queue := state.queue
  match state.consumer with
  | .idle => ({ state with consumer := .loaded queue.head }, none)
  | .loaded pos =>
    if pos = queue.tail then
      ({ state with consumer := .idle }, some none)
    else
      ({ state with consumer := .filled pos }, none)
  | .filled pos => ({ state with consumer := .taken (queue.buffer pos) pos }, none)
  | .taken output pos =>
    ({ state with
      queue := { queue with head := (pos + 1) &&& queue.mask }
      consumer := .idle }, some (some output))

end SpscState

/-- A queue with what its calls have returned. -/
structure SpscHistory (α : Type*) where
  state : SpscState α
  /-- The input of the call of `enqueue` that has not returned. -/
  calling : Option α
  /-- The inputs of the calls of `enqueue` that returned true. -/
  enqueued : List α
  /-- The outputs of the calls of `dequeue` that returned true. -/
  dequeued : List α

namespace SpscHistory

/-- One access, with what the call returns if it ends. -/
def step (history : SpscHistory α) : SpscEvent α → SpscHistory α
  | .enqueue input =>
    let input := history.calling.getD input
    let next := history.state.enqueue input
    { history with
      state := next.1
      calling := if next.2 = none then some input else none
      enqueued := if next.2 = some true then history.enqueued ++ [input] else history.enqueued }
  | .dequeue =>
    let next := history.state.dequeue
    { history with
      state := next.1
      dequeued := history.dequeued ++ next.2.join.toList }

/-- The history of a constructed queue after some events. -/
def run (size : Nat) (buffer : Nat → α) (events : List (SpscEvent α)) : SpscHistory α :=
  events.foldl step ⟨⟨.new size buffer, .idle, .idle⟩, none, [], []⟩

end SpscHistory

/-! ## What holds between the accesses -/

namespace SpscQueue

/-- The queue is the part of what was put in that was not taken out, in its places of the ring. -/
structure Holds (size : Nat) (queue : SpscQueue α) (enqueued dequeued : List α) : Prop where
  mask : ∀ pos, pos &&& queue.mask = pos % size
  tail : queue.tail = enqueued.length % size
  head : queue.head = dequeued.length % size
  order : dequeued <+: enqueued
  room : enqueued.length < dequeued.length + size
  content : ∀ i, dequeued.length ≤ i → i < enqueued.length →
    enqueued[i]? = some (queue.buffer (i % size))

variable {size : Nat} {queue : SpscQueue α} {enqueued dequeued : List α}

theorem holds_new (size : Nat) (buffer : Nat → α) :
    (new size buffer).Holds (nextPow2 size) [] [] where
  mask := and_mask size
  tail := rfl
  head := rfl
  order := prefix_rfl
  room := by
    have large := two_le_nextPow2 size
    rw [length_nil]
    omega
  content := by simp

section Holds

variable (holds : queue.Holds size enqueued dequeued)
include holds

/-- The tail and the head are one place apart in a ring that is full. -/
theorem Holds.full_iff : (enqueued.length + 1) % size = queue.head ↔
      enqueued.length + 1 = dequeued.length + size := by
  have room := holds.room
  have order := holds.order.length_le
  rw [holds.head]
  constructor
  · intro same
    have wrapped : (enqueued.length + 1) % size = (dequeued.length + size) % size := by
      rw [same, Nat.add_mod_right]
    exact eq_of_mod_eq (dequeued.length + 1) wrapped (by omega) (by omega) (by omega) (by omega)
  · intro full
    rw [full, Nat.add_mod_right]

theorem Holds.empty_iff : queue.head = queue.tail ↔ dequeued = enqueued := by
  have room := holds.room
  have order := holds.order.length_le
  rw [holds.head, holds.tail]
  constructor
  · intro same
    exact holds.order.eq_of_length
      (eq_of_mod_eq _ same (Nat.le_refl _) (by omega) order (by omega))
  · intro empty
    rw [empty]

/-- The store of the input goes to a place that holds nothing. -/
theorem Holds.store (input : α) :
    Holds size { queue with buffer := Function.update queue.buffer queue.tail input }
      enqueued dequeued where
  mask := holds.mask
  tail := holds.tail
  head := holds.head
  order := holds.order
  room := holds.room
  content := by
    intro i notTaken put
    have apart : i % size ≠ queue.tail := by
      have room := holds.room
      rw [holds.tail]
      intro same
      have last := eq_of_mod_eq dequeued.length same notTaken (by omega) (by omega) room
      omega
    rw [holds.content i notTaken put]
    exact congrArg some (Function.update_of_ne apart input queue.buffer).symm

/-- The store of the tail puts what was stored at its place into the queue. -/
theorem Holds.put {input : α} {nextPos : Nat} (nextTail : nextPos = (enqueued.length + 1) % size)
    (room : enqueued.length + 1 < dequeued.length + size)
    (stored : queue.buffer queue.tail = input) :
    Holds size { queue with tail := nextPos } (enqueued ++ [input]) dequeued where
  mask := holds.mask
  tail := by rw [nextTail, length_append, length_singleton]
  head := holds.head
  order := holds.order.trans (prefix_append _ _)
  room := by
    rw [length_append, length_singleton]
    exact room
  content := by
    intro i notTaken put
    rw [length_append, length_singleton] at put
    rcases Nat.lt_succ_iff_lt_or_eq.1 put with before | last
    · rw [getElem?_append_left before]
      exact holds.content i notTaken before
    · rw [last, getElem?_concat_length, ← holds.tail, stored]

/-- The store of the head takes the first value out of the queue. -/
theorem Holds.take {output : α} (first : enqueued[dequeued.length]? = some output) :
    Holds size { queue with head := (queue.head + 1) &&& queue.mask } enqueued
      (dequeued ++ [output]) where
  mask := holds.mask
  tail := holds.tail
  head := by
    rw [holds.mask, holds.head, Nat.mod_add_mod, length_append, length_singleton]
  order := by
    obtain ⟨rest, split⟩ := holds.order
    rw [← split, getElem?_append_right (Nat.le_refl _), Nat.sub_self] at first
    cases rest with
    | nil => cases first
    | cons value rest =>
      cases first
      exact ⟨rest, by rw [← split, append_assoc]; rfl⟩
  room := by
    have room := holds.room
    rw [length_append, length_singleton]
    omega
  content := by
    intro i notTaken put
    rw [length_append] at notTaken
    exact holds.content i (by omega) put

end Holds

end SpscQueue

namespace SpscHistory

open SpscQueue

variable {size : Nat} {queue : SpscQueue α} {enqueued dequeued : List α} {history : SpscHistory α}

/-- What the producer knows; the consumer can only make more room. -/
def ProducerKnows (size : Nat) (queue : SpscQueue α) (enqueued dequeued : List α) :
    SpscProducer α → Prop
  | .idle => True
  | .loaded _ pos => pos = queue.tail
  | .free _ pos nextPos => pos = queue.tail ∧ nextPos = (enqueued.length + 1) % size ∧
      enqueued.length + 1 < dequeued.length + size
  | .stored input nextPos => nextPos = (enqueued.length + 1) % size ∧
      enqueued.length + 1 < dequeued.length + size ∧ queue.buffer queue.tail = input

/-- What the consumer knows; the producer can only put more in. -/
def ConsumerKnows (queue : SpscQueue α) (enqueued dequeued : List α) : SpscConsumer α → Prop
  | .idle => True
  | .loaded pos => pos = queue.head
  | .filled pos => pos = queue.head ∧ dequeued.length < enqueued.length
  | .taken output pos => pos = queue.head ∧ enqueued[dequeued.length]? = some output

/-- What holds in a run. -/
structure Consistent (size : Nat) (history : SpscHistory α) : Prop where
  holds : history.state.queue.Holds size history.enqueued history.dequeued
  producing : ProducerKnows size history.state.queue history.enqueued history.dequeued
    history.state.producer
  consuming : ConsumerKnows history.state.queue history.enqueued history.dequeued
    history.state.consumer
  calling : history.calling = history.state.producer.input

theorem ConsumerKnows.put {consumer : SpscConsumer α}
    (knows : ConsumerKnows queue enqueued dequeued consumer) (nextPos : Nat) (input : α) :
    ConsumerKnows { queue with tail := nextPos } (enqueued ++ [input]) dequeued consumer := by
  cases consumer with
  | idle => trivial
  | loaded pos => exact knows
  | filled pos =>
    refine ⟨knows.1, ?_⟩
    rw [length_append]
    exact Nat.lt_add_right 1 knows.2
  | taken output pos =>
    refine ⟨knows.1, ?_⟩
    have present := (List.getElem?_eq_some_iff.1 knows.2).1
    rw [getElem?_append_left present]
    exact knows.2

theorem ProducerKnows.take {producer : SpscProducer α}
    (knows : ProducerKnows size queue enqueued dequeued producer) (head : Nat) (output : α) :
    ProducerKnows size { queue with head } enqueued (dequeued ++ [output]) producer := by
  have more : dequeued.length ≤ (dequeued ++ [output]).length := by simp
  cases producer with
  | idle => trivial
  | loaded input pos => exact knows
  | free input pos nextPos =>
    obtain ⟨same, next, room⟩ := knows
    exact ⟨same, next, Nat.lt_of_lt_of_le room (Nat.add_le_add_right more size)⟩
  | stored input nextPos =>
    obtain ⟨next, room, stored⟩ := knows
    exact ⟨next, Nat.lt_of_lt_of_le room (Nat.add_le_add_right more size), stored⟩

theorem Consistent.enqueue (consistent : history.Consistent size) (input : α) :
    (history.step (.enqueue input)).Consistent size := by
  obtain ⟨⟨queue, producer, consumer⟩, calling, enqueued, dequeued⟩ := history
  obtain ⟨holds, producing, consuming, called⟩ := consistent
  dsimp only at holds producing consuming called
  subst called
  unfold step SpscState.enqueue
  cases producer with
  | idle => exact ⟨holds, rfl, consuming, rfl⟩
  | loaded input pos =>
    have next : (pos + 1) &&& queue.mask = (enqueued.length + 1) % size := by
      rw [holds.mask, show pos = queue.tail from producing, holds.tail, Nat.mod_add_mod]
    dsimp only
    split
    · exact ⟨holds, trivial, consuming, rfl⟩
    next notFull =>
      have room := holds.room
      rw [next, holds.full_iff] at notFull
      have free : enqueued.length + 1 < dequeued.length + size := by omega
      exact ⟨holds, ⟨producing, next, free⟩, consuming, rfl⟩
  | free input pos nextPos =>
    obtain ⟨rfl, next, room⟩ := producing
    exact ⟨holds.store input, ⟨next, room, Function.update_self ..⟩, consuming, rfl⟩
  | stored input nextPos =>
    obtain ⟨next, room, stored⟩ := producing
    exact ⟨holds.put next room stored, trivial, consuming.put nextPos input, rfl⟩

theorem Consistent.dequeue (consistent : history.Consistent size) :
    (history.step .dequeue).Consistent size := by
  obtain ⟨⟨queue, producer, consumer⟩, calling, enqueued, dequeued⟩ := history
  obtain ⟨holds, producing, consuming, called⟩ := consistent
  dsimp only at holds producing consuming
  unfold step SpscState.dequeue
  cases consumer with
  | idle => exact ⟨by simpa using holds, by simpa using producing, rfl, called⟩
  | loaded pos =>
    dsimp only
    split
    · exact ⟨by simpa using holds, by simpa using producing, trivial, called⟩
    next notEmpty =>
      rw [show pos = queue.head from consuming, holds.empty_iff] at notEmpty
      have order := holds.order.length_le
      have less : dequeued.length < enqueued.length :=
        Nat.lt_of_le_of_ne order fun same => notEmpty (holds.order.eq_of_length same)
      exact ⟨by simpa using holds, by simpa using producing, by simpa using ⟨consuming, less⟩,
        called⟩
  | filled pos =>
    obtain ⟨rfl, less⟩ := consuming
    have first : enqueued[dequeued.length]? = some (queue.buffer queue.head) := by
      rw [holds.content _ (Nat.le_refl _) less, holds.head]
    exact ⟨by simpa using holds, by simpa using producing, by simpa using ⟨rfl, first⟩, called⟩
  | taken output pos =>
    obtain ⟨rfl, first⟩ := consuming
    exact ⟨holds.take first, producing.take _ output, trivial, called⟩

theorem consistent_run (size : Nat) (buffer : Nat → α) (events : List (SpscEvent α)) :
    (run size buffer events).Consistent (nextPow2 size) := by
  induction events using List.reverseRecOn with
  | nil => exact ⟨holds_new size buffer, trivial, trivial, rfl⟩
  | append_singleton events event consistent =>
    rw [run, foldl_append]
    cases event with
    | enqueue input => exact consistent.enqueue input
    | dequeue => exact consistent.dequeue

/-- `dequeue` fails with the load of the tail, which finds nothing in the queue. -/
theorem Consistent.dequeue_fails (consistent : history.Consistent size)
    (fails : history.state.dequeue.2 = some none) : history.dequeued = history.enqueued := by
  obtain ⟨⟨queue, producer, consumer⟩, calling, enqueued, dequeued⟩ := history
  obtain ⟨holds, producing, consuming, called⟩ := consistent
  rw [SpscState.dequeue] at fails
  cases consumer with
  | loaded pos =>
    dsimp only at fails
    split at fails
    next empty => exact holds.empty_iff.1 (consuming.symm.trans empty)
    next => cases fails
  | _ => cases fails

theorem Consistent.enqueue_fails (consistent : history.Consistent size) {input : α}
    (fails : (history.state.enqueue input).2 = some false) :
    history.enqueued.length + 1 = history.dequeued.length + size := by
  obtain ⟨⟨queue, producer, consumer⟩, calling, enqueued, dequeued⟩ := history
  obtain ⟨holds, producing, consuming, called⟩ := consistent
  rw [SpscState.enqueue] at fails
  cases producer with
  | loaded input pos =>
    dsimp only at fails
    split at fails
    next full =>
      rw [holds.mask, show pos = queue.tail from producing, holds.tail, Nat.mod_add_mod] at full
      exact holds.full_iff.1 full
    next => cases fails
  | _ => cases fails

/-- After any accesses of the producer and the consumer the outputs of `dequeue` are a prefix of the
inputs that `enqueue` returned true for, an access with which `dequeue` fails finds that all of them
were taken out, and one with which `enqueue` fails finds one value less than the size in the
queue. -/
theorem run_fifo (size : Nat) (buffer : Nat → α) (events : List (SpscEvent α)) :
    (run size buffer events).dequeued <+: (run size buffer events).enqueued ∧
      ((run size buffer events).state.dequeue.2 = some none →
        (run size buffer events).dequeued = (run size buffer events).enqueued) ∧
      (∀ input, ((run size buffer events).state.enqueue input).2 = some false →
        (run size buffer events).enqueued.length =
          (run size buffer events).dequeued.length + (nextPow2 size - 1)) := by
  have consistent := consistent_run size buffer events
  refine ⟨consistent.holds.order, consistent.dequeue_fails, ?_⟩
  intro input fails
  have full := consistent.enqueue_fails fails
  have large := two_le_nextPow2 size
  omega

end SpscHistory

end DseDriver.Queues
