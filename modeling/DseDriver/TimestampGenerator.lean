import Mathlib.Logic.Function.Basic
import DseDriver.Lib.Runs

/-!
# Client timestamps from several threads

`MonotonicTimestampGenerator::next` is a loop over an atomic word that any number of threads run
at once.  A run interleaves their accesses to the two atomic words and their readings of the two
clocks in any order, and the clocks may go back.  Each value that is handed out is greater than
all values before it.
-/

namespace DseDriver

open Lib List Function

/-- Where a thread is in `next` and `compute_next`. -/
inductive TimestampPhase where
  /-- At the head of the loop. -/
  | entered
  | loaded (last : Int64)
  /-- The last timestamp is ahead of the clock by more than the threshold. -/
  | skewed (last current : Int64)
  | timed (last current now : Int64)
  | warning (last current now lastWarning : Int64)
  /-- About to exchange the last timestamp. -/
  | computed (last next : Int64)
  deriving DecidableEq, Repr

/-- A call that has handed out its value, with the moments of its first and last event. -/
structure TimestampCall where
  started : Nat
  returned : Nat
  value : Int64
  deriving DecidableEq, Repr

/-- A generator that is used by threads.  `moment` counts the events; the completed calls are
kept, newest first, and so are the current time and the last timestamp of each warning. -/
structure MonotonicTimestampGenerator where
  last : Int64
  lastWarning : Int64
  warningThresholdUs : Int64
  warningIntervalMs : Int64
  /-- The moment at which the call of a thread has started, and where it is. -/
  running : Nat → Option (Nat × TimestampPhase)
  moment : Nat
  completed : List TimestampCall
  warnings : List (Int64 × Int64)

/-- What a thread does next. -/
inductive TimestampEvent where
  | call (thread : Nat)
  | readClock (thread : Nat) (microseconds : UInt64)
  | readMonotonicClock (thread : Nat) (nanoseconds : UInt64)
  | access (thread : Nat)
  deriving DecidableEq, Repr

namespace MonotonicTimestampGenerator

variable (gen : MonotonicTimestampGenerator)

def new (warningThresholdUs warningIntervalMs : Int64) : MonotonicTimestampGenerator :=
  { last := 0
    lastWarning := 0
    warningThresholdUs
    warningIntervalMs := if warningIntervalMs < 0 then 0 else warningIntervalMs
    running := fun _ => none
    moment := 0
    completed := []
    warnings := [] }

def nanosecondsPerMillisecond : UInt64 := 1000000

/-- The thread goes on with its call at the given point. -/
def goTo (thread started : Nat) (phase : TimestampPhase) : MonotonicTimestampGenerator :=
  { gen with running := Function.update gen.running thread (some (started, phase)) }

/-- `compute_next` from the reading of the clock to the next access. -/
def compare (last current : Int64) : TimestampPhase :=
  if last ≥ current then
    if gen.warningThresholdUs ≥ 0 ∧ last > current + gen.warningThresholdUs then
      .skewed last current
    else
      .computed last (last + 1)
  else
    .computed last current

/-- The accesses of the atomic words.  The value is counted as returned at the exchange, after
which a call does nothing that another thread could see. -/
def accessWord (thread started : Nat) : TimestampPhase → MonotonicTimestampGenerator
  | .entered => gen.goTo thread started (.loaded gen.last)
  | .timed last current now =>
    if now > gen.lastWarning + gen.warningIntervalMs then
      gen.goTo thread started (.warning last current now gen.lastWarning)
    else
      gen.goTo thread started (.computed last (last + 1))
  | .warning last current now lastWarning =>
    if gen.lastWarning = lastWarning then
      { gen with
        lastWarning := now
        warnings := (current, last) :: gen.warnings }.goTo thread started
          (.computed last (last + 1))
    else
      gen.goTo thread started (.computed last (last + 1))
  | .computed last next =>
    if gen.last = last then
      { gen with
        last := next
        running := Function.update gen.running thread none
        completed := ⟨started, gen.moment, next⟩ :: gen.completed }
    else
      gen.goTo thread started .entered
  | .loaded _ | .skewed _ _ => gen

/-- What an event does; a thread that is not at that point does nothing. -/
def perform : TimestampEvent → MonotonicTimestampGenerator
  | .call thread =>
    match gen.running thread with
    | none => gen.goTo thread gen.moment .entered
    | some _ => gen
  | .readClock thread microseconds =>
    match gen.running thread with
    | some (started, .loaded last) =>
      gen.goTo thread started (gen.compare last microseconds.toInt64)
    | _ => gen
  | .readMonotonicClock thread nanoseconds =>
    match gen.running thread with
    | some (started, .skewed last current) =>
      gen.goTo thread started
        (.timed last current (nanoseconds / nanosecondsPerMillisecond).toInt64)
    | _ => gen
  | .access thread =>
    match gen.running thread with
    | some (started, phase) => gen.accessWord thread started phase
    | none => gen

def tick : MonotonicTimestampGenerator :=
  { gen with moment := gen.moment + 1 }

def step (event : TimestampEvent) : MonotonicTimestampGenerator :=
  (gen.perform event).tick

/-- A clock behind the last timestamp leaves a next value.  The sums that only decide on a
warning may wrap. -/
def InRange : TimestampEvent → Prop
  | .readClock thread microseconds => ∀ started last,
      gen.running thread = some (started, .loaded last) → last ≥ microseconds.toInt64 →
        last < Int64.maxValue
  | _ => True

/-- Values are distinct, and a call that has returned before another one starts has the smaller
value. -/
structure StrictlyMonotonic (gen : MonotonicTimestampGenerator) : Prop where
  distinct : (gen.completed.map TimestampCall.value).Nodup
  ordered : ∀ first ∈ gen.completed, ∀ second ∈ gen.completed,
    first.returned < second.started → first.value < second.value

/-! ## Invariant -/

/-- The values that a thread holds. -/
def PhaseFits : TimestampPhase → Prop
  | .computed last next => last < next
  | .skewed last _ | .timed last _ _ | .warning last _ _ _ => last < last + 1
  | .entered | .loaded _ => True

/-- Completed calls are ordered by value and by moment. -/
structure Increasing (gen : MonotonicTimestampGenerator) : Prop where
  running : ∀ thread started phase, gen.running thread = some (started, phase) →
    started < gen.moment ∧ PhaseFits phase
  stamped : ∀ call ∈ gen.completed, call.started < call.returned ∧ call.returned < gen.moment
  bounded : ∀ call ∈ gen.completed, call.value ≤ gen.last
  descending : gen.completed.Pairwise fun later earlier =>
    earlier.value < later.value ∧ earlier.returned < later.returned

theorem lt_add_one {last : Int64} (below : last < Int64.maxValue) : last < last + 1 := by
  have value : (last + 1).toInt = last.toInt + 1 := by
    have low := Int64.minValue_le_toInt last
    have high : last.toInt < 2 ^ 63 - 1 := Int64.lt_iff_toInt_lt.mp below
    rw [Int64.toInt_add]
    exact Int.bmod_eq_of_le (by simp at *; omega) (by simp; omega)
  rw [Int64.lt_iff_toInt_lt, value]
  omega

theorem phaseFits_compare (gen : MonotonicTimestampGenerator) {last current : Int64}
    (fits : last ≥ current → last < Int64.maxValue) : PhaseFits (gen.compare last current) := by
  unfold compare
  split
  next behind =>
    have grows := lt_add_one (fits behind)
    split
    · exact grows
    · exact grows
  next ahead => exact Int64.not_le.mp ahead

namespace Increasing

variable {gen : MonotonicTimestampGenerator}

section Holds

variable (holds : gen.Increasing)
include holds

theorem tick : gen.tick.Increasing :=
  { running := fun thread started phase runs =>
      ⟨Nat.lt_succ_of_lt (holds.running thread started phase runs).1,
        (holds.running thread started phase runs).2⟩
    stamped := fun call member =>
      ⟨(holds.stamped call member).1, Nat.lt_succ_of_lt (holds.stamped call member).2⟩
    bounded := holds.bounded
    descending := holds.descending }

/-- A step that leaves the last timestamp and the completed calls. -/
theorem goTo (thread : Nat) {started : Nat} {phase : TimestampPhase}
    (before : started ≤ gen.moment) (fits : PhaseFits phase) :
    (gen.goTo thread started phase).tick.Increasing := by
  refine { holds.tick with running := ?_ }
  intro other started' phase' runs
  by_cases same : other = thread
  · subst same
    cases (update_self other _ gen.running).symm.trans runs
    exact ⟨Nat.lt_succ_of_le before, fits⟩
  · exact holds.tick.running other started' phase'
      ((update_of_ne same _ gen.running).symm.trans runs)

/-- An exchange that succeeds. -/
theorem complete {thread started : Nat} {next : Int64}
    (before : started < gen.moment) (greater : gen.last < next) :
    ({ gen with
        last := next
        running := Function.update gen.running thread none
        completed := ⟨started, gen.moment, next⟩ :: gen.completed } :
      MonotonicTimestampGenerator).tick.Increasing := by
  refine
    { running := ?_
      stamped := forall_mem_cons.mpr ⟨⟨before, Nat.lt_succ_self _⟩, holds.tick.stamped⟩
      bounded := forall_mem_cons.mpr ⟨Int64.le_refl next, ?_⟩
      descending := pairwise_cons.mpr ⟨?_, holds.descending⟩ }
  · intro other started' phase' runs
    by_cases same : other = thread
    · subst same
      cases (update_self other _ gen.running).symm.trans runs
    · exact holds.tick.running other started' phase'
        ((update_of_ne same _ gen.running).symm.trans runs)
  · intro call member
    exact Int64.le_of_lt (Int64.lt_of_le_of_lt (holds.bounded call member) greater)
  · intro call member
    exact ⟨Int64.lt_of_le_of_lt (holds.bounded call member) greater, (holds.stamped call member).2⟩

theorem accessWord {thread started : Nat} {phase : TimestampPhase}
    (runs : gen.running thread = some (started, phase)) :
    (gen.accessWord thread started phase).tick.Increasing := by
  obtain ⟨before, fits⟩ := holds.running thread started phase runs
  have goTo : ∀ phase, PhaseFits phase → (gen.goTo thread started phase).tick.Increasing :=
    fun phase => holds.goTo thread (Nat.le_of_lt before)
  cases phase with
  | entered => exact goTo _ trivial
  | loaded last => exact holds.tick
  | skewed last current => exact holds.tick
  | timed last current now =>
    rw [MonotonicTimestampGenerator.accessWord]
    split
    · exact goTo _ fits
    · exact goTo _ fits
  | warning last current now lastWarning =>
    rw [MonotonicTimestampGenerator.accessWord]
    split
    · exact { goTo (.computed last (last + 1)) fits with }
    · exact goTo _ fits
  | computed last next =>
    rw [MonotonicTimestampGenerator.accessWord]
    split
    next unchanged => exact holds.complete before (unchanged ▸ fits)
    next => exact goTo _ trivial

theorem step {event : TimestampEvent} (inRange : gen.InRange event) :
    (gen.step event).Increasing := by
  unfold MonotonicTimestampGenerator.step perform
  cases event with
  | call thread =>
    dsimp only
    split
    · exact holds.goTo thread (Nat.le_refl _) trivial
    · exact holds.tick
  | readClock thread microseconds =>
    dsimp only
    split
    next started last runs =>
      have before := (holds.running thread started _ runs).1
      exact holds.goTo thread (Nat.le_of_lt before)
        (phaseFits_compare gen (inRange started last runs))
    next => exact holds.tick
  | readMonotonicClock thread nanoseconds =>
    dsimp only
    split
    next started last current runs =>
      obtain ⟨before, fits⟩ := holds.running thread started _ runs
      exact holds.goTo thread (Nat.le_of_lt before) fits
    next => exact holds.tick
  | access thread =>
    dsimp only
    split
    next started phase runs => exact holds.accessWord runs
    next => exact holds.tick

theorem strictlyMonotonic : gen.StrictlyMonotonic := by
  constructor
  · rw [List.Nodup, pairwise_map]
    exact holds.descending.imp fun order => Ne.symm (Int64.ne_of_lt order.1)
  · -- Of two calls, the one further back in the list has returned first.
    let Ordered (first second : TimestampCall) : Prop :=
      first.returned < second.started → first.value < second.value
    have self : ∀ call ∈ gen.completed, Ordered call call := by
      intro call member before
      have stamped := (holds.stamped call member).1
      omega
    have forwards : gen.completed.Pairwise Ordered := by
      refine holds.descending.imp_of_mem ?_
      intro later earlier _ isEarlier order before
      have stamped := (holds.stamped earlier isEarlier).1
      omega
    have backwards : gen.completed.Pairwise (flip Ordered) :=
      holds.descending.imp fun order _ => order.1
    intro first isFirst second isSecond
    exact List.Pairwise.forall_of_forall_of_flip self forwards backwards isFirst isSecond

end Holds

end Increasing

theorem increasing_new (warningThresholdUs warningIntervalMs : Int64) :
    (new warningThresholdUs warningIntervalMs).Increasing :=
  { running := fun _ _ _ runs => nomatch runs
    stamped := fun _ member => nomatch member
    bounded := fun _ member => nomatch member
    descending := List.Pairwise.nil }

/-- Timestamps are strictly monotonic in every interleaving whose values stay in range. -/
theorem strictlyMonotonic_of_inRange (warningThresholdUs warningIntervalMs : Int64)
    (events : List TimestampEvent)
    (inRange : Throughout step InRange (new warningThresholdUs warningIntervalMs) events) :
    (events.foldl step (new warningThresholdUs warningIntervalMs)).StrictlyMonotonic := by
  have increasing := @Throughout.invariant _ _ step InRange Increasing
    (fun _ _ holds meets => holds.step meets) _ _
    (increasing_new warningThresholdUs warningIntervalMs) inRange
  exact increasing.strictlyMonotonic

/-- Two threads race, one of them with a clock that has gone back. -/
theorem strictlyMonotonic_of_inRange_race :
    Throughout step InRange (new 1000000 1000)
        [.call 0, .access 0, .call 1, .access 1, .readClock 0 7, .readClock 1 5, .access 0,
          .access 1, .access 1, .readClock 1 6, .access 1] ∧
      ([.call 0, .access 0, .call 1, .access 1, .readClock 0 7, .readClock 1 5, .access 0,
        .access 1, .access 1, .readClock 1 6, .access 1].foldl step
          (new 1000000 1000)).StrictlyMonotonic := by
  have inRange : Throughout step InRange (new 1000000 1000)
      [.call 0, .access 0, .call 1, .access 1, .readClock 0 7, .readClock 1 5, .access 0,
        .access 1, .access 1, .readClock 1 6, .access 1] := by
    refine ⟨trivial, trivial, trivial, trivial, ?_, ?_, trivial, trivial, trivial, ?_, trivial,
      trivial⟩
    all_goals
      intro started last runs _
      cases runs
      decide
  exact ⟨inRange, strictlyMonotonic_of_inRange _ _ _ inRange⟩

end MonotonicTimestampGenerator

end DseDriver
