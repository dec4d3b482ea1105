import DseDriver.Lib.Runs
import DseDriver.Uuids.CassUuid

/-!
# Time UUIDs from several threads

`UuidGen::monotonic_timestamp` is a loop over an atomic word that any number of threads
run at once.  A thread reads the clock, loads the word and then tries one atomic update;
the events of a run interleave these accesses in any order.  Timestamps are distinct as
long as no thread finds the clock behind the last timestamp: in that branch `fetch_add`
returns the timestamp that was handed out before.
-/

namespace DseDriver.Uuids

open Lib List

/-! ## The generator -/

/-- The update of `last_timestamp_` that a thread makes after it has read the clock and
loaded the last timestamp, and the timestamp it returns, if it does not loop. -/
def updateTimestamp (lastTimestamp now last : UInt64) : UInt64 × Option UInt64 :=
  if now > last then
    if lastTimestamp = last then (now, some now) else (lastTimestamp, none)
  else
    let lastMs := toMilliseconds last
    if toMilliseconds now < lastMs then
      (lastTimestamp + 1, some lastTimestamp)
    else
      let candidate := last + 1
      if toMilliseconds candidate = lastMs ∧ lastTimestamp = last then
        (candidate, some candidate)
      else
        (lastTimestamp, none)

/-- Where a thread is in `generate_time`. -/
inductive Phase where
  | idle
  | entered
  | timed (now : UInt64)
  | loaded (now last : UInt64)
  deriving DecidableEq, Repr

/-- A generator that is used by threads.  The timestamps of completed calls are kept,
newest first. -/
structure UuidGen where
  clockSeqAndNode : UInt64
  lastTimestamp : UInt64
  phase : Nat → Phase
  returned : List UInt64

namespace UuidGen

/-- A new generator. -/
def new (clockSeqAndNode : UInt64) : UuidGen :=
  { clockSeqAndNode, lastTimestamp := 0, phase := fun _ => .idle, returned := [] }

/-- What a thread does next. -/
inductive Event where
  | call (thread : Nat)
  | readClock (thread : Nat) (milliseconds : UInt64)
  | access (thread : Nat)
  deriving DecidableEq, Repr

/-- One event; a thread that is not at that point does nothing. -/
def step (gen : UuidGen) : Event → UuidGen
  | .call thread =>
    match gen.phase thread with
    | .idle => { gen with phase := Function.update gen.phase thread .entered }
    | _ => gen
  | .readClock thread milliseconds =>
    match gen.phase thread with
    | .entered =>
      let now := fromUnixTimestamp milliseconds
      { gen with phase := Function.update gen.phase thread (.timed now) }
    | _ => gen
  | .access thread =>
    match gen.phase thread with
    | .timed now =>
      { gen with phase := Function.update gen.phase thread (.loaded now gen.lastTimestamp) }
    | .loaded now last =>
      match updateTimestamp gen.lastTimestamp now last with
      | (lastTimestamp, some timestamp) =>
        { gen with
          lastTimestamp
          phase := Function.update gen.phase thread .idle
          returned := timestamp :: gen.returned }
      | (lastTimestamp, none) =>
        { gen with
          lastTimestamp
          phase := Function.update gen.phase thread .entered }
    | _ => gen

/-- `generate_time` with the timestamp that `monotonic_timestamp` returns. -/
def generateTime (gen : UuidGen) (timestamp : UInt64) : CassUuid :=
  { timeAndVersion := setVersion timestamp 1, clockSeqAndNode := gen.clockSeqAndNode }

/-- `from_time`. -/
def fromTime (gen : UuidGen) (timestamp : UInt64) : CassUuid :=
  { timeAndVersion := setVersion (fromUnixTimestamp timestamp) 1
    clockSeqAndNode := gen.clockSeqAndNode }

/-- The UUIDs of the completed calls. -/
def uuids (gen : UuidGen) : List CassUuid :=
  gen.returned.map gen.generateTime

end UuidGen

/-! ## What a step does -/

/-- A clock reading whose ticks stay below 2^60. -/
def ClockInRange : UuidGen.Event → Prop
  | .readClock _ milliseconds =>
    milliseconds.toNat * 10000 + timeOffsetBetweenUtcAndEpoch.toNat < 2 ^ 60
  | _ => True

/-- No thread is about to add to a last timestamp that is ahead of its clock. -/
def ClockNotBehind (gen : UuidGen) : UuidGen.Event → Prop
  | .access thread => ∀ now last, gen.phase thread = .loaded now last →
      last < now ∨ toMilliseconds last ≤ toMilliseconds now
  | _ => True

/-- Timestamps that the clock can lead to. -/
structure Reachable (timestamp : UInt64) : Prop where
  low : timeOffsetBetweenUtcAndEpoch.toNat ≤ timestamp.toNat
  high : timestamp.toNat / 10000 ≤ 2 ^ 60 / 10000

theorem reachable_fromUnixTimestamp {milliseconds : UInt64}
    (small : milliseconds.toNat * 10000 + timeOffsetBetweenUtcAndEpoch.toNat < 2 ^ 60) :
    Reachable (fromUnixTimestamp milliseconds) := by
  constructor <;> rw [toNat_fromUnixTimestamp small]
  · omega
  · exact Nat.div_le_div_right (Nat.le_of_lt small)

/-- A timestamp is later than the one it follows, or it is in the same millisecond. -/
inductive Follows (last now : UInt64) : UInt64 → Prop where
  | clock (later : last < now) : Follows last now now
  | candidate (reached : ¬ last < now)
      (same : toMilliseconds (last + 1) = toMilliseconds last) : Follows last now (last + 1)

/-- An update loops, issues a timestamp that follows the last one, or adds one and returns
the last timestamp. -/
theorem updateTimestamp_cases (lastTimestamp now last : UInt64) :
    updateTimestamp lastTimestamp now last = (lastTimestamp, none) ∨
      (∃ next, lastTimestamp = last ∧ Follows last now next ∧
        updateTimestamp lastTimestamp now last = (next, some next)) ∨
      (¬ last < now ∧ toMilliseconds now < toMilliseconds last ∧
        updateTimestamp lastTimestamp now last = (lastTimestamp + 1, some lastTimestamp)) := by
  unfold updateTimestamp
  by_cases later : now > last
  · rw [if_pos later]
    by_cases unchanged : lastTimestamp = last
    · rw [if_pos unchanged]
      exact .inr (.inl ⟨now, unchanged, .clock later, rfl⟩)
    · rw [if_neg unchanged]
      exact .inl rfl
  · rw [if_neg later]
    by_cases behind : toMilliseconds now < toMilliseconds last
    · rw [if_pos behind]
      exact .inr (.inr ⟨later, behind, rfl⟩)
    · simp only [if_neg behind]
      by_cases issues : toMilliseconds (last + 1) = toMilliseconds last ∧ lastTimestamp = last
      · rw [if_pos issues]
        exact .inr (.inl ⟨last + 1, issues.2, .candidate later issues.1, rfl⟩)
      · rw [if_neg issues]
        exact .inl rfl

section Follows

variable {last now next : UInt64}

theorem toNat_toMilliseconds (timestamp : UInt64) :
    (toMilliseconds timestamp).toNat = timestamp.toNat / 10000 := by
  rw [toMilliseconds, UInt64.toNat_div]
  rfl

/-- The next tick in the same millisecond does not overflow. -/
theorem toNat_candidate (same : toMilliseconds (last + 1) = toMilliseconds last) :
    (last + 1).toNat = last.toNat + 1 := by
  have milliseconds := congrArg UInt64.toNat same
  have bound := last.toNat_lt
  rw [toNat_toMilliseconds, toNat_toMilliseconds] at milliseconds
  have sum : (last + 1).toNat = (last.toNat + 1) % 2 ^ 64 := UInt64.toNat_add last 1
  rw [sum] at milliseconds ⊢
  omega

theorem Follows.lt (follows : Follows last now next) : last < next := by
  cases follows with
  | clock later => exact later
  | candidate reached same =>
    rw [UInt64.lt_iff_toNat_lt, toNat_candidate same]
    omega

theorem Reachable.ne_zero {timestamp : UInt64} (reachable : Reachable timestamp) :
    timestamp ≠ 0 := by
  rintro rfl
  exact absurd reachable.low (by decide)

theorem Follows.reachable (follows : Follows last now next) (clock : Reachable now)
    (before : last ≠ 0 → Reachable last) : Reachable next := by
  cases follows with
  | clock later => exact clock
  | candidate reached same =>
    have notZero : last ≠ 0 := by
      rintro rfl
      exact reached (UInt64.pos_iff_ne_zero.mpr clock.ne_zero)
    have last := before notZero
    have milliseconds := congrArg UInt64.toNat same
    rw [toNat_toMilliseconds, toNat_toMilliseconds] at milliseconds
    refine ⟨?_, milliseconds.trans_le last.high⟩
    rw [toNat_candidate same]
    exact Nat.le_succ_of_le last.low

end Follows

/-! ## The invariant -/

/-- The timestamps a thread holds. -/
def PhaseFits (lastTimestamp : UInt64) : Phase → Prop
  | .timed now => Reachable now
  | .loaded now last => Reachable now ∧ last ≤ lastTimestamp
  | _ => True

/-- As long as no clock is behind, the timestamps increase and the last one is the newest. -/
structure Increasing (gen : UuidGen) : Prop where
  newest : gen.lastTimestamp = gen.returned.headD 0
  increasing : gen.returned.Pairwise (· > ·)
  reachable : ∀ timestamp ∈ gen.returned, Reachable timestamp
  phases : ∀ thread, PhaseFits gen.lastTimestamp (gen.phase thread)

theorem PhaseFits.mono {before after : UInt64} {phase : Phase} (fits : PhaseFits before phase)
    (grows : before ≤ after) : PhaseFits after phase := by
  cases phase with
  | idle => trivial
  | entered => trivial
  | timed now => exact fits
  | loaded now last => exact ⟨fits.1, UInt64.le_trans fits.2 grows⟩

theorem phaseFits_update {lastTimestamp : UInt64} {phases : Nat → Phase}
    (fits : ∀ thread, PhaseFits lastTimestamp (phases thread)) (phase : Phase)
    (new : PhaseFits lastTimestamp phase) (thread other : Nat) :
    PhaseFits lastTimestamp (Function.update phases thread phase other) := by
  by_cases same : other = thread
  · rw [same, Function.update_self]
    exact new
  · rw [Function.update_of_ne same]
    exact fits other

namespace Increasing

variable {gen : UuidGen} (holds : Increasing gen)

include holds

/-- The thread's phase changes and nothing else. -/
theorem setPhase (phase : Phase) (fits : PhaseFits gen.lastTimestamp phase) (thread : Nat) :
    Increasing { gen with phase := Function.update gen.phase thread phase } :=
  { holds with phases := phaseFits_update holds.phases phase fits thread }

/-- The last timestamp was returned, unless there is none. -/
theorem lastTimestamp_mem (some : gen.lastTimestamp ≠ 0) : gen.lastTimestamp ∈ gen.returned := by
  have newest := holds.newest
  cases returned : gen.returned with
  | nil =>
    rw [returned] at newest
    exact absurd newest some
  | cons timestamp rest =>
    rw [returned, headD_cons] at newest
    rw [newest]
    exact mem_cons_self

/-- The last timestamp is the latest. -/
theorem le_lastTimestamp {timestamp : UInt64} (member : timestamp ∈ gen.returned) :
    timestamp ≤ gen.lastTimestamp := by
  have newest := holds.newest
  have increasing := holds.increasing
  cases returned : gen.returned with
  | nil =>
    rw [returned] at member
    cases member
  | cons first rest =>
    rw [returned] at newest increasing member
    rw [newest, headD_cons]
    rcases mem_cons.mp member with rfl | later
    · exact UInt64.le_refl _
    · exact UInt64.le_of_lt (rel_of_pairwise_cons increasing later)

/-- Issue a timestamp that follows the last one. -/
theorem issue {now next : UInt64} (clock : Reachable now)
    (follows : Follows gen.lastTimestamp now next) (thread : Nat) :
    Increasing { gen with
      lastTimestamp := next
      phase := Function.update gen.phase thread .idle
      returned := next :: gen.returned } where
  newest := rfl
  increasing := by
    refine pairwise_cons.mpr ⟨?_, holds.increasing⟩
    intro timestamp member
    exact UInt64.lt_of_le_of_lt (holds.le_lastTimestamp member) follows.lt
  reachable := by
    intro timestamp member
    rcases mem_cons.mp member with rfl | later
    · exact follows.reachable clock fun some => holds.reachable _ (holds.lastTimestamp_mem some)
    · exact holds.reachable timestamp later
  phases := phaseFits_update
    (fun other => (holds.phases other).mono (UInt64.le_of_lt follows.lt)) .idle trivial thread

/-- Every step keeps the invariant as long as no clock is behind. -/
theorem step (event : UuidGen.Event) (inRange : ClockInRange event)
    (notBehind : ClockNotBehind gen event) : Increasing (gen.step event) := by
  cases event with
  | call thread =>
    rw [UuidGen.step]
    split
    · exact holds.setPhase .entered trivial thread
    · exact holds
  | readClock thread milliseconds =>
    rw [UuidGen.step]
    split
    · exact holds.setPhase (.timed _) (reachable_fromUnixTimestamp inRange) thread
    · exact holds
  | access thread =>
    have fits := holds.phases thread
    rw [UuidGen.step]
    cases here : gen.phase thread with
    | idle => exact holds
    | entered => exact holds
    | timed now =>
      rw [here] at fits
      exact holds.setPhase (.loaded now _) ⟨fits, UInt64.le_refl _⟩ thread
    | loaded now last =>
      rw [here] at fits
      rcases updateTimestamp_cases gen.lastTimestamp now last with
        loops | ⟨next, unchanged, follows, issues⟩ | ⟨reached, behind, -⟩
      · simp only [loops]
        exact holds.setPhase .entered trivial thread
      · simp only [issues]
        rw [← unchanged] at follows
        exact holds.issue fits.1 follows thread
      · rcases notBehind now last here with later | ahead
        · exact absurd later reached
        · exact absurd behind (UInt64.not_lt.mpr ahead)

end Increasing

/-! ## Runs -/

/-- Timestamps that the clock can lead to stay distinct when they are cut to 60 bits. -/
theorem Reachable.time_injective {first second : UInt64} (left : Reachable first)
    (right : Reachable second) (same : first.toNat % 2 ^ 60 = second.toNat % 2 ^ 60) :
    first = second := by
  have offset : timeOffsetBetweenUtcAndEpoch.toNat = 122192928000000000 := rfl
  have lowFirst := left.low
  have lowSecond := right.low
  have highFirst := left.high
  have highSecond := right.high
  apply UInt64.toNat_inj.mp
  omega

namespace UuidGen

/-- The 60-bit times of the completed calls are pairwise distinct. -/
def Distinct (gen : UuidGen) : Prop :=
  (gen.uuids.map CassUuid.time).Nodup

theorem time_generateTime (gen : UuidGen) (timestamp : UInt64) :
    (gen.generateTime timestamp).time = timestamp.toNat % 2 ^ 60 :=
  toNat_setVersion timestamp 1

theorem distinct_iff (gen : UuidGen) :
    gen.Distinct ↔ (gen.returned.map fun timestamp => timestamp.toNat % 2 ^ 60).Nodup := by
  rw [Distinct, uuids, map_map]
  have same : CassUuid.time ∘ gen.generateTime = fun timestamp => timestamp.toNat % 2 ^ 60 :=
    funext gen.time_generateTime
  rw [same]

/-- Completed calls stay. -/
theorem returned_step (gen : UuidGen) (event : Event) :
    ∃ newer, (gen.step event).returned = newer ++ gen.returned := by
  cases event with
  | call thread =>
    rw [step]
    split <;> exact ⟨[], rfl⟩
  | readClock thread milliseconds =>
    rw [step]
    split <;> exact ⟨[], rfl⟩
  | access thread =>
    rw [step]
    split
    · exact ⟨[], rfl⟩
    · split
      next timestamp _ => exact ⟨[timestamp], rfl⟩
      next => exact ⟨[], rfl⟩
    · exact ⟨[], rfl⟩

theorem returned_run (gen : UuidGen) (events : List Event) :
    ∃ newer, (events.foldl step gen).returned = newer ++ gen.returned := by
  induction events generalizing gen with
  | nil => exact ⟨[], rfl⟩
  | cons event events ih =>
    rcases ih (gen.step event) with ⟨newest, later⟩
    rcases returned_step gen event with ⟨newer, first⟩
    exact ⟨newest ++ newer, by rw [foldl_cons, later, first, append_assoc]⟩

end UuidGen

theorem increasing_new (clockSeqAndNode : UInt64) : Increasing (.new clockSeqAndNode) where
  newest := rfl
  increasing := .nil
  reachable := fun _ member => nomatch member
  phases := fun _ => trivial

theorem Increasing.distinct {gen : UuidGen} (holds : Increasing gen) : gen.Distinct := by
  rw [UuidGen.distinct_iff]
  have times : gen.returned.Pairwise fun first second =>
      first.toNat % 2 ^ 60 ≠ second.toNat % 2 ^ 60 := by
    refine holds.increasing.imp_of_mem ?_
    intro first second inFirst inSecond later same
    have equal := (holds.reachable first inFirst).time_injective (holds.reachable second inSecond) same
    exact absurd later (by rw [equal]; exact UInt64.lt_irrefl _)
  exact pairwise_map.mpr times

/-- A thread whose clock is behind returns a timestamp that was returned before. -/
theorem Increasing.repeats {gen : UuidGen} (holds : Increasing gen) {event : UuidGen.Event}
    (behind : ¬ ClockNotBehind gen event) :
    ∃ timestamp ∈ gen.returned, (gen.step event).returned = timestamp :: gen.returned := by
  cases event with
  | call thread => exact absurd trivial behind
  | readClock thread milliseconds => exact absurd trivial behind
  | access thread =>
    simp only [ClockNotBehind, not_forall, not_or, UInt64.not_le] at behind
    rcases behind with ⟨now, last, here, reached, earlier⟩
    have fits := holds.phases thread
    rw [here] at fits
    have positive : gen.lastTimestamp ≠ 0 := by
      intro zero
      have lastZero : last = 0 := UInt64.le_zero_iff.mp (zero ▸ fits.2)
      rw [lastZero] at reached
      exact reached (UInt64.pos_iff_ne_zero.mpr fits.1.ne_zero)
    refine ⟨gen.lastTimestamp, holds.lastTimestamp_mem positive, ?_⟩
    have adds : updateTimestamp gen.lastTimestamp now last =
        (gen.lastTimestamp + 1, some gen.lastTimestamp) := by
      rw [updateTimestamp, if_neg reached, if_pos earlier]
    rw [UuidGen.step]
    simp only [here, adds]

/-- For every number of threads, clock and interleaving: the 60-bit times of all completed
calls are distinct exactly if no thread finds its clock behind the last timestamp. -/
theorem uuids_distinct_iff (clockSeqAndNode : UInt64) (events : List UuidGen.Event)
    (inRange : ∀ event ∈ events, ClockInRange event) :
    (events.foldl UuidGen.step (.new clockSeqAndNode)).Distinct ↔
      Throughout UuidGen.step ClockNotBehind (.new clockSeqAndNode) events := by
  have keeps : ∀ gen event, Increasing gen → ClockInRange event ∧ ClockNotBehind gen event →
      Increasing (gen.step event) :=
    fun gen event holds condition => holds.step event condition.1 condition.2
  constructor
  · intro distinct
    by_contra leaves
    rcases exists_first_of_not_throughout leaves with ⟨before, event, after, split, within, behind⟩
    have ranges : ∀ event ∈ before, ClockInRange event := by
      intro event member
      exact inRange event (by rw [split]; exact mem_append_left _ member)
    have holds := (within.and_forall ranges).invariant keeps (increasing_new clockSeqAndNode)
    rcases holds.repeats behind with ⟨timestamp, member, repeated⟩
    rcases UuidGen.returned_run ((before.foldl UuidGen.step (.new clockSeqAndNode)).step event) after
      with ⟨newer, final⟩
    rw [split, foldl_append, foldl_cons, UuidGen.distinct_iff, final, repeated,
      map_append, map_cons] at distinct
    have fresh := (nodup_cons.mp (nodup_append.mp distinct).2.1).1
    exact fresh (mem_map_of_mem member)
  · intro within
    exact ((within.and_forall inRange).invariant keeps (increasing_new clockSeqAndNode)).distinct

/-- One thread makes two calls with these clock readings. -/
def twoCalls (first second : UInt64) : List UuidGen.Event :=
  [.call 0, .readClock 0 first, .access 0, .access 0,
    .call 0, .readClock 0 second, .access 0, .access 0]

theorem uuids_distinct_sameMillisecond :
    (∀ event ∈ twoCalls 1000 1000, ClockInRange event) ∧
      ((twoCalls 1000 1000).foldl UuidGen.step (.new 0)).Distinct := by
  have inRange : ∀ event ∈ twoCalls 1000 1000, ClockInRange event := by
    simp [twoCalls, ClockInRange, timeOffsetBetweenUtcAndEpoch]
  refine ⟨inRange, (uuids_distinct_iff 0 _ inRange).mpr ?_⟩
  simp [twoCalls, Throughout, ClockNotBehind, UuidGen.step, UuidGen.new, updateTimestamp,
    fromUnixTimestamp, toMilliseconds, timeOffsetBetweenUtcAndEpoch]

/-- The clock goes back by a millisecond between two calls, which return the same UUID. -/
theorem uuids_clockBehind_repeated :
    (∀ event ∈ twoCalls 1000 999, ClockInRange event) ∧
      ((twoCalls 1000 999).foldl UuidGen.step (.new 0)).uuids =
        [⟨0x11B21DD21419D680, 0⟩, ⟨0x11B21DD21419D680, 0⟩] ∧
      ¬ ((twoCalls 1000 999).foldl UuidGen.step (.new 0)).Distinct := by
  have inRange : ∀ event ∈ twoCalls 1000 999, ClockInRange event := by
    simp [twoCalls, ClockInRange, timeOffsetBetweenUtcAndEpoch]
  have repeated : ((twoCalls 1000 999).foldl UuidGen.step (.new 0)).uuids =
      [⟨0x11B21DD21419D680, 0⟩, ⟨0x11B21DD21419D680, 0⟩] := by
    decide +kernel
  refine ⟨inRange, repeated, ?_⟩
  rw [UuidGen.Distinct, repeated]
  decide

end DseDriver.Uuids
