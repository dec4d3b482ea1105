import DseDriver.Lib.Runs
import Mathlib.Algebra.Order.Group.Multiset
import Mathlib.Data.List.Induction
import Mathlib.Tactic.Abel
import Mathlib.Tactic.Ring

/-!
# Histograms of recorded values

A `PerThreadHistogram` has two histograms: threads record into the active one while the other is
added to the accumulated histogram and reset.  A `WriterReaderPhaser` counts the threads that enter
and end a critical section, in epochs that start at `0` or at the least 64-bit number by turns, and
the reader waits for those of the last phase.  `hdr_add` cuts the counts it reads to 32 bits; the
phasing is shown to lose nothing with an addition that does not, and then for runs in which no count
is cut.
-/

namespace DseDriver.Metrics

open Lib List Function

/-! ## The phaser and the histograms -/

/-- The parity of an epoch. -/
inductive Phase where
  | even
  | odd
  deriving DecidableEq, Repr

namespace Phase

def other : Phase → Phase
  | even => odd
  | odd => even

/-- The epoch with which a phase starts; the one of an odd phase is `CASS_INT64_MIN`. -/
def initial : Phase → Int
  | even => 0
  | odd => -2 ^ 63

def ofEpoch (epoch : Int) : Phase :=
  if epoch < 0 then odd else even

@[simp] theorem other_ne (phase : Phase) : phase.other ≠ phase := by
  cases phase <;> decide

@[simp] theorem other_other (phase : Phase) : phase.other.other = phase := by
  cases phase <;> rfl

theorem eq_of_ne_other {first second : Phase} (different : first ≠ second.other) :
    first = second := by
  cases first <;> cases second <;> first | rfl | exact absurd rfl different

@[simp] theorem ofEpoch_initial (phase : Phase) : ofEpoch phase.initial = phase := by
  cases phase <;> decide

end Phase

/-- Where a thread is in `record_value`: outside, before the load of the active index, before the
recording, before the end of the critical section.  A value is given by the index of its counter. -/
inductive Writer where
  | idle
  | entered (value : Nat) (critical : Int)
  | loaded (value : Nat) (critical : Int) (index : Bool)
  | recorded (value : Nat) (critical : Int)
  deriving DecidableEq, Repr

namespace Writer

/-- The phase in which a thread entered. -/
def phase? : Writer → Option Phase
  | idle => none
  | entered _ critical | loaded _ critical _ | recorded _ critical => some (.ofEpoch critical)

/-- The histogram that a thread is about to record into. -/
def index? : Writer → Option Bool
  | loaded _ _ index => some index
  | _ => none

/-- The value that a thread has recorded. -/
def done? : Writer → Option Nat
  | recorded value _ => some value
  | _ => none

end Writer

/-- Where the reader is in `add`: outside, before the exchange of the index, and in `flip_phase` before
the load of the start epoch, the store of an end epoch, the exchange of the start epoch, a load of an
end epoch; then before `hdr_add` and before `hdr_reset`. -/
inductive Reader where
  | idle
  | loaded (index : Bool)
  | exchanged (inactive : Bool)
  | chosen (inactive : Bool) (next : Phase)
  | opened (inactive : Bool) (next : Phase)
  | waiting (inactive : Bool) (next : Phase) (startValueAtFlip : Int)
  | flipped (inactive : Bool)
  | added (inactive : Bool)
  deriving DecidableEq, Repr

/-- A histogram of one thread state, with the accumulated one that it is added to.  Epochs are numbers
without a bound, as there are fewer than `2 ^ 63` recordings. -/
structure PerThreadHistogram (Total : Type) where
  startEpoch : Int
  /-- `even_end_epoch_` and `odd_end_epoch_`. -/
  endEpoch : Phase → Int
  activeIndex : Bool
  histograms : Bool → Multiset Nat
  accumulated : Total
  reader : Reader
  /-- The calls of `record_value` that have entered. -/
  calls : Nat
  /-- All values that were recorded. -/
  recorded : Multiset Nat
  /-- The values of the calls of `record_value` that have ended. -/
  finished : Multiset Nat
  /-- Those that had ended when the last snapshot started. -/
  finishedBefore : Multiset Nat

/-- The histogram and the threads that record into it. -/
structure Recording (Total : Type) where
  histogram : PerThreadHistogram Total
  writers : List Writer

/-- The next access of a thread, which records the value if it is outside, or of the reader. -/
inductive RecordingEvent where
  | write (thread value : Nat)
  | read

/-- `hdr_add`: a count is read as a 32-bit number. -/
def hdrAdd (total : Nat → Int) (histogram : Multiset Nat) : Nat → Int :=
  fun value => total value + (histogram.count value : Int).bmod (2 ^ 32)

namespace PerThreadHistogram

variable {Total : Type}

/-- `PerThreadHistogram()`. -/
def new (accumulated : Total) : PerThreadHistogram Total :=
  { startEpoch := 0
    endEpoch := Phase.initial
    activeIndex := false
    histograms := fun _ => 0
    accumulated
    reader := .idle
    calls := 0
    recorded := 0
    finished := 0
    finishedBefore := 0 }

/-- `writer_critical_section_enter`. -/
def enter (histogram : PerThreadHistogram Total) : PerThreadHistogram Total :=
  { histogram with
    startEpoch := histogram.startEpoch + 1
    calls := histogram.calls + 1 }

/-- `hdr_record_value`. -/
def record (histogram : PerThreadHistogram Total) (index : Bool) (value : Nat) :
    PerThreadHistogram Total :=
  { histogram with
    histograms := Function.update histogram.histograms index (value ::ₘ histogram.histograms index)
    recorded := value ::ₘ histogram.recorded }

/-- The next access of a thread in `record_value`. -/
def write (histogram : PerThreadHistogram Total) (value : Nat) :
    Writer → PerThreadHistogram Total × Writer
  | .idle =>
    (histogram.enter, .entered value histogram.startEpoch)
  | .entered value critical => (histogram, .loaded value critical histogram.activeIndex)
  | .loaded value critical index =>
    (histogram.record index value, .recorded value critical)
  | .recorded value critical =>
    let phase : Phase := if critical < 0 then .odd else .even
    ({ histogram with
      endEpoch := Function.update histogram.endEpoch phase (histogram.endEpoch phase + 1)
      finished := value ::ₘ histogram.finished }, .idle)

/-- The next access of the reader in `add`, with `hdr_add`. -/
def read (hdrAdd : Total → Multiset Nat → Total) (histogram : PerThreadHistogram Total) :
    PerThreadHistogram Total :=
  match histogram.reader with
  | .idle =>
    { histogram with
      reader := .loaded histogram.activeIndex
      finishedBefore := histogram.finished }
  | .loaded index =>
    { histogram with
      activeIndex := !index
      reader := .exchanged histogram.activeIndex }
  | .exchanged inactive =>
    { histogram with
      reader := .chosen inactive (if histogram.startEpoch < 0 then .even else .odd) }
  | .chosen inactive next =>
    { histogram with
      endEpoch := Function.update histogram.endEpoch next next.initial
      reader := .opened inactive next }
  | .opened inactive next =>
    { histogram with
      startEpoch := next.initial
      reader := .waiting inactive next histogram.startEpoch }
  | .waiting inactive next startValueAtFlip =>
    if histogram.endEpoch next.other = startValueAtFlip then
      { histogram with reader := .flipped inactive }
    else
      histogram
  | .flipped inactive =>
    { histogram with
      accumulated := hdrAdd histogram.accumulated (histogram.histograms inactive)
      reader := .added inactive }
  | .added inactive =>
    { histogram with
      histograms := Function.update histogram.histograms inactive 0
      reader := .idle }

end PerThreadHistogram

namespace Recording

variable {Total : Type}

/-- One access. -/
def step (hdrAdd : Total → Multiset Nat → Total) (recording : Recording Total) :
    RecordingEvent → Recording Total
  | .write thread value =>
    match recording.writers[thread]? with
    | none => recording
    | some writer =>
      let next := recording.histogram.write value writer
      { histogram := next.1
        writers := recording.writers.set thread next.2 }
  | .read => { recording with histogram := recording.histogram.read hdrAdd }

/-- A number of threads in front of the first access. -/
def start (threads : Nat) (accumulated : Total) : Recording Total :=
  ⟨.new accumulated, List.replicate threads .idle⟩

/-- The state of a number of threads after some events. -/
def run (threads : Nat) (events : List RecordingEvent) : Recording (Nat → Int) :=
  events.foldl (step hdrAdd) (start threads fun _ => 0)

/-- The same with an addition that cuts nothing. -/
def exactRun (threads : Nat) (events : List RecordingEvent) : Recording (Multiset Nat) :=
  events.foldl (step (· + ·)) (start threads 0)

end Recording

/-! ## What holds between the accesses -/

/-- The threads in a critical section of a phase. -/
def count (crew : Multiset Writer) (phase : Phase) : Nat :=
  crew.countP (·.phase? = some phase)

/-- No thread is about to record into the histogram. -/
def Unheld (crew : Multiset Writer) (index : Bool) : Prop :=
  ∀ writer ∈ crew, writer.index? ≠ some index

namespace PerThreadHistogram

/-- A histogram that is added to a set of values. -/
abbrev Exact := PerThreadHistogram (Multiset Nat)

/-- The phase that threads enter. -/
def phase {Total : Type} (histogram : PerThreadHistogram Total) : Phase :=
  .ofEpoch histogram.startEpoch

/-- What the reader knows of the threads of the other phase: there are none, except while it waits
for them. -/
def PhaseKnown (histogram : Exact) (crew : Multiset Writer) : Reader → Prop
  | .chosen _ next => next = histogram.phase.other ∧ count crew histogram.phase.other = 0
  | .opened _ next => next = histogram.phase.other ∧ count crew histogram.phase.other = 0 ∧
      histogram.endEpoch next = next.initial
  | .waiting _ next startValueAtFlip => next = histogram.phase ∧
      (count crew histogram.phase.other : Int) =
        startValueAtFlip - histogram.endEpoch histogram.phase.other
  | _ => count crew histogram.phase.other = 0

/-- What the reader knows of the histogram that is not active. -/
def IndexKnown (histogram : Exact) (crew : Multiset Writer) : Reader → Prop
  | .idle => histogram.histograms (!histogram.activeIndex) = 0 ∧
      Unheld crew (!histogram.activeIndex)
  | .loaded index => index = histogram.activeIndex ∧
      histogram.histograms (!histogram.activeIndex) = 0 ∧ Unheld crew (!histogram.activeIndex)
  | .exchanged inactive | .chosen inactive _ | .opened inactive _ =>
    histogram.activeIndex = !inactive
  | .waiting inactive next _ => histogram.activeIndex = !inactive ∧
      ∀ writer ∈ crew, writer.index? = some inactive → writer.phase? = some next.other
  | .flipped inactive | .added inactive =>
    histogram.activeIndex = !inactive ∧ Unheld crew inactive

/-- Where the values are that had been recorded when the snapshot started. -/
def BeforeKnown (histogram : Exact) : Reader → Prop
  | .idle | .added _ => histogram.finishedBefore ≤ histogram.accumulated
  | .loaded _ => histogram.finishedBefore ≤ histogram.finished
  | .exchanged inactive | .chosen inactive _ | .opened inactive _ | .waiting inactive _ _
  | .flipped inactive =>
    histogram.finishedBefore ≤ histogram.accumulated + histogram.histograms inactive

/-- Values that are in the accumulated histogram and not yet reset. -/
def twice {Total : Type} (histogram : PerThreadHistogram Total) : Multiset Nat :=
  match histogram.reader with
  | .added inactive => histogram.histograms inactive
  | _ => 0

/-- What holds in a run. -/
structure Consistent (histogram : Exact) (crew : Multiset Writer) : Prop where
  range : histogram.startEpoch ≤ histogram.phase.initial + histogram.calls
  current : (count crew histogram.phase : Int) =
    histogram.startEpoch - histogram.endEpoch histogram.phase
  phases : histogram.PhaseKnown crew histogram.reader
  indices : histogram.IndexKnown crew histogram.reader
  kept : histogram.recorded + histogram.twice =
    histogram.accumulated + histogram.histograms false + histogram.histograms true
  ended : histogram.recorded = histogram.finished + crew.filterMap Writer.done?
  before : histogram.BeforeKnown histogram.reader

/-! ## Accesses of the threads -/

@[simp] theorem count_cons (writer : Writer) (crew : Multiset Writer) (phase : Phase) :
    count (writer ::ₘ crew) phase =
      count crew phase + if writer.phase? = some phase then 1 else 0 :=
  Multiset.countP_cons ..

@[simp] theorem unheld_cons {writer : Writer} {crew : Multiset Writer} {index : Bool} :
    Unheld (writer ::ₘ crew) index ↔ writer.index? ≠ some index ∧ Unheld crew index :=
  Multiset.forall_mem_cons

variable {histogram : Exact} {crew : Multiset Writer}

/-- The epoch stays in its phase. -/
theorem ofEpoch_succ {epoch : Int} {calls : Nat}
    (range : epoch ≤ (Phase.ofEpoch epoch).initial + calls) (few : calls + 1 < 2 ^ 63) :
    Phase.ofEpoch (epoch + 1) = Phase.ofEpoch epoch := by
  unfold Phase.ofEpoch at *
  split at range
  · have below : epoch ≤ -2 ^ 63 + calls := range
    rw [if_pos (by omega), if_pos (by assumption)]
  · rw [if_neg (by omega), if_neg (by assumption)]

variable {histogram' : Exact} {crew' rest : Multiset Writer} {reader : Reader}
  {writer next : Writer}

/-- A thread that stays in its critical section counts as before. -/
theorem count_cons_congr (same : next.phase? = writer.phase?) (rest : Multiset Writer)
    (phase : Phase) : count (next ::ₘ rest) phase = count (writer ::ₘ rest) phase := by
  rw [count_cons, count_cons, same]

theorem PhaseKnown.of_balance (known : histogram.PhaseKnown crew reader)
    (phase : histogram'.phase = histogram.phase)
    (balance : (count crew' histogram.phase.other : Int) +
        histogram'.endEpoch histogram.phase.other =
      count crew histogram.phase.other + histogram.endEpoch histogram.phase.other)
    (none : count crew histogram.phase.other = 0 → count crew' histogram.phase.other = 0) :
    histogram'.PhaseKnown crew' reader := by
  cases reader with
  | chosen inactive next =>
    rw [PhaseKnown, phase]
    exact ⟨known.1, none known.2⟩
  | opened inactive next =>
    obtain ⟨rfl, empty, initial⟩ := known
    have stays := none empty
    rw [empty, stays] at balance
    rw [PhaseKnown, phase]
    exact ⟨rfl, stays, (Int.add_left_cancel balance).trans initial⟩
  | waiting inactive next startValueAtFlip =>
    obtain ⟨same, waits⟩ := known
    rw [PhaseKnown, phase]
    exact ⟨same, by omega⟩
  | _ =>
    show count crew' histogram'.phase.other = 0
    rw [phase]
    exact none known

/-- A thread can only come to the active histogram, and it records where it was. -/
theorem IndexKnown.of_access (known : histogram.IndexKnown (writer ::ₘ rest) reader)
    (active : histogram'.activeIndex = histogram.activeIndex)
    (comes : next.index? = none ∨ next.index? = some histogram.activeIndex)
    (leaves : ∀ index, writer.index? ≠ some index →
      histogram'.histograms index = histogram.histograms index) :
    histogram'.IndexKnown (next ::ₘ rest) reader := by
  have free {index : Bool} (different : histogram.activeIndex = !index) :
      next.index? ≠ some index := by
    rcases comes with none | same
    · rw [none]
      rintro ⟨⟩
    · rw [same, different]
      cases index <;> decide
  have unheld {index : Bool} (different : histogram.activeIndex = !index)
      (unheld : Unheld (writer ::ₘ rest) index) : Unheld (next ::ₘ rest) index :=
    unheld_cons.2 ⟨free different, (unheld_cons.1 unheld).2⟩
  have inactive : histogram.activeIndex = !!histogram.activeIndex := (Bool.not_not _).symm
  cases reader with
  | idle =>
    obtain ⟨empty, notHeld⟩ := known
    rw [IndexKnown, active]
    exact ⟨(leaves _ (unheld_cons.1 notHeld).1).trans empty, unheld inactive notHeld⟩
  | loaded index =>
    obtain ⟨same, empty, notHeld⟩ := known
    rw [IndexKnown, active]
    exact ⟨same, (leaves _ (unheld_cons.1 notHeld).1).trans empty, unheld inactive notHeld⟩
  | waiting inactive next _ =>
    obtain ⟨different, old⟩ := known
    rw [IndexKnown, active]
    refine ⟨different, Multiset.forall_mem_cons.2 ⟨fun same => absurd same (free different), ?_⟩⟩
    exact (Multiset.forall_mem_cons.1 old).2
  | flipped inactive | added inactive =>
    obtain ⟨different, notHeld⟩ := known
    rw [IndexKnown, active]
    exact ⟨different, unheld different notHeld⟩
  | exchanged inactive | chosen inactive _ | opened inactive _ => exact active.trans known

theorem BeforeKnown.mono (known : histogram.BeforeKnown reader)
    (before : histogram'.finishedBefore = histogram.finishedBefore)
    (accumulated : histogram'.accumulated = histogram.accumulated)
    (finished : histogram.finished ≤ histogram'.finished)
    (histograms : ∀ index, histogram.histograms index ≤ histogram'.histograms index) :
    histogram'.BeforeKnown reader := by
  cases reader with
  | idle | added _ =>
    rw [BeforeKnown, before, accumulated]
    exact known
  | loaded _ =>
    rw [BeforeKnown, before]
    exact known.trans finished
  | exchanged inactive | chosen inactive _ | opened inactive _ | waiting inactive _ _
  | flipped inactive =>
    rw [BeforeKnown, before, accumulated]
    exact known.trans (Multiset.add_le_add_left (histograms inactive))

theorem Consistent.enter (consistent : histogram.Consistent (.idle ::ₘ rest))
    (few : histogram.calls + 1 < 2 ^ 63) (value : Nat) :
    histogram.enter.Consistent (.entered value histogram.startEpoch ::ₘ rest) := by
  obtain ⟨range, current, phases, indices, kept, ended, before⟩ := consistent
  have same : histogram.enter.phase = histogram.phase := ofEpoch_succ range few
  have entered : (Writer.entered value histogram.startEpoch).phase? = some histogram.phase := rfl
  have counts : count (.entered value histogram.startEpoch ::ₘ rest) histogram.phase.other =
      count (.idle ::ₘ rest) histogram.phase.other := by
    rw [count_cons, count_cons, entered, if_neg, if_neg (by rintro ⟨⟩)]
    exact fun same => histogram.phase.other_ne (Option.some.inj same).symm
  refine ⟨?_, ?_, phases.of_balance same (by rw [counts]; rfl) (by rw [counts]; exact id),
    indices.of_access rfl (.inl rfl) fun _ _ => rfl, kept, ?_, before⟩
  · rw [same]
    show histogram.startEpoch + 1 ≤ histogram.phase.initial + ((histogram.calls + 1 : Nat) : Int)
    push_cast
    omega
  · rw [same, count_cons, entered, if_pos rfl]
    rw [count_cons, if_neg (by rintro ⟨⟩)] at current
    show ((count rest histogram.phase + 1 : Nat) : Int) =
      histogram.startEpoch + 1 - histogram.endEpoch histogram.phase
    push_cast at current ⊢
    omega
  · rw [Multiset.filterMap_cons_none _ _ rfl] at ended ⊢
    exact ended

theorem Consistent.load {value : Nat} {critical : Int}
    (consistent : histogram.Consistent (.entered value critical ::ₘ rest)) :
    histogram.Consistent (.loaded value critical histogram.activeIndex ::ₘ rest) := by
  obtain ⟨range, current, phases, indices, kept, ended, before⟩ := consistent
  have counts := @count_cons_congr (.entered value critical)
    (.loaded value critical histogram.activeIndex) rfl rest
  refine ⟨range, by rw [counts]; exact current,
    phases.of_balance rfl (by rw [counts]) (by rw [counts]; exact id),
    indices.of_access rfl (.inr rfl) fun _ _ => rfl, kept, ?_, before⟩
  rw [Multiset.filterMap_cons_none _ _ rfl] at ended ⊢
  exact ended

theorem histograms_record_of_ne {index other : Bool} (different : other ≠ index) (value : Nat) :
    (histogram.record index value).histograms other = histogram.histograms other :=
  update_of_ne different ..

theorem histograms_record_self (index : Bool) (value : Nat) :
    (histogram.record index value).histograms index = value ::ₘ histogram.histograms index :=
  update_self ..

theorem sum_histograms_record (index : Bool) (value : Nat) :
    (histogram.record index value).histograms false +
        (histogram.record index value).histograms true =
      value ::ₘ (histogram.histograms false + histogram.histograms true) := by
  cases index with
  | false =>
    rw [histograms_record_self, histograms_record_of_ne (by decide), Multiset.cons_add]
  | true =>
    rw [histograms_record_self, histograms_record_of_ne (by decide), Multiset.add_cons]

theorem Consistent.record {value : Nat} {critical : Int} {index : Bool}
    (consistent : histogram.Consistent (.loaded value critical index ::ₘ rest)) :
    (histogram.record index value).Consistent (.recorded value critical ::ₘ rest) := by
  obtain ⟨range, current, phases, indices, kept, ended, before⟩ := consistent
  have counts :=
    @count_cons_congr (.loaded value critical index) (.recorded value critical) rfl rest
  have elsewhere : ∀ other, (Writer.loaded value critical index).index? ≠ some other →
      (histogram.record index value).histograms other = histogram.histograms other :=
    fun other different =>
      histograms_record_of_ne (fun same => different (congrArg some same.symm)) value
  -- what is added and not yet reset is not recorded into
  have twice : (histogram.record index value).twice = histogram.twice := by
    unfold PerThreadHistogram.twice
    cases at' : histogram.reader with
    | added inactive =>
      rw [at'] at indices
      rw [show (histogram.record index value).reader = _ from at']
      exact elsewhere inactive (unheld_cons.1 indices.2).1
    | _ => rw [show (histogram.record index value).reader = _ from at']
  refine ⟨range, by rw [counts]; exact current,
    phases.of_balance rfl (by rw [counts]; rfl) (by rw [counts]; exact id),
    indices.of_access rfl (.inl rfl) elsewhere, ?_, ?_,
    before.mono rfl rfl (le_refl _) fun other => ?_⟩
  · rw [twice, Multiset.add_assoc, sum_histograms_record]
    show value ::ₘ histogram.recorded + histogram.twice = histogram.accumulated + _
    rw [Multiset.cons_add, kept, Multiset.add_cons, Multiset.add_assoc]
  · rw [Multiset.filterMap_cons_none _ _ rfl] at ended
    show value ::ₘ histogram.recorded = histogram.finished + _
    rw [Multiset.filterMap_cons_some Writer.done? _ _ (b := value) rfl, Multiset.add_cons, ← ended]
  · by_cases same : other = index
    · rw [same, histograms_record_self]
      exact Multiset.le_cons_self _ _
    · rw [histograms_record_of_ne same]

theorem Consistent.leave {value : Nat} {critical : Int}
    (consistent : histogram.Consistent (.recorded value critical ::ₘ rest)) :
    Consistent
      { histogram with
        endEpoch := Function.update histogram.endEpoch (.ofEpoch critical)
          (histogram.endEpoch (.ofEpoch critical) + 1)
        finished := value ::ₘ histogram.finished } (.idle ::ₘ rest) := by
  obtain ⟨range, current, phases, indices, kept, ended, before⟩ := consistent
  have balance (phase : Phase) : (count (.idle ::ₘ rest) phase : Int) +
      Function.update histogram.endEpoch (.ofEpoch critical)
        (histogram.endEpoch (.ofEpoch critical) + 1) phase =
      count (.recorded value critical ::ₘ rest) phase + histogram.endEpoch phase := by
    rw [count_cons, count_cons, if_neg (by rintro ⟨⟩)]
    by_cases same : phase = .ofEpoch critical
    · rw [same, update_self, if_pos (by rfl)]
      push_cast
      omega
    · rw [update_of_ne same, if_neg]
      exact fun equal => same (Option.some.inj equal).symm
  have fewer (phase : Phase) (none : count (.recorded value critical ::ₘ rest) phase = 0) :
      count (.idle ::ₘ rest) phase = 0 := by
    rw [count_cons] at none ⊢
    rw [if_neg (by rintro ⟨⟩)]
    omega
  refine ⟨range, ?_, phases.of_balance rfl (balance _) (fewer _),
    indices.of_access rfl (.inl rfl) fun _ _ => rfl, kept, ?_,
    before.mono rfl rfl (Multiset.le_cons_self _ _) fun _ => le_refl _⟩
  · have balanced := balance histogram.phase
    show (count (.idle ::ₘ rest) histogram.phase : Int) = histogram.startEpoch -
      Function.update histogram.endEpoch (.ofEpoch critical) _ histogram.phase
    omega
  · rw [Multiset.filterMap_cons_some Writer.done? _ _ (b := value) rfl] at ended
    rw [Multiset.filterMap_cons_none _ _ rfl]
    exact ended.trans ((Multiset.add_cons ..).trans (Multiset.cons_add ..).symm)

/-! ## Accesses of the reader -/

theorem phase?_ne_of_count {phase : Phase} (none : count crew phase = 0) (member : writer ∈ crew) :
    writer.phase? ≠ some phase :=
  Multiset.countP_eq_zero.1 none writer member

/-- The thread that is about to record entered in one of the phases. -/
theorem exists_phase_of_index {index : Bool} (held : writer.index? = some index) :
    ∃ phase, writer.phase? = some phase := by
  cases writer with
  | loaded value critical index => exact ⟨_, rfl⟩
  | _ => cases held

section Consistent

variable (consistent : histogram.Consistent crew)
include consistent

theorem Consistent.finished_le : histogram.finished ≤ histogram.recorded := by
  rw [consistent.ended]
  exact Multiset.le_add_right _ _

/-- The exchange of the index: all that was recorded is in the histogram that was active. -/
theorem Consistent.exchange {index : Bool} (at' : histogram.reader = .loaded index) :
    Consistent { histogram with
      activeIndex := !index
      reader := .exchanged histogram.activeIndex } crew := by
  have finished := consistent.finished_le
  obtain ⟨range, current, phases, indices, kept, ended, before⟩ := consistent
  rw [at'] at phases indices before
  rw [twice, at'] at kept
  obtain ⟨rfl, empty, -⟩ := indices
  refine ⟨range, current, phases, rfl, kept, ended, ?_⟩
  have all : histogram.recorded =
      histogram.accumulated + histogram.histograms histogram.activeIndex := by
    rw [← Multiset.add_zero histogram.recorded]
    refine kept.trans ?_
    cases active : histogram.activeIndex with
    | false => rw [show histogram.histograms true = 0 by simpa [active] using empty,
        Multiset.add_zero]
    | true => rw [show histogram.histograms false = 0 by simpa [active] using empty,
        Multiset.add_zero]
  exact before.trans (finished.trans (le_of_eq all))

/-- The exchange of the start epoch: the threads that are there are now those of the last phase. -/
theorem Consistent.flip {inactive : Bool}
    {next : Phase} (at' : histogram.reader = .opened inactive next) :
    Consistent { histogram with
      startEpoch := next.initial
      reader := .waiting inactive next histogram.startEpoch } crew := by
  obtain ⟨range, current, phases, indices, kept, ended, before⟩ := consistent
  rw [at'] at phases indices before
  rw [twice, at'] at kept
  obtain ⟨rfl, none, initial⟩ := phases
  have phase : ({ histogram with
      startEpoch := histogram.phase.other.initial
      reader := .waiting inactive histogram.phase.other histogram.startEpoch } :
        Exact).phase = histogram.phase.other := Phase.ofEpoch_initial _
  refine ⟨?_, ?_, ?_, ⟨indices, ?_⟩, kept, ended, before⟩
  · rw [phase]
    exact Int.le_add_of_nonneg_right (Int.natCast_nonneg histogram.calls)
  · rw [phase, none, initial]
    exact (Int.sub_self _).symm
  · show PhaseKnown _ crew (.waiting inactive histogram.phase.other histogram.startEpoch)
    rw [PhaseKnown, phase, Phase.other_other]
    exact ⟨rfl, current⟩
  · intro writer member held
    obtain ⟨entered, found⟩ := exists_phase_of_index held
    rw [found, Phase.other_other]
    refine congrArg some (Phase.eq_of_ne_other ?_)
    rintro rfl
    exact phase?_ne_of_count none member found

/-- The end of the waiting: no thread of the last phase is left, and the others use the active
histogram. -/
theorem Consistent.catchUp {inactive : Bool} {next : Phase} {startValueAtFlip : Int}
    (at' : histogram.reader = .waiting inactive next startValueAtFlip)
    (caughtUp : histogram.endEpoch next.other = startValueAtFlip) :
    Consistent { histogram with reader := .flipped inactive } crew := by
  obtain ⟨range, current, phases, indices, kept, ended, before⟩ := consistent
  rw [at'] at phases indices before
  rw [twice, at'] at kept
  obtain ⟨rfl, waits⟩ := phases
  have none : count crew histogram.phase.other = 0 := by omega
  refine ⟨range, current, none, ⟨indices.1, ?_⟩, kept, ended, before⟩
  intro writer member held
  exact phase?_ne_of_count none member (indices.2 writer member held)

theorem Consistent.reset {inactive : Bool} (at' : histogram.reader = .added inactive) :
    Consistent { histogram with
      histograms := Function.update histogram.histograms inactive 0
      reader := .idle } crew := by
  obtain ⟨range, current, phases, indices, kept, ended, before⟩ := consistent
  rw [at'] at phases indices before
  rw [twice, at'] at kept
  have here : (!histogram.activeIndex) = inactive := by rw [indices.1, Bool.not_not]
  refine ⟨range, current, phases, ?_, ?_, ended, before⟩
  · show Function.update histogram.histograms inactive 0 (!histogram.activeIndex) = 0 ∧
      Unheld crew (!histogram.activeIndex)
    rw [here, update_self]
    exact ⟨rfl, indices.2⟩
  · show histogram.recorded + 0 = histogram.accumulated +
      Function.update histogram.histograms inactive 0 false +
        Function.update histogram.histograms inactive 0 true
    change histogram.recorded + histogram.histograms inactive = _ at kept
    rw [Multiset.add_zero]
    apply add_right_cancel (b := histogram.histograms inactive)
    rw [kept]
    cases inactive with
    | false =>
      rw [update_self, update_of_ne (by decide)]
      abel
    | true =>
      rw [update_self, update_of_ne (by decide)]
      abel

theorem Consistent.read : (histogram.read (· + ·)).Consistent crew := by
  unfold PerThreadHistogram.read
  obtain ⟨range, current, phases, indices, kept, ended, before⟩ := id consistent
  cases at' : histogram.reader with
  | idle =>
    rw [at'] at phases indices
    rw [twice, at'] at kept
    exact ⟨range, current, phases, ⟨rfl, indices⟩, kept, ended, le_refl _⟩
  | loaded index => exact consistent.exchange at'
  | exchanged inactive =>
    rw [at'] at phases indices before
    rw [twice, at'] at kept
    refine ⟨range, current, ⟨?_, phases⟩, indices, kept, ended, before⟩
    show _ = (Phase.ofEpoch histogram.startEpoch).other
    rw [Phase.ofEpoch]
    split <;> rfl
  | chosen inactive next =>
    rw [at'] at phases indices before
    rw [twice, at'] at kept
    obtain ⟨rfl, none⟩ := phases
    refine ⟨range, ?_, ⟨rfl, none, update_self ..⟩, indices, kept, ended, before⟩
    refine current.trans (congrArg (histogram.startEpoch - ·) ?_)
    exact (update_of_ne histogram.phase.other_ne.symm ..).symm
  | opened inactive next => exact consistent.flip at'
  | waiting inactive next startValueAtFlip =>
    dsimp only
    split
    next caughtUp => exact consistent.catchUp at' caughtUp
    next => exact consistent
  | flipped inactive =>
    rw [at'] at phases indices before
    rw [twice, at', Multiset.add_zero] at kept
    refine ⟨range, current, phases, indices, ?_, ended, before⟩
    show histogram.recorded + histogram.histograms inactive = histogram.accumulated +
      histogram.histograms inactive + histogram.histograms false + histogram.histograms true
    rw [kept]
    abel
  | added inactive => exact consistent.reset at'

end Consistent

end PerThreadHistogram

namespace Recording

open PerThreadHistogram

/-- The threads without the one that makes an access. -/
theorem exists_rest_of_set {writers : List Writer} {thread : Nat} {writer : Writer}
    (found : writers[thread]? = some writer) (next : Writer) :
    ∃ rest : Multiset Writer, (writers : Multiset Writer) = writer ::ₘ rest ∧
      ((writers.set thread next : List Writer) : Multiset Writer) = next ::ₘ rest := by
  obtain ⟨within, rfl⟩ := List.getElem?_eq_some_iff.1 found
  refine ⟨writers.eraseIdx thread, Multiset.coe_eq_coe.2 ?_, Multiset.coe_eq_coe.2 ?_⟩
  · exact (getElem_cons_eraseIdx_perm within).symm
  · exact set_perm_cons_eraseIdx within next

theorem calls_le_step (recording : Recording (Multiset Nat)) (event : RecordingEvent) :
    recording.histogram.calls ≤ (recording.step (· + ·) event).histogram.calls := by
  cases event with
  | write thread value =>
    rw [step]
    cases recording.writers[thread]? with
    | none => exact le_refl _
    | some writer =>
      cases writer with
      | idle => exact Nat.le_succ _
      | _ => exact le_refl _
  | read =>
    show _ ≤ (recording.histogram.read (· + ·)).calls
    unfold PerThreadHistogram.read
    cases recording.histogram.reader with
    | waiting =>
      dsimp only
      split <;> exact le_refl _
    | _ => exact le_refl _

theorem consistent_step {recording : Recording (Multiset Nat)} {event : RecordingEvent}
    (few : (recording.step (· + ·) event).histogram.calls < 2 ^ 63)
    (consistent : recording.histogram.Consistent recording.writers) :
    (recording.step (· + ·) event).histogram.Consistent (recording.step (· + ·) event).writers := by
  cases event with
  | read => exact consistent.read
  | write thread value =>
    rw [step] at few ⊢
    cases found : recording.writers[thread]? with
    | none => exact consistent
    | some writer =>
      rw [found] at few
      obtain ⟨rest, before, after⟩ :=
        exists_rest_of_set found (recording.histogram.write value writer).2
      rw [before] at consistent
      dsimp only
      rw [after]
      cases writer with
      | idle => exact consistent.enter few value
      | entered => exact consistent.load
      | loaded => exact consistent.record
      | recorded => exact consistent.leave

theorem consistent_exactRun (threads : Nat) (events : List RecordingEvent)
    (few : (exactRun threads events).histogram.calls < 2 ^ 63) :
    (exactRun threads events).histogram.Consistent (exactRun threads events).writers := by
  induction events using List.reverseRecOn with
  | nil =>
    have outside : ∀ writer ∈ List.replicate threads Writer.idle, writer = .idle :=
      fun writer member => eq_of_mem_replicate member
    have none (phase : Phase) : count (List.replicate threads Writer.idle) phase = 0 := by
      refine Multiset.countP_eq_zero.2 fun writer member => ?_
      rw [outside writer member]
      rintro ⟨⟩
    refine ⟨le_refl _, ?_, none _, ⟨rfl, fun writer member => ?_⟩, rfl, ?_, le_refl _⟩
    · exact congrArg Nat.cast (none _)
    · rw [outside writer member]
      rintro ⟨⟩
    · have unrecorded : (List.replicate threads Writer.idle).filterMap Writer.done? = [] :=
        filterMap_eq_nil_iff.2 fun writer member => by rw [outside writer member]; rfl
      show (0 : Multiset Nat) = 0 + ((List.replicate threads Writer.idle).filterMap Writer.done? :
        List Nat)
      rw [unrecorded]
      rfl
  | append_singleton events event ih =>
    rw [exactRun, foldl_append] at few ⊢
    exact consistent_step few (ih (Nat.lt_of_le_of_lt (calls_le_step _ event) few))

/-! ## Counts that are cut -/

/-- No count is cut: `hdr_add` reads counts below `2 ^ 31`. -/
def SmallCounts (recording : Recording (Nat → Int)) : RecordingEvent → Prop
  | .write _ _ => True
  | .read => ∀ inactive, recording.histogram.reader = .flipped inactive →
      ∀ value ∈ recording.histogram.histograms inactive,
        (recording.histogram.histograms inactive).count value < 2 ^ 31

instance (recording : Recording (Nat → Int)) : DecidablePred recording.SmallCounts
  | .write _ _ => inferInstanceAs (Decidable True)
  | .read => inferInstanceAs (Decidable (∀ _, _))

/-- The counts of what was added. -/
def counted (exact : Recording (Multiset Nat)) : Recording (Nat → Int) where
  histogram := { exact.histogram with
    accumulated := fun value => exact.histogram.accumulated.count value }
  writers := exact.writers

theorem hdrAdd_count (total histogram : Multiset Nat)
    (small : ∀ value ∈ histogram, histogram.count value < 2 ^ 31) :
    hdrAdd (fun value => total.count value) histogram =
      fun value => ((total + histogram).count value : Int) := by
  funext value
  have below : histogram.count value < 2 ^ 31 := by
    by_cases member : value ∈ histogram
    · exact small value member
    · rw [Multiset.count_eq_zero_of_notMem member]
      decide
  rw [hdrAdd, Multiset.count_add, Nat.cast_add, Int.bmod_eq_of_le (by omega) (by omega)]

theorem counted_read (exact : Recording (Multiset Nat)) (small : exact.counted.SmallCounts .read) :
    exact.counted.step hdrAdd .read = (exact.step (· + ·) .read).counted := by
  simp only [step, counted, PerThreadHistogram.read]
  cases place : exact.histogram.reader with
  | waiting inactive next startValueAtFlip =>
    by_cases ended : exact.histogram.endEpoch next.other = startValueAtFlip <;> simp [ended, place]
  | flipped inactive =>
    dsimp only
    rw [hdrAdd_count _ (exact.histogram.histograms inactive) (small inactive place)]
  | _ => rfl

theorem counted_step (exact : Recording (Multiset Nat)) (event : RecordingEvent)
    (small : exact.counted.SmallCounts event) :
    exact.counted.step hdrAdd event = (exact.step (· + ·) event).counted := by
  cases event with
  | read => exact counted_read exact small
  | write thread value =>
    simp only [step, counted]
    cases exact.writers[thread]? with
    | none => rfl
    | some writer => cases writer <;> rfl

/-- As long as no count is cut, the code counts what the exact addition adds. -/
theorem run_eq_counted (threads : Nat) (events : List RecordingEvent)
    (small : Throughout (step hdrAdd) SmallCounts (start threads fun _ => 0) events) :
    run threads events = (exactRun threads events).counted := by
  have follows : ∀ events (exact : Recording (Multiset Nat)),
      Throughout (step hdrAdd) SmallCounts exact.counted events →
        events.foldl (step hdrAdd) exact.counted = (events.foldl (step (· + ·)) exact).counted := by
    intro events
    induction events with
    | nil => exact fun _ _ => rfl
    | cons event events ih =>
      intro exact small
      have stepped := counted_step exact event small.1
      rw [foldl_cons, foldl_cons, stepped]
      exact ih _ (stepped ▸ small.2)
  exact follows events (start threads 0) small

/-- From the end of `flip_phase` to the end of the reset no thread is about to record into the
histogram that is added; a value that was recorded is in the accumulated histogram or in one of the
two, and in both only until the reset; and when a snapshot has ended, the values whose recording had
ended before it started are in the accumulated histogram. -/
structure LosesNothing (recording : Recording (Nat → Int)) : Prop where
  undisturbed : ∀ inactive, recording.histogram.reader = .flipped inactive ∨
    recording.histogram.reader = .added inactive → Unheld recording.writers inactive
  once : ∀ value, (recording.histogram.recorded.count value : Int) +
      recording.histogram.twice.count value =
    recording.histogram.accumulated value + (recording.histogram.histograms false).count value +
      (recording.histogram.histograms true).count value
  saved : recording.histogram.reader = .idle → ∀ value,
    (recording.histogram.finishedBefore.count value : Int) ≤ recording.histogram.accumulated value

theorem run_losesNothing (threads : Nat) (events : List RecordingEvent)
    (few : (run threads events).histogram.calls < 2 ^ 63)
    (small : Throughout (step hdrAdd) SmallCounts (start threads fun _ => 0) events) :
    LosesNothing (run threads events) := by
  rw [run_eq_counted threads events small] at few ⊢
  obtain ⟨_, _, _, indices, kept, _, before⟩ := consistent_exactRun threads events few
  refine ⟨?_, fun value => ?_,
    fun (idle : (exactRun threads events).histogram.reader = _) value => ?_⟩
  · rintro inactive (flipped | added)
    · replace flipped : (exactRun threads events).histogram.reader = _ := flipped
      rw [flipped] at indices
      exact indices.2
    · replace added : (exactRun threads events).histogram.reader = _ := added
      rw [added] at indices
      exact indices.2
  · have counts := congrArg (Multiset.count value) kept
    simp only [Multiset.count_add] at counts
    simp only [counted]
    exact_mod_cast counts
  · rw [idle] at before
    exact Int.ofNat_le.mpr (Multiset.count_le_of_le value before)

/-- Two threads, one of which records while a snapshot starts, which then ends. -/
theorem run_losesNothing_two :
    let events := [.write 0 5, .write 0 0, .read, .write 1 7, .write 0 0, .write 0 0, .read, .read,
      .read, .read, .write 1 0, .write 1 0, .write 1 0, .read, .read, .read]
    (run 2 events).histogram.reader = .idle ∧ (run 2 events).histogram.accumulated 5 = 1 ∧
      LosesNothing (run 2 events) :=
  ⟨by decide, by decide, run_losesNothing 2 _ (by decide) (by simp only [Throughout]; decide)⟩

/-- One thread after a number of recordings of `5` and no snapshot. -/
def recorded (calls : Nat) : Recording (Nat → Int) where
  histogram :=
    { PerThreadHistogram.new fun _ => 0 with
      startEpoch := calls
      endEpoch := Function.update Phase.initial .even calls
      histograms := Function.update (fun _ => 0) false (Multiset.replicate calls 5)
      calls := calls
      recorded := Multiset.replicate calls 5
      finished := Multiset.replicate calls 5 }
  writers := [.idle]

theorem run_append (threads : Nat) (before after : List RecordingEvent) :
    run threads (before ++ after) = after.foldl (step hdrAdd) (run threads before) :=
  foldl_append

theorem run_writes (calls : Nat) :
    run 1 (List.replicate (4 * calls) (.write 0 5)) = recorded calls := by
  induction calls with
  | zero => simp [run, recorded, start, PerThreadHistogram.new, Phase.initial]
  | succ calls ih =>
    rw [Nat.mul_succ, replicate_add, run_append, ih]
    have even : ¬ (calls : Int) < 0 := by omega
    simp [List.replicate, recorded, step, PerThreadHistogram.write, PerThreadHistogram.enter,
      PerThreadHistogram.record, PerThreadHistogram.new, Multiset.replicate_succ, even]

theorem run_snapshot (calls : Nat) :
    let events := List.replicate (4 * calls) (.write 0 5) ++ List.replicate 8 .read
    (run 1 events).histogram.reader = .idle ∧
      (run 1 events).histogram.finishedBefore = Multiset.replicate calls 5 ∧
      (run 1 events).histogram.accumulated 5 = (calls : Int).bmod (2 ^ 32) := by
  dsimp only
  rw [run_append, run_writes]
  simp [List.replicate, recorded, step, PerThreadHistogram.read, PerThreadHistogram.new, hdrAdd,
    Phase.other, show ¬ (calls : Int) < 0 by omega]

/-- A snapshot after `2 ^ 31` recordings of a value takes as many away from its count. -/
theorem snapshot_cuts_count :
    let events := List.replicate (4 * 2 ^ 31) (.write 0 5) ++ List.replicate 8 .read
    (run 1 events).histogram.reader = .idle ∧
      (run 1 events).histogram.finishedBefore = Multiset.replicate (2 ^ 31) 5 ∧
      (run 1 events).histogram.accumulated 5 = -2 ^ 31 :=
  run_snapshot (2 ^ 31)

end Recording

end DseDriver.Metrics
