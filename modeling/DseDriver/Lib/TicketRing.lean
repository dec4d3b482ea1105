import Mathlib.Order.Interval.Finset.Nat

/-!
# Rings of cells with tickets

Positions are counted up by those who put values into the cells of a ring and by those who take
them, and the number of a cell says whose turn it is: it is the next position that can be put
there, or one more than the position that can be taken.  Whoever counts a position up holds it
until the number of its cell is moved on.
-/

namespace DseDriver.Lib

open Function

/-- Positions that are less than the size of a ring apart are in different cells. -/
theorem eq_of_mod_eq (first : Nat) {size i j : Nat} (same : i % size = j % size)
    (fromI : first ≤ i) (toI : i < first + size) (fromJ : first ≤ j) (toJ : j < first + size) :
    i = j :=
  Nat.mod_injOn_Ico first size (by simp [fromI, toI]) (by simp [fromJ, toJ]) same

theorem succ_mod_ne {size : Nat} (large : 2 ≤ size) (pos : Nat) : (pos + 1) % size ≠ pos % size := by
  intro same
  have equal := eq_of_mod_eq pos same (by omega) (by omega) (Nat.le_refl pos) (by omega)
  omega

/-- Who takes tickets. -/
inductive TicketSide where
  | put
  | take
  deriving DecidableEq

namespace TicketSide

/-- The number of the cell of a position when it is the turn of this side. -/
def ready : TicketSide → Nat → Nat
  | put, pos => pos
  | take, pos => pos + 1

/-- The number that hands the cell over to the other side. -/
def next (size : Nat) : TicketSide → Nat → Nat
  | put, pos => pos + 1
  | take, pos => pos + size

end TicketSide

/-- The cells of a ring, by their sequence numbers, with the tickets taken. -/
structure TicketRing where
  seq : Nat → Nat
  count : TicketSide → Nat
  holding : TicketSide → Nat → Prop

namespace TicketRing

/-- The cell waits for a value at this position. -/
structure Free (size : Nat) (ring : TicketRing) (pos : Nat) : Prop where
  seq : ring.seq (pos % size) = pos
  notTaken : ring.count .take ≤ pos
  near : pos < ring.count .take + size
  held : pos < ring.count .put → ring.holding .put pos

/-- The cell has the value of this position. -/
structure Full (size : Nat) (ring : TicketRing) (pos : Nat) : Prop where
  seq : ring.seq (pos % size) = pos + 1
  counted : pos < ring.count .put
  near : ring.count .put ≤ pos + size
  held : pos < ring.count .take → ring.holding .take pos

/-- The cells are in step with the tickets. -/
structure Sound (size : Nat) (ring : TicketRing) : Prop where
  large : 2 ≤ size
  order : ring.count .take ≤ ring.count .put
  bounded : ring.count .put ≤ ring.count .take + size
  cells : ∀ cell < size, ∃ pos, pos % size = cell ∧ (ring.Free size pos ∨ ring.Full size pos)
  held : ∀ side pos, ring.holding side pos →
    pos < ring.count side ∧ ring.seq (pos % size) = side.ready pos

/-- Count up the position. -/
def claim (ring : TicketRing) (side : TicketSide) (pos : Nat) : TicketRing :=
  { ring with
    count := Function.update ring.count side (pos + 1)
    holding := fun other held => ring.holding other held ∨ (other = side ∧ held = pos) }

/-- Move the number of the cell on. -/
def release (size : Nat) (ring : TicketRing) (side : TicketSide) (pos : Nat) : TicketRing :=
  { ring with
    seq := Function.update ring.seq (pos % size) (side.next size pos)
    holding := fun other held => ring.holding other held ∧ ¬ (other = side ∧ held = pos) }

variable {size : Nat} {ring : TicketRing} {side : TicketSide} {pos : Nat}

theorem count_claim_self : (ring.claim side pos).count side = pos + 1 :=
  update_self ..

theorem count_claim_of_ne {other : TicketSide} (different : other ≠ side) :
    (ring.claim side pos).count other = ring.count other :=
  update_of_ne different ..

theorem seq_release_self : (ring.release size side pos).seq (pos % size) = side.next size pos :=
  update_self ..

theorem seq_release_of_ne {cell : Nat} (apart : cell ≠ pos % size) :
    (ring.release size side pos).seq cell = ring.seq cell :=
  update_of_ne apart ..

theorem sound_new (large : 2 ≤ size) : Sound size ⟨id, fun _ => 0, fun _ _ => False⟩ where
  large := large
  order := Nat.le_refl 0
  bounded := Nat.zero_le _
  cells := by
    intro cell within
    have same := Nat.mod_eq_of_lt within
    exact ⟨cell, same, .inl ⟨same, Nat.zero_le cell, by omega, fun counted => absurd counted
      (Nat.not_lt_zero cell)⟩⟩
  held := fun _ _ => False.elim

namespace Sound

section Sound

variable (sound : ring.Sound size)
include sound

/-- The number of the cell of a position says which position it is at. -/
theorem cell_of (pos : Nat) :
    ∃ current, current % size = pos % size ∧ (ring.Free size current ∨ ring.Full size current) :=
  sound.cells _ (Nat.mod_lt pos (Nat.lt_of_lt_of_le Nat.zero_lt_two sound.large))

theorem free_of_seq (seq : ring.seq (pos % size) = pos) : ring.Free size pos := by
  obtain ⟨current, same, free | full⟩ := sound.cell_of pos
  · have equal : current = pos := by rw [← free.seq, same, seq]
    exact equal ▸ free
  · have equal : current + 1 = pos := by rw [← full.seq, same, seq]
    exact absurd (equal ▸ same.symm) (succ_mod_ne sound.large current)

theorem full_of_seq (seq : ring.seq (pos % size) = pos + 1) : ring.Full size pos := by
  obtain ⟨current, same, free | full⟩ := sound.cell_of pos
  · have equal : current = pos + 1 := by rw [← free.seq, same, seq]
    exact absurd (equal ▸ same) (succ_mod_ne sound.large pos)
  · have equal : current + 1 = pos + 1 := by rw [← full.seq, same, seq]
    exact Nat.succ.inj equal ▸ full

/-- A cell that was ready for the next position is still: nobody else can have moved it on. -/
theorem seq_eq_ready (next : ring.count side = pos)
    (ready : side.ready pos ≤ ring.seq (pos % size)) :
    ring.seq (pos % size) = side.ready pos := by
  have order := sound.order
  have bounded := sound.bounded
  obtain ⟨current, same, free | full⟩ := sound.cell_of pos
  · have near := free.near
    have notTaken := free.notTaken
    have seq := free.seq
    rw [same] at seq
    cases side with
    | put =>
      have turn : pos ≤ current := seq ▸ ready
      exact seq.trans (eq_of_mod_eq pos same turn (by omega) (Nat.le_refl pos) (by omega))
    | take =>
      have turn : pos + 1 ≤ current := seq ▸ ready
      have equal := eq_of_mod_eq pos same (by omega) (by omega) (Nat.le_refl pos) (by omega)
      omega
  · have counted := full.counted
    have seq := full.seq
    rw [same] at seq
    cases side with
    | put =>
      have turn : pos ≤ current + 1 := seq ▸ ready
      have equal : pos = current + 1 := by omega
      exact absurd (equal ▸ same.symm) (succ_mod_ne sound.large current)
    | take =>
      have turn : pos + 1 ≤ current + 1 := seq ▸ ready
      have equal := eq_of_mod_eq pos same (by omega) (by omega) (Nat.le_refl pos) (by omega)
      exact seq.trans (congrArg (· + 1) equal)

theorem claim (next : ring.count side = pos)
    (ready : side.ready pos ≤ ring.seq (pos % size)) : (ring.claim side pos).Sound size := by
  have large := sound.large
  have order := sound.order
  have bounded := sound.bounded
  have seq := sound.seq_eq_ready next ready
  have held : ∀ other held, (ring.claim side pos).holding other held →
      held < (ring.claim side pos).count other ∧ ring.seq (held % size) = other.ready held := by
    rintro other held (before | ⟨rfl, rfl⟩)
    · obtain ⟨counted, ready⟩ := sound.held other held before
      refine ⟨?_, ready⟩
      by_cases same : other = side
      · subst same
        rw [count_claim_self]
        omega
      · rwa [count_claim_of_ne same]
    · refine ⟨?_, seq⟩
      rw [count_claim_self]
      exact Nat.lt_succ_self held
  cases side with
  | put =>
    have free := sound.free_of_seq seq
    have near := free.near
    refine ⟨large, ?_, ?_, fun cell within => ?_, held⟩
    · show ring.count .take ≤ pos + 1
      omega
    · show pos + 1 ≤ ring.count .take + size
      omega
    · obtain ⟨current, same, free | full⟩ := sound.cells cell within
      · refine ⟨current, same, .inl ⟨free.seq, free.notTaken, free.near, fun counted => ?_⟩⟩
        rcases Nat.lt_succ_iff_lt_or_eq.1 counted with before | equal
        · exact .inl (free.held (next ▸ before))
        · exact .inr ⟨rfl, equal⟩
      · have counted := full.counted
        have after := full.near
        refine ⟨current, same, .inr ⟨full.seq, ?_, ?_, fun counted => .inl (full.held counted)⟩⟩
        · show current < pos + 1
          omega
        · show pos + 1 ≤ current + size
          by_contra beyond
          -- otherwise this is the cell of the position that is counted up
          have again : pos = current + size := by omega
          have other := full.seq
          have this : ring.seq ((current + size) % size) = current + size := again ▸ seq
          rw [Nat.add_mod_right] at this
          omega
  | take =>
    have full := sound.full_of_seq seq
    have counted := full.counted
    refine ⟨large, ?_, ?_, fun cell within => ?_, held⟩
    · show pos + 1 ≤ ring.count .put
      omega
    · show ring.count .put ≤ pos + 1 + size
      omega
    · obtain ⟨current, same, free | full⟩ := sound.cells cell within
      · have near := free.near
        have notTaken := free.notTaken
        refine ⟨current, same, .inl ⟨free.seq, ?_, ?_, fun counted => .inl (free.held counted)⟩⟩
        · show pos + 1 ≤ current
          by_contra beyond
          have equal : pos = current := by omega
          have other := free.seq
          have this : ring.seq (current % size) = current + 1 := equal ▸ seq
          omega
        · show current < pos + 1 + size
          omega
      · refine ⟨current, same, .inr ⟨full.seq, full.counted, full.near, fun counted => ?_⟩⟩
        rcases Nat.lt_succ_iff_lt_or_eq.1 counted with before | equal
        · exact .inl (full.held (next ▸ before))
        · exact .inr ⟨rfl, equal⟩

theorem release (holding : ring.holding side pos) : (ring.release size side pos).Sound size := by
  have large := sound.large
  have order := sound.order
  have bounded := sound.bounded
  obtain ⟨counted, ready⟩ := sound.held side pos holding
  -- the cell of the position is handed over, the others stay as they are
  have here : ∃ current, current % size = pos % size ∧
      ((ring.release size side pos).Free size current ∨
        (ring.release size side pos).Full size current) := by
    cases side with
    | put =>
      have free := sound.free_of_seq ready
      have notTaken := free.notTaken
      refine ⟨pos, rfl, .inr ⟨seq_release_self, counted, ?_, fun taken => ?_⟩⟩
      · show ring.count .put ≤ pos + size
        omega
      · have before : pos < ring.count .take := taken
        omega
    | take =>
      have full := sound.full_of_seq ready
      have near := full.near
      refine ⟨pos + size, Nat.add_mod_right .., .inl ⟨?_, ?_, ?_, fun again => ?_⟩⟩
      · rw [Nat.add_mod_right]
        exact seq_release_self
      · show ring.count .take ≤ pos + size
        omega
      · show pos + size < ring.count .take + size
        omega
      · have before : pos + size < ring.count .put := again
        omega
  refine ⟨large, order, bounded, fun cell within => ?_, ?_⟩
  · by_cases apart : cell = pos % size
    · rw [apart]
      exact here
    · obtain ⟨current, rfl, free | full⟩ := sound.cells cell within
      · refine ⟨current, rfl, .inl ⟨(seq_release_of_ne apart).trans free.seq,
          free.notTaken, free.near, ?_⟩⟩
        exact fun counted => ⟨free.held counted, fun equal => apart (by rw [equal.2])⟩
      · refine ⟨current, rfl, .inr ⟨(seq_release_of_ne apart).trans full.seq,
          full.counted, full.near, ?_⟩⟩
        exact fun counted => ⟨full.held counted, fun equal => apart (by rw [equal.2])⟩
  · rintro other held ⟨before, different⟩
    obtain ⟨otherCounted, otherReady⟩ := sound.held other held before
    refine ⟨otherCounted, (seq_release_of_ne fun same => ?_).trans otherReady⟩
    rw [same, ready] at otherReady
    cases side <;> cases other
    · exact different ⟨rfl, otherReady.symm⟩
    · exact succ_mod_ne large held ((congrArg (· % size) otherReady.symm).trans same.symm)
    · exact succ_mod_ne large pos ((congrArg (· % size) otherReady).trans same)
    · exact different ⟨rfl, (Nat.succ.inj otherReady).symm⟩

/-- When nobody holds a position the values that are there are those between the counts. -/
theorem full_of_not_holding (free : ∀ side pos, ¬ ring.holding side pos)
    (notTaken : ring.count .take ≤ pos) (counted : pos < ring.count .put) : ring.Full size pos := by
  have bounded := sound.bounded
  obtain ⟨current, same, waiting | full⟩ := sound.cell_of pos
  · have equal := eq_of_mod_eq _ same waiting.notTaken waiting.near notTaken (by omega)
    exact absurd (waiting.held (equal ▸ counted)) (free .put current)
  · have put := full.counted
    have kept : ring.count .take ≤ current := by
      by_contra taken
      exact free .take current (full.held (Nat.lt_of_not_le taken))
    have equal := eq_of_mod_eq _ same kept (by omega) notTaken (by omega)
    exact equal ▸ full

/-- The numbers of the cells only grow. -/
theorem seq_le_release (holding : ring.holding side pos) (cell : Nat) :
    ring.seq cell ≤ (ring.release size side pos).seq cell := by
  have large := sound.large
  have ready := (sound.held side pos holding).2
  by_cases same : cell = pos % size
  · rw [same, ready, seq_release_self]
    cases side with
    | put => exact Nat.le_succ pos
    | take =>
      show pos + 1 ≤ pos + size
      omega
  · exact Nat.le_of_eq (seq_release_of_ne same).symm

end Sound

end Sound

end TicketRing

end DseDriver.Lib
