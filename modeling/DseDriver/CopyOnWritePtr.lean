import Mathlib.Data.List.Basic
import Mathlib.Tactic.TypeStar

/-!
# Copy-on-write pointers

Any number of `CopyOnWritePtr` handles share reference-counted objects, are copied, assigned and
destroyed, and give out references for writing.  A reference may be written through until its handle
is copied, assigned or destroyed.  Each handle behaves as if it had a value of its own.
-/

namespace DseDriver.CopyOnWrite

open Function List

/-! ## The objects -/

/-- The `Referenced` objects: the count and the value, which may be null, of each of them. -/
structure Heap (T : Type*) where
  refCount : Nat → Nat
  ref : Nat → Option T
  next : Nat

/-- `ptr_` of a handle, and the object of its last mutating access while the reference from there
may be used. -/
structure CopyOnWritePtr where
  ptr : Nat
  reference : Option Nat

variable {T : Type*}

namespace Heap

variable (heap : Heap T)

/-- A new object, without handles so far. -/
def allocate (value : Option T) : Heap T :=
  { heap with ref := update heap.ref heap.next value, next := heap.next + 1 }

/-- `inc_ref`. -/
def incRef (object : Nat) : Heap T :=
  { heap with refCount := update heap.refCount object (heap.refCount object + 1) }

/-- The last handle takes the value with it. -/
def decRef (object : Nat) : Heap T :=
  { heap with
    refCount := update heap.refCount object (heap.refCount object - 1)
    ref := if heap.refCount object = 1 then update heap.ref object none else heap.ref }

/-- `SharedRefPtr::copy`: the pointer to an object is set to another one. -/
def copy (object other : Nat) : Heap T :=
  if other = object then heap else (heap.incRef other).decRef object

/-- `detach`: the object to write to, a copy if the object of the handle has others. -/
def detach (ptr : Nat) : Heap T × Nat :=
  match heap.ref ptr with
  | none => (heap, ptr)
  | some value =>
    if heap.refCount ptr > 1 then
      ((heap.allocate (some value)).copy ptr heap.next, heap.next)
    else (heap, ptr)

def write (object : Nat) (change : T → T) : Heap T :=
  { heap with ref := update heap.ref object ((heap.ref object).map change) }

/-! ## What the counts say -/

/-- The handles are counted, and a reference for writing is to an object with one handle. -/
structure Sound (handles : List CopyOnWritePtr) : Prop where
  counted : ∀ object, heap.refCount object = (handles.map CopyOnWritePtr.ptr).count object
  allocated : ∀ own ∈ handles, own.ptr < heap.next
  referenced : ∀ own ∈ handles, ∀ object, own.reference = some object →
    object = own.ptr ∧ heap.refCount object = 1

variable {heap} {handles others : List CopyOnWritePtr} {own : CopyOnWritePtr} {object : Nat}

theorem Sound.perm (sound : heap.Sound handles) (same : handles.Perm others) :
    heap.Sound others where
  counted object := (sound.counted object).trans ((same.map _).count_eq object)
  allocated own member := sound.allocated own (same.mem_iff.mpr member)
  referenced own member := sound.referenced own (same.mem_iff.mpr member)

theorem Sound.allocate (sound : heap.Sound handles) (value : Option T) :
    (heap.allocate value).Sound handles :=
  { sound with allocated := fun own member => Nat.lt_succ_of_lt (sound.allocated own member) }

theorem ref_allocate (value : Option T) (old : object < heap.next) :
    (heap.allocate value).ref object = heap.ref object :=
  update_of_ne (Nat.ne_of_lt old) _ _

theorem refCount_cons (sound : heap.Sound (own :: others)) (object : Nat) :
    heap.refCount object =
      (others.map CopyOnWritePtr.ptr).count object + if own.ptr = object then 1 else 0 := by
  simp [sound.counted, count_cons]

/-- A handle on an object that has no others is the only one. -/
theorem Sound.ptr_ne (sound : heap.Sound (own :: others)) (alone : heap.refCount own.ptr ≤ 1) :
    ∀ other ∈ others, other.ptr ≠ own.ptr := by
  intro other member same
  have counted := refCount_cons sound own.ptr
  have positive : 0 < (others.map CopyOnWritePtr.ptr).count own.ptr :=
    count_pos_iff.mpr (mem_map.mpr ⟨other, member, same⟩)
  rw [if_pos rfl] at counted
  omega

/-- No reference for writing is to the object of another handle. -/
theorem Sound.reference_ne (sound : heap.Sound (own :: others)) :
    ∀ other ∈ others, other.reference ≠ some own.ptr := by
  intro other member kept
  obtain ⟨same, alone⟩ := sound.referenced other (mem_cons_of_mem own member) _ kept
  exact sound.ptr_ne (Nat.le_of_eq alone) other member same.symm

/-- Nobody has a reference to an object that is not there yet. -/
theorem Sound.reference_ne_next (sound : heap.Sound handles) :
    ∀ own ∈ handles, own.reference ≠ some heap.next := by
  intro own member kept
  have same := (sound.referenced own member _ kept).1
  exact Nat.ne_of_lt (sound.allocated own member) same.symm

/-- A further handle on an object that nobody writes to. -/
theorem Sound.incRef (sound : heap.Sound handles) (old : object < heap.next)
    (unwritten : ∀ own ∈ handles, own.reference ≠ some object) :
    (heap.incRef object).Sound (⟨object, none⟩ :: handles) where
  counted other := by
    simp only [Heap.incRef, update_apply, map_cons, count_cons, sound.counted,
      beq_iff_eq]
    split <;> simp_all [eq_comm]
  allocated := forall_mem_cons.mpr ⟨old, sound.allocated⟩
  referenced := by
    refine forall_mem_cons.mpr ⟨by rintro other ⟨⟩, ?_⟩
    intro own member other kept
    obtain ⟨same, alone⟩ := sound.referenced own member other kept
    have different : other ≠ object := fun equal => unwritten own member (equal ▸ kept)
    exact ⟨same, (update_of_ne different _ _).trans alone⟩

section Sound

variable (sound : heap.Sound (own :: others))
include sound

/-- A handle is released. -/
theorem Sound.decRef : (heap.decRef own.ptr).Sound others where
  counted object := by
    have counted := refCount_cons sound object
    simp only [Heap.decRef, update_apply]
    split
    next same =>
      subst same
      rw [if_pos rfl] at counted
      omega
    next different =>
      rw [if_neg (Ne.symm different)] at counted
      exact counted
  allocated other member := sound.allocated other (mem_cons_of_mem own member)
  referenced other member object kept := by
    obtain ⟨same, alone⟩ := sound.referenced other (mem_cons_of_mem own member) object kept
    have different : object ≠ own.ptr := fun equal => sound.reference_ne other member (equal ▸ kept)
    exact ⟨same, (update_of_ne different _ _).trans alone⟩

theorem Sound.ref_decRef :
    ∀ other ∈ others, (heap.decRef own.ptr).ref other.ptr = heap.ref other.ptr := by
  intro other member
  unfold Heap.decRef
  dsimp only
  split
  next last => exact update_of_ne (sound.ptr_ne (Nat.le_of_eq last) other member) _ _
  · rfl

/-- A handle gives up its reference, or has one to an object without other handles. -/
theorem Sound.refer {reference : Option Nat}
    (alone : ∀ object, reference = some object → object = own.ptr ∧ heap.refCount object = 1) :
    heap.Sound (⟨own.ptr, reference⟩ :: others) where
  counted := sound.counted
  allocated := forall_mem_cons.mpr (forall_mem_cons.mp sound.allocated)
  referenced := forall_mem_cons.mpr ⟨alone, (forall_mem_cons.mp sound.referenced).2⟩

theorem Sound.unkeep : heap.Sound (⟨own.ptr, none⟩ :: others) := by
  apply sound.refer
  rintro object ⟨⟩

theorem Sound.keep (alone : heap.refCount own.ptr = 1) :
    heap.Sound (⟨own.ptr, some own.ptr⟩ :: others) := by
  apply sound.refer
  rintro object ⟨⟩
  exact ⟨rfl, alone⟩

/-- A handle is set to an object that nobody writes to. -/
theorem Sound.copy (old : object < heap.next)
    (unwritten : ∀ other ∈ others, other.reference ≠ some object) :
    (heap.copy own.ptr object).Sound (⟨object, none⟩ :: others) ∧
      ∀ other ∈ ⟨object, none⟩ :: others,
        (heap.copy own.ptr object).ref other.ptr = heap.ref other.ptr := by
  unfold Heap.copy
  split
  next same =>
    subst same
    exact ⟨sound.unkeep, fun _ _ => rfl⟩
  next different =>
    have unkept : own.reference ≠ some object := by
      intro kept
      exact different (sound.referenced own mem_cons_self object kept).1
    have shared := sound.incRef old (forall_mem_cons.mpr ⟨unkept, unwritten⟩)
    have swapped := shared.perm (List.Perm.swap own ⟨object, none⟩ others)
    exact ⟨swapped.decRef, swapped.ref_decRef⟩

/-- A handle is given an object of its own, with the same value. -/
theorem Sound.detach : (heap.detach own.ptr).1.Sound (⟨(heap.detach own.ptr).2,
        ((heap.detach own.ptr).1.ref (heap.detach own.ptr).2).map
          fun _ => (heap.detach own.ptr).2⟩ :: others) ∧
      (∀ other ∈ others, (heap.detach own.ptr).1.ref other.ptr = heap.ref other.ptr) ∧
      (heap.detach own.ptr).1.ref (heap.detach own.ptr).2 = heap.ref own.ptr := by
  unfold Heap.detach
  split
  next null =>
    dsimp only
    rw [null]
    exact ⟨sound.unkeep, fun _ _ => rfl, rfl⟩
  next value isValue =>
    split
    next shared =>
      have allocated := (forall_mem_cons.mp sound.allocated).2
      have unwritten := (forall_mem_cons.mp sound.reference_ne_next).2
      obtain ⟨pointed, refs⟩ :=
        (sound.allocate (some value)).copy (Nat.lt_succ_self heap.next) unwritten
      obtain ⟨copied, refs⟩ := forall_mem_cons.mp refs
      have isCopy : ((heap.allocate (some value)).copy own.ptr heap.next).ref heap.next =
          some value := copied.trans (update_self ..)
      have alone : ((heap.allocate (some value)).copy own.ptr heap.next).refCount heap.next = 1 := by
        rw [refCount_cons pointed, if_pos rfl, count_eq_zero_of_not_mem]
        intro member
        obtain ⟨other, member, same⟩ := mem_map.mp member
        exact Nat.ne_of_lt (allocated other member) same
      dsimp only
      rw [isCopy, isValue]
      refine ⟨pointed.keep alone, fun other member => (refs other member).trans ?_, rfl⟩
      exact ref_allocate _ (allocated other member)
    next single =>
      have counted := refCount_cons sound own.ptr
      rw [if_pos rfl] at counted
      dsimp only
      rw [isValue]
      exact ⟨sound.keep (by omega), fun _ _ => rfl, rfl⟩

end Sound

end Heap

/-! ## The handles -/

/-- What a program does with its pointers. -/
inductive Event (T : Type*) where
  | create (value : Option T)
  | copy (source : Nat)
  | assign (target source : Nat)
  /-- A mutating access, which gives out a reference. -/
  | access (handle : Nat)
  /-- A write through the reference of the last mutating access. -/
  | write (handle : Nat) (change : T → T)
  | destroy (handle : Nat)

/-- The handles made so far, without those that were destroyed. -/
structure Memory (T : Type*) where
  heap : Heap T
  handles : List (Option CopyOnWritePtr)

namespace Memory

variable (memory : Memory T)

def handle? (handle : Nat) : Option CopyOnWritePtr :=
  memory.handles[handle]?.join

/-- A reference that was given out may not be used from here on. -/
def unkeep (handle : Nat) : Memory T :=
  { memory with
    handles := match memory.handle? handle with
      | none => memory.handles
      | some own => memory.handles.set handle (some ⟨own.ptr, none⟩) }

/-- `ptr_` of a handle is set to an object. -/
def point (handle object : Nat) : Memory T :=
  match memory.handle? handle with
  | none => memory
  | some own =>
    { heap := memory.heap.copy own.ptr object
      handles := memory.handles.set handle (some ⟨object, none⟩) }

def step : Event T → Memory T
  | .create value =>
    { heap := (memory.heap.allocate value).incRef memory.heap.next
      handles := memory.handles ++ [some ⟨memory.heap.next, none⟩] }
  | .copy source =>
    match memory.handle? source with
    | none => memory
    | some own =>
      { heap := memory.heap.incRef own.ptr
        handles := (memory.unkeep source).handles ++ [some ⟨own.ptr, none⟩] }
  | .assign target source =>
    match memory.handle? source with
    | none => memory
    | some own => (memory.unkeep source).point target own.ptr
  | .access handle =>
    match memory.handle? handle with
    | none => memory
    | some own =>
      let (heap, object) := memory.heap.detach own.ptr
      -- a null object gives no reference
      { heap
        handles := memory.handles.set handle
          (some ⟨object, (heap.ref object).map fun _ => object⟩) }
  | .write handle change =>
    match (memory.handle? handle).bind CopyOnWritePtr.reference with
    | none => memory
    | some object => { memory with heap := memory.heap.write object change }
  | .destroy handle =>
    match memory.handle? handle with
    | none => memory
    | some own =>
      { heap := memory.heap.decRef own.ptr, handles := memory.handles.set handle none }

def empty : Memory T := ⟨⟨fun _ => 0, fun _ => none, 0⟩, []⟩

def run (events : List (Event T)) : Memory T := events.foldl step empty

end Memory

/-! ## Values of their own -/

/-- What a handle with a value of its own has: the value, and whether it may be written to. -/
structure Own (T : Type*) where
  value : Option T
  writable : Bool

/-- Handles with values of their own.  Only its own writes change the value of a handle, and a copy
starts with the value it was made from. -/
def ownStep (owns : List (Option (Own T))) : Event T → List (Option (Own T))
  | .create value => owns ++ [some ⟨value, false⟩]
  | .copy source =>
    match owns[source]?.join with
    | none => owns
    | some own => owns.set source (some ⟨own.value, false⟩) ++ [some ⟨own.value, false⟩]
  | .assign target source =>
    match owns[source]?.join with
    | none => owns
    | some own =>
      let owns := owns.set source (some ⟨own.value, false⟩)
      match owns[target]?.join with
      | none => owns
      | some _ => owns.set target (some ⟨own.value, false⟩)
  | .access handle =>
    match owns[handle]?.join with
    | none => owns
    | some own => owns.set handle (some ⟨own.value, own.value.isSome⟩)
  | .write handle change =>
    match owns[handle]?.join with
    | none => owns
    | some own =>
      if own.writable then owns.set handle (some ⟨own.value.map change, true⟩) else owns
  | .destroy handle =>
    match owns[handle]?.join with
    | none => owns
    | some _ => owns.set handle none

namespace Memory

/-- What a const access to a handle finds. -/
def see (heap : Heap T) (handle : CopyOnWritePtr) : Own T :=
  ⟨heap.ref handle.ptr, handle.reference.isSome⟩

def observe (memory : Memory T) : List (Option (Own T)) :=
  memory.handles.map (Option.map (see memory.heap))

def live (memory : Memory T) : List CopyOnWritePtr := memory.handles.filterMap id

def Sound (memory : Memory T) : Prop := memory.heap.Sound memory.live

variable {memory : Memory T} {handle object : Nat} {own : CopyOnWritePtr}

theorem observe_handle (memory : Memory T) (handle : Nat) :
    memory.observe[handle]?.join = (memory.handle? handle).map (see memory.heap) := by
  rw [observe, handle?, getElem?_map]
  cases memory.handles[handle]? with
  | none => rfl
  | some found => rfl

theorem exists_split (found : memory.handle? handle = some own) :
    ∃ before after, memory.handles = before ++ some own :: after ∧ before.length = handle := by
  obtain ⟨inside, here⟩ := List.getElem?_eq_some_iff.mp (Option.join_eq_some_iff.mp found)
  refine ⟨memory.handles.take handle, memory.handles.drop (handle + 1), ?_,
    length_take_of_le (Nat.le_of_lt inside)⟩
  rw [← here, getElem_cons_drop, take_append_drop]

/-- A handle among the others, and what it means to replace it. -/
theorem exists_others (found : memory.handle? handle = some own) :
    ∃ others, memory.live.Perm (own :: others) ∧ ∀ (replaced : Option CopyOnWritePtr) (heap : Heap T),
      (live ⟨heap, memory.handles.set handle replaced⟩).Perm (replaced.toList ++ others) ∧
      ((∀ other ∈ others, heap.ref other.ptr = memory.heap.ref other.ptr) →
        observe ⟨heap, memory.handles.set handle replaced⟩ =
          memory.observe.set handle (replaced.map (see heap))) := by
  obtain ⟨before, after, split, rfl⟩ := exists_split found
  refine ⟨(before ++ after).filterMap id, ?_, fun replaced heap => ⟨?_, fun same => ?_⟩⟩
  · simp [live, split]
  · cases replaced <;> simp [live, split]
  · have seen : ∀ other ∈ before ++ after,
        Option.map (see heap) other = Option.map (see memory.heap) other := by
      rintro (_ | other) member
      · rfl
      · have ref := same other (mem_filterMap.mpr ⟨_, member, rfl⟩)
        simp [see, ref]
    have front := map_congr_left (forall_mem_append.mp seen).1
    have back := map_congr_left (forall_mem_append.mp seen).2
    simp [observe, split, front, back]

/-- A further handle on an object that nobody writes to. -/
theorem append_spec {heap : Heap T} {handles : List (Option CopyOnWritePtr)}
    (sound : Memory.Sound ⟨heap, handles⟩) (old : object < heap.next)
    (unwritten : ∀ other ∈ live ⟨heap, handles⟩, other.reference ≠ some object) :
    Memory.Sound ⟨heap.incRef object, handles ++ [some ⟨object, none⟩]⟩ ∧
      observe ⟨heap.incRef object, handles ++ [some ⟨object, none⟩]⟩ =
        observe ⟨heap, handles⟩ ++ [some ⟨heap.ref object, false⟩] := by
  have added := Heap.Sound.incRef sound old unwritten
  constructor
  · have perm : (live ⟨heap.incRef object, handles ++ [some ⟨object, none⟩]⟩).Perm
        (⟨object, none⟩ :: live ⟨heap, handles⟩) := by
      simp [live]
    exact added.perm perm.symm
  · exact map_append

section Operations

variable (sound : memory.Sound)
include sound

theorem allocate_spec (value : Option T) :
    Memory.Sound ⟨memory.heap.allocate value, memory.handles⟩ ∧
      observe ⟨memory.heap.allocate value, memory.handles⟩ = memory.observe := by
  refine ⟨Heap.Sound.allocate sound value, map_congr_left ?_⟩
  rintro (_ | other) member
  · rfl
  · have allocated := sound.allocated other (mem_filterMap.mpr ⟨_, member, rfl⟩)
    simp [see, Heap.ref_allocate value allocated]

/-- After the reference of a handle was given up, nobody writes to its object. -/
theorem unkeep_spec (found : memory.handle? handle = some own) : (memory.unkeep handle).Sound ∧
      (memory.unkeep handle).observe =
        memory.observe.set handle (some ⟨memory.heap.ref own.ptr, false⟩) ∧
      (∀ other ∈ (memory.unkeep handle).live, other.reference ≠ some own.ptr) ∧
      own.ptr < memory.heap.next := by
  obtain ⟨others, perm, replace⟩ := exists_others found
  have split := sound.perm perm
  obtain ⟨perm', observe'⟩ := replace (some ⟨own.ptr, none⟩) memory.heap
  simp only [unkeep, found]
  refine ⟨split.unkeep.perm perm'.symm, observe' fun _ _ => rfl, ?_,
    split.allocated own mem_cons_self⟩
  intro other member
  rcases mem_cons.mp (perm'.mem_iff.mp member) with rfl | member
  · exact (Option.some_ne_none own.ptr).symm
  · exact split.reference_ne other member

/-- A handle is set to an object that nobody writes to. -/
theorem point_spec (old : object < memory.heap.next)
    (unwritten : ∀ other ∈ memory.live, other.reference ≠ some object) :
    (memory.point handle object).Sound ∧
      (memory.point handle object).observe =
        match memory.observe[handle]?.join with
        | none => memory.observe
        | some _ => memory.observe.set handle (some ⟨memory.heap.ref object, false⟩) := by
  rw [observe_handle]
  cases found : memory.handle? handle with
  | none => simp [point, found, sound]
  | some own =>
    obtain ⟨others, perm, replace⟩ := exists_others found
    have unwritten' : ∀ other ∈ others, other.reference ≠ some object := by
      intro other member
      exact unwritten other (perm.mem_iff.mpr (mem_cons_of_mem own member))
    obtain ⟨pointed, refs⟩ := (sound.perm perm).copy old unwritten'
    obtain ⟨perm', observe'⟩ := replace (some ⟨object, none⟩) (memory.heap.copy own.ptr object)
    simp only [point, found]
    refine ⟨pointed.perm perm'.symm, ?_⟩
    rw [observe' fun other member => refs other (mem_cons_of_mem _ member)]
    simp [see, refs ⟨object, none⟩ mem_cons_self]

theorem access_spec (found : memory.handle? handle = some own) :
    (memory.step (.access handle)).Sound ∧
      (memory.step (.access handle)).observe = memory.observe.set handle
        (some ⟨memory.heap.ref own.ptr, (memory.heap.ref own.ptr).isSome⟩) := by
  obtain ⟨others, perm, replace⟩ := exists_others found
  obtain ⟨detached, refs, value⟩ := (sound.perm perm).detach
  obtain ⟨perm', observe'⟩ := replace (some ⟨(memory.heap.detach own.ptr).2,
    ((memory.heap.detach own.ptr).1.ref (memory.heap.detach own.ptr).2).map
      fun _ => (memory.heap.detach own.ptr).2⟩) (memory.heap.detach own.ptr).1
  simp only [step, found]
  refine ⟨detached.perm perm'.symm, (observe' refs).trans ?_⟩
  simp [see, value]

theorem write_spec (found : memory.handle? handle = some own)
    (kept : own.reference = some object) (change : T → T) :
    (memory.step (.write handle change)).Sound ∧
      (memory.step (.write handle change)).observe = memory.observe.set handle
        (some ⟨(memory.heap.ref own.ptr).map change, true⟩) := by
  obtain ⟨others, perm, replace⟩ := exists_others found
  have split := sound.perm perm
  obtain ⟨rfl, alone⟩ := split.referenced own mem_cons_self object kept
  have unmoved : memory.handles.set handle (some own) = memory.handles := by
    obtain ⟨before, after, split, rfl⟩ := exists_split found
    simp [split]
  obtain ⟨-, observe'⟩ := replace (some own) (memory.heap.write own.ptr change)
  rw [unmoved] at observe'
  simp only [step, found, Option.bind_some, kept]
  refine ⟨{ sound with }, (observe' ?_).trans ?_⟩
  · intro other member
    exact update_of_ne (split.ptr_ne (Nat.le_of_eq alone) other member) _ _
  · simp [see, kept, Heap.write]

theorem observe_step (event : Event T) : (memory.step event).Sound ∧
      (memory.step event).observe = ownStep memory.observe event := by
  cases event with
  | create value =>
    obtain ⟨allocated, same⟩ := allocate_spec sound value
    obtain ⟨appended, seen⟩ := append_spec allocated (Nat.lt_succ_self _)
      (Heap.Sound.reference_ne_next sound)
    have isValue : (memory.heap.allocate value).ref memory.heap.next = value := update_self ..
    rw [same, isValue] at seen
    exact ⟨appended, seen⟩
  | copy source =>
    simp only [step, ownStep, observe_handle]
    cases found : memory.handle? source with
    | none => exact ⟨sound, rfl⟩
    | some own =>
      obtain ⟨unkept, seen, unwritten, old⟩ := unkeep_spec sound found
      obtain ⟨appended, seen'⟩ := append_spec unkept old unwritten
      exact ⟨appended, seen'.trans (congrArg (· ++ _) seen)⟩
  | assign target source =>
    simp only [step, ownStep, observe_handle]
    cases found : memory.handle? source with
    | none => exact ⟨sound, rfl⟩
    | some own =>
      obtain ⟨unkept, seen, unwritten, old⟩ := unkeep_spec sound found
      have pointed := @point_spec _ _ target _ unkept old unwritten
      rw [seen] at pointed
      exact pointed
  | access handle =>
    cases found : memory.handle? handle with
    | none => simp [step, ownStep, observe_handle, found, sound]
    | some own => simpa [ownStep, observe_handle, found, see] using access_spec sound found
  | write handle change =>
    cases found : memory.handle? handle with
    | none => simp [step, ownStep, observe_handle, found, sound]
    | some own =>
      cases kept : own.reference with
      | none => simp [step, ownStep, observe_handle, found, kept, see, sound]
      | some object =>
        simpa [ownStep, observe_handle, found, kept, see] using
          write_spec sound found kept change
  | destroy handle =>
    simp only [step, ownStep, observe_handle]
    cases found : memory.handle? handle with
    | none => exact ⟨sound, rfl⟩
    | some own =>
      obtain ⟨others, perm, replace⟩ := exists_others found
      have split := sound.perm perm
      obtain ⟨perm', observe'⟩ := replace none (memory.heap.decRef own.ptr)
      exact ⟨split.decRef.perm perm'.symm, observe' split.ref_decRef⟩

end Operations

theorem sound_empty : (empty : Memory T).Sound where
  counted _ := rfl
  allocated _ member := by cases member
  referenced _ member := by cases member

/-- After any sequence of operations the count of an object is the number of its handles. -/
theorem refCount_run (events : List (Event T)) (object : Nat) :
    (run events).heap.refCount object =
      ((run events).live.map CopyOnWritePtr.ptr).count object := by
  have sound (memory : Memory T) (sound : memory.Sound) : (events.foldl step memory).Sound := by
    induction events generalizing memory with
    | nil => exact sound
    | cons event events ih => exact ih _ (observe_step sound event).1
  exact (sound empty sound_empty).counted object

/-- **Isolation.** After any sequence of operations each handle sees the value that only its own
writes made of the value it was copied from. -/
theorem observe_run (events : List (Event T)) :
    (run events).observe = events.foldl ownStep [] := by
  suffices holds : ∀ memory : Memory T, memory.Sound →
      (events.foldl step memory).observe = events.foldl ownStep memory.observe from
    holds empty sound_empty
  induction events with
  | nil => exact fun _ _ => rfl
  | cons event events ih =>
    intro memory sound
    obtain ⟨sound', seen⟩ := observe_step sound event
    exact (ih _ sound').trans (congrArg (events.foldl ownStep) seen)

end Memory

end DseDriver.CopyOnWrite
