import Mathlib.Data.List.Perm.Basic

/-!
# Writes into numbered slots

Items are written one after the other into a vector, each into the slot that it names, if it names
one.  The last item of a slot stays.  When the items name each slot once, the vector ends up as the
items in the order of their slots, whatever it was before.
-/

namespace DseDriver.Lib

open List

variable {α β : Type*} (slot : α → Option Nat) (value : α → β)

def writeSlot (slots : List β) (item : α) : List β :=
  (slot item).elim slots fun i => slots.set i (value item)

def writeSlots (items : List α) (slots : List β) : List β :=
  items.foldl (writeSlot slot value) slots

@[simp] theorem length_writeSlot (slots : List β) (item : α) :
    (writeSlot slot value slots item).length = slots.length := by
  rw [writeSlot]
  cases slot item <;> simp

@[simp] theorem length_writeSlots (items : List α) (slots : List β) :
    (writeSlots slot value items slots).length = slots.length := by
  induction items generalizing slots with
  | nil => rfl
  | cons item items ih => exact (ih _).trans (length_writeSlot slot value slots item)

/-- A slot has its last item, or what it had before. -/
theorem getElem?_writeSlots (items : List α) (slots : List β) (i : Nat) :
    (writeSlots slot value items slots)[i]? = slots[i]?.map fun old =>
      ((items.filter fun item => slot item = some i).getLast?.map value).getD old := by
  induction items generalizing slots with
  | nil => simp [writeSlots]
  | cons item items ih =>
    refine (ih _).trans ?_
    by_cases own : slot item = some i
    · rw [writeSlot, own, Option.elim_some, getElem?_set_self',
        filter_cons_of_pos (by simpa using own), getLast?_cons]
      cases (items.filter fun item => slot item = some i).getLast? <;>
        cases slots[i]? <;> rfl
    · have same : (writeSlot slot value slots item)[i]? = slots[i]? := by
        rw [writeSlot]
        cases named : slot item with
        | none => rfl
        | some j => exact getElem?_set_ne fun equal => own (named.trans (congrArg some equal))
      rw [same, filter_cons_of_neg (by simpa using own)]

theorem writeSlots_writeSlots (items : List α) (slots : List β) :
    writeSlots slot value items (writeSlots slot value items slots) =
      writeSlots slot value items slots := by
  apply ext_getElem?
  intro i
  simp only [getElem?_writeSlots]
  cases (items.filter fun item => slot item = some i).getLast? <;> cases slots[i]? <;> rfl

section Sorted

variable {slot} {value} {items : List α}

/-- Items that name each slot once can be put in the order of their slots. -/
theorem exists_sorted_slots {count : Nat}
    (each : (items.filterMap slot).Perm (List.range count)) :
    ∃ sorted : List α, sorted.Perm (items.filter fun item => (slot item).isSome) ∧
      sorted.map slot = (List.range count).map some := by
  have named : List.Forall₂ (fun i item => some i = slot item) (items.filterMap slot)
      (items.filter fun item => (slot item).isSome) := by
    clear each
    induction items with
    | nil => exact .nil
    | cons item items ih =>
      cases own : slot item with
      | none => simpa [own] using ih
      | some i => simpa [own] using ih
  obtain ⟨sorted, inOrder, perm⟩ := perm_comp_forall₂ each.symm named
  refine ⟨sorted, perm, ?_⟩
  rw [← forall₂_eq_eq_eq, forall₂_map_left_iff, forall₂_map_right_iff]
  exact inOrder.flip.imp fun _ _ same => same.symm

/-- They end up in that order. -/
theorem writeSlots_eq_map {slots : List β} {sorted : List α}
    (perm : sorted.Perm (items.filter fun item => (slot item).isSome))
    (inOrder : sorted.map slot = (List.range slots.length).map some) :
    writeSlots slot value items slots = sorted.map value := by
  have length : sorted.length = slots.length := by simpa using congrArg List.length inOrder
  have slotOf {i : Nat} {item : α} (there : sorted[i]? = some item) : slot item = some i := by
    have inside := (List.getElem?_eq_some_iff.mp there).1
    have same := congrArg (·[i]?) inOrder
    simpa [there, getElem?_range (show i < slots.length by omega)] using same
  apply ext_getElem?
  intro i
  rw [getElem?_writeSlots, getElem?_map]
  by_cases inside : i < sorted.length
  · -- The item that stays is the only one that names the slot.
    obtain ⟨item, there⟩ : ∃ item, sorted[i]? = some item := ⟨_, getElem?_eq_getElem inside⟩
    have only (other : α) (member : other ∈ items) (names : slot other = some i) :
        other = item := by
      have sortedMember : other ∈ sorted := perm.mem_iff.mpr (by simp [member, names])
      obtain ⟨j, found⟩ := mem_iff_getElem?.mp sortedMember
      have sameSlot : j = i := Option.some.inj ((slotOf found).symm.trans names)
      exact Option.some.inj (found.symm.trans (sameSlot ▸ there))
    have member : item ∈ items.filter fun item => slot item = some i := by
      have inItems := perm.mem_iff.mp (mem_of_getElem? there)
      simpa [slotOf there] using (mem_filter.mp inItems).1
    cases last : (items.filter fun item => slot item = some i).getLast? with
    | none =>
      rw [getLast?_eq_none_iff.mp last] at member
      cases member
    | some other =>
      obtain ⟨otherMember, names⟩ := mem_filter.mp (mem_of_getLast? last)
      rw [only other otherMember (by simpa using names), there,
        getElem?_eq_getElem (by omega)]
      rfl
  · rw [getElem?_eq_none (by omega), getElem?_eq_none (by omega)]
    rfl

end Sorted

end DseDriver.Lib
