import DseDriver.Lib.Iterators
import Mathlib.Data.List.Rotate
import Mathlib.Tactic.Ring

/-!
# Rotated walks

A walk over a vector starts at an index that grows without end and takes a number of items,
each at the remainder of the index.  The index is a machine word, so that a walk across its
largest value jumps.  A walk that looks for items of a kind stops at each of them and is resumed
later.
-/

namespace DseDriver.Lib

open List Option

variable {α : Type*}

/-- The items a walk of the given length meets. -/
def window (items : List α) : Nat → UInt64 → List α
  | 0, _ => []
  | count + 1, index => items[index.toNat % items.length]?.toList ++ window items count (index + 1)

theorem window_succ {items : List α} (nonempty : 0 < items.length) (count : Nat) (index : UInt64) :
    ∃ item, items[index.toNat % items.length]? = some item ∧
      window items (count + 1) index = item :: window items count (index + 1) := by
  have inside := Nat.mod_lt index.toNat nonempty
  refine ⟨items[index.toNat % items.length], getElem?_eq_getElem inside, ?_⟩
  rw [window, getElem?_eq_getElem inside, toList_some, singleton_append]

theorem length_window {items : List α} (nonempty : 0 < items.length) (count : Nat)
    (index : UInt64) : (window items count index).length = count := by
  induction count generalizing index with
  | zero => rfl
  | succ count ih =>
    obtain ⟨item, -, unrolled⟩ := window_succ nonempty count index
    rw [unrolled, length_cons, ih]

theorem add_ofNat_succ (index : UInt64) (offset : Nat) :
    index + UInt64.ofNat (offset + 1) = index + 1 + UInt64.ofNat offset := by
  rw [UInt64.ofNat_add, UInt64.add_comm (UInt64.ofNat offset), ← UInt64.add_assoc]
  rfl

theorem mem_window {items : List α} {count : Nat} {index : UInt64} {item : α} :
    item ∈ window items count index ↔
      ∃ offset < count, items[(index + UInt64.ofNat offset).toNat % items.length]? = some item := by
  induction count generalizing index with
  | zero => simp [window]
  | succ count ih =>
    rw [window, mem_append, mem_toList, ih]
    constructor
    · rintro (here | ⟨offset, inside, there⟩)
      · refine ⟨0, Nat.succ_pos count, ?_⟩
        simpa using here
      · refine ⟨offset + 1, Nat.succ_lt_succ inside, ?_⟩
        rwa [add_ofNat_succ]
    · rintro ⟨offset, inside, there⟩
      cases offset with
      | zero =>
        left
        simpa using there
      | succ offset =>
        refine .inr ⟨offset, Nat.lt_of_succ_lt_succ inside, ?_⟩
        rwa [add_ofNat_succ] at there

/-- A walk of full length meets every index when the size divides the range of the word, so that
the jump at its largest value is none. -/
theorem exists_offset_mod_eq {size index : Nat} (divides : size ∣ 2 ^ 64) (start : UInt64)
    (inside : index < size) :
    ∃ offset < size, (UInt64.ofNat offset + start).toNat % size = index := by
  have wrapped : ∀ offset, (UInt64.ofNat offset + start).toNat % size =
      (offset + start.toNat % size) % size := by
    intro offset
    rw [UInt64.toNat_add, UInt64.toNat_ofNat', Nat.mod_mod_of_dvd _ divides, Nat.add_mod,
      Nat.mod_mod_of_dvd _ divides, ← Nat.add_mod, Nat.add_mod_mod]
  have below : start.toNat % size < size := Nat.mod_lt _ (by omega)
  by_cases ahead : start.toNat % size ≤ index
  · refine ⟨index - start.toNat % size, by omega, ?_⟩
    rw [wrapped, Nat.sub_add_cancel ahead, Nat.mod_eq_of_lt inside]
  · refine ⟨index + size - start.toNat % size, by omega, ?_⟩
    rw [wrapped, Nat.sub_add_cancel (by omega), Nat.add_mod_right, Nat.mod_eq_of_lt inside]

theorem mem_of_mem_window {items : List α} {count : Nat} {index : UInt64} {item : α}
    (member : item ∈ window items count index) : item ∈ items := by
  obtain ⟨offset, -, there⟩ := mem_window.mp member
  exact mem_of_getElem? there

/-- A walk that does not reach the largest word meets the first items of the rotated vector. -/
theorem window_eq_rotate {items : List α} {count : Nat} {index : UInt64}
    (short : count ≤ items.length) (noWrap : index.toNat + count ≤ 2 ^ 64) :
    window items count index = (items.rotate index.toNat).take count := by
  induction count generalizing index with
  | zero => rw [window, take_zero]
  | succ count ih =>
    have first : items[index.toNat % items.length]? = (items.rotate index.toNat)[0]? := by
      rw [getElem?_rotate (by omega), Nat.zero_add]
    obtain ⟨item, rest, rotated⟩ : ∃ item rest, items.rotate index.toNat = item :: rest :=
      exists_cons_of_length_pos (by rw [length_rotate]; omega)
    have size : rest.length + 1 = items.length := by
      rw [← length_rotate items index.toNat, rotated, length_cons]
    rw [window, first, rotated, getElem?_cons_zero, toList_some,
      singleton_append, take_succ_cons]
    cases count with
    | zero => rw [window, take_zero]
    | succ count =>
      have next : (index + 1).toNat = index.toNat + 1 := by
        rw [UInt64.toNat_add, UInt64.toNat_one, Nat.mod_eq_of_lt (by omega)]
      rw [ih (by omega) (by omega), next, ← rotate_rotate, rotated, rotate_cons_succ,
        rotate_zero, take_append_of_le_length (by omega)]

/-- Walk on to the next item of a kind: the item, how many are left, and the index. -/
def nextInWindow (wanted : α → Bool) (items : List α) :
    Nat → UInt64 → Option α × Nat × UInt64
  | 0, index => (none, 0, index)
  | count + 1, index =>
    match items[index.toNat % items.length]? with
    | some item =>
      if wanted item then
        (some item, count, index + 1)
      else
        nextInWindow wanted items count (index + 1)
    | none => nextInWindow wanted items count (index + 1)

variable {wanted : α → Bool} {items : List α} {count left : Nat} {index last : UInt64}

/-- A walk that finds nothing goes to its end. -/
theorem nextInWindow_eq_none (walk : nextInWindow wanted items count index = (none, left, last)) :
    (window items count index).filter wanted = [] ∧ left = 0 ∧
      last = index + UInt64.ofNat count := by
  induction count generalizing index with
  | zero =>
    rw [nextInWindow] at walk
    cases walk
    simp [window]
  | succ count ih =>
    rw [nextInWindow] at walk
    rw [window, add_ofNat_succ]
    split at walk
    next item here =>
      split at walk
      · cases walk
      next other =>
        rw [here, toList_some, singleton_append, filter_cons_of_neg other]
        exact ih walk
    next nothing =>
      rw [nothing, toList_none, nil_append]
      exact ih walk

/-- A walk that finds an item leaves those behind it. -/
theorem nextInWindow_eq_some {item : α}
    (walk : nextInWindow wanted items count index = (some item, left, last)) :
    (window items count index).filter wanted = item :: (window items left last).filter wanted ∧
      last + UInt64.ofNat left = index + UInt64.ofNat count := by
  induction count generalizing index with
  | zero => cases walk
  | succ count ih =>
    rw [nextInWindow] at walk
    rw [window, add_ofNat_succ]
    split at walk
    next other here =>
      rw [here, toList_some, singleton_append]
      split at walk
      next found =>
        cases walk
        rw [filter_cons_of_pos found]
        exact ⟨rfl, rfl⟩
      next notFound =>
        rw [filter_cons_of_neg notFound]
        exact ih walk
    next nothing =>
      rw [nothing, toList_none, nil_append]
      exact ih walk

theorem mem_of_nextInWindow {item : α}
    (walk : nextInWindow wanted items count index = (some item, left, last)) :
    item ∈ items ∧ wanted item := by
  have member : item ∈ (window items count index).filter wanted := by
    rw [(nextInWindow_eq_some walk).1]
    exact mem_cons_self
  obtain ⟨inWindow, isWanted⟩ := mem_filter.mp member
  exact ⟨mem_of_mem_window inWindow, isWanted⟩

end DseDriver.Lib
