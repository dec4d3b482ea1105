import Mathlib.Data.List.Basic
import Mathlib.Data.Int.Order.Basic
import Mathlib.Tactic.TypeStar

/-!
# Resumable searches in a list

Some interfaces look for the next element of a kind behind a given position, and
answer with a position or with a negative number.  A loop that resumes from the last
answer meets the elements of that kind one by one.
-/

namespace DseDriver.Lib

open List

variable {α : Type*}

/-- The least position behind the last one at which the predicate holds, or `-1`. -/
def nextIndex (holds : α → Bool) (items : List α) (last : Int) : Int :=
  match (items.drop (last + 1).toNat).findIdx? holds with
  | some distance => (last + 1).toNat + distance
  | none => -1

variable {holds : α → Bool} {items : List α} {last : Int}

/-- A search that finds nothing. -/
theorem nextIndex_neg (none : nextIndex holds items last < 0) {index : Nat} {item : α}
    (behind : last < index) (present : items[index]? = some item) : holds item = false := by
  rw [nextIndex] at none
  cases found : (items.drop (last + 1).toNat).findIdx? holds with
  | some distance =>
    rw [found] at none
    simp only at none
    omega
  | none =>
    rw [findIdx?_eq_none_iff] at found
    apply found
    rw [mem_iff_getElem?]
    refine ⟨index - (last + 1).toNat, ?_⟩
    rw [getElem?_drop]
    have start : (last + 1).toNat ≤ index := by omega
    rw [Nat.add_sub_cancel' start]
    exact present

/-- A search that finds a position: it is behind the last one, the predicate holds
there, and nowhere in between. -/
theorem nextIndex_nonneg (some : 0 ≤ nextIndex holds items last) :
    last < nextIndex holds items last ∧
      (∃ item, items[(nextIndex holds items last).toNat]? = Option.some item ∧
        holds item = true) ∧
      ∀ (index : Nat) (item : α), last < index → index < nextIndex holds items last →
        items[index]? = Option.some item → holds item = false := by
  rw [nextIndex] at some ⊢
  cases found : (items.drop (last + 1).toNat).findIdx? holds with
  | none =>
    rw [found] at some
    simp only at some
    omega
  | some distance =>
    rw [findIdx?_eq_some_iff_getElem] at found
    rcases found with ⟨inside, here, before⟩
    simp only [getElem_drop] at here before
    refine ⟨by simp only; omega, ?_, ?_⟩
    · have same : (((last + 1).toNat : Int) + (distance : Int)).toNat =
          (last + 1).toNat + distance := by omega
      simp only [same]
      rw [length_drop] at inside
      exact ⟨_, getElem?_eq_getElem (by omega), here⟩
    · intro index item behind ahead present
      have start : (last + 1).toNat ≤ index := by omega
      have earlier := before (index - (last + 1).toNat) (by simp only at ahead; omega)
      simp only [Nat.add_sub_cancel' start] at earlier
      rcases List.getElem?_eq_some_iff.mp present with ⟨_, rfl⟩
      simpa using earlier

theorem nextIndex_lt_length (some : 0 ≤ nextIndex holds items last) :
    (nextIndex holds items last).toNat < items.length := by
  rcases (nextIndex_nonneg some).2.1 with ⟨item, present, _⟩
  exact (List.getElem?_eq_some_iff.mp present).1

end DseDriver.Lib
