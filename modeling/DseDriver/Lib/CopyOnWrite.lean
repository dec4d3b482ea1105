import Mathlib.Data.List.Basic
import Mathlib.Tactic.TypeStar

/-!
# Copy-on-write handles

Handles share an object until one of them writes to it: a write through a handle whose object has
other handles goes to a copy.  One handle writes, one is watched, and the others come and go.
-/

namespace DseDriver.Lib

/-- The objects made so far, and the object each handle refers to. -/
structure Shared (α : Type*) where
  objects : List α
  writer : Nat
  reader : Nat
  others : List Nat

namespace Shared

variable {α : Type*} (shared : Shared α)

/-- How many handles refer to an object. -/
def refCount (object : Nat) : Nat :=
  (shared.writer :: shared.reader :: shared.others).count object

/-- Change the object of the writing handle, or a copy of it if it has other handles. -/
def write (change : α → α) : Shared α :=
  match shared.objects[shared.writer]? with
  | none => shared
  | some value =>
    if shared.refCount shared.writer > 1 then
      { shared with
        objects := shared.objects ++ [change value]
        writer := shared.objects.length }
    else
      { shared with objects := shared.objects.set shared.writer (change value) }

/-- Copy the writing handle. -/
def share : Shared α :=
  { shared with others := shared.writer :: shared.others }

/-- Release one of the other handles. -/
def release (object : Nat) : Shared α :=
  { shared with others := shared.others.erase object }

/-- What the watched handle sees. -/
def seen : Option α := shared.objects[shared.reader]?

variable {shared} {value : α}

/-- A write is not seen through another handle. -/
theorem seen_write (change : α → α) (sees : shared.seen = some value) :
    (shared.write change).seen = some value := by
  unfold write
  split
  · exact sees
  · obtain ⟨inside, -⟩ := List.getElem?_eq_some_iff.mp sees
    split
    · exact (List.getElem?_append_left inside).trans sees
    next alone =>
      have apart : shared.writer ≠ shared.reader := by
        intro same
        exact alone (by simp [refCount, same])
      exact (List.getElem?_set_ne apart).trans sees

end Shared

end DseDriver.Lib
