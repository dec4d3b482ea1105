import Mathlib.Data.List.Basic
import Mathlib.Tactic.TypeStar

/-!
# Intrusive lists

Nodes that live in a memory and name their successor form lists without a container of
their own.  Reading a node may fail, when it has been released.
-/

namespace DseDriver.Lib

variable {ν α β : Type*} (read : ν → Option α) (next : α → Option ν)

/-- Fold a step over the nodes from a position on.  The result is absent when a node is
dead or the walk is longer than its limit. -/
def follow (step : β → α → β) : Nat → Option ν → β → Option β
  | _, none, result => some result
  | 0, some _, _ => none
  | limit + 1, some position, result =>
    match read position with
    | none => none
    | some node => follow step limit (next node) (step result node)

/-- The position of the last node of a list. -/
def lastNode : Nat → ν → Option ν
  | 0, _ => none
  | limit + 1, position =>
    match read position with
    | none => none
    | some node =>
      match next node with
      | none => some position
      | some successor => lastNode limit successor

end DseDriver.Lib
