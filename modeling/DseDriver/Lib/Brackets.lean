import Mathlib.Data.List.Basic

/-!
# Matching brackets

A reader that counts open brackets finds the one that closes the last of them.  A balanced text
leaves the count as it was, whatever follows it.
-/

namespace DseDriver.Lib

open List

variable {α : Type*} [DecidableEq α] {opening closing : α}

/-- Split a text behind the bracket that closes the last of `depth` open brackets. -/
def splitClosing (opening closing : α) : Nat → List α → Option (List α × List α)
  | _, [] => none
  | depth, char :: text =>
    let depth :=
      if char = opening then depth + 1 else if char = closing then depth - 1 else depth
    if depth = 0 then some ([char], text)
    else (splitClosing opening closing depth text).map fun split => (char :: split.1, split.2)

/-- Brackets of the text are closed inside of it. -/
def Balanced (opening closing : α) (text : List α) : Prop :=
  ∀ depth rest, splitClosing opening closing (depth + 1) (text ++ rest) =
    (splitClosing opening closing (depth + 1) rest).map fun split => (text ++ split.1, split.2)

namespace Balanced

theorem nil : Balanced opening closing [] := by
  intro depth rest
  simp

theorem append {first second : List α} (left : Balanced opening closing first)
    (right : Balanced opening closing second) : Balanced opening closing (first ++ second) := by
  intro depth rest
  rw [append_assoc, left, right, Option.map_map]
  congr 1
  funext split
  simp

theorem singleton {char : α} (notOpening : char ≠ opening) (notClosing : char ≠ closing) :
    Balanced opening closing [char] := by
  intro depth rest
  rw [singleton_append, splitClosing, if_neg notOpening, if_neg notClosing]
  rfl

/-- A text without brackets. -/
theorem of_forall {text : List α} (plain : ∀ char ∈ text, char ≠ opening ∧ char ≠ closing) :
    Balanced opening closing text := by
  induction text with
  | nil => exact nil
  | cons char text ih =>
    obtain ⟨first, others⟩ := forall_mem_cons.mp plain
    exact (singleton first.1 first.2).append (ih others)

/-- The bracket that closes a balanced text is found. -/
theorem splitClosing_one {text : List α} (balanced : Balanced opening closing text)
    (different : closing ≠ opening) (rest : List α) :
    splitClosing opening closing 1 (text ++ closing :: rest) = some (text ++ [closing], rest) := by
  have closes : splitClosing opening closing 1 (closing :: rest) = some ([closing], rest) := by
    rw [splitClosing, if_neg different, if_pos rfl]
    rfl
  rw [balanced 0, Nat.zero_add, closes]
  rfl

/-- A balanced text in brackets. -/
theorem enclose {text : List α} (balanced : Balanced opening closing text)
    (different : closing ≠ opening) :
    Balanced opening closing (opening :: (text ++ [closing])) := by
  intro depth rest
  have closes : splitClosing opening closing (depth + 2) (closing :: rest) =
      (splitClosing opening closing (depth + 1) rest).map fun split =>
        (closing :: split.1, split.2) := by
    rw [splitClosing, if_neg different, if_pos rfl]
    rfl
  rw [cons_append, append_assoc, splitClosing, if_pos rfl,
    if_neg (Nat.succ_ne_zero _), balanced, singleton_append, closes, Option.map_map,
    Option.map_map]
  congr 1
  funext split
  simp

/-- Balanced texts with a separator between them. -/
theorem intercalate {separator : List α} {texts : List (List α)}
    (plain : Balanced opening closing separator)
    (each : ∀ text ∈ texts, Balanced opening closing text) :
    Balanced opening closing (separator.intercalate texts) := by
  induction texts with
  | nil => exact nil
  | cons text texts ih =>
    obtain ⟨first, others⟩ := forall_mem_cons.mp each
    cases texts with
    | nil => simpa using first
    | cons next texts =>
      rw [intercalate_cons_cons]
      exact (first.append plain).append (ih others)

end Balanced

end DseDriver.Lib
