import Mathlib.Computability.RegularExpressions

/-!
# Scanners

A scanner tries several regular expressions at the beginning of a text.  The longest match
wins, and among several of this length the rule that stands first.
-/

namespace DseDriver.Lib

open List

variable {α Rule : Type} [DecidableEq α]

/-- The length of the longest beginning of a text that an expression matches. -/
def longestMatch (expression : RegularExpression α) : List α → Option Nat
  | [] => if expression.matchEpsilon then some 0 else none
  | char :: text =>
    match longestMatch (expression.deriv char) text with
    | some length => some (length + 1)
    | none => if expression.matchEpsilon then some 0 else none

/-- The rule that wins at the beginning of a text, with the length of its match. -/
def scan : List (RegularExpression α × Rule) → List α → Option (Rule × Nat)
  | [], _ => none
  | (expression, rule) :: rules, text =>
    match longestMatch expression text, scan rules text with
    | none, later => later
    | some length, none => some (rule, length)
    | some length, some (other, longer) =>
      if length < longer then some (other, longer) else some (rule, length)

variable {expression : RegularExpression α}

/-- An expression that does not match the empty text never has an empty match. -/
theorem longestMatch_bounds {text : List α} {length : Nat}
    (found : longestMatch expression text = some length) :
    length ≤ text.length ∧ (expression.matchEpsilon = false → 0 < length) := by
  induction text generalizing expression length with
  | nil =>
    rw [longestMatch] at found
    split at found
    · next epsilon =>
        cases found
        simp [epsilon]
    · cases found
  | cons char text ih =>
    rw [longestMatch] at found
    split at found
    · next rest later =>
        cases found
        have bound := (ih later).1
        simp only [length_cons]
        omega
    · split at found
      · next epsilon =>
          cases found
          simp [epsilon]
      · cases found

theorem scan_bounds {rules : List (RegularExpression α × Rule)} {text : List α} {rule : Rule}
    {length : Nat} (nonempty : ∀ rule ∈ rules, rule.1.matchEpsilon = false)
    (found : scan rules text = some (rule, length)) : 0 < length ∧ length ≤ text.length := by
  induction rules generalizing rule length with
  | nil => cases found
  | cons first rules ih =>
    obtain ⟨expression, action⟩ := first
    have later {rule : Rule} {length : Nat} (found : scan rules text = some (rule, length)) :
        0 < length ∧ length ≤ text.length :=
      ih (fun other member => nonempty other (mem_cons_of_mem _ member)) found
    have here {length : Nat} (found : longestMatch expression text = some length) :
        0 < length ∧ length ≤ text.length :=
      ⟨(longestMatch_bounds found).2 (nonempty _ mem_cons_self), (longestMatch_bounds found).1⟩
    rw [scan] at found
    split at found
    · exact later found
    · next matched _ =>
        cases found
        exact here matched
    · next matched others =>
        split at found
        · cases found
          exact later others
        · cases found
          exact here matched

end DseDriver.Lib
