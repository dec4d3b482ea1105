import Mathlib.Data.List.Rotate
import Mathlib.Tactic.Ring

/-!
# Lists by position and by class

Facts about lists that are read position by position or split into classes: when
an initial segment has no repetitions, and what is known about a list from its
classes under a key.
-/

namespace DseDriver.Lib

open List

variable {α κ : Type}

/-! ## Repetition in an initial segment -/

variable {values : List α}

/-- Appending an element keeps an initial segment free of repetitions unless the
element falls into the segment and is already there. -/
theorem nodup_take_concat {value : α} {count : Nat} :
    ((values ++ [value]).take count).Nodup ↔
      (values.take count).Nodup ∧ (value ∈ values → count ≤ values.length) := by
  by_cases short : count ≤ values.length
  · rw [take_append_of_le_length short]
    exact ⟨fun nodup => ⟨nodup, fun _ => short⟩, fun both => both.1⟩
  · rw [take_of_length_le (by simp; omega), take_of_length_le (by omega),
      nodup_append_comm, singleton_append, nodup_cons]
    constructor
    · intro both
      exact ⟨both.2, fun member => absurd member both.1⟩
    · intro both
      exact ⟨fun member => short (both.2 member), both.1⟩

/-- A property of every position of a list, seen from its last position. -/
theorem forall_split_concat {value : α} {property : List α → α → Prop} :
    (∀ before element after, values ++ [value] = before ++ element :: after →
        property before element) ↔
      (∀ before element after, values = before ++ element :: after → property before element) ∧
        property values value := by
  constructor
  · intro every
    constructor
    · intro before element after split
      apply every before element (after ++ [value])
      rw [split, append_assoc, cons_append]
    · exact every values value [] rfl
  · intro both before element after split
    rcases eq_nil_or_concat after with rfl | ⟨front, last, rfl⟩
    · have ends := append_inj_left' split rfl
      have same := append_inj_right' split rfl
      cases ends
      cases same
      exact both.2
    · have shifted : values ++ [value] = (before ++ element :: front) ++ [last] := by
        rw [split, append_assoc, cons_append, concat_eq_append]
      exact both.1 before element front (append_inj_left' shifted rfl)

theorem eraseDups_of_nodup [DecidableEq α] (nodup : values.Nodup) :
    values.eraseDups = values := by
  induction values with
  | nil => rfl
  | cons value rest ih =>
    rw [nodup_cons] at nodup
    have others : rest.filter (fun other => !other == value) = rest := by
      apply filter_eq_self.mpr
      intro other member
      have different : other ≠ value := fun same => nodup.1 (same ▸ member)
      simpa using different
    rw [eraseDups_cons, others, ih nodup.2]

/-- The first distinct elements of a list that starts with distinct elements. -/
theorem take_eraseDups [DecidableEq α] {count : Nat} (nodup : (values.take count).Nodup)
    (enough : count ≤ values.length) :
    values.eraseDups.take count = values.take count := by
  have start : (values.take count).length = count := by
    rw [length_take]
    omega
  nth_rewrite 1 [← take_append_drop count values]
  rw [eraseDups_append, eraseDups_of_nodup nodup, take_append_of_le_length start.ge,
    take_take, min_self]

theorem length_le_eraseDups [DecidableEq α] {count : Nat} (nodup : (values.take count).Nodup)
    (enough : count ≤ values.length) :
    count ≤ values.eraseDups.length := by
  have same := congrArg List.length (take_eraseDups nodup enough)
  rw [length_take, length_take] at same
  omega

/-! ## Windows of a cycle -/

theorem window_getElem? {start count index : Nat} (inside : index < count)
    (short : count ≤ values.length) :
    ((values.rotate start).take count)[index]? = values[(index + start) % values.length]? := by
  rw [getElem?_take, if_pos inside, getElem?_rotate (by omega)]

theorem window_length {start count : Nat} (short : count ≤ values.length) :
    ((values.rotate start).take count).length = count := by
  rw [length_take, length_rotate]
  omega

/-- No window of a cycle repeats an element exactly when equal elements are at
least a window apart, in both directions around the cycle. -/
theorem nodup_windows_iff {count : Nat} (short : count ≤ values.length) :
    (∀ start < values.length, ((values.rotate start).take count).Nodup) ↔
      ∀ first second, first < second → second < values.length →
        values[first]? = values[second]? →
        count ≤ second - first ∧ count ≤ values.length - (second - first) := by
  constructor
  · intro windows first second before inside same
    constructor
    · by_contra close
      have window := nodup_iff_getElem?_ne_getElem?.mp (windows first (by omega)) 0
        (second - first) (by omega) (by rw [window_length short]; omega)
      rw [window_getElem? (by omega) short, window_getElem? (by omega) short, Nat.zero_add,
        Nat.mod_eq_of_lt (by omega), Nat.sub_add_cancel before.le, Nat.mod_eq_of_lt inside] at window
      exact window same
    · by_contra close
      have window := nodup_iff_getElem?_ne_getElem?.mp (windows second inside) 0
        (values.length - (second - first)) (by omega) (by rw [window_length short]; omega)
      -- The second window reaches the first element after it has wrapped around.
      have wrapped : values.length - (second - first) + second = first + values.length := by
        omega
      rw [window_getElem? (by omega) short, window_getElem? (by omega) short, Nat.zero_add,
        Nat.mod_eq_of_lt inside, wrapped, Nat.add_mod_right, Nat.mod_eq_of_lt (by omega)] at window
      exact window same.symm
  · intro spaced start inside
    rw [nodup_iff_getElem?_ne_getElem?, window_length short]
    intro left right before rightInside same
    rw [window_getElem? (by omega) short, window_getElem? rightInside short] at same
    have position (index : Nat) (small : index < values.length) :
        (index + start) % values.length = index + start ∧ index + start < values.length ∨
          (index + start) % values.length = index + start - values.length ∧
            values.length ≤ index + start := by
      by_cases beyond : index + start < values.length
      · exact Or.inl ⟨Nat.mod_eq_of_lt beyond, beyond⟩
      · rw [Nat.mod_eq_sub_mod (by omega), Nat.mod_eq_of_lt (by omega)]
        exact Or.inr ⟨rfl, by omega⟩
    rcases position left (by omega) with leftAt | leftAt <;>
      rcases position right (by omega) with rightAt | rightAt <;>
      rw [leftAt.1, rightAt.1] at same
    · have apart := spaced _ _ (by omega) (by omega) same
      omega
    · have apart := spaced _ _ (by omega) (by omega) same.symm
      omega
    · omega
    · have apart := spaced _ _ (by omega) (by omega) same
      omega

/-! ## Classes under a key -/

variable [DecidableEq κ] (key : α → κ)

/-- A list has no repetitions if none of its classes has. -/
theorem nodup_iff_forall_class :
    values.Nodup ↔ ∀ label, (values.filter (key · = label)).Nodup := by
  constructor
  · exact fun nodup label => nodup.filter _
  · intro classes
    induction values with
    | nil => exact nodup_nil
    | cons value rest ih =>
      rw [nodup_cons]
      constructor
      · intro again
        have own := classes (key value)
        rw [filter_cons_of_pos (by simp), nodup_cons] at own
        exact own.1 (mem_filter.mpr ⟨again, by simp⟩)
      · refine ih fun label => (classes label).sublist ?_
        exact (sublist_cons_self value rest).filter _

/-- Bounded classes that together fill a list are full. -/
theorem class_full_of_sum_le {bounds : List (κ × Nat)} (distinct : (bounds.map Prod.fst).Nodup)
    (covered : ∀ value ∈ values, key value ∈ bounds.map Prod.fst)
    (bounded : ∀ entry ∈ bounds, (values.filter (key · = entry.1)).length ≤ entry.2) :
    values.length ≤ (bounds.map Prod.snd).sum ∧
      ((bounds.map Prod.snd).sum ≤ values.length →
        ∀ entry ∈ bounds, (values.filter (key · = entry.1)).length = entry.2) := by
  induction bounds generalizing values with
  | nil =>
    cases values with
    | nil => simp
    | cons value rest => simpa using covered value (by simp)
  | cons entry rest ih =>
    rw [map_cons, nodup_cons] at distinct
    have others (label : κ) (different : label ≠ entry.1) :
        (values.filter (¬ key · = entry.1)).filter (key · = label) =
          values.filter (key · = label) := by
      rw [filter_filter]
      apply filter_congr
      intro value _
      by_cases same : key value = label
      · simp [same, different]
      · simp [same]
    have coveredRest : ∀ value ∈ values.filter (¬ key · = entry.1),
        key value ∈ rest.map Prod.fst := by
      intro value member
      rw [mem_filter, decide_eq_true_eq] at member
      exact (mem_cons.mp (covered value member.1)).resolve_left member.2
    have apart (other : κ × Nat) (member : other ∈ rest) : other.1 ≠ entry.1 :=
      fun same => distinct.1 (same ▸ mem_map_of_mem member)
    have boundedRest : ∀ other ∈ rest,
        ((values.filter (¬ key · = entry.1)).filter (key · = other.1)).length ≤ other.2 := by
      intro other member
      rw [others other.1 (apart other member)]
      exact bounded other (mem_cons_of_mem _ member)
    have remaining := ih distinct.2 coveredRest boundedRest
    have parts := length_eq_length_filter_add (l := values) (key · = entry.1)
    have own := bounded entry mem_cons_self
    simp only [← decide_not] at parts
    rw [map_cons, sum_cons]
    constructor
    · omega
    · intro filled other member
      rcases mem_cons.mp member with rfl | later
      · omega
      · rw [← others other.1 (apart other later)]
        exact remaining.2 (by omega) other later

end DseDriver.Lib
