import DseDriver.Lib.Lists
import Mathlib.Data.Finset.Card

/-!
# Placement of a sequence over classes

Elements arrive one by one and are placed so that every class is used before one
is used twice.  An element is placed promptly while some class is missing and its
own class is new, or it has no class; other elements wait, and they are only
placed once every class has been seen.  The main result says when the first
places of such a sequence are taken by different elements, by how many elements
and classes come before the copies of an element.
-/

namespace DseDriver.Lib

open List

variable {α κ : Type}

/-- Elements placed promptly, elements that wait, and the classes seen so far. -/
structure Placement (α κ : Type) where
  prompt : List α
  waiting : List α
  observed : Finset κ

namespace Placement

variable [DecidableEq κ] (classOf : α → Option κ) (classCount : Nat)

/-- Every class has been seen. -/
def Complete (placement : Placement α κ) : Prop :=
  placement.observed.card = classCount

/-- The next element is placed without waiting. -/
def Prompt (placement : Placement α κ) (element : α) : Prop :=
  ¬ placement.Complete classCount ∧ ∀ label ∈ classOf element, label ∉ placement.observed

instance (placement : Placement α κ) : Decidable (placement.Complete classCount) :=
  inferInstanceAs (Decidable (_ = _))

instance (placement : Placement α κ) (element : α) :
    Decidable (placement.Prompt classOf classCount element) :=
  inferInstanceAs (Decidable (_ ∧ _))

/-- Record the class of an element. -/
def observe (observed : Finset κ) (element : α) : Finset κ :=
  match classOf element with
  | none => observed
  | some label => insert label observed

/-- Place one more element. -/
def add (placement : Placement α κ) (element : α) : Placement α κ :=
  if placement.Prompt classOf classCount element then
    { placement with
      prompt := placement.prompt ++ [element]
      observed := observe classOf placement.observed element }
  else
    { placement with waiting := placement.waiting ++ [element] }

/-- Place the elements of a list in order. -/
def place (elements : List α) : Placement α κ :=
  elements.foldl (add classOf classCount) { prompt := [], waiting := [], observed := ∅ }

/-- The places in order: waiting elements come last and only once every class has
been seen. -/
def emitted (placement : Placement α κ) : List α :=
  placement.prompt ++ if placement.Complete classCount then placement.waiting else []

variable {classOf classCount} {placement : Placement α κ} {element other : α}

theorem add_of_prompt (prompt : placement.Prompt classOf classCount element) :
    placement.add classOf classCount element =
      { placement with
        prompt := placement.prompt ++ [element]
        observed := observe classOf placement.observed element } :=
  if_pos prompt

theorem add_of_not_prompt (waits : ¬ placement.Prompt classOf classCount element) :
    placement.add classOf classCount element =
      { placement with waiting := placement.waiting ++ [element] } :=
  if_neg waits

@[simp] theorem place_nil :
    place classOf classCount [] = { prompt := [], waiting := [], observed := ∅ } := rfl

theorem place_concat (elements : List α) (element : α) :
    place classOf classCount (elements ++ [element]) =
      (place classOf classCount elements).add classOf classCount element := by
  simp [place]

/-- An element that has to wait once has to wait from then on. -/
theorem not_prompt_add (waits : ¬ placement.Prompt classOf classCount element) :
    ¬ (placement.add classOf classCount other).Prompt classOf classCount element := by
  by_cases prompt : placement.Prompt classOf classCount other
  · rw [add_of_prompt prompt]
    intro promptly
    apply waits
    refine ⟨prompt.1, fun label labelled seen => promptly.2 label labelled ?_⟩
    simp only [observe]
    split
    · exact seen
    · exact Finset.mem_insert_of_mem seen
  · rw [add_of_not_prompt prompt]
    exact waits

variable {elements : List α}

theorem not_prompt_append (rest : List α)
    (waits : ¬ (place classOf classCount elements).Prompt classOf classCount element) :
    ¬ (place classOf classCount (elements ++ rest)).Prompt classOf classCount element := by
  induction rest using List.reverseRecOn with
  | nil => simpa using waits
  | append_singleton rest last ih =>
    rw [← append_assoc, place_concat]
    exact not_prompt_add ih

/-- Once an element has to wait, no later copy of it is placed promptly. -/
theorem mem_prompt_append {elements rest : List α}
    (waits : ¬ (place classOf classCount elements).Prompt classOf classCount element)
    (member : element ∈ (place classOf classCount (elements ++ rest)).prompt) :
    element ∈ (place classOf classCount elements).prompt := by
  induction rest using List.reverseRecOn with
  | nil => simpa using member
  | append_singleton rest last ih =>
    rw [← append_assoc, place_concat] at member
    by_cases prompt : (place classOf classCount (elements ++ rest)).Prompt classOf classCount last
    · rw [add_of_prompt prompt, mem_append, mem_singleton] at member
      rcases member with earlier | same
      · exact ih earlier
      · subst same
        exact absurd prompt (not_prompt_append rest waits)
    · rw [add_of_not_prompt prompt] at member
      exact ih member

theorem prompt_subset_append (elements rest : List α) :
    (place classOf classCount elements).prompt ⊆
      (place classOf classCount (elements ++ rest)).prompt := by
  induction rest using List.reverseRecOn with
  | nil => simp
  | append_singleton rest last ih =>
    intro element member
    rw [← append_assoc, place_concat, add]
    split
    · exact mem_append_left _ (ih member)
    · exact ih member

variable (classOf classCount) in
/-- Nothing is lost: an element is placed promptly or waits. -/
theorem mem_place_iff (elements : List α) :
    element ∈ elements ↔ element ∈ (place classOf classCount elements).prompt ∨
      element ∈ (place classOf classCount elements).waiting := by
  induction elements using List.reverseRecOn with
  | nil => simp
  | append_singleton elements last ih =>
    rw [mem_append, mem_singleton, ih, place_concat, add]
    split <;> simp only [mem_append, mem_singleton] <;> tauto

/-- While an element is prompt, all its earlier copies were prompt too. -/
theorem mem_prompt_of_prompt
    (prompt : (place classOf classCount elements).Prompt classOf classCount element)
    (member : element ∈ elements) : element ∈ (place classOf classCount elements).prompt := by
  induction elements using List.reverseRecOn with
  | nil => cases member
  | append_singleton elements last ih =>
    rw [place_concat] at prompt ⊢
    have before : (place classOf classCount elements).Prompt classOf classCount element :=
      Decidable.byContradiction fun waits => not_prompt_add waits prompt
    by_cases promptLast : (place classOf classCount elements).Prompt classOf classCount last
    · rw [add_of_prompt promptLast, mem_append, mem_singleton]
      rw [mem_append, mem_singleton] at member
      exact member.imp_left (ih before)
    · rw [add_of_not_prompt promptLast]
      rw [mem_append, mem_singleton] at member
      rcases member with earlier | same
      · exact ih before earlier
      · exact absurd (same ▸ before) promptLast

theorem add_of_complete (complete : placement.Complete classCount) :
    placement.add classOf classCount element =
      { placement with waiting := placement.waiting ++ [element] } :=
  add_of_not_prompt fun prompt => prompt.1 complete

omit [DecidableEq κ] in
theorem emitted_of_complete (complete : placement.Complete classCount) :
    placement.emitted classCount = placement.prompt ++ placement.waiting := by
  rw [emitted, if_pos complete]

omit [DecidableEq κ] in
theorem emitted_of_not_complete (incomplete : ¬ placement.Complete classCount) :
    placement.emitted classCount = placement.prompt := by
  rw [emitted, if_neg incomplete, append_nil]

theorem emitted_place_nil :
    (place classOf classCount ([] : List α)).emitted classCount = [] := by
  rw [emitted]
  split <;> rfl

variable (classOf classCount) in
/-- Places that are taken stay as they are. -/
theorem emitted_prefix_add (placement : Placement α κ) (element : α) :
    placement.emitted classCount <+:
      (placement.add classOf classCount element).emitted classCount := by
  by_cases complete : placement.Complete classCount
  · rw [add_of_complete complete, emitted_of_complete complete]
    have still : ({ placement with waiting := placement.waiting ++ [element] } :
        Placement α κ).Complete classCount := complete
    rw [emitted_of_complete still, ← append_assoc]
    exact prefix_append ..
  · rw [emitted_of_not_complete complete, emitted, add]
    split
    · rw [append_assoc]
      exact prefix_append ..
    · exact prefix_append ..

variable (classOf classCount) in
theorem emitted_prefix_append (elements rest : List α) :
    (place classOf classCount elements).emitted classCount <+:
      (place classOf classCount (elements ++ rest)).emitted classCount := by
  induction rest using List.reverseRecOn with
  | nil => rw [append_nil]
  | append_singleton rest last ih =>
    rw [← append_assoc, place_concat]
    exact ih.trans (emitted_prefix_add classOf classCount _ last)

theorem mem_of_mem_emitted
    (member : element ∈ (place classOf classCount elements).emitted classCount) :
    element ∈ elements := by
  rw [mem_place_iff classOf classCount elements]
  rcases mem_append.mp member with prompt | late
  · exact Or.inl prompt
  · split at late
    · exact Or.inr late
    · cases late

/-! ## The first places -/

/-- The first prompt places go to different elements. -/
theorem nodup_take_prompt_iff (elements : List α) (count : Nat) :
    ((place classOf classCount elements).prompt.take count).Nodup ↔
      ∀ before element after, elements = before ++ element :: after → element ∈ before →
        (place classOf classCount before).Prompt classOf classCount element →
        count ≤ (place classOf classCount before).prompt.length := by
  induction elements using List.reverseRecOn with
  | nil => simp
  | append_singleton elements last ih =>
    rw [forall_split_concat, ← ih, place_concat]
    by_cases prompt : (place classOf classCount elements).Prompt classOf classCount last
    · have copies : last ∈ (place classOf classCount elements).prompt ↔ last ∈ elements :=
        ⟨fun member => (mem_place_iff classOf classCount elements).mpr (Or.inl member),
          mem_prompt_of_prompt prompt⟩
      rw [add_of_prompt prompt, nodup_take_concat, copies]
      simp [prompt]
    · rw [add_of_not_prompt prompt]
      simp [prompt]

variable (classOf classCount) in
/-- Waiting elements behind a fixed list of prompt ones. -/
theorem nodup_take_waiting_iff (elements rest : List α) (count : Nat) :
    (((place classOf classCount (elements ++ rest)).prompt ++
        (place classOf classCount elements).waiting).take count).Nodup ↔
      ((place classOf classCount (elements ++ rest)).prompt.take count).Nodup ∧
        ∀ before element after, elements = before ++ element :: after → element ∈ before →
          ¬ (place classOf classCount before).Prompt classOf classCount element →
          count ≤ (place classOf classCount (elements ++ rest)).prompt.length +
            (place classOf classCount before).waiting.length := by
  induction elements using List.reverseRecOn generalizing rest with
  | nil => simp
  | append_singleton elements last ih =>
    have shift : (elements ++ [last]) ++ rest = elements ++ (last :: rest) := by simp
    rw [forall_split_concat, ← and_assoc, shift, ← ih (last :: rest), place_concat]
    by_cases prompt : (place classOf classCount elements).Prompt classOf classCount last
    · rw [add_of_prompt prompt]
      simp [prompt]
    · have copies : last ∈ (place classOf classCount (elements ++ last :: rest)).prompt ++
          (place classOf classCount elements).waiting ↔ last ∈ elements := by
        rw [mem_append, mem_place_iff classOf classCount elements]
        exact or_congr_left ⟨mem_prompt_append prompt, fun member =>
          prompt_subset_append elements (last :: rest) member⟩
      rw [add_of_not_prompt prompt, ← append_assoc, nodup_take_concat, copies]
      simp [prompt]

/-- The first places go to different elements exactly when every second copy of an
element comes late: behind enough prompt places if it is prompt, and otherwise
behind all prompt places and the elements that waited before it. -/
theorem nodup_take_emitted_iff (elements : List α) (count : Nat) :
    (((place classOf classCount elements).emitted classCount).take count).Nodup ↔
      ∀ before element after, elements = before ++ element :: after → element ∈ before →
        if (place classOf classCount before).Prompt classOf classCount element then
          count ≤ (place classOf classCount before).prompt.length
        else
          (place classOf classCount elements).Complete classCount →
            count ≤ (place classOf classCount elements).prompt.length +
              (place classOf classCount before).waiting.length := by
  by_cases complete : (place classOf classCount elements).Complete classCount
  · have places := nodup_take_waiting_iff classOf classCount elements [] count
    rw [append_nil, nodup_take_prompt_iff] at places
    rw [emitted, if_pos complete, places]
    constructor
    · intro late before element after split copy
      split_ifs with prompt
      · exact late.1 before element after split copy prompt
      · exact fun _ => late.2 before element after split copy prompt
    · intro late
      constructor
      · intro before element after split copy prompt
        simpa only [if_pos prompt] using late before element after split copy
      · intro before element after split copy waits
        have behind := late before element after split copy
        rw [if_neg waits] at behind
        exact behind complete
  · rw [emitted, if_neg complete, append_nil, nodup_take_prompt_iff]
    constructor
    · intro late before element after split copy
      split_ifs with prompt
      · exact late before element after split copy prompt
      · exact fun now => absurd now complete
    · intro late before element after split copy prompt
      simpa only [if_pos prompt] using late before element after split copy

/-! ## Coverage of the classes -/

variable (classOf classCount) in
theorem place_length (elements : List α) :
    (place classOf classCount elements).prompt.length +
      (place classOf classCount elements).waiting.length = elements.length := by
  induction elements using List.reverseRecOn with
  | nil => rfl
  | append_singleton elements last ih =>
    rw [place_concat, add]
    split <;> simp only [length_append, length_singleton] <;> omega

variable (classOf classCount) in
/-- The classes that were seen are those of the prompt places, and no two of these share one. -/
theorem prompt_classes (elements : List α) :
    ((place classOf classCount elements).prompt.filterMap classOf).Nodup ∧
      ((place classOf classCount elements).prompt.filterMap classOf).toFinset =
        (place classOf classCount elements).observed := by
  induction elements using List.reverseRecOn with
  | nil => exact ⟨nodup_nil, rfl⟩
  | append_singleton elements last ih =>
    rw [place_concat]
    by_cases prompt : (place classOf classCount elements).Prompt classOf classCount last
    · rw [add_of_prompt prompt]
      simp only [filterMap_append, observe]
      cases labelled : classOf last with
      | none => simpa [labelled] using ih
      | some label =>
        have new := prompt.2 label labelled
        rw [← ih.2, mem_toFinset] at new
        rw [filterMap_cons_some labelled, filterMap_nil]
        refine ⟨concat_eq_append ▸ ih.1.concat new, ?_⟩
        rw [toFinset_append, ih.2, toFinset_cons, toFinset_nil,
          insert_empty_eq, Finset.union_comm, Finset.singleton_union]
    · rw [add_of_not_prompt prompt]
      exact ih

/-- As long as a class is missing, the classes of all elements were seen. -/
theorem mem_observed_of_not_complete {label : κ}
    (incomplete : ¬ (place classOf classCount elements).Complete classCount)
    (member : element ∈ elements) (labelled : classOf element = some label) :
    label ∈ (place classOf classCount elements).observed := by
  induction elements using List.reverseRecOn with
  | nil => cases member
  | append_singleton elements last ih =>
    rw [mem_append, mem_singleton] at member
    rw [place_concat] at incomplete ⊢
    by_cases prompt : (place classOf classCount elements).Prompt classOf classCount last
    · rw [add_of_prompt prompt]
      simp only [observe]
      rcases member with earlier | rfl
      · have seen := ih prompt.1 earlier
        split
        · exact seen
        · exact Finset.mem_insert_of_mem seen
      · rw [labelled]
        exact Finset.mem_insert_self ..
    · rw [add_of_not_prompt prompt] at incomplete ⊢
      rcases member with earlier | rfl
      · exact ih incomplete earlier
      · by_contra new
        refine prompt ⟨incomplete, fun other same => ?_⟩
        rw [labelled] at same
        exact Option.some.inj same ▸ new

variable (classOf) in
/-- The classes of some elements. -/
def classes (elements : List α) : Finset κ :=
  (elements.filterMap classOf).toFinset

variable (classOf) in
/-- How many elements have no class. -/
def unlabelled (elements : List α) : Nat :=
  elements.countP fun element => (classOf element).isNone

theorem classes_mono {elements more : List α} (subset : elements ⊆ more) :
    classes classOf elements ⊆ classes classOf more := by
  intro label known
  obtain ⟨element, member, labelled⟩ := mem_filterMap.mp (mem_toFinset.mp known)
  exact mem_toFinset.mpr (mem_filterMap.mpr ⟨element, subset member, labelled⟩)

theorem card_classes_concat (elements : List α) (last : α) :
    (classes classOf (elements ++ [last])).card ≤ (classes classOf elements).card + 1 := by
  rw [classes, filterMap_append, toFinset_append]
  refine (Finset.card_union_le ..).trans (Nat.add_le_add_left ?_ _)
  cases labelled : classOf last <;> simp [labelled]

variable (classOf classCount) in
theorem observed_subset (elements : List α) :
    (place classOf classCount elements).observed ⊆ classes classOf elements := by
  rw [← (prompt_classes classOf classCount elements).2]
  exact classes_mono fun element member =>
    (mem_place_iff classOf classCount elements).mpr (Or.inl member)

/-- As long as a class is missing, all classes of the elements were seen. -/
theorem observed_eq (incomplete : ¬ (place classOf classCount elements).Complete classCount) :
    (place classOf classCount elements).observed = classes classOf elements := by
  refine (observed_subset classOf classCount elements).antisymm fun label known => ?_
  obtain ⟨element, member, labelled⟩ := mem_filterMap.mp (mem_toFinset.mp known)
  exact mem_observed_of_not_complete incomplete member labelled

variable (classOf classCount) in
theorem card_observed_le (elements : List α) :
    (place classOf classCount elements).observed.card ≤ classCount := by
  induction elements using List.reverseRecOn with
  | nil => exact Nat.zero_le _
  | append_singleton elements last ih =>
    rw [place_concat]
    by_cases prompt : (place classOf classCount elements).Prompt classOf classCount last
    · have missing := Nat.lt_of_le_of_ne ih prompt.1
      rw [add_of_prompt prompt]
      simp only [observe]
      split
      · exact ih
      · exact (Finset.card_insert_le ..).trans missing
    · rw [add_of_not_prompt prompt]
      exact ih

/-- A placement is complete when the elements have that many classes. -/
theorem complete_iff : (place classOf classCount elements).Complete classCount ↔
    classCount ≤ (classes classOf elements).card := by
  constructor
  · intro complete
    rw [← show _ = classCount from complete]
    exact Finset.card_le_card (observed_subset classOf classCount elements)
  · intro enough
    by_contra incomplete
    rw [← observed_eq incomplete] at enough
    exact incomplete ((card_observed_le classOf classCount elements).antisymm enough)

/-- The first places of a complete placement go to as many classes as possible. -/
theorem classes_take_emitted (complete : (place classOf classCount elements).Complete classCount)
    (labelled : ∀ element ∈ elements, (classOf element).isSome) (count : Nat) :
    min count classCount ≤
      ((((place classOf classCount elements).emitted classCount).take count).filterMap
        classOf).toFinset.card := by
  obtain ⟨distinct, seen⟩ := prompt_classes classOf classCount elements
  generalize places : (place classOf classCount elements).prompt = prompt at distinct seen
  have known : ∀ element ∈ prompt, (classOf element).isSome := fun element member =>
    labelled element ((mem_place_iff classOf classCount elements).mpr (Or.inl (places ▸ member)))
  have one : ∀ first : List α, (∀ element ∈ first, (classOf element).isSome) →
      (first.filterMap classOf).length = first.length := by
    intro first every
    rw [length_filterMap_eq_countP]
    exact countP_eq_length.mpr every
  have length : prompt.length = classCount := by
    rw [← one prompt known, ← toFinset_card_of_nodup distinct, seen]
    exact complete
  have front : ((prompt.take count).filterMap classOf).Sublist (prompt.filterMap classOf) :=
    (take_sublist count prompt).filterMap classOf
  have cards : ((prompt.take count).filterMap classOf).toFinset.card = min count classCount := by
    rw [toFinset_card_of_nodup (distinct.sublist front),
      one _ fun element member => known element (mem_of_mem_take member), length_take,
      length]
  rw [← cards, emitted_of_complete complete, places]
  apply Finset.card_le_card
  intro label member
  rw [mem_toFinset] at member ⊢
  refine ((List.Sublist.filterMap classOf ?_).subset) member
  rw [take_append]
  exact sublist_append_left ..

/-! ## The first places, by what comes before -/

/-- The elements without a class and the first ones of each class are prompt. -/
theorem length_prompt (incomplete : ¬ (place classOf classCount elements).Complete classCount) :
    (place classOf classCount elements).prompt.length =
      unlabelled classOf elements + (classes classOf elements).card := by
  induction elements using List.reverseRecOn with
  | nil => rfl
  | append_singleton elements last ih =>
    have before : ¬ (place classOf classCount elements).Complete classCount :=
      fun complete => incomplete (complete_iff.mpr ((complete_iff.mp complete).trans
        (Finset.card_le_card (classes_mono (subset_append_left ..)))))
    rw [place_concat]
    cases labelled : classOf last with
    | none =>
      have prompt : (place classOf classCount elements).Prompt classOf classCount last :=
        ⟨before, by simp [labelled]⟩
      have same : classes classOf (elements ++ [last]) = classes classOf elements := by
        simp [classes, labelled]
      have more : unlabelled classOf (elements ++ [last]) = unlabelled classOf elements + 1 := by
        simp [unlabelled, labelled]
      rw [same, more, Nat.add_right_comm, ← ih before, add_of_prompt prompt, length_append,
        length_singleton]
    | some label =>
      have more : classes classOf (elements ++ [last]) =
          insert label (classes classOf elements) := by
        simp [classes, labelled, toFinset_append]
      have others : unlabelled classOf (elements ++ [last]) = unlabelled classOf elements := by
        simp [unlabelled, labelled]
      rw [more, others]
      by_cases known : label ∈ classes classOf elements
      · rw [add_of_not_prompt, ih before, Finset.insert_eq_of_mem known]
        rw [← observed_eq before] at known
        exact fun prompt => prompt.2 label labelled known
      · rw [Finset.card_insert_of_notMem known, ← Nat.add_assoc, ← ih before, add_of_prompt,
          length_append, length_singleton]
        rw [← observed_eq before] at known
        exact ⟨before, fun other same => Option.some.inj (labelled.symm.trans same) ▸ known⟩

/-- Elements behind the one with the last class wait. -/
theorem prompt_append (complete : (place classOf classCount elements).Complete classCount)
    (rest : List α) :
    (place classOf classCount (elements ++ rest)).prompt =
      (place classOf classCount elements).prompt := by
  induction rest using List.reverseRecOn with
  | nil => rw [append_nil]
  | append_singleton rest last ih =>
    have still : (place classOf classCount (elements ++ rest)).Complete classCount :=
      complete_iff.mpr ((complete_iff.mp complete).trans
        (Finset.card_le_card (classes_mono (subset_append_left ..))))
    rw [← append_assoc, place_concat, add_of_complete still]
    exact ih

/-- The element that completes the classes is prompt, and the last one. -/
theorem length_prompt_of_completed {early later : List α} {last : α}
    (missing : (classes classOf early).card < classCount)
    (completed : classCount ≤ (classes classOf (early ++ [last])).card) :
    (place classOf classCount (early ++ last :: later)).prompt.length =
      classCount + unlabelled classOf early := by
  have incomplete : ¬ (place classOf classCount early).Complete classCount :=
    mt complete_iff.mp (by omega)
  have complete := complete_iff.mpr completed
  have prompt : (place classOf classCount early).Prompt classOf classCount last := by
    by_contra waits
    rw [place_concat, add_of_not_prompt waits] at complete
    exact incomplete complete
  have next : (classes classOf (early ++ [last])).card ≤ (classes classOf early).card + 1 :=
    card_classes_concat early last
  rw [append_cons, prompt_append complete, place_concat, add_of_prompt prompt,
    length_append, length_prompt incomplete, length_singleton]
  omega

theorem exists_completing {before rest : List α} (missing : (classes classOf before).card < classCount)
    (enough : classCount ≤ (classes classOf (before ++ rest)).card) :
    ∃ early last later, before ++ rest = early ++ last :: later ∧
      (classes classOf early).card < classCount ∧
      classCount ≤ (classes classOf (early ++ [last])).card := by
  induction rest generalizing before with
  | nil =>
    rw [append_nil] at enough
    omega
  | cons next rest ih =>
    by_cases completed : classCount ≤ (classes classOf (before ++ [next])).card
    · exact ⟨before, next, rest, rfl, missing, completed⟩
    · rw [append_cons] at enough ⊢
      exact ih (by omega) enough

variable (classOf classCount) in
/-- Each further copy of an element comes late enough for the first `count` places.  If all classes
come before it, `count` elements do.  If it has no class, the classes and the elements without one
before it are `count`.  And if it waits for the classes, then the classes, the elements without one
before the last class, and the elements before it that wait are. -/
def Late (count : Nat) (elements : List α) : Prop :=
  ∀ before element after, elements = before ++ element :: after → element ∈ before →
    if classCount ≤ (classes classOf before).card then
      count ≤ before.length
    else if classOf element = none then
      count ≤ unlabelled classOf before + (classes classOf before).card
    else
      ∀ early last later, elements = early ++ last :: later →
        (classes classOf early).card < classCount →
        classCount ≤ (classes classOf (early ++ [last])).card →
        count + unlabelled classOf before + (classes classOf before).card ≤
          classCount + unlabelled classOf early + before.length

/-- The first places go to different elements exactly when copies come late. -/
theorem nodup_take_emitted_iff_late (elements : List α) (count : Nat) :
    (((place classOf classCount elements).emitted classCount).take count).Nodup ↔
      Late classOf classCount count elements := by
  rw [nodup_take_emitted_iff]
  refine forall₃_congr fun before element after => forall₂_congr fun split copy => ?_
  have total := place_length classOf classCount before
  by_cases seen : classCount ≤ (classes classOf before).card
  · have complete := complete_iff.mpr seen
    have all : (place classOf classCount elements).Complete classCount :=
      complete_iff.mpr (seen.trans (Finset.card_le_card (classes_mono (split ▸ subset_append_left ..))))
    rw [if_pos seen, if_neg fun prompt => prompt.1 complete, split, prompt_append complete, total]
    rw [split] at all
    exact ⟨fun late => late all, fun late _ => late⟩
  rw [if_neg seen]
  have incomplete : ¬ (place classOf classCount before).Complete classCount := mt complete_iff.mp seen
  have prompts := length_prompt incomplete
  by_cases labelled : classOf element = none
  · have prompt : (place classOf classCount before).Prompt classOf classCount element := by
      refine ⟨incomplete, fun label isLabel => ?_⟩
      rw [labelled] at isLabel
      cases isLabel
    rw [if_pos prompt, if_pos labelled, prompts]
  · obtain ⟨label, isLabel⟩ := Option.ne_none_iff_exists'.mp labelled
    rw [if_neg labelled, if_neg fun prompt => prompt.2 label isLabel
      (mem_observed_of_not_complete incomplete copy isLabel)]
    constructor
    · intro late early last later isSplit missing completed
      have enough : classCount ≤ (classes classOf elements).card :=
        completed.trans (Finset.card_le_card (classes_mono (by simp [isSplit])))
      have behind := late (complete_iff.mpr enough)
      rw [isSplit, length_prompt_of_completed missing completed] at behind
      omega
    · intro late complete
      rw [split] at complete
      obtain ⟨early, last, later, isSplit, missing, completed⟩ :=
        exists_completing (by omega) (complete_iff.mp complete)
      have behind := late early last later (split.trans isSplit) missing completed
      rw [split, isSplit, length_prompt_of_completed missing completed]
      omega

end Placement

end DseDriver.Lib
