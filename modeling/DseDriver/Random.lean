import Mathlib.SetTheory.Cardinal.Finite
import Mathlib.Tactic.Ring

/-!
# Random choices

`Random::next` draws raw outputs of the generator until one is below a limit that is a multiple of
the number of choices.  `random_shuffle` swaps each element, from the last one down, with one that
is chosen among those up to it.  The generator is the list of its outputs.
-/

namespace DseDriver.Random

open List

/-! ## Choices -/

/-- `CASS_UINT64_MAX`. -/
def uint64Max : UInt64 := 18446744073709551615

/-- `limit` in `next`. -/
def limit (max : UInt64) : UInt64 := uint64Max - uint64Max % max

/-- `next`: the choice and the outputs behind it, if the loop ends within the outputs. -/
def next (max : UInt64) : List UInt64 → Option (UInt64 × List UInt64)
  | [] => none
  | r :: outputs => if r ≥ limit max then next max outputs else some (r % max, outputs)

variable {max residue : UInt64}

theorem toNat_limit (max : UInt64) :
    (limit max).toNat = uint64Max.toNat - uint64Max.toNat % max.toNat := by
  have le : uint64Max % max ≤ uint64Max := by
    rw [UInt64.le_iff_toNat_le, UInt64.toNat_mod]
    exact Nat.mod_le _ _
  rw [limit, UInt64.toNat_sub_of_le _ _ le, UInt64.toNat_mod]

/-- The limit is a multiple of the number of choices. -/
theorem toNat_limit_eq (max : UInt64) :
    (limit max).toNat = max.toNat * (uint64Max.toNat / max.toNat) := by
  have split := Nat.div_add_mod uint64Max.toNat max.toNat
  rw [toNat_limit]
  omega

/-- The loop ends at the first output below the limit. -/
theorem next_append (max : UInt64) {rejected : List UInt64} {r : UInt64} {outputs : List UInt64}
    (above : ∀ r ∈ rejected, r ≥ limit max) (below : r < limit max) :
    next max (rejected ++ r :: outputs) = some (r % max, outputs) := by
  induction rejected with
  | nil =>
    have accepted : ¬ r ≥ limit max := UInt64.not_le.mpr below
    rw [nil_append, next, if_neg accepted]
  | cons first rejected ih =>
    obtain ⟨isAbove, others⟩ := forall_mem_cons.mp above
    rw [cons_append, next, if_pos isAbove, ih others]

theorem next_lt (positive : 0 < max) {outputs rest : List UInt64} {choice : UInt64}
    (chosen : next max outputs = some (choice, rest)) : choice < max := by
  induction outputs with
  | nil => cases chosen
  | cons r outputs ih =>
    rw [next] at chosen
    split at chosen
    · exact ih chosen
    · cases chosen
      exact UInt64.mod_lt r positive

theorem multiple_lt_limit (below : residue < max) {k : Nat}
    (less : k < uint64Max.toNat / max.toNat) :
    max.toNat * k + residue.toNat < (limit max).toNat := by
  have small := UInt64.lt_iff_toNat_lt.mp below
  calc max.toNat * k + residue.toNat < max.toNat * k + max.toNat := by omega
    _ = max.toNat * (k + 1) := (Nat.mul_succ ..).symm
    _ ≤ max.toNat * (uint64Max.toNat / max.toNat) := Nat.mul_le_mul_left _ less
    _ = (limit max).toNat := (toNat_limit_eq max).symm

/-- Every choice is accepted as it is. -/
theorem next_choice (below : residue < max) (outputs : List UInt64) :
    next max (residue :: outputs) = some (residue, outputs) := by
  have small := UInt64.lt_iff_toNat_lt.mp below
  have most : max.toNat ≤ uint64Max.toNat := Nat.le_of_lt_succ max.toNat_lt
  have less := multiple_lt_limit below (Nat.div_pos most (by omega))
  rw [Nat.mul_zero, Nat.zero_add] at less
  have chosen := @next_append max [] residue outputs (by simp) (UInt64.lt_iff_toNat_lt.mpr less)
  rwa [UInt64.mod_eq_of_lt below] at chosen

/-- The accepted outputs of a residue are the multiples below the limit, moved by it. -/
def acceptedEquiv (below : residue < max) :
    { r : UInt64 // r < limit max ∧ r % max = residue } ≃ Fin (uint64Max.toNat / max.toNat) where
  toFun r := ⟨r.1.toNat / max.toNat, by
    have less := UInt64.lt_iff_toNat_lt.mp r.2.1
    rw [toNat_limit_eq, Nat.mul_comm] at less
    exact Nat.div_lt_of_lt_mul (by rwa [Nat.mul_comm] at less)⟩
  invFun k := ⟨UInt64.ofNat (max.toNat * k + residue.toNat), by
    have small := UInt64.lt_iff_toNat_lt.mp below
    have less := multiple_lt_limit below k.2
    have isNat : (UInt64.ofNat (max.toNat * k + residue.toNat)).toNat =
        max.toNat * k + residue.toNat := UInt64.toNat_ofNat_of_lt' (less.trans (limit max).toNat_lt)
    constructor
    · rw [UInt64.lt_iff_toNat_lt, isNat]
      exact less
    · rw [← UInt64.toNat_inj, UInt64.toNat_mod, isNat, Nat.mul_add_mod, Nat.mod_eq_of_lt small]⟩
  left_inv r := by
    apply Subtype.ext
    rw [← UInt64.toNat_inj]
    have split := Nat.div_add_mod r.1.toNat max.toNat
    have isResidue := congrArg UInt64.toNat r.2.2
    rw [UInt64.toNat_mod] at isResidue
    dsimp only
    rw [← isResidue, split, UInt64.toNat_ofNat_of_lt' r.1.toNat_lt]
  right_inv k := by
    have small := UInt64.lt_iff_toNat_lt.mp below
    have less := multiple_lt_limit below k.2
    apply Fin.ext
    dsimp only
    rw [UInt64.toNat_ofNat_of_lt' (less.trans (limit max).toNat_lt),
      Nat.mul_add_div (by omega), Nat.div_eq_of_lt small, Nat.add_zero]

/-- Every residue has as many accepted outputs as there are multiples below the limit. -/
theorem card_accepted (below : residue < max) :
    Nat.card { r : UInt64 // r < limit max ∧ r % max = residue } =
      uint64Max.toNat / max.toNat := by
  rw [Nat.card_congr (acceptedEquiv below), Nat.card_fin]

/-! ## Shuffling -/

variable {α : Type}

def swap (values : List α) (i j : Nat) : List α :=
  match values[i]?, values[j]? with
  | some first, some second => (values.set i second).set j first
  | _, _ => values

/-- The loop of `random_shuffle` from an index down, with the choices that are made. -/
def shuffleFrom : (i : Nat) → (choices : List Nat) → List α → Option (List α)
  | 0, _, values => some values
  | _ + 1, [], _ => none
  | i + 1, choice :: choices, values => shuffleFrom i choices (swap values (i + 1) choice)

/-- The loop with the choices of `next`. -/
def randomShuffleFrom : (i : Nat) → List UInt64 → List α → Option (List α × List UInt64)
  | 0, outputs, values => some (values, outputs)
  | i + 1, outputs, values => do
    let (choice, outputs) ← next (UInt64.ofNat (i + 2)) outputs
    randomShuffleFrom i outputs (swap values (i + 1) choice.toNat)

/-- `random_shuffle` of a range that is not empty. -/
def randomShuffle (outputs : List UInt64) (values : List α) : Option (List α × List UInt64) :=
  randomShuffleFrom (values.length - 1) outputs values

/-- What `next` may choose: at each index one up to it. -/
def Choices : Nat → List Nat → Prop
  | 0, choices => choices = []
  | _ + 1, [] => False
  | i + 1, choice :: choices => choice ≤ i + 1 ∧ Choices i choices

variable {values result : List α} {i j : Nat}

theorem swap_eq (inside : i < values.length) (inside' : j < values.length) :
    swap values i j = (values.set i values[j]).set j values[i] := by
  simp [swap, inside, inside']

theorem swap_perm (values : List α) (i j : Nat) : (swap values i j).Perm values := by
  unfold swap
  split
  next first second isFirst isSecond =>
    obtain ⟨inside, rfl⟩ := List.getElem?_eq_some_iff.mp isFirst
    obtain ⟨inside', rfl⟩ := List.getElem?_eq_some_iff.mp isSecond
    exact set_set_perm inside inside'
  · exact List.Perm.refl _

theorem getElem?_swap_of_lt {k : Nat} (before : i < k) (before' : j < k) :
    (swap values i j)[k]? = values[k]? := by
  unfold swap
  split
  · rw [getElem?_set_ne before'.ne, getElem?_set_ne before.ne]
  · rfl

/-- The element at the index is the chosen one. -/
theorem getElem?_swap (inside : i < values.length) (before : j ≤ i) :
    (swap values i j)[i]? = values[j]? := by
  have inside' : j < values.length := by omega
  rw [swap_eq inside inside', getElem?_set, getElem?_set_self inside,
    getElem?_eq_getElem inside']
  split
  next same => simp_all
  · rfl

/-- The loop permutes the elements up to its index. -/
theorem shuffleFrom_perm {choices : List Nat} (isChoices : Choices i choices)
    (shuffled : shuffleFrom i choices values = some result) :
    result.Perm values ∧ ∀ k, i < k → result[k]? = values[k]? := by
  induction i generalizing choices values with
  | zero =>
    cases shuffled
    exact ⟨List.Perm.refl _, fun _ _ => rfl⟩
  | succ i ih =>
    cases choices with
    | nil => cases shuffled
    | cons choice choices =>
      obtain ⟨before, others⟩ := isChoices
      obtain ⟨perm, above⟩ := ih others shuffled
      refine ⟨perm.trans (swap_perm ..), fun k less => ?_⟩
      rw [above k (by omega), getElem?_swap_of_lt less (by omega)]

/-- The choice that brings the right element to its index. -/
theorem exists_choice (nodup : values.Nodup) (perm : result.Perm values)
    (above : ∀ k, i < k → result[k]? = values[k]?) (inside : i < result.length) :
    ∃ choice ≤ i, values[choice]? = result[i]? := by
  obtain ⟨choice, isChoice⟩ :=
    mem_iff_getElem?.mp (perm.mem_iff.mp (getElem_mem inside))
  have isSame : values[choice]? = result[i]? :=
    isChoice.trans (getElem?_eq_getElem inside).symm
  refine ⟨choice, ?_, isSame⟩
  by_contra later
  -- behind the index both lists are the same, so that the element would be there twice
  have twice := (above choice (by omega)).trans isSame
  have index := (getElem?_inj inside (perm.nodup_iff.mpr nodup)).mp twice.symm
  omega

/-- Every permutation of the elements up to the index comes from one sequence of choices. -/
theorem existsUnique_choices (nodup : values.Nodup) (inside : i < values.length)
    (perm : result.Perm values) (above : ∀ k, i < k → result[k]? = values[k]?) :
    ∃! choices, Choices i choices ∧ shuffleFrom i choices values = some result := by
  induction i generalizing values with
  | zero =>
    have same : result = values := by
      obtain ⟨choice, first, isChoice⟩ := exists_choice nodup perm above (perm.length_eq ▸ inside)
      apply ext_getElem?
      intro k
      rcases Nat.eq_zero_or_pos k with rfl | later
      · rw [← isChoice, Nat.le_zero.mp first]
      · exact above k later
    exact ⟨[], ⟨rfl, congrArg some same.symm⟩, fun choices both => both.1⟩
  | succ i ih =>
    obtain ⟨choice, before, isChoice⟩ :=
      exists_choice nodup perm above (perm.length_eq ▸ inside)
    have swapped := swap_perm values (i + 1) choice
    have above' : ∀ k, i < k → result[k]? = (swap values (i + 1) choice)[k]? := by
      intro k less
      rcases Nat.eq_or_lt_of_le (show i + 1 ≤ k from less) with rfl | later
      · rw [getElem?_swap inside before, isChoice]
      · rw [getElem?_swap_of_lt later (by omega), above k later]
    obtain ⟨choices, ⟨areChoices, shuffled⟩, unique⟩ := ih (swapped.nodup_iff.mpr nodup)
      (by rw [swapped.length_eq]; omega) (perm.trans swapped.symm) above'
    refine ⟨choice :: choices, ⟨⟨before, areChoices⟩, shuffled⟩, ?_⟩
    rintro (_ | ⟨other, others⟩) ⟨isOther, shuffled'⟩
    · cases isOther
    · -- the element that another choice brings to the index stays there
      have stays := (shuffleFrom_perm isOther.2 shuffled').2 (i + 1) (Nat.lt_succ_self i)
      rw [getElem?_swap inside isOther.1, ← isChoice] at stays
      have same := (getElem?_inj (by omega) nodup).mp stays
      subst same
      rw [unique others ⟨isOther.2, shuffled'⟩]

theorem toNat_ofNat (small : i + 1 < 2 ^ 64 - 1) : (UInt64.ofNat (i + 2)).toNat = i + 2 :=
  UInt64.toNat_ofNat_of_lt' (show i + 2 < 2 ^ 64 by omega)

/-- The choices of `next` are choices. -/
theorem randomShuffleFrom_choices {outputs rest : List UInt64} (small : i < 2 ^ 64 - 1)
    (shuffled : randomShuffleFrom i outputs values = some (result, rest)) :
    ∃ choices, Choices i choices ∧ shuffleFrom i choices values = some result := by
  induction i generalizing outputs values with
  | zero =>
    cases shuffled
    exact ⟨[], rfl, rfl⟩
  | succ i ih =>
    obtain ⟨⟨choice, behind⟩, chosen, shuffled⟩ := Option.bind_eq_some_iff.mp shuffled
    obtain ⟨choices, areChoices, others⟩ := ih (by omega) shuffled
    have less := next_lt
      (UInt64.lt_iff_toNat_lt.mpr (by rw [toNat_ofNat small]; exact Nat.succ_pos _)) chosen
    rw [UInt64.lt_iff_toNat_lt, toNat_ofNat small] at less
    exact ⟨choice.toNat :: choices, ⟨Nat.le_of_lt_succ less, areChoices⟩, others⟩

/-- The generator may make any of them. -/
theorem randomShuffleFrom_of_choices {choices : List Nat} (small : i < 2 ^ 64 - 1)
    (areChoices : Choices i choices) (values : List α) :
    randomShuffleFrom i (choices.map UInt64.ofNat) values =
      (shuffleFrom i choices values).map (·, []) := by
  induction i generalizing choices values with
  | zero =>
    cases areChoices
    rfl
  | succ i ih =>
    cases choices with
    | nil => cases areChoices
    | cons choice choices =>
      obtain ⟨before, others⟩ := areChoices
      have isNat : (UInt64.ofNat choice).toNat = choice :=
        UInt64.toNat_ofNat_of_lt' (show choice < 2 ^ 64 by omega)
      have below : UInt64.ofNat choice < UInt64.ofNat (i + 2) := by
        rw [UInt64.lt_iff_toNat_lt, toNat_ofNat small, isNat]
        exact Nat.lt_succ_of_le before
      rw [map_cons, randomShuffleFrom, next_choice below, Option.bind_eq_bind,
        Option.bind_some, shuffleFrom]
      dsimp only
      rw [isNat, ih (by omega) others]

/-- **Choices are not biased.** With any number of choices the loop of `next` ends at the first
accepted output, with a value below that number, and each value comes from equally many accepted
outputs.  A shuffle gives a permutation, and each permutation of different elements comes from one
sequence of choices, which the generator may make. -/
theorem random_unbiased (max : UInt64) (positive : 0 < max) :
    (∀ rejected r outputs, (∀ other ∈ rejected, other ≥ limit max) → r < limit max →
      next max (rejected ++ r :: outputs) = some (r % max, outputs) ∧ r % max < max) ∧
    (∀ residue, residue < max →
      Nat.card { r : UInt64 // r < limit max ∧ r % max = residue } =
        uint64Max.toNat / max.toNat) ∧
    ∀ {α : Type} (values : List α), values ≠ [] → values.length < 2 ^ 64 → values.Nodup →
      (∀ outputs result rest, randomShuffle outputs values = some (result, rest) →
        result.Perm values) ∧
      (∀ choices, Choices (values.length - 1) choices →
        randomShuffle (choices.map UInt64.ofNat) values =
          (shuffleFrom (values.length - 1) choices values).map (·, [])) ∧
      ∀ result, result.Perm values → ∃! choices, Choices (values.length - 1) choices ∧
        shuffleFrom (values.length - 1) choices values = some result := by
  refine ⟨?_, fun residue => card_accepted, ?_⟩
  · intro rejected r outputs above below
    exact ⟨next_append max above below, UInt64.mod_lt r positive⟩
  · intro α values nonempty sized nodup
    have nonzero := length_pos_iff.mpr nonempty
    have small : values.length - 1 < 2 ^ 64 - 1 := by omega
    refine ⟨?_, fun choices areChoices => randomShuffleFrom_of_choices small areChoices values, ?_⟩
    · intro outputs result rest shuffled
      obtain ⟨choices, areChoices, others⟩ := randomShuffleFrom_choices small shuffled
      exact (shuffleFrom_perm areChoices others).1
    · intro result perm
      refine existsUnique_choices nodup (by omega) perm fun k above => ?_
      have lengths := perm.length_eq
      rw [getElem?_eq_none (by omega), getElem?_eq_none (by omega)]

/-- A die, and an order of three elements. -/
theorem random_unbiased_six :
    Nat.card { r : UInt64 // r < limit 6 ∧ r % 6 = 5 } = uint64Max.toNat / (6 : UInt64).toNat ∧
      ∃! choices, Choices 2 choices ∧ shuffleFrom 2 choices [7, 8, 9] = some [9, 7, 8] :=
  ⟨(random_unbiased 6 (by decide)).2.1 5 (by decide),
    ((random_unbiased 6 (by decide)).2.2 [7, 8, 9] (by decide) (by decide) (by decide)).2.2
      [9, 7, 8] (by decide)⟩

end DseDriver.Random
