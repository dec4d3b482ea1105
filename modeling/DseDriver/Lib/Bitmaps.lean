import Mathlib.Tactic.TypeStar

/-!
# Bitmaps

A list of words as a set of positions: position `p` is bit `p % width` of word `p / width`.
-/

namespace DseDriver.Lib.Bitmaps

open List

variable {width : Nat} {words : List (BitVec width)} {word : BitVec width} {index bit position : Nat}

/-- Whether a position is in the set. -/
def has (words : List (BitVec width)) (position : Nat) : Bool :=
  (words.getD (position / width) 0).getLsbD (position % width)

theorem lt_of_has (isSet : has words position = true) : position < width * words.length := by
  unfold has at isSet
  by_cases inside : position / width < words.length
  · have positive : 0 < width := by
      rcases Nat.eq_zero_or_pos width with zero | positive
      · have below := BitVec.lt_of_getLsbD isSet
        omega
      · exact positive
    rw [Nat.div_lt_iff_lt_mul positive] at inside
    rwa [Nat.mul_comm]
  · rw [getD_eq_getElem?_getD, getElem?_eq_none (Nat.le_of_not_lt inside)] at isSet
    simp at isSet

/-- All positions are in a map of full words. -/
theorem has_replicate_allOnes {count : Nat} (positive : 0 < width) :
    has (List.replicate count (BitVec.allOnes width)) position =
      decide (position < width * count) := by
  unfold has
  have below : position % width < width := Nat.mod_lt _ positive
  by_cases inside : position / width < count
  · have small := inside
    rw [Nat.div_lt_iff_lt_mul positive, Nat.mul_comm] at small
    rw [getD_eq_getElem?_getD, getElem?_replicate_of_lt inside]
    simp [below, small]
  · have large := inside
    rw [Nat.div_lt_iff_lt_mul positive, Nat.mul_comm] at large
    have outside : (List.replicate count (BitVec.allOnes width)).length ≤ position / width := by
      rw [length_replicate]
      omega
    rw [getD_eq_getElem?_getD, getElem?_eq_none outside]
    simp [large]

theorem eq_add_mul_iff (inside : bit < width) :
    position = bit + width * index ↔ position / width = index ∧ position % width = bit := by
  constructor
  · rintro rfl
    rw [Nat.add_mul_div_left _ _ (by omega), Nat.add_mul_mod_self_left, Nat.div_eq_of_lt inside,
      Nat.mod_eq_of_lt inside]
    exact ⟨Nat.zero_add index, rfl⟩
  · rintro ⟨rfl, rfl⟩
    exact (Nat.mod_add_div position width).symm

theorem getLsbD_one_shiftLeft (inside : position < width) :
    (BitVec.ofNat width 1 <<< bit).getLsbD position = decide (position = bit) := by
  rw [← BitVec.twoPow_eq, BitVec.getLsbD_twoPow]
  simp only [Bool.and_eq_decide, decide_eq_true_eq, decide_eq_decide]
  omega

/-- A word of the map replaced by one that differs in one bit, if at all. -/
theorem has_set {combine : Bool → Bool → Bool} (unit : ∀ value, combine value false = value)
    (insideMap : index < words.length) (insideWord : bit < width)
    (bits : ∀ place < width, word.getLsbD place =
      combine ((words.getD index 0).getLsbD place) (decide (place = bit))) :
    has (words.set index word) position =
      combine (has words position) (decide (position = bit + width * index)) := by
  unfold has
  rw [getD_eq_getElem?_getD, getElem?_set]
  by_cases same : index = position / width
  · subst same
    have sameBit : decide (position = bit + width * (position / width)) =
        decide (position % width = bit) := by
      rw [decide_eq_decide, eq_add_mul_iff insideWord]
      exact and_iff_right rfl
    rw [if_pos rfl, if_pos insideMap, Option.getD_some, bits _ (Nat.mod_lt _ (by omega)), sameBit]
  · have elsewhere : position ≠ bit + width * index := by
      rw [Ne, eq_add_mul_iff insideWord]
      exact fun both => same both.1.symm
    rw [if_neg same, decide_eq_false elsewhere, unit, getD_eq_getElem?_getD]

/-- Inverting a bit of a word changes one position. -/
theorem has_xor (insideMap : index < words.length) (insideWord : bit < width) :
    has (words.set index (words.getD index 0 ^^^ BitVec.ofNat width 1 <<< bit)) position =
      (has words position ^^ decide (position = bit + width * index)) := by
  refine has_set Bool.xor_false insideMap insideWord ?_
  intro place inside
  rw [BitVec.getLsbD_xor, getLsbD_one_shiftLeft inside]

/-- Setting a bit of a word adds one position. -/
theorem has_or (insideMap : index < words.length) (insideWord : bit < width) :
    has (words.set index (words.getD index 0 ||| BitVec.ofNat width 1 <<< bit)) position =
      (has words position || decide (position = bit + width * index)) := by
  refine has_set Bool.or_false insideMap insideWord ?_
  intro place inside
  rw [BitVec.getLsbD_or, getLsbD_one_shiftLeft inside]

/-- A word masked with one bit is zero when its position is not in the set. -/
theorem and_eq_zero (free : has words position = false) :
    words.getD (position / width) 0 &&& BitVec.ofNat width 1 <<< (position % width) =
      BitVec.ofNat width 0 := by
  apply BitVec.eq_of_getLsbD_eq
  intro place inside
  rw [BitVec.getLsbD_and, getLsbD_one_shiftLeft inside, BitVec.getLsbD_zero]
  by_cases same : place = position % width
  · rw [same]
    exact Bool.and_eq_false_imp.mpr fun isSet => absurd isSet (by rw [← has, free]; decide)
  · rw [decide_eq_false same, Bool.and_false]

/-- The bit that the trailing zeros of a word lead to is inside of it. -/
theorem ctz_lt (nonzero : word ≠ BitVec.ofNat width 0) : word.ctz.toNat < width := by
  have below := BitVec.lt_def.mp (BitVec.ctz_lt_iff_ne_zero.mpr nonzero)
  simpa using below

/-- The lowest set bit of a word is in the set. -/
theorem has_ctz (nonzero : words.getD index 0 ≠ BitVec.ofNat width 0) :
    has words ((words.getD index 0).ctz.toNat + width * index) = true := by
  obtain ⟨sameWord, sameBit⟩ := (eq_add_mul_iff (ctz_lt nonzero)).mp rfl
  rw [has, sameWord, sameBit]
  exact BitVec.getLsbD_true_ctz_of_ne_zero nonzero

theorem has_eq_false_of_word_eq_zero
    (zero : words.getD (position / width) 0 = BitVec.ofNat width 0) :
    has words position = false := by
  rw [has, zero, BitVec.getLsbD_zero]

end DseDriver.Lib.Bitmaps
