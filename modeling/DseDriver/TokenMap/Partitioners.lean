import Mathlib.Data.List.TakeWhile
import Mathlib.Data.Nat.Bitwise
import Mathlib.Tactic.Ring

/-!
# Token arithmetic

How the partitioners of `token_map_impl.cpp` read tokens: a signed 64-bit number, and a 128-bit
number that is kept in two halves and multiplied by ten with carries made by hand.
-/

namespace DseDriver.TokenMap

open List

/-- `isspace` in the C locale. -/
def isSpace (c : UInt8) : Bool :=
  c = 32 ∨ 9 ≤ c ∧ c ≤ 13

def isDigit (c : UInt8) : Bool :=
  48 ≤ c ∧ c ≤ 57

/-- `parse_int64`; signed arithmetic wraps. -/
def parseInt64 (text : List UInt8) : Int64 :=
  match text.dropWhile isSpace with
  | [] => 0
  | c :: rest =>
    let sign : Int64 := if c = 45 then -1 else 1
    let digits := if c = 45 then rest else c :: rest
    sign * (digits.takeWhile isDigit).foldl
      (fun value c => value * 10 + Int64.ofNat (c.toNat - 48)) 0

def Murmur3Partitioner.fromString (text : List UInt8) : Int64 :=
  parseInt64 text

namespace RandomPartitioner

/-- `RandomPartitioner::Token`. -/
structure Token where
  hi : UInt64
  lo : UInt64
  deriving DecidableEq, Repr

/-- `operator<`. -/
def Token.less (token other : Token) : Bool :=
  if token.hi = other.hi then token.lo < other.lo else token.hi < other.hi

/-- `operator==`. -/
def Token.equals (token other : Token) : Bool :=
  token.hi = other.hi && token.lo = other.lo

/-- The body of the loop in `parse_int128`. -/
def addDigit (token : Token) (c : UInt8) : Token :=
  -- value *= 10
  let double := token.lo <<< 1
  let lo := double + (token.lo <<< 3)
  let hi := (token.lo >>> 63) + (token.hi <<< 1) +
    ((token.lo >>> 61) + (token.hi <<< 3) + if lo < double then 1 else 0)
  -- value += c - '0'
  let sum := lo + UInt64.ofNat (c.toNat - 48)
  { hi := hi + if sum < lo then 1 else 0, lo := sum }

/-- `parse_int128`. -/
def fromString (text : List UInt8) : Token :=
  ((text.dropWhile isSpace).takeWhile isDigit).foldl addDigit ⟨0, 0⟩

def abs (token : Token) : Token :=
  if token.hi &&& 0x8000000000000000 ≠ 0 then
    let lo := ~~~token.lo + 1
    { hi := if lo < ~~~token.lo then ~~~token.hi + 1 else ~~~token.hi, lo }
  else
    token

/-! ## Numbers -/

/-- The unsigned number that the halves make up. -/
def Token.value (token : Token) : Nat :=
  2 ^ 64 * token.hi.toNat + token.lo.toNat

/-- The number in two's complement. -/
def Token.signedValue (token : Token) : Int :=
  if token.value < 2 ^ 127 then token.value else token.value - 2 ^ 128

end RandomPartitioner

/-- The number a string of digits stands for. -/
def decimal (digits : List UInt8) : Nat :=
  digits.foldl (fun value c => value * 10 + (c.toNat - 48)) 0

/-- A non-empty string of digits. -/
def IsDecimal (digits : List UInt8) : Prop :=
  digits ≠ [] ∧ ∀ c ∈ digits, isDigit c = true

theorem IsDecimal.stripped {digits : List UInt8} (isDecimal : IsDecimal digits) :
    digits.dropWhile isSpace = digits ∧ digits.takeWhile isDigit = digits := by
  refine ⟨?_, takeWhile_eq_self_iff.mpr isDecimal.2⟩
  cases digits with
  | nil => rfl
  | cons c rest =>
    have digit := isDecimal.2 c mem_cons_self
    refine dropWhile_cons_of_neg ?_
    simp only [isDigit, isSpace, decide_eq_true_eq, UInt8.le_iff_toNat_le, ← UInt8.toNat_inj,
      UInt8.reduceToNat] at digit ⊢
    omega

theorem foldl_int64 (digits : List UInt8) (start : Nat) :
    digits.foldl (fun value c => value * 10 + Int64.ofNat (c.toNat - 48)) (Int64.ofNat start) =
      Int64.ofNat (digits.foldl (fun value c => value * 10 + (c.toNat - 48)) start) := by
  induction digits generalizing start with
  | nil => rfl
  | cons c digits ih =>
    rw [foldl_cons, foldl_cons, ← ih, Int64.ofNat_add, Int64.ofNat_mul]
    rfl

/-- A number with its sign is read as itself. -/
theorem parseInt64_signed (m : Int64) {digits : List UInt8} (isDecimal : IsDecimal digits)
    (same : decimal digits = m.toInt.natAbs) :
    parseInt64 (if m.toInt < 0 then 45 :: digits else digits) = m := by
  have read := foldl_int64 digits 0
  rw [← decimal, same] at read
  have digitsOnly := isDecimal.stripped
  have magnitude : Int64.ofNat m.toInt.natAbs = Int64.ofInt m.toInt.natAbs := rfl
  split
  next negative =>
    have isMinus : (45 :: digits).dropWhile isSpace = 45 :: digits :=
      dropWhile_cons_of_neg (by decide)
    have minus : (m.toInt.natAbs : Int) = -m.toInt := by omega
    rw [parseInt64, isMinus]
    simp only [if_true, digitsOnly.2]
    rw [show (0 : Int64) = Int64.ofNat 0 from rfl, read, magnitude, minus, Int64.ofInt_neg,
      Int64.ofInt_toInt, Int64.neg_mul, Int64.one_mul, Int64.neg_neg]
  next positive =>
    have plus : (m.toInt.natAbs : Int) = m.toInt := by omega
    obtain ⟨c, rest, rfl⟩ := exists_cons_of_ne_nil isDecimal.1
    have noMinus : c ≠ 45 := by
      rintro rfl
      exact absurd (isDecimal.2 45 mem_cons_self) (by decide)
    rw [parseInt64, digitsOnly.1]
    simp only [if_neg noMinus, digitsOnly.2]
    rw [show (0 : Int64) = Int64.ofNat 0 from rfl, read, magnitude, plus, Int64.ofInt_toInt,
      Int64.one_mul]

namespace RandomPartitioner

/-- The carry of a sum, as the code finds it. -/
theorem carry_add (x y : UInt64) :
    2 ^ 64 * (if x + y < x then (1 : UInt64) else 0).toNat + (x + y).toNat =
      x.toNat + y.toNat := by
  have left := x.toNat_lt
  have right := y.toNat_lt
  split <;> simp_all only [UInt64.lt_iff_toNat_lt, UInt64.toNat_add, UInt64.toNat_zero,
    UInt64.toNat_one] <;> omega

/-- A round of the loop, where the carries between the halves are exact. -/
theorem value_addDigit (token : Token) (c : UInt8) :
    (addDigit token c).value = (token.value * 10 + (c.toNat - 48)) % 2 ^ 128 := by
  have small : (UInt64.ofNat (c.toNat - 48)).toNat = c.toNat - 48 := by
    have := c.toNat_lt
    rw [UInt64.toNat_ofNat']
    omega
  have lo := token.lo.toNat_lt
  have double : 2 ^ 64 * (token.lo >>> 63).toNat + (token.lo <<< 1).toNat = 2 * token.lo.toNat := by
    simp only [UInt64.toNat_shiftLeft, UInt64.toNat_shiftRight, Nat.shiftLeft_eq,
      Nat.shiftRight_eq_div_pow, UInt64.reduceToNat, Nat.reduceMod, Nat.reducePow]
    omega
  have eight : 2 ^ 64 * (token.lo >>> 61).toNat + (token.lo <<< 3).toNat = 8 * token.lo.toNat := by
    simp only [UInt64.toNat_shiftLeft, UInt64.toNat_shiftRight, Nat.shiftLeft_eq,
      Nat.shiftRight_eq_div_pow, UInt64.reduceToNat, Nat.reduceMod, Nat.reducePow]
    omega
  have ten := carry_add (token.lo <<< 1) (token.lo <<< 3)
  have sum := carry_add (token.lo <<< 1 + token.lo <<< 3) (UInt64.ofNat (c.toNat - 48))
  have bound := (token.lo <<< 1 + token.lo <<< 3 + UInt64.ofNat (c.toNat - 48)).toNat_lt
  have highTwo : (token.hi <<< 1).toNat = 2 * token.hi.toNat % 2 ^ 64 := by
    rw [UInt64.toNat_shiftLeft, Nat.shiftLeft_eq, Nat.mul_comm]
    rfl
  have highEight : (token.hi <<< 3).toNat = 8 * token.hi.toNat % 2 ^ 64 := by
    rw [UInt64.toNat_shiftLeft, Nat.shiftLeft_eq, Nat.mul_comm]
    rfl
  rw [small] at sum
  simp only [addDigit, Token.value]
  rw [UInt64.toNat_add, UInt64.toNat_add, UInt64.toNat_add, UInt64.toNat_add, UInt64.toNat_add,
    highTwo, highEight]
  omega

theorem value_foldl (digits : List UInt8) (token : Token) :
    (digits.foldl addDigit token).value =
      digits.foldl (fun value c => value * 10 + (c.toNat - 48)) token.value % 2 ^ 128 := by
  have modular (digits : List UInt8) (start : Nat) :
      digits.foldl (fun value c => value * 10 + (c.toNat - 48)) (start % 2 ^ 128) % 2 ^ 128 =
        digits.foldl (fun value c => value * 10 + (c.toNat - 48)) start % 2 ^ 128 := by
    induction digits generalizing start with
    | nil => exact Nat.mod_mod _ _
    | cons c digits ih =>
      rw [foldl_cons, foldl_cons, ← ih (start % 2 ^ 128 * 10 + _),
        ← ih (start * 10 + _)]
      congr 2
      omega
  induction digits generalizing token with
  | nil =>
    have hi := token.hi.toNat_lt
    have lo := token.lo.toNat_lt
    simp only [foldl_nil, Token.value] at *
    omega
  | cons c digits ih =>
    rw [foldl_cons, foldl_cons, ih, value_addDigit, modular]

theorem value_fromString {digits : List UInt8} (isDecimal : IsDecimal digits) :
    (fromString digits).value = decimal digits % 2 ^ 128 := by
  rw [fromString, isDecimal.stripped.1, isDecimal.stripped.2, value_foldl]
  rfl

theorem less_iff (token other : Token) : token.less other = true ↔ token.value < other.value := by
  have lo := token.lo.toNat_lt
  have otherLo := other.lo.toNat_lt
  rw [Token.less, Token.value, Token.value]
  split
  next same =>
    simp only [same, decide_eq_true_eq, UInt64.lt_iff_toNat_lt]
    omega
  next different =>
    rw [← UInt64.toNat_inj] at different
    simp only [decide_eq_true_eq, UInt64.lt_iff_toNat_lt]
    omega

theorem equals_iff (token other : Token) :
    token.equals other = true ↔ token.value = other.value := by
  have lo := token.lo.toNat_lt
  have otherLo := other.lo.toNat_lt
  simp only [Token.equals, Token.value, Bool.and_eq_true, decide_eq_true_eq, ← UInt64.toNat_inj]
  omega

theorem value_abs (token : Token) : ((abs token).value : Int) = |token.signedValue| := by
  have hi := token.hi.toNat_lt
  have lo := token.lo.toNat_lt
  have isNegative : token.hi &&& 0x8000000000000000 ≠ 0 ↔ 2 ^ 63 ≤ token.hi.toNat := by
    have bit : token.hi.toNat &&& 0x8000000000000000 =
        (token.hi.toNat.testBit 63).toNat * 2 ^ 63 := Nat.and_two_pow _ 63
    rw [ne_eq, ← UInt64.toNat_inj, UInt64.toNat_and]
    change ¬ (token.hi.toNat &&& 0x8000000000000000 = 0) ↔ _
    rw [bit, Nat.testBit_eq_decide_div_mod_eq]
    simp only [Nat.mul_eq_zero, Bool.toNat_eq_zero, decide_eq_false_iff_not]
    omega
  have low : (~~~token.lo).toNat = 2 ^ 64 - 1 - token.lo.toNat := UInt64.toNat_not _
  have high : (~~~token.hi).toNat = 2 ^ 64 - 1 - token.hi.toNat := UInt64.toNat_not _
  rw [abs]
  split
  next negative =>
    have large := isNegative.mp negative
    have signed : token.signedValue = token.value - 2 ^ 128 := by
      rw [Token.signedValue, if_neg]
      rw [Token.value]
      omega
    have carried : ~~~token.lo + 1 < ~~~token.lo ↔ token.lo.toNat = 0 := by
      rw [UInt64.lt_iff_toNat_lt, UInt64.toNat_add, low, UInt64.toNat_one]
      omega
    rw [signed, abs_of_nonpos (by rw [Token.value]; omega)]
    simp only [Token.value, UInt64.toNat_add, low, UInt64.toNat_one, carried]
    split <;> simp only [UInt64.toNat_add, high, UInt64.toNat_one] <;> omega
  next positive =>
    have small := not_le.mp (mt isNegative.mpr positive)
    have signed : token.signedValue = token.value := by
      rw [Token.signedValue, if_pos]
      rw [Token.value]
      omega
    rw [signed, abs_of_nonneg (Int.natCast_nonneg _)]

end RandomPartitioner

open RandomPartitioner in
/-- Decimal strings are read as their numbers, in both sizes; tokens compare like their numbers,
and `abs` is the absolute value of a number in two's complement. -/
theorem tokens_are_numbers :
    (∀ digits, IsDecimal digits → decimal digits < 2 ^ 127 →
        (fromString digits).value = decimal digits) ∧
      (∀ token other : Token, (token.less other = true ↔ token.value < other.value) ∧
        (token.equals other = true ↔ token.value = other.value)) ∧
      (∀ (m : Int64) (digits : List UInt8), IsDecimal digits → decimal digits = m.toInt.natAbs →
        Murmur3Partitioner.fromString (if m.toInt < 0 then 45 :: digits else digits) = m) ∧
      ∀ token : Token, ((abs token).value : Int) = |token.signedValue| := by
  refine ⟨?_, fun token other => ⟨less_iff token other, equals_iff token other⟩,
    fun m digits isDecimal same => parseInt64_signed m isDecimal same, value_abs⟩
  intro digits isDecimal small
  rw [value_fromString isDecimal]
  omega

/-- The smallest token of 64 bits. -/
theorem tokens_are_numbers_minimum :
    Murmur3Partitioner.fromString
      [45, 57, 50, 50, 51, 51, 55, 50, 48, 51, 54, 56, 53, 52, 55, 55, 53, 56, 48, 56] =
        Int64.minValue :=
  tokens_are_numbers.2.2.1 Int64.minValue
    [57, 50, 50, 51, 51, 55, 50, 48, 51, 54, 56, 53, 52, 55, 55, 53, 56, 48, 56]
    ⟨by decide, by simp; decide⟩ (by decide)

end DseDriver.TokenMap
