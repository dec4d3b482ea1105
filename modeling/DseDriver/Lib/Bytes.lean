import Mathlib.Data.List.Basic
import Mathlib.Tactic.Ring

/-!
# Byte strings, machine words and slices

A machine word is stored as a fixed number of bytes in one of two orders.  This
module states both layouts over natural numbers, so that a width is an argument
and not a family of types, and the two ways a cursor touches a byte string: a
read or an overwrite of a range.  Both accesses are partial, and `none` is the
access that leaves the string.
-/

namespace DseDriver.Lib

open List

/-- The order in which the bytes of a word are stored. -/
inductive ByteOrder where
  | little
  | big
  deriving DecidableEq, Repr

/-- A fact about every byte is checked byte by byte. -/
theorem forall_byte {property : UInt8 → Prop} (each : ∀ n < 256, property (UInt8.ofNat n))
    (byte : UInt8) : property byte := by
  have this := each byte.toNat byte.toNat_lt
  rwa [UInt8.ofNat_toNat] at this

/-- The `width` low bytes of a number, least significant byte first. -/
def littleEndian : Nat → Nat → List UInt8
  | 0, _ => []
  | width + 1, value => UInt8.ofNat value :: littleEndian width (value / 256)

/-- The number whose bytes are given, least significant byte first. -/
def ofLittleEndian : List UInt8 → Nat
  | [] => 0
  | byte :: rest => byte.toNat + 256 * ofLittleEndian rest

@[simp] theorem littleEndian_length (width value : Nat) :
    (littleEndian width value).length = width := by
  induction width generalizing value with
  | zero => rfl
  | succ width ih => simp [littleEndian, ih]

theorem ofLittleEndian_littleEndian (width value : Nat) :
    ofLittleEndian (littleEndian width value) = value % 256 ^ width := by
  induction width generalizing value with
  | zero => simp [littleEndian, ofLittleEndian, Nat.mod_one]
  | succ width ih =>
    have lowByte : (UInt8.ofNat value).toNat = value % 256 := by
      simp [UInt8.toNat_ofNat']
    rw [littleEndian, ofLittleEndian, ih, lowByte, Nat.pow_succ, Nat.mul_comm (256 ^ width),
      Nat.mod_mul]

/-- A wide word is the word of its low bytes followed by the rest. -/
theorem littleEndian_add (low high value : Nat) :
    littleEndian (low + high) value =
      littleEndian low value ++ littleEndian high (value / 256 ^ low) := by
  induction low generalizing value with
  | zero => simp [littleEndian]
  | succ low ih =>
    rw [Nat.add_right_comm, littleEndian, littleEndian, ih, Nat.div_div_eq_div_mul,
      Nat.pow_succ', cons_append]

/-- Only the bytes that are written matter. -/
theorem littleEndian_mod (width value : Nat) :
    littleEndian width (value % 256 ^ width) = littleEndian width value := by
  induction width generalizing value with
  | zero => rfl
  | succ width ih =>
    have lowByte : UInt8.ofNat (value % 256 ^ (width + 1)) = UInt8.ofNat value := by
      apply UInt8.toNat_inj.mp
      simp only [UInt8.toNat_ofNat', Nat.reducePow]
      exact Nat.mod_mod_of_dvd value (Dvd.intro_left (256 ^ width) rfl)
    have upper : value % 256 ^ (width + 1) / 256 = value / 256 % 256 ^ width := by
      rw [Nat.pow_succ', Nat.mod_mul_right_div_self]
    rw [littleEndian, littleEndian, lowByte, upper, ih]

theorem ofLittleEndian_lt (bytes : List UInt8) :
    ofLittleEndian bytes < 256 ^ bytes.length := by
  induction bytes with
  | nil => simp [ofLittleEndian]
  | cons byte rest ih =>
    have byteBound : byte.toNat < 256 := byte.toNat_lt
    simp only [ofLittleEndian, length_cons, Nat.pow_succ]
    omega

/-- The bytes of a number are those it was made of. -/
theorem littleEndian_ofLittleEndian (bytes : List UInt8) :
    littleEndian bytes.length (ofLittleEndian bytes) = bytes := by
  induction bytes with
  | nil => rfl
  | cons byte rest ih =>
    have bound : byte.toNat < 256 := byte.toNat_lt
    have low : UInt8.ofNat (byte.toNat + 256 * ofLittleEndian rest) = byte := by
      apply UInt8.toNat_inj.mp
      rw [UInt8.toNat_ofNat']
      omega
    have high : (byte.toNat + 256 * ofLittleEndian rest) / 256 = ofLittleEndian rest := by omega
    rw [length_cons, littleEndian, ofLittleEndian, low, high, ih]

/-- The bytes of a number, one by one. -/
theorem littleEndian_getElem? {width index : Nat} (value : Nat) (inside : index < width) :
    (littleEndian width value)[index]? = some (UInt8.ofNat (value / 256 ^ index)) := by
  induction width generalizing index value with
  | zero => omega
  | succ width ih =>
    cases index with
    | zero => simp [littleEndian]
    | succ index =>
      rw [littleEndian, getElem?_cons_succ, ih _ (by omega), Nat.div_div_eq_div_mul,
        Nat.pow_succ']

theorem testBit_byte (value index : Nat) {bit : Nat} (inside : bit < 8) :
    (UInt8.ofNat (value / 256 ^ index)).toNat.testBit bit = value.testBit (8 * index + bit) := by
  have power : 256 ^ index = 2 ^ (8 * index) := by rw [Nat.pow_mul]
  rw [UInt8.toNat_ofNat', Nat.testBit_mod_two_pow, power, Nat.testBit_div_two_pow]
  simp [inside, Nat.add_comm]

/-- The bytes of two numbers are in opposite orders if their bits are. -/
theorem littleEndian_eq_reverse {width first second : Nat}
    (mirrored : ∀ index < width, ∀ bit < 8,
      first.testBit (8 * index + bit) = second.testBit (8 * (width - 1 - index) + bit)) :
    littleEndian width first = (littleEndian width second).reverse := by
  apply ext_getElem?
  intro index
  rcases Nat.lt_or_ge index width with inside | outside
  · rw [littleEndian_getElem? first inside, getElem?_reverse (by simpa using inside),
      littleEndian_length, littleEndian_getElem? second (by omega)]
    congr 1
    apply UInt8.toNat_inj.mp
    apply Nat.eq_of_testBit_eq
    intro bit
    rcases Nat.lt_or_ge bit 8 with low | high
    · rw [testBit_byte first index low, testBit_byte second _ low]
      exact mirrored index inside bit low
    · have clear (byte : UInt8) : byte.toNat.testBit bit = false := by
        have small : 2 ^ 8 ≤ 2 ^ bit := Nat.pow_le_pow_right (by decide) high
        exact Nat.testBit_lt_two_pow (Nat.lt_of_lt_of_le byte.toNat_lt small)
      rw [clear, clear]
  · rw [getElem?_eq_none (by simpa using outside),
      getElem?_eq_none (by simpa using outside)]

/-- The bytes of a word in the given order. -/
def toBytes (order : ByteOrder) (width value : Nat) : List UInt8 :=
  match order with
  | .little => littleEndian width value
  | .big => (littleEndian width value).reverse

/-- The word whose bytes are given in the given order. -/
def ofBytes (order : ByteOrder) (bytes : List UInt8) : Nat :=
  match order with
  | .little => ofLittleEndian bytes
  | .big => ofLittleEndian bytes.reverse

@[simp] theorem toBytes_length (order : ByteOrder) (width value : Nat) :
    (toBytes order width value).length = width := by
  cases order <;> simp [toBytes]

theorem ofBytes_toBytes (order : ByteOrder) (width value : Nat) :
    ofBytes order (toBytes order width value) = value % 256 ^ width := by
  cases order <;> simp [ofBytes, toBytes, ofLittleEndian_littleEndian]

theorem toBytes_ofBytes (order : ByteOrder) (bytes : List UInt8) :
    toBytes order bytes.length (ofBytes order bytes) = bytes := by
  cases order with
  | little => exact littleEndian_ofLittleEndian bytes
  | big =>
    have reversed := littleEndian_ofLittleEndian bytes.reverse
    rw [length_reverse] at reversed
    rw [ofBytes, toBytes, reversed, reverse_reverse]

theorem ofBytes_lt (order : ByteOrder) (bytes : List UInt8) :
    ofBytes order bytes < 256 ^ bytes.length := by
  cases order with
  | little => exact ofLittleEndian_lt bytes
  | big => simpa [ofBytes] using ofLittleEndian_lt bytes.reverse

theorem ofLittleEndian_append (low high : List UInt8) :
    ofLittleEndian (low ++ high) =
      ofLittleEndian low + 256 ^ low.length * ofLittleEndian high := by
  induction low with
  | nil => simp [ofLittleEndian]
  | cons byte low ih =>
    rw [cons_append, ofLittleEndian, ih, ofLittleEndian, length_cons]
    ring

theorem ofBytes_big_cons (byte : UInt8) (rest : List UInt8) :
    ofBytes .big (byte :: rest) = byte.toNat * 256 ^ rest.length + ofBytes .big rest := by
  simp only [ofBytes, reverse_cons, ofLittleEndian_append, length_reverse,
    ofLittleEndian]
  ring

/-- The most significant byte comes first. -/
theorem toBytes_big_succ (width value : Nat) :
    toBytes .big (width + 1) value =
      UInt8.ofNat (value / 256 ^ width) :: toBytes .big width value := by
  rw [toBytes, littleEndian_add]
  simp [littleEndian, toBytes]

/-! ## Ranges of a byte string -/

variable {α : Type}

/-- Read `width` elements starting at `pos`. -/
def readAt (values : List α) (pos width : Nat) : Option (List α) :=
  if pos + width ≤ values.length then some ((values.drop pos).take width) else none

/-- Overwrite the elements starting at `pos` by `patch`. -/
def writeAt (values : List α) (pos : Nat) (patch : List α) : Option (List α) :=
  if pos + patch.length ≤ values.length then
    some (values.take pos ++ patch ++ values.drop (pos + patch.length))
  else
    none

theorem readAt_append {before range : List α} (after : List α) {pos width : Nat}
    (start : before.length = pos) (size : range.length = width) :
    readAt (before ++ (range ++ after)) pos width = some range := by
  subst start size
  simp [readAt]

theorem readAt_eq_some {values range : List α} {pos width : Nat}
    (found : readAt values pos width = some range) :
    pos + width ≤ values.length ∧ range.length = width := by
  unfold readAt at found
  split at found
  next inside =>
    cases found
    exact ⟨inside, by simp; omega⟩
  next => cases found

/-- Reading a range splits it off the rest. -/
theorem readAt_eq_some_iff {values range : List α} {pos width : Nat} (nonempty : 0 < width) :
    readAt values pos width = some range ↔
      range.length = width ∧ values.drop pos = range ++ values.drop (pos + width) := by
  constructor
  · intro found
    refine ⟨(readAt_eq_some found).2, ?_⟩
    unfold readAt at found
    split at found
    · cases found
      rw [← drop_drop, take_append_drop]
    · cases found
  · rintro ⟨rfl, split⟩
    have inside : pos + range.length ≤ values.length := by
      have length := congrArg List.length split
      simp only [length_drop, length_append] at length
      omega
    rw [readAt, if_pos inside, split, take_left]

/-- A value of a fixed width is read where its bytes are. -/
theorem map_readAt_eq_some_iff {values : List α} {pos width : Nat} (nonempty : 0 < width)
    {decode : List α → β} {encode : β → List α} {value : β}
    (length_encode : (encode value).length = width) (decode_encode : decode (encode value) = value)
    (encode_decode : ∀ range : List α, range.length = width → encode (decode range) = range) :
    (readAt values pos width).map decode = some value ↔
      values.drop pos = encode value ++ values.drop (pos + width) := by
  rw [Option.map_eq_some_iff]
  constructor
  · rintro ⟨range, read, rfl⟩
    obtain ⟨length, split⟩ := (readAt_eq_some_iff nonempty).mp read
    rw [encode_decode range length]
    exact split
  · intro split
    exact ⟨encode value, (readAt_eq_some_iff nonempty).mpr ⟨length_encode, split⟩, decode_encode⟩


theorem readAt_succ (values : List α) (pos width : Nat) :
    readAt values pos (width + 1) =
      values[pos]?.bind fun first => (readAt values (pos + 1) width).map (first :: ·) := by
  by_cases within : pos < values.length
  · rw [getElem?_eq_getElem within, Option.bind_some, readAt, readAt,
      show pos + (width + 1) = pos + 1 + width by omega, drop_eq_getElem_cons within,
      take_succ_cons]
    split <;> rfl
  · rw [getElem?_eq_none (by omega), Option.bind_none, readAt, if_neg (by omega)]

theorem readAt_eq_none_iff {values : List α} {pos width : Nat} :
    readAt values pos width = none ↔ values.length < pos + width := by
  unfold readAt
  split <;> simp <;> omega

theorem writeAt_append {before range patch : List α} (after : List α) {pos : Nat}
    (start : before.length = pos) (size : patch.length = range.length) :
    writeAt (before ++ (range ++ after)) pos patch = some (before ++ (patch ++ after)) := by
  subst start
  simp [writeAt, size]

/-! ## Filling a range piece by piece -/

/-- Overwrite the elements from `pos` on by the chunks, one after the other. -/
def writeChunks (values : List α) (pos : Nat) : List (List α) → Option (List α × Nat)
  | [] => some (values, pos)
  | chunk :: chunks => do
    let values ← writeAt values pos chunk
    writeChunks values (pos + chunk.length) chunks

theorem writeChunks_append (values : List α) (pos : Nat) (first second : List (List α)) :
    writeChunks values pos (first ++ second) =
      (writeChunks values pos first).bind fun written => writeChunks written.1 written.2 second := by
  induction first generalizing values pos with
  | nil => rfl
  | cons chunk chunks ih =>
    rw [cons_append, writeChunks, writeChunks]
    cases writeAt values pos chunk with
    | none => rfl
    | some written => exact ih written (pos + chunk.length)

/-- Chunks that fill the rest of the string exactly leave nothing of what was there. -/
theorem writeChunks_fill {before old : List α} {chunks : List (List α)} {pos : Nat}
    (start : before.length = pos) (size : chunks.flatten.length = old.length) :
    writeChunks (before ++ old) pos chunks =
      some (before ++ chunks.flatten, pos + chunks.flatten.length) := by
  induction chunks generalizing before old pos with
  | nil =>
    have empty : old = [] := eq_nil_of_length_eq_zero size.symm
    rw [writeChunks, empty]
    rfl
  | cons chunk chunks ih =>
    rw [flatten_cons, length_append] at size
    have split : old = old.take chunk.length ++ old.drop chunk.length :=
      (take_append_drop _ _).symm
    have front : chunk.length = (old.take chunk.length).length := by
      rw [length_take]
      omega
    have back : chunks.flatten.length = (old.drop chunk.length).length := by
      rw [length_drop]
      omega
    have moved : (before ++ chunk).length = pos + chunk.length := by
      rw [length_append, start]
    rw [writeChunks, split, writeAt_append _ start front]
    show writeChunks (before ++ (chunk ++ _)) _ chunks = _
    rw [← append_assoc, ih moved back, flatten_cons, append_assoc,
      length_append, Nat.add_assoc]

end DseDriver.Lib
