import DseDriver.CassError
import DseDriver.Uuids.CassUuid

/-!
# The text form of a UUID

`cass_uuid_string` writes the canonical form: sixteen bytes in hexadecimal, in groups of
8-4-4-4-12 digits with dashes between them.  `cass_uuid_from_string_n` scans sixteen bytes
and skips a dash before any of them; it neither asks where the dashes are nor whether the
text ends after the last byte.
-/

namespace DseDriver.Uuids

open Lib List Option

/-- The character that separates groups. -/
def dash : UInt8 := 0x2D

/-- `half_byte_to_hex`. -/
def halfByteToHex (halfByte : UInt8) : UInt8 :=
  if halfByte < 10 then 0x30 + halfByte else 0x61 + (halfByte - 10)

/-- `hex_to_half_byte`, which has -1 for other characters. -/
def hexToHalfByte (char : UInt8) : Option UInt8 :=
  if 0x30 ≤ char ∧ char ≤ 0x39 then some (char - 0x30)
  else if 0x41 ≤ char ∧ char ≤ 0x46 then some (char - 0x41 + 10)
  else if 0x61 ≤ char ∧ char ≤ 0x66 then some (char - 0x61 + 10)
  else none

/-- The two digits of a byte. -/
def hexDigits (byte : UInt8) : List UInt8 :=
  [halfByteToHex ((byte >>> 4) &&& 0x0F), halfByteToHex (byte &&& 0x0F)]

/-- The loop of `cass_uuid_string` over the bytes from index `i` on. -/
def stringFrom : Nat → List UInt8 → List UInt8
  | _, [] => []
  | i, byte :: bytes =>
    (if i = 4 ∨ i = 6 ∨ i = 8 ∨ i = 10 then [dash] else []) ++
      (hexDigits byte ++ stringFrom (i + 1) bytes)

/-- `cass_uuid_string`, with the terminating zero. -/
def cassUuidString (uuid : CassUuid) : List UInt8 :=
  stringFrom 0 (encodeUuid uuid) ++ [0]

/-- Skip a dash at the cursor. -/
def skipDash : List UInt8 → List UInt8
  | [] => []
  | char :: rest => if char = dash then rest else char :: rest

/-- The loop of `cass_uuid_from_string_n` for the given number of bytes, over the text that
is left. -/
def scanBytes : Nat → List UInt8 → Option (List UInt8)
  | 0, _ => some []
  | count + 1, text =>
    match skipDash text with
    | p0 :: p1 :: rest => do
      let high ← hexToHalfByte p0
      let low ← hexToHalfByte p1
      let bytes ← scanBytes count rest
      return ((high <<< 4) + low) :: bytes
    | _ => none

/-- `cass_uuid_from_string_n` of a text. -/
def cassUuidFromStringN (str : List UInt8) : Except CassError CassUuid :=
  if str.length ≠ 36 then
    .error .libBadParams
  else
    match scanBytes 16 str with
    | none => .error .libBadParams
    | some buf => .ok (decodeUuid buf)

/-- `cass_uuid_from_string` of a text that is ended by a zero. -/
def cassUuidFromString (str : List UInt8) : Except CassError CassUuid :=
  cassUuidFromStringN (str.takeWhile (· ≠ 0))

/-! ## Forms of texts -/

/-- A hexadecimal digit, in either case. -/
def IsHexDigit (char : UInt8) : Prop :=
  (hexToHalfByte char).isSome

/-- A group of hexadecimal digits. -/
structure IsGroup (digits : Nat) (text : List UInt8) : Prop where
  length : text.length = digits
  hex : ∀ char ∈ text, IsHexDigit char

/-- The 8-4-4-4-12 form with dashes between the groups. -/
def Canonical (text : List UInt8) : Prop :=
  ∃ timeLow timeMid timeHigh clock node,
    IsGroup 8 timeLow ∧ IsGroup 4 timeMid ∧ IsGroup 4 timeHigh ∧ IsGroup 4 clock ∧
      IsGroup 12 node ∧
      text = timeLow ++ dash :: (timeMid ++ dash :: (timeHigh ++ dash :: (clock ++ dash :: node)))

/-- Pairs of hexadecimal digits with or without a dash before each, and anything behind. -/
inductive StartsWithBytes : Nat → List UInt8 → Prop where
  | rest (text : List UInt8) : StartsWithBytes 0 text
  | byte {count : Nat} {high low : UInt8} {text : List UInt8} (isHigh : IsHexDigit high)
      (isLow : IsHexDigit low) (later : StartsWithBytes count text) :
      StartsWithBytes (count + 1) (high :: low :: text)
  | dashed {count : Nat} {high low : UInt8} {text : List UInt8} (isHigh : IsHexDigit high)
      (isLow : IsHexDigit low) (later : StartsWithBytes count text) :
      StartsWithBytes (count + 1) (dash :: high :: low :: text)

/-- A character in lower case. -/
def lower (char : UInt8) : UInt8 :=
  if 0x41 ≤ char ∧ char ≤ 0x5A then char + 0x20 else char

/-! ## Digits -/

/-- The value of a digit has that digit, in lower case. -/
theorem halfByteToHex_hexToHalfByte (char : UInt8) :
    ∀ halfByte ∈ hexToHalfByte char, halfByte < 16 ∧ halfByteToHex halfByte = lower char := by
  have each : ∀ char, (hexToHalfByte char).all (fun halfByte =>
      halfByte < 16 ∧ halfByteToHex halfByte = lower char) = true := by
    apply forall_byte
    decide +kernel
  intro halfByte found
  have facts := each char
  rw [mem_def.mp found] at facts
  simpa using facts

/-- The digits of a byte have values that make up the byte. -/
theorem hexToHalfByte_hexDigits (byte : UInt8) :
    ∃ high low, hexToHalfByte (halfByteToHex ((byte >>> 4) &&& 0x0F)) = some high ∧
      hexToHalfByte (halfByteToHex (byte &&& 0x0F)) = some low ∧ (high <<< 4) + low = byte := by
  refine ⟨(byte >>> 4) &&& 0x0F, byte &&& 0x0F, ?_⟩
  revert byte
  apply forall_byte
  decide +kernel

/-- A byte made of two half bytes has their digits. -/
theorem hexDigits_of_halves {high low : UInt8} (highSmall : high < 16) (lowSmall : low < 16) :
    hexDigits ((high <<< 4) + low) = [halfByteToHex high, halfByteToHex low] := by
  have each : ∀ m < 16, ∀ n < 16,
      hexDigits ((UInt8.ofNat m <<< 4) + UInt8.ofNat n) =
        [halfByteToHex (UInt8.ofNat m), halfByteToHex (UInt8.ofNat n)] := by decide +kernel
  have this := each high.toNat highSmall low.toNat lowSmall
  rwa [UInt8.ofNat_toNat, UInt8.ofNat_toNat] at this

theorem not_isHexDigit_dash : ¬ IsHexDigit dash := by
  unfold IsHexDigit
  decide

theorem IsHexDigit.ne_dash {char : UInt8} (hex : IsHexDigit char) : char ≠ dash :=
  fun equal => not_isHexDigit_dash (equal ▸ hex)

/-! ## Scanning -/

theorem skipDash_dash (text : List UInt8) : skipDash (dash :: text) = text := by
  simp [skipDash]

theorem skipDash_hex {char : UInt8} (hex : IsHexDigit char) (text : List UInt8) :
    skipDash (char :: text) = char :: text := by
  simp [skipDash, hex.ne_dash]

/-- Two digits are scanned as a byte. -/
theorem scanBytes_digits {high low : UInt8} {text rest : List UInt8} {highHalf lowHalf : UInt8}
    (count : Nat) (skipped : skipDash text = high :: low :: rest)
    (isHigh : hexToHalfByte high = some highHalf) (isLow : hexToHalfByte low = some lowHalf) :
    scanBytes (count + 1) text =
      (scanBytes count rest).map (((highHalf <<< 4) + lowHalf) :: ·) := by
  rw [scanBytes, skipped]
  simp only [isHigh, isLow]
  cases scanBytes count rest <;> rfl

/-- The texts that are scanned. -/
theorem scanBytes_isSome_iff (count : Nat) (text : List UInt8) :
    (scanBytes count text).isSome ↔ StartsWithBytes count text := by
  constructor
  · intro scanned
    fun_induction scanBytes count text with
    | case1 text => exact .rest text
    | case2 count text high low rest skipped ih =>
      cases isHigh : hexToHalfByte high with
      | none => simp [isHigh] at scanned
      | some highHalf =>
        cases isLow : hexToHalfByte low with
        | none => simp [isHigh, isLow] at scanned
        | some lowHalf =>
          have hexHigh : IsHexDigit high := by simp [IsHexDigit, isHigh]
          have hexLow : IsHexDigit low := by simp [IsHexDigit, isLow]
          have later : StartsWithBytes count rest := by
            apply ih
            cases found : scanBytes count rest with
            | none => simp [isHigh, isLow, found] at scanned
            | some bytes => rfl
          match text, skipped with
          | char :: text, skipped =>
            rw [skipDash] at skipped
            split at skipped
            · next isDash =>
                rw [isDash, skipped]
                exact .dashed hexHigh hexLow later
            · rw [skipped]
              exact .byte hexHigh hexLow later
    | case3 count text short => exact absurd scanned (by simp)
  · intro starts
    induction starts with
    | rest text => rfl
    | byte isHigh isLow _ ih =>
      rw [scanBytes_digits _ (skipDash_hex isHigh _) (some_get isHigh).symm
        (some_get isLow).symm, isSome_map]
      exact ih
    | dashed isHigh isLow _ ih =>
      rw [scanBytes_digits _ (skipDash_dash _) (some_get isHigh).symm
        (some_get isLow).symm, isSome_map]
      exact ih

/-- The result is accepted exactly if the sixteen bytes are scanned. -/
theorem cassUuidFromStringN_isOk_iff (str : List UInt8) :
    (∃ uuid, cassUuidFromStringN str = .ok uuid) ↔
      str.length = 36 ∧ StartsWithBytes 16 str := by
  rw [cassUuidFromStringN, ← scanBytes_isSome_iff]
  split
  · next other =>
      constructor
      · rintro ⟨uuid, accepted⟩
        exact nomatch accepted
      · rintro ⟨same, -⟩
        exact absurd same other
  · next same =>
      cases scanBytes 16 str with
      | none => simp
      | some buf => simpa using same

/-! ## The canonical form -/

/-- The dash before a digit is skipped. -/
theorem scanBytes_dash {char : UInt8} (hex : IsHexDigit char) (count : Nat) (rest : List UInt8) :
    scanBytes (count + 1) (dash :: char :: rest) = scanBytes (count + 1) (char :: rest) := by
  rw [scanBytes, scanBytes, skipDash_dash, skipDash_hex hex]

/-- A group of digits is scanned as bytes that have these digits. -/
theorem IsGroup.scanned {count : Nat} {text : List UInt8} (group : IsGroup (2 * count) text) :
    ∃ bytes : List UInt8, bytes.length = count ∧ bytes.flatMap hexDigits = text.map lower ∧
      ∀ later rest, scanBytes (count + later) (text ++ rest) =
        (scanBytes later rest).map (bytes ++ ·) := by
  induction count generalizing text with
  | zero =>
    have empty : text = [] := eq_nil_of_length_eq_zero group.length
    subst empty
    exact ⟨[], rfl, rfl, fun later rest => by simp⟩
  | succ count ih =>
    match text, group with
    | high :: low :: text, group =>
      have isHigh : IsHexDigit high := group.hex high (by simp)
      have isLow : IsHexDigit low := group.hex low (by simp)
      have shorter : IsGroup (2 * count) text :=
        { length := by
            have length := group.length
            simp only [length_cons] at length
            omega
          hex := fun char member => group.hex char (by simp [member]) }
      obtain ⟨bytes, length, digits, scanned⟩ := ih shorter
      obtain ⟨highHalf, highValue⟩ := isSome_iff_exists.mp isHigh
      obtain ⟨lowHalf, lowValue⟩ := isSome_iff_exists.mp isLow
      obtain ⟨highSmall, highDigit⟩ := halfByteToHex_hexToHalfByte high highHalf highValue
      obtain ⟨lowSmall, lowDigit⟩ := halfByteToHex_hexToHalfByte low lowHalf lowValue
      refine ⟨((highHalf <<< 4) + lowHalf) :: bytes, by rw [length_cons, length], ?_, ?_⟩
      · rw [flatMap_cons, hexDigits_of_halves highSmall lowSmall, highDigit, lowDigit,
          digits]
        rfl
      · intro later rest
        have skipped : skipDash (high :: low :: (text ++ rest)) = high :: low :: (text ++ rest) :=
          skipDash_hex isHigh _
        rw [Nat.add_right_comm, cons_append, cons_append,
          scanBytes_digits _ skipped highValue lowValue, scanned, Option.map_map]
        rfl
    | [_], group => exact absurd group.length (by simp only [length_singleton]; omega)
    | [], group => exact absurd group.length (by simp only [length_nil]; omega)

/-- The dash before a group is skipped. -/
theorem IsGroup.scan_dash {count : Nat} {text : List UInt8} (group : IsGroup (2 * (count + 1)) text)
    (later : Nat) (rest : List UInt8) :
    scanBytes (count + 1 + later) (dash :: (text ++ rest)) =
      scanBytes (count + 1 + later) (text ++ rest) := by
  match text, group with
  | char :: text, group =>
    rw [Nat.add_right_comm, cons_append]
    exact scanBytes_dash (group.hex char mem_cons_self) _ _
  | [], group => exact absurd group.length (by simp only [length_nil]; omega)

theorem stringFrom_append (i : Nat) (first second : List UInt8) :
    stringFrom i (first ++ second) = stringFrom i first ++ stringFrom (i + first.length) second := by
  induction first generalizing i with
  | nil => rfl
  | cons byte first ih =>
    rw [cons_append, stringFrom, stringFrom, ih, length_cons, Nat.add_right_comm,
      Nat.add_assoc i]
    simp

/-- Where no group starts, only digits are written. -/
theorem stringFrom_plain {i : Nat} {bytes : List UInt8}
    (inside : ∀ j, i ≤ j → j < i + bytes.length → ¬ (j = 4 ∨ j = 6 ∨ j = 8 ∨ j = 10)) :
    stringFrom i bytes = bytes.flatMap hexDigits := by
  induction bytes generalizing i with
  | nil => rfl
  | cons byte bytes ih =>
    simp only [length_cons] at inside
    rw [stringFrom, if_neg (inside i (by omega) (by omega)), nil_append, flatMap_cons, ih]
    intro j after before
    exact inside j (by omega) (by omega)

/-- A dash and then only digits are written for a group. -/
theorem stringFrom_group {i : Nat} {bytes : List UInt8} (nonempty : 0 < bytes.length)
    (first : i = 4 ∨ i = 6 ∨ i = 8 ∨ i = 10)
    (inside : ∀ j, i < j → j < i + bytes.length → ¬ (j = 4 ∨ j = 6 ∨ j = 8 ∨ j = 10)) :
    stringFrom i bytes = dash :: bytes.flatMap hexDigits := by
  cases bytes with
  | nil => exact absurd nonempty (by simp)
  | cons byte bytes =>
    simp only [length_cons] at inside
    rw [stringFrom, if_pos first, flatMap_cons, stringFrom_plain]
    · rfl
    · intro j after before
      exact inside j (by omega) (by omega)

/-- A text in canonical form is scanned as the bytes that are written as this text. -/
theorem Canonical.scanned {text : List UInt8} (canonical : Canonical text) :
    text.length = 36 ∧ ∃ bytes, bytes.length = 16 ∧ scanBytes 16 text = some bytes ∧
      stringFrom 0 bytes = text.map lower := by
  obtain ⟨timeLow, timeMid, timeHigh, clock, node, isLow, isMid, isHigh, isClock, isNode, rfl⟩ :=
    canonical
  have isLow : IsGroup (2 * 4) timeLow := isLow
  have isMid : IsGroup (2 * (1 + 1)) timeMid := isMid
  have isHigh : IsGroup (2 * (1 + 1)) timeHigh := isHigh
  have isClock : IsGroup (2 * (1 + 1)) clock := isClock
  have isNode : IsGroup (2 * (5 + 1)) node := isNode
  obtain ⟨bytes1, length1, digits1, scanned1⟩ := isLow.scanned
  obtain ⟨bytes2, length2, digits2, scanned2⟩ := isMid.scanned
  obtain ⟨bytes3, length3, digits3, scanned3⟩ := isHigh.scanned
  obtain ⟨bytes4, length4, digits4, scanned4⟩ := isClock.scanned
  obtain ⟨bytes5, length5, digits5, scanned5⟩ := isNode.scanned
  constructor
  · simp [isLow.length, isMid.length, isHigh.length, isClock.length, isNode.length]
  refine ⟨bytes1 ++ (bytes2 ++ (bytes3 ++ (bytes4 ++ bytes5))), ?_, ?_, ?_⟩
  · simp [length1, length2, length3, length4, length5]
  · have scan5 : scanBytes 6 (dash :: node) = some bytes5 := by
      have dashed := isNode.scan_dash 0 []
      have plain := scanned5 0 []
      rw [append_nil] at dashed plain
      rw [dashed, plain]
      simp [scanBytes]
    rw [scanned1 12, isMid.scan_dash 10, scanned2 10, isHigh.scan_dash 8, scanned3 8,
      isClock.scan_dash 6, scanned4 6, scan5]
    rfl
  · rw [stringFrom_append, stringFrom_append, stringFrom_append, stringFrom_append, length1, length2,
      length3, length4, stringFrom_plain (by omega), stringFrom_group, stringFrom_group,
      stringFrom_group, stringFrom_group, digits1, digits2, digits3, digits4, digits5]
    · have dashLower : lower dash = dash := by decide
      simp [dashLower]
    all_goals omega

/-- What is written is scanned again. -/
theorem scanBytes_stringFrom (i : Nat) (bytes : List UInt8) :
    scanBytes bytes.length (stringFrom i bytes) = some bytes := by
  induction bytes generalizing i with
  | nil => rfl
  | cons byte bytes ih =>
    obtain ⟨high, low, isHigh, isLow, made⟩ := hexToHalfByte_hexDigits byte
    have hexHigh : IsHexDigit (halfByteToHex ((byte >>> 4) &&& 0x0F)) := by
      simp [IsHexDigit, isHigh]
    have skipped : skipDash (stringFrom i (byte :: bytes)) =
        halfByteToHex ((byte >>> 4) &&& 0x0F) :: halfByteToHex (byte &&& 0x0F) ::
          stringFrom (i + 1) bytes := by
      rw [stringFrom]
      split
      · exact skipDash_dash _
      · exact skipDash_hex hexHigh _
    rw [length_cons, scanBytes_digits _ skipped isHigh isLow, made, ih]
    rfl

/-- No zero is written before the end. -/
theorem stringFrom_ne_zero (i : Nat) (bytes : List UInt8) : ∀ char ∈ stringFrom i bytes, char ≠ 0 := by
  have digits : ∀ byte : UInt8, 0 ∉ hexDigits byte := by
    apply forall_byte
    decide +kernel
  induction bytes generalizing i with
  | nil => simp [stringFrom]
  | cons byte bytes ih =>
    intro char member
    rw [stringFrom, mem_append, mem_append] at member
    rcases member with separator | digit | later
    · have isDash : char = dash := by
        split at separator <;> simp at separator
        exact separator
      rw [isDash]
      decide
    · exact fun zero => digits byte (zero ▸ digit)
    · exact ih (i + 1) char later

/-- The length of a text depends on the number of its bytes only. -/
theorem stringFrom_length (i : Nat) (bytes : List UInt8) :
    (stringFrom i bytes).length = (stringFrom i (List.replicate bytes.length 0)).length := by
  induction bytes generalizing i with
  | nil => rfl
  | cons byte bytes ih =>
    rw [length_cons, replicate_succ, stringFrom, stringFrom, length_append,
      length_append, length_append, length_append, ih]
    rfl

/-! ## The bytes of a UUID -/

theorem encodeUuid_length (uuid : CassUuid) : (encodeUuid uuid).length = 16 := by
  simp [encodeUuid, timeOrder]

theorem decodeUuid_encodeUuid (uuid : CassUuid) : decodeUuid (encodeUuid uuid) = uuid := by
  have time : timeOrder.map (fun i => (encodeUuid uuid).getD i 0) =
      littleEndian 8 uuid.timeAndVersion.toNat := rfl
  have others : ((encodeUuid uuid).drop 8).reverse = littleEndian 8 uuid.clockSeqAndNode.toNat := rfl
  have small : ∀ word : UInt64, word.toNat % 256 ^ 8 = word.toNat :=
    fun word => Nat.mod_eq_of_lt word.toNat_lt
  rw [decodeUuid, time, others, ofLittleEndian_littleEndian, ofLittleEndian_littleEndian, small,
    small, UInt64.ofNat_toNat, UInt64.ofNat_toNat]

theorem encodeUuid_decodeUuid {bytes : List UInt8} (length : bytes.length = 16) :
    encodeUuid (decodeUuid bytes) = bytes := by
  match bytes, length with
  | [b0, b1, b2, b3, b4, b5, b6, b7, b8, b9, b10, b11, b12, b13, b14, b15], _ =>
    have word : ∀ part : List UInt8, part.length = 8 →
        littleEndian 8 (UInt64.ofNat (ofLittleEndian part)).toNat = part := by
      intro part eight
      have small := ofLittleEndian_lt part
      rw [eight] at small
      have kept := littleEndian_ofLittleEndian part
      rw [UInt64.toNat_ofNat_of_lt' small]
      rwa [eight] at kept
    rw [encodeUuid, decodeUuid, word _ rfl, word _ rfl]
    rfl

/-! ## Acceptance -/

/-- A text in canonical form is parsed as the UUID that is written as this text. -/
theorem Canonical.parsed {str : List UInt8} (canonical : Canonical str) :
    ∃ uuid, cassUuidFromStringN str = .ok uuid ∧ cassUuidString uuid = str.map lower ++ [0] := by
  obtain ⟨length, bytes, sixteen, scanned, written⟩ := canonical.scanned
  refine ⟨decodeUuid bytes, ?_, ?_⟩
  · rw [cassUuidFromStringN, if_neg (not_not.mpr length), scanned]
  · rw [cassUuidString, encodeUuid_decodeUuid sixteen, written]

/-- What is written for a UUID is parsed as this UUID. -/
theorem cassUuidFromString_string (uuid : CassUuid) :
    cassUuidFromString (cassUuidString uuid) = .ok uuid := by
  have text : (cassUuidString uuid).takeWhile (· ≠ 0) = stringFrom 0 (encodeUuid uuid) := by
    rw [cassUuidString, takeWhile_append_of_pos]
    · simp
    · intro char member
      simpa using stringFrom_ne_zero _ _ char member
  have length : (stringFrom 0 (encodeUuid uuid)).length = 36 := by
    rw [stringFrom_length, encodeUuid_length]
    rfl
  have scanned := scanBytes_stringFrom 0 (encodeUuid uuid)
  rw [encodeUuid_length] at scanned
  rw [cassUuidFromString, text, cassUuidFromStringN, if_neg (not_not.mpr length), scanned]
  exact congrArg Except.ok (decodeUuid_encodeUuid uuid)

/-- The parser accepts exactly the canonical texts, and its results are written as these texts
in lower case, exactly if the text is not another one that starts with sixteen pairs of digits.
What is written is always parsed again. -/
theorem fromString_canonical_iff (str : List UInt8) (original : CassUuid) :
    ((((∃ uuid, cassUuidFromStringN str = .ok uuid) ↔ Canonical str) ∧
          ∀ uuid, cassUuidFromStringN str = .ok uuid →
            cassUuidString uuid = str.map lower ++ [0]) ↔
        (str.length = 36 → StartsWithBytes 16 str → Canonical str)) ∧
      cassUuidFromString (cassUuidString original) = .ok original := by
  constructor
  · rw [cassUuidFromStringN_isOk_iff]
    constructor
    · rintro ⟨accepted, -⟩ length starts
      exact accepted.mp ⟨length, starts⟩
    · intro onlyCanonical
      have accepted : str.length = 36 ∧ StartsWithBytes 16 str ↔ Canonical str := by
        constructor
        · exact fun ⟨length, starts⟩ => onlyCanonical length starts
        · intro canonical
          obtain ⟨uuid, parsed, -⟩ := canonical.parsed
          exact (cassUuidFromStringN_isOk_iff str).mp ⟨uuid, parsed⟩
      refine ⟨accepted, ?_⟩
      intro uuid parsed
      have canonical := accepted.mp ((cassUuidFromStringN_isOk_iff str).mp ⟨uuid, parsed⟩)
      obtain ⟨uuid', parsed', written⟩ := canonical.parsed
      rw [parsed] at parsed'
      cases parsed'
      exact written
  · exact cassUuidFromString_string original

/-- Thirty-two digits and four characters behind them are accepted. -/
theorem fromString_trailing_accepted :
    cassUuidFromStringN (List.replicate 32 0x30 ++ List.replicate 4 0x7A) = .ok ⟨0, 0⟩ ∧
      ¬ Canonical (List.replicate 32 0x30 ++ List.replicate 4 0x7A) := by
  refine ⟨by decide +kernel, ?_⟩
  rintro ⟨timeLow, timeMid, timeHigh, clock, node, isLow, -, -, -, -, equal⟩
  have ninth := congrArg (fun text : List UInt8 => text[8]?) equal
  rw [getElem?_append_right isLow.length.le, isLow.length, Nat.sub_self,
    getElem?_cons_zero] at ninth
  exact absurd ninth (by decide)

end DseDriver.Uuids
