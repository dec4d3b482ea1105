import DseDriver.Lib.Runs
import DseDriver.Response.Message

/-!
# Hostile frames

What `ResponseMessage::decode` does with bytes that need not be a response.  The body length of a
header is a signed number that is not checked: as long as it is not negative, each call takes a
part of its input and the body stays within its buffer.
-/

namespace DseDriver.Response

open Lib Cql List

variable {decodeResponse : ResponseDecoder}

/-! ## The life of a message -/

/-- `sizeof(RefBuffer)`, which is a reference count. -/
def sizeofRefBuffer : Nat := 4

/-- The bytes behind `data()` of `RefBuffer::create(size)`.  The size of the block wraps, and a
block of more than half of the address space is not allocated. -/
def refBufferCapacity (size : Nat) : Nat :=
  let block := (sizeofRefBuffer + size) % 2 ^ 64
  if block < 2 ^ 63 then block - sizeofRefBuffer else 0

namespace ResponseMessage

/-- The bytes allocated for the body. -/
def allocated (message : ResponseMessage) : Nat :=
  if message.isHeaderReceived then refBufferCapacity (sizeOfInt32 message.length) else 0

/-- The body length of the header that a call completes, if its opcode is one of a response. -/
def announcedLength (message : ResponseMessage) (input : List UInt8) : Option Int32 :=
  let message := { message with received := message.received + input.length }.learnVersion input
  if message.isHeaderReceived ∨ message.received < message.headerSize then
    none
  else
    let needed := input.length - (message.received - message.headerSize)
    match readHeader message.version (message.headerBuffer ++ input.take needed) with
    | some (_, _, opcode, length) => if allocateBody opcode then some length else none
    | none => none

end ResponseMessage

/-- A message with the size and the result of each call of `decode` so far, where it has one.
`consume` makes no more calls after a result that is not positive, or once the body is ready. -/
structure Life where
  message : ResponseMessage
  calls : List (Nat × Option Int)
  isOver : Bool
  deriving DecidableEq, Repr

/-- An input of a call.  `consume` makes no call without input. -/
abbrev Chunk := { input : List UInt8 // input ≠ [] }

namespace Life

/-- Before the first call. -/
def new : Life := { message := .new, calls := [], isOver := false }

/-- The next call. -/
def step (decodeResponse : ResponseDecoder) (life : Life) (chunk : Chunk) : Life :=
  if life.isOver then
    life
  else
    match life.message.decode decodeResponse chunk.val with
    | none => { life with calls := life.calls ++ [(chunk.val.length, none)], isOver := true }
    | some (consumed, message) =>
      { message
        calls := life.calls ++ [(chunk.val.length, some consumed)]
        isOver := consumed ≤ 0 || message.isBodyReady }

/-- Every call has failed or has taken a part of its input, and the body fits into its buffer. -/
structure Contained (life : Life) : Prop where
  calls : ∀ call ∈ life.calls,
    ∃ consumed ∈ call.2, consumed = -1 ∨ 1 ≤ consumed ∧ consumed ≤ call.1
  copied : life.message.body.length ≤ life.message.allocated

/-- The call does not complete a header with a negative length. -/
def AnnouncesNonneg (life : Life) (chunk : Chunk) : Prop :=
  life.isOver ∨ ∀ length, life.message.announcedLength chunk.val = some length → 0 ≤ length

end Life

/-! ## Parts of a call -/

namespace ResponseMessage

theorem exists_ofNat_of_nonneg {length : Int32} (nonneg : 0 ≤ length) :
    ∃ size < 2 ^ 31, length = Int32.ofNat size := by
  have bounds := length.toInt_lt
  have nonneg' : 0 ≤ length.toInt := Int32.le_iff_toInt_le.mp nonneg
  refine ⟨length.toInt.toNat, by omega, Int32.toInt_inj.mp ?_⟩
  rw [Int32.toInt_ofNat_of_lt (by omega)]
  omega

theorem refBufferCapacity_of_lt {size : Nat} (small : size < 2 ^ 31) :
    refBufferCapacity size = size := by
  unfold refBufferCapacity sizeofRefBuffer
  dsimp only
  rw [if_pos (by omega)]
  omega

/-- A message whose header is complete, inside or at the end of its body. -/
structure InBody (message : ResponseMessage) (size : Nat) : Prop where
  header : message.isHeaderReceived = true
  headerSize : message.headerSize ≤ 9
  length : message.length = Int32.ofNat size
  small : size < 2 ^ 31
  body : message.body.length ≤ size

variable {message : ResponseMessage}

theorem InBody.allocated {size : Nat} (inBody : message.InBody size) :
    message.allocated = size := by
  rw [ResponseMessage.allocated, if_pos inBody.header, inBody.length,
    sizeOfInt32_ofNat inBody.small, refBufferCapacity_of_lt inBody.small]

/-- A message that waits for more bytes: the bytes that were received are those in its buffers. -/
inductive Waiting (message : ResponseMessage) : Prop where
  | header (unread : message.isHeaderReceived = false) (empty : message.body = [])
      (notReady : message.isBodyReady = false)
      (buffered : message.headerBuffer.length = message.received)
      (first : message.version = 0 → message.received < 8)
      (later : message.version ≠ 0 → message.headerSize = headerSizeOf message.version ∧
        message.received < message.headerSize)
  | body (size : Nat) (inBody : message.InBody size)
      (notReady : message.isBodyReady = false)
      (buffered : message.headerSize + message.body.length = message.received)
      (unfinished : message.body.length < size)

/-- A call has a result, and what it leaves behind. -/
inductive Sound (input : List UInt8) : Option (Int × ResponseMessage) → Prop where
  | intro {consumed : Int} {after : ResponseMessage}
      (result : consumed = -1 ∨ 1 ≤ consumed ∧ consumed ≤ input.length)
      (copied : after.body.length ≤ after.allocated)
      (waiting : 0 < consumed → after.isBodyReady = false → after.Waiting) :
      Sound input (some (consumed, after))

/-- The body is copied up to its length, and at least one byte is taken. -/
theorem sound_receiveBody {size inputPos : Nat} {input : List UInt8}
    (inBody : message.InBody size) (notReady : message.isBodyReady = false)
    (position : inputPos ≤ input.length)
    (buffered : message.headerSize + message.body.length + (input.length - inputPos) =
      message.received)
    (progress : 0 < inputPos ∨ message.body.length < size) (nonempty : input ≠ []) :
    Sound input (message.receiveBody decodeResponse input inputPos) := by
  have small := inBody.small
  have headerSize := inBody.headerSize
  have within := inBody.body
  have positive := length_pos_iff.mpr nonempty
  have frameSize : (message.headerSize + sizeOfInt32 message.length) % 2 ^ 64 =
      message.headerSize + size := by
    rw [inBody.length, sizeOfInt32_ofNat small]
    omega
  unfold receiveBody
  dsimp only
  rw [frameSize]
  split
  next finished =>
    have needed : ((((input.length - inputPos : Nat) : Int) -
        ((message.received - (message.headerSize + size) : Nat) : Int)) % 2 ^ 64).toNat =
          size - message.body.length := by
      omega
    rw [needed, if_neg (by omega)]
    have copied : (message.body ++
        (input.drop inputPos).take (size - message.body.length)).length = size := by
      rw [length_append, length_take, length_drop]
      omega
    generalize message.body ++ (input.drop inputPos).take (size - message.body.length) = body
      at copied
    have filled : ({ message with body } : ResponseMessage).InBody size :=
      ⟨inBody.header, headerSize, inBody.length, small, copied.le⟩
    have fits : body.length ≤ ({ message with body } : ResponseMessage).allocated := by
      rw [filled.allocated, copied]
    split
    · exact ⟨.inl rfl, fits, fun taken => by cases taken⟩
    · exact ⟨.inl rfl, fits, fun taken => by cases taken⟩
    · exact ⟨.inr (by omega), fits, fun _ ready => by cases ready⟩
  next unfinished =>
    have copied : (message.body ++ input.drop inputPos).length < size := by
      rw [length_append, length_drop]
      omega
    have waiting : ({ message with body := message.body ++ input.drop inputPos } :
        ResponseMessage).InBody size :=
      ⟨inBody.header, headerSize, inBody.length, small, copied.le⟩
    refine ⟨.inr ⟨by omega, le_refl _⟩, ?_, fun _ _ => .body size waiting notReady ?_ copied⟩
    · rw [waiting.allocated]
      exact copied.le
    · dsimp only
      rw [length_append, length_drop]
      omega

/-- The version and the size of the header, once there is a byte. -/
theorem Waiting.learnVersion (unread : message.isHeaderReceived = false)
    (waiting : message.Waiting) (total : Nat) (input : List UInt8) :
    ∃ version, ({ message with received := total } : ResponseMessage).learnVersion input =
        { message with received := total, version, headerSize := headerSizeOf version } ∧
      message.received < headerSizeOf version := by
  have eight (version : UInt8) : 8 ≤ headerSizeOf version := by
    unfold headerSizeOf
    split <;> decide
  cases waiting with
  | body size inBody => rw [inBody.header] at unread; cases unread
  | header _ _ _ buffered first later =>
    unfold ResponseMessage.learnVersion
    by_cases unknown : message.version = 0
    · rw [if_pos unknown]
      exact ⟨_, rfl, Nat.lt_of_lt_of_le (first unknown) (eight _)⟩
    · obtain ⟨size, short⟩ := later unknown
      rw [if_neg unknown]
      refine ⟨message.version, ?_, size ▸ short⟩
      rw [← size]

/-- A call that starts in the header. -/
theorem sound_receiveHeader {version : UInt8} {input : List UInt8}
    (unread : message.isHeaderReceived = false) (empty : message.body = [])
    (notReady : message.isBodyReady = false) (short : message.received < headerSizeOf version)
    (buffered : message.headerBuffer.length = message.received) (nonempty : input ≠ [])
    (nonneg : ∀ flags stream opcode length,
      headerSizeOf version ≤ message.received + input.length →
      readHeader version (message.headerBuffer ++
          input.take (input.length - (message.received + input.length - headerSizeOf version))) =
        some (flags, stream, opcode, length) → allocateBody opcode = true → 0 ≤ length) :
    Sound input (({ message with
      received := message.received + input.length
      version
      headerSize := headerSizeOf version } : ResponseMessage).receiveHeader decodeResponse
        input) := by
  have positive := length_pos_iff.mpr nonempty
  have nine : headerSizeOf version ≤ 9 := by
    unfold headerSizeOf
    split <;> decide
  have eight : 8 ≤ headerSizeOf version := by
    unfold headerSizeOf
    split <;> decide
  unfold receiveHeader
  dsimp only
  split
  next complete =>
    split
    next => exact ⟨.inl rfl, by simp [empty], fun taken => by cases taken⟩
    next flags stream opcode length read =>
      split
      next known =>
        obtain ⟨size, small, isSize⟩ :=
          exists_ofNat_of_nonneg (nonneg flags stream opcode length complete read known)
        refine sound_receiveBody ⟨rfl, nine, isSize, small, ?_⟩ notReady ?_ ?_ (.inl ?_) nonempty
        · rw [empty]
          exact Nat.zero_le size
        · omega
        · rw [empty, length_nil]
          dsimp only
          omega
        · omega
      next => exact ⟨.inl rfl, by simp [empty], fun taken => by cases taken⟩
  next incomplete =>
    refine ⟨.inr ⟨by omega, le_refl _⟩, by simp [empty], fun _ _ => ?_⟩
    have missing : message.received + input.length < headerSizeOf version :=
      Nat.not_le.mp incomplete
    refine .header unread empty notReady ?_ (fun unknown => ?_) fun _ => ⟨rfl, missing⟩
    · rw [length_append, buffered]
    · have isZero : version = 0 := unknown
      rw [isZero] at missing
      exact missing

/-- Every call on a message that waits for bytes, unless it reads a negative length. -/
theorem Waiting.sound_decode (waiting : message.Waiting) {input : List UInt8}
    (nonempty : input ≠ [])
    (nonneg : ∀ length, message.announcedLength input = some length → 0 ≤ length) :
    Sound input (message.decode decodeResponse input) := by
  have positive := length_pos_iff.mpr nonempty
  have learned := fun unread => waiting.learnVersion unread (message.received + input.length) input
  unfold decode
  dsimp only
  cases waiting with
  | header unread empty notReady buffered first later =>
    obtain ⟨version, learns, short⟩ := learned unread
    have anyByte : ¬ (message.version = 0 ∧ message.received + input.length < 1) := by
      omega
    rw [if_neg (ne_true_of_eq_false unread), if_neg anyByte, learns]
    refine sound_receiveHeader unread empty notReady short buffered nonempty ?_
    intro flags stream opcode length complete read known
    refine nonneg length ?_
    unfold announcedLength
    dsimp only
    rw [learns]
    dsimp only
    rw [if_neg (by simp [unread, complete]), read]
    exact if_pos known
  | body size inBody notReady buffered unfinished =>
    rw [if_pos inBody.header]
    have counted : ({ message with received := message.received + input.length } :
        ResponseMessage).InBody size :=
      ⟨inBody.header, inBody.headerSize, inBody.length, inBody.small, inBody.body⟩
    refine sound_receiveBody counted notReady (Nat.zero_le _) ?_ (.inr unfinished) nonempty
    rw [Nat.sub_zero]
    dsimp only
    omega

end ResponseMessage

/-! ## Whole lives -/

namespace Life

/-- The life so far is contained, and the message of one that goes on waits for bytes. -/
structure Safe (life : Life) : Prop where
  contained : life.Contained
  waiting : life.isOver = false → life.message.Waiting

theorem safe_new : Safe .new where
  contained := ⟨fun call member => absurd member not_mem_nil, Nat.zero_le _⟩
  waiting _ := .header rfl rfl rfl rfl (fun _ => by decide) fun known => absurd rfl known

theorem Safe.step {life : Life} (safe : life.Safe) {chunk : Chunk}
    (announces : life.AnnouncesNonneg chunk) : (life.step decodeResponse chunk).Safe := by
  unfold Life.step
  split
  next => exact safe
  next going =>
    have notOver := Bool.eq_false_of_not_eq_true going
    have sound : ResponseMessage.Sound chunk.val
        (life.message.decode decodeResponse chunk.val) :=
      (safe.waiting notOver).sound_decode chunk.property (announces.resolve_left going)
    generalize life.message.decode decodeResponse chunk.val = outcome at sound
    obtain ⟨result, copied, waiting⟩ := sound
    refine ⟨⟨fun call member => ?_, copied⟩, fun goesOn => ?_⟩
    · rcases mem_append.mp member with older | newest
      · exact safe.contained.calls call older
      · rw [mem_singleton.mp newest]
        exact ⟨_, rfl, result⟩
    · obtain ⟨taken, notReady⟩ := Bool.or_eq_false_iff.mp goesOn
      exact waiting (Int.not_le.mp (of_decide_eq_false taken)) notReady

/-- As long as no call reads a negative length, hostile input is contained. -/
theorem contained_of_nonneg (decodeResponse : ResponseDecoder) (chunks : List Chunk)
    (within : Throughout (step decodeResponse) AnnouncesNonneg .new chunks) :
    Contained (chunks.foldl (step decodeResponse) .new) :=
  (@Throughout.invariant _ _ (step decodeResponse) AnnouncesNonneg Safe
    (fun _ _ safe announces => safe.step announces) _ _ safe_new within).contained

/-- A response with a body of three bytes, in two chunks, and a byte behind it. -/
theorem contained_of_nonneg_ready :
    Contained (([⟨[0x84, 0, 0, 1], by decide⟩, ⟨[2, 0, 0, 0, 3, 7, 8, 9, 0], by decide⟩] :
      List Chunk).foldl (step fun _ _ => true) .new) := by
  refine contained_of_nonneg _ _ ⟨.inr ?_, .inr ?_, trivial⟩
  · intro length announced
    cases announced
  · intro length announced
    cases announced
    decide

/-- A header with the length -1, of which the last byte comes alone: the second call copies more
than there is. -/
theorem negativeLength_not_contained :
    (([⟨[0x84, 0, 0, 1, 2, 0xFF, 0xFF, 0xFF], by decide⟩, ⟨[0xFF], by decide⟩] :
        List Chunk).foldl (step fun _ _ => true) .new).calls = [(8, some 8), (1, none)] ∧
      ¬ Contained (([⟨[0x84, 0, 0, 1, 2, 0xFF, 0xFF, 0xFF], by decide⟩, ⟨[0xFF], by decide⟩] :
        List Chunk).foldl (step fun _ _ => true) .new) := by
  have calls : (([⟨[0x84, 0, 0, 1, 2, 0xFF, 0xFF, 0xFF], by decide⟩, ⟨[0xFF], by decide⟩] :
      List Chunk).foldl (step fun _ _ => true) .new).calls = [(8, some 8), (1, none)] := by
    decide +kernel
  refine ⟨calls, fun contained => ?_⟩
  obtain ⟨consumed, isNone, -⟩ := contained.calls (1, none) (by rw [calls]; simp)
  cases isNone

end Life

end DseDriver.Response
