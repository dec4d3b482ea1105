import DseDriver.Response.Message

/-!
# Response framing

However the bytes of a sequence of response frames are cut into chunks, `Connection::consume`
completes these frames, in their order.  The message that is being received is a function of
the number of bytes of its frame that have arrived, so a chunk that ends inside a frame leaves
no trace of where the chunks before it ended.
-/

namespace DseDriver.Response

open Lib Cql List

variable {decodeResponse : ResponseDecoder} {closes : CompleteResponse → Bool}

/-! ## Frames -/

/-- A well-formed response frame.  The version byte carries the direction in its highest bit,
and the first two versions have streams of a single byte. -/
structure Frame (decodeResponse : ResponseDecoder) where
  version : UInt8
  flags : UInt8
  stream : Int16
  opcode : UInt8
  body : List UInt8
  versioned : version &&& 0x7F ≠ 0
  narrow : version &&& 0x7F < 3 → stream.toInt8.toInt16 = stream
  known : ResponseMessage.allocateBody opcode
  sized : body.length < 2 ^ 31
  decodable : decodeBody decodeResponse (version &&& 0x7F) flags opcode body = .ready

namespace Frame

variable (frame : Frame decodeResponse)

/-- The version without the direction. -/
def protocolVersion : UInt8 := frame.version &&& 0x7F

def streamBytes : List UInt8 :=
  if frame.protocolVersion ≥ 3 then encodeInt16 frame.stream else encodeInt8 frame.stream.toInt8

def header : List UInt8 :=
  encodeByte frame.version ++ (encodeByte frame.flags ++ (frame.streamBytes ++
    (encodeByte frame.opcode ++ encodeInt32 (Int32.ofNat frame.body.length))))

def encode : List UInt8 := frame.header ++ frame.body

def complete : CompleteResponse where
  version := frame.protocolVersion
  flags := frame.flags
  stream := frame.stream
  opcode := frame.opcode
  body := frame.body

theorem header_length : frame.header.length = headerSizeOf frame.protocolVersion := by
  unfold header streamBytes headerSizeOf
  split <;> simp

theorem encode_length :
    frame.encode.length = headerSizeOf frame.protocolVersion + frame.body.length := by
  rw [encode, length_append, header_length]

theorem headerSize_pos : 0 < headerSizeOf frame.protocolVersion := by
  unfold headerSizeOf
  split <;> decide

theorem encode_length_pos : 0 < frame.encode.length := by
  rw [encode_length]
  exact Nat.add_pos_left frame.headerSize_pos _

theorem encode_headD (rest : List UInt8) : (frame.encode ++ rest).headD 0 = frame.version := by
  simp [encode, header, encodeByte, encodeWord, toBytes, littleEndian]

theorem readHeader_header :
    readHeader frame.protocolVersion frame.header =
      some (frame.flags, frame.stream, frame.opcode, Int32.ofNat frame.body.length) := by
  have flags : decodeByte frame.header 1 = some (frame.flags, 2) :=
    decodeByte_append _ frame.flags (encodeByte_length frame.version)
  have length (before : List UInt8) :
      decodeInt32 (before ++ encodeInt32 (Int32.ofNat frame.body.length)) before.length =
        some (Int32.ofNat frame.body.length, before.length + 4) := by
    have appended := decodeInt32_append [] (Int32.ofNat frame.body.length) (rfl : before.length = _)
    rwa [append_nil] at appended
  rw [readHeader, flags]
  by_cases wide : frame.protocolVersion ≥ 3
  · have stream : decodeInt16 frame.header 2 = some (frame.stream, 4) := by
      rw [header, streamBytes, if_pos wide, ← append_assoc]
      exact decodeInt16_append _ frame.stream rfl
    have opcode : decodeByte frame.header 4 = some (frame.opcode, 5) := by
      rw [header, streamBytes, if_pos wide, ← append_assoc, ← append_assoc]
      exact decodeByte_append _ frame.opcode rfl
    have last : decodeInt32 frame.header 5 = some (Int32.ofNat frame.body.length, 9) := by
      rw [header, streamBytes, if_pos wide, ← append_assoc, ← append_assoc,
        ← append_assoc]
      exact length _
    simp [wide, stream, opcode, last]
  · have stream : decodeInt8 frame.header 2 = some (frame.stream.toInt8, 3) := by
      rw [header, streamBytes, if_neg wide, ← append_assoc]
      exact decodeInt8_append _ frame.stream.toInt8 rfl
    have opcode : decodeByte frame.header 3 = some (frame.opcode, 4) := by
      rw [header, streamBytes, if_neg wide, ← append_assoc, ← append_assoc]
      exact decodeByte_append _ frame.opcode rfl
    have last : decodeInt32 frame.header 4 = some (Int32.ofNat frame.body.length, 8) := by
      rw [header, streamBytes, if_neg wide, ← append_assoc, ← append_assoc,
        ← append_assoc]
      exact length _
    have narrow := frame.narrow (UInt8.not_le.mp wide)
    simp [wide, stream, opcode, last, narrow]

/-- The message while the header arrives. -/
def inHeader (count : Nat) (headerBuffer : List UInt8) : ResponseMessage :=
  { ResponseMessage.new with
    version := frame.protocolVersion
    headerSize := headerSizeOf frame.protocolVersion
    received := count
    headerBuffer }

/-- The message while the body arrives. -/
def inBody (count : Nat) (body : List UInt8) : ResponseMessage where
  version := frame.protocolVersion
  flags := frame.flags
  stream := frame.stream
  opcode := frame.opcode
  length := Int32.ofNat frame.body.length
  received := count
  headerSize := headerSizeOf frame.protocolVersion
  isHeaderReceived := true
  headerBuffer := frame.header
  isBodyReady := false
  isBodyError := false
  body

/-- The message once the given number of bytes of the frame has arrived. -/
def received (count : Nat) : ResponseMessage :=
  if count = 0 then
    .new
  else if count < headerSizeOf frame.protocolVersion then
    frame.inHeader count (frame.encode.take count)
  else
    frame.inBody count (frame.body.take (count - headerSizeOf frame.protocolVersion))

variable {count : Nat}

theorem encode_drop (behind : headerSizeOf frame.protocolVersion ≤ count) :
    frame.encode.drop count = frame.body.drop (count - headerSizeOf frame.protocolVersion) := by
  rw [encode, drop_append, frame.header_length,
    drop_eq_nil_of_le (by rw [frame.header_length]; exact behind), nil_append]

/-! ## One call of the decoder -/

theorem frameSize_eq : (headerSizeOf frame.protocolVersion +
    sizeOfInt32 (Int32.ofNat frame.body.length)) % 2 ^ 64 = frame.encode.length := by
  have sized := frame.sized
  have header : headerSizeOf frame.protocolVersion ≤ 9 := by
    unfold headerSizeOf
    split <;> decide
  rw [sizeOfInt32_ofNat sized, encode_length]
  omega

/-- A call that ends inside the body copies all of its input. -/
theorem receiveBody_waits {count inputPos : Nat} {body input : List UInt8}
    (short : count < frame.encode.length) :
    (frame.inBody count body).receiveBody decodeResponse input inputPos =
      some ((input.length : Int), frame.inBody count (body ++ input.drop inputPos)) := by
  have unfinished : ¬ count ≥ (headerSizeOf frame.protocolVersion +
      sizeOfInt32 (Int32.ofNat frame.body.length)) % 2 ^ 64 := by
    rw [frameSize_eq]
    omega
  rw [ResponseMessage.receiveBody]
  exact if_neg unfinished

/-- A call that reaches the end of the body takes no more of its input. -/
theorem receiveBody_completes {inputPos : Nat} {body part rest input : List UInt8}
    (split : body ++ part = frame.body) (later : input.drop inputPos = part ++ rest) :
    (frame.inBody (frame.encode.length + rest.length) body).receiveBody decodeResponse input
        inputPos =
      some (((inputPos + part.length : Nat) : Int),
        { frame.inBody (frame.encode.length + rest.length) frame.body with isBodyReady := true }) := by
  have finished : frame.encode.length + rest.length ≥ (headerSizeOf frame.protocolVersion +
      sizeOfInt32 (Int32.ofNat frame.body.length)) % 2 ^ 64 := by
    rw [frameSize_eq]
    omega
  have remaining : input.length - inputPos = part.length + rest.length := by
    rw [← length_drop, later, length_append]
  have needed : ((((input.length - inputPos : Nat) : Int) - ((frame.encode.length + rest.length -
      (headerSizeOf frame.protocolVersion +
        sizeOfInt32 (Int32.ofNat frame.body.length)) % 2 ^ 64 : Nat) : Int)) % 2 ^ 64).toNat =
      part.length := by
    have sized := frame.sized
    rw [← split, length_append] at sized
    rw [frameSize_eq, remaining]
    omega
  have copied : body ++ (input.drop inputPos).take part.length = frame.body := by
    rw [later, take_left, split]
  rw [ResponseMessage.receiveBody]
  simp only [inBody, if_pos finished, needed, copied]
  rw [if_neg (by omega), show frame.protocolVersion = frame.version &&& 0x7F from rfl,
    frame.decodable]

/-- The version is known from the first byte on. -/
theorem learnVersion_received (inside : count < headerSizeOf frame.protocolVersion) (total : Nat)
    {input : List UInt8} (first : count = 0 → input.headD 0 = frame.version) :
    ({ frame.received count with received := total } : ResponseMessage).learnVersion input =
      frame.inHeader total (frame.encode.take count) := by
  by_cases start : count = 0
  · subst start
    rw [received, if_pos rfl, ResponseMessage.learnVersion]
    simp only [ResponseMessage.new, first rfl, if_true]
    rfl
  · rw [received, if_neg start, if_pos inside, ResponseMessage.learnVersion]
    exact if_neg frame.versioned

theorem received_received (count : Nat) : (frame.received count).received = count := by
  rw [received]
  split
  next start => exact start.symm
  next => split <;> rfl

/-- The bytes of a header that is complete. -/
theorem take_append_take_eq_header (inside : count < headerSizeOf frame.protocolVersion)
    {input later rest : List UInt8}
    (enough : ¬ count + input.length < headerSizeOf frame.protocolVersion)
    (follows : frame.encode.drop count ++ rest = input ++ later) :
    frame.encode.take count ++ input.take (headerSizeOf frame.protocolVersion - count) =
      frame.header := by
  have size := frame.encode_length
  have ofInput : (input ++ later).take (headerSizeOf frame.protocolVersion - count) =
      input.take (headerSizeOf frame.protocolVersion - count) :=
    take_append_of_le_length (by omega)
  have ofFrame : (frame.encode.drop count ++ rest).take (headerSizeOf frame.protocolVersion - count) =
      (frame.encode.drop count).take (headerSizeOf frame.protocolVersion - count) :=
    take_append_of_le_length (by rw [length_drop]; omega)
  rw [← ofInput, ← follows, ofFrame, ← take_add, Nat.add_sub_cancel' inside.le, encode,
    ← frame.header_length, take_left]

variable {input later : List UInt8}

/-- What comes before the body takes the bytes that are missing of the header. -/
theorem receiveHeader_inHeader (inside : count < headerSizeOf frame.protocolVersion)
    (rest : List UInt8) (follows : frame.encode.drop count ++ rest = input ++ later) :
    (frame.inHeader (count + input.length) (frame.encode.take count)).receiveHeader
        decodeResponse input =
      if count + input.length < headerSizeOf frame.protocolVersion then
        some ((input.length : Int),
          frame.inHeader (count + input.length) (frame.encode.take count ++ input))
      else
        (frame.inBody (count + input.length) []).receiveBody decodeResponse input
          (headerSizeOf frame.protocolVersion - count) := by
  rw [ResponseMessage.receiveHeader]
  by_cases short : count + input.length < headerSizeOf frame.protocolVersion
  · rw [if_pos short]
    exact if_neg (Nat.not_le.mpr short)
  · have needed : input.length - (count + input.length - headerSizeOf frame.protocolVersion) =
        headerSizeOf frame.protocolVersion - count := by
      omega
    have enough : count + input.length ≥ headerSizeOf frame.protocolVersion := Nat.not_lt.mp short
    rw [if_neg short]
    simp only [inHeader, if_pos enough, needed, frame.take_append_take_eq_header inside short follows,
      readHeader_header, frame.known, if_true]
    rfl

/-- A call that starts inside the header. -/
theorem decode_inHeader (inside : count < headerSizeOf frame.protocolVersion)
    (nonempty : input ≠ []) (rest : List UInt8)
    (follows : frame.encode.drop count ++ rest = input ++ later) :
    (frame.received count).decode decodeResponse input =
      (frame.inHeader (count + input.length) (frame.encode.take count)).receiveHeader
        decodeResponse input := by
  have positive : 0 < input.length := length_pos_iff.mpr nonempty
  have unread : (frame.received count).isHeaderReceived = false := by
    rw [received]
    split
    · rfl
    · rfl
  have first : count = 0 → input.headD 0 = frame.version := by
    rintro rfl
    obtain ⟨byte, input, rfl⟩ := exists_cons_of_ne_nil nonempty
    have head := frame.encode_headD rest
    rw [drop_zero] at follows
    rwa [follows] at head
  have anyByte : ¬ ((frame.received count).version = 0 ∧
      (frame.received count).received + input.length < 1) := by
    omega
  have started : (frame.received count).decode decodeResponse input =
      (({ frame.received count with received := (frame.received count).received + input.length } :
        ResponseMessage).learnVersion input).receiveHeader decodeResponse input := by
    rw [ResponseMessage.decode]
    exact (if_neg (ne_true_of_eq_false unread)).trans (if_neg anyByte)
  rw [started, frame.learnVersion_received inside _ first, received_received]

/-- A call that starts inside the body. -/
theorem decode_inBody (inside : ¬ count < headerSizeOf frame.protocolVersion) (input : List UInt8) :
    (frame.received count).decode decodeResponse input =
      (frame.inBody (count + input.length)
        (frame.body.take (count - headerSizeOf frame.protocolVersion))).receiveBody
          decodeResponse input 0 := by
  have positive := frame.headerSize_pos
  have message : frame.received count = frame.inBody count
      (frame.body.take (count - headerSizeOf frame.protocolVersion)) := by
    rw [received, if_neg (by omega), if_neg inside]
  rw [message]
  rfl

/-- A call that ends inside the frame takes all of its input. -/
theorem decode_waits (nonempty : input ≠ []) (unfinished : later ≠ [])
    (follows : frame.encode.drop count = input ++ later) :
    (frame.received count).decode decodeResponse input =
      some ((input.length : Int), frame.received (count + input.length)) := by
  have size := frame.encode_length
  have positive : 0 < input.length := length_pos_iff.mpr nonempty
  have short : count + input.length < frame.encode.length := by
    have lengths := congrArg List.length follows
    have := length_pos_iff.mpr unfinished
    rw [length_drop, length_append] at lengths
    omega
  have arrived : frame.encode.take count ++ input = frame.encode.take (count + input.length) := by
    rw [take_add, follows, take_left]
  by_cases inside : count < headerSizeOf frame.protocolVersion
  · have padded : frame.encode.drop count ++ [] = input ++ later := by
      rw [append_nil, follows]
    rw [frame.decode_inHeader inside nonempty [] padded,
      frame.receiveHeader_inHeader inside [] padded]
    split
    next header => rw [arrived, received, if_neg (by omega), if_pos header]
    next header =>
      have behind : frame.body = input.drop (headerSizeOf frame.protocolVersion - count) ++ later := by
        have dropped := congrArg (List.drop (headerSizeOf frame.protocolVersion - count)) follows
        rwa [drop_drop, Nat.add_sub_cancel' inside.le, encode_drop _ le_rfl, Nat.sub_self,
          drop_zero, drop_append_of_le_length (by omega)] at dropped
      have bytes : frame.body.take (count + input.length - headerSizeOf frame.protocolVersion) =
          input.drop (headerSizeOf frame.protocolVersion - count) := by
        rw [behind]
        apply take_left'
        rw [length_drop]
        omega
      rw [frame.receiveBody_waits short, nil_append, received, if_neg (by omega),
        if_neg header, bytes]
  · have behind := Nat.not_lt.mp inside
    have bytes : frame.body.take (count + input.length - headerSizeOf frame.protocolVersion) =
        frame.body.take (count - headerSizeOf frame.protocolVersion) ++ input := by
      rw [frame.encode_drop behind] at follows
      rw [Nat.sub_add_comm behind, take_add, follows, take_left]
    rw [frame.decode_inBody inside, frame.receiveBody_waits short, received, if_neg (by omega),
      if_neg (by omega), drop_zero, bytes]

/-- A call that reaches the end of the frame takes its last byte and leaves the rest. -/
theorem decode_completes (inside : count < frame.encode.length) (rest : List UInt8) :
    (frame.received count).decode decodeResponse (frame.encode.drop count ++ rest) =
      some (((frame.encode.length - count : Nat) : Int),
        { frame.inBody (frame.encode.length + rest.length) frame.body with isBodyReady := true }) := by
  have size := frame.encode_length
  have total : count + (frame.encode.drop count ++ rest).length =
      frame.encode.length + rest.length := by
    rw [length_append, length_drop]
    omega
  by_cases header : count < headerSizeOf frame.protocolVersion
  · have nonempty : frame.encode.drop count ++ rest ≠ [] := by
      apply append_ne_nil_of_left_ne_nil
      exact ne_nil_of_length_pos (by rw [length_drop]; omega)
    have padded : frame.encode.drop count ++ rest = frame.encode.drop count ++ rest ++ [] :=
      (append_nil _).symm
    have behind : (frame.encode.drop count ++ rest).drop
        (headerSizeOf frame.protocolVersion - count) = frame.body ++ rest := by
      rw [drop_append_of_le_length (by rw [length_drop]; omega), drop_drop,
        Nat.add_sub_cancel' header.le, encode_drop _ le_rfl, Nat.sub_self, drop_zero]
    rw [frame.decode_inHeader header nonempty rest padded,
      frame.receiveHeader_inHeader header rest padded, total, if_neg (by omega),
      frame.receiveBody_completes (nil_append _) behind]
    congr 3
    omega
  · have later : (frame.encode.drop count ++ rest).drop 0 =
        frame.body.drop (count - headerSizeOf frame.protocolVersion) ++ rest := by
      rw [drop_zero, frame.encode_drop (Nat.not_lt.mp header)]
    rw [frame.decode_inBody header, total,
      frame.receiveBody_completes (take_append_drop _ _) later]
    congr 3
    rw [length_drop]
    omega

end Frame

/-! ## Chunks -/

theorem consume_nil (connection : Connection) :
    connection.consume decodeResponse closes [] = connection := by
  rw [Connection.consume, if_pos (.inl rfl)]

section

variable (frame : Frame decodeResponse) {count : Nat} (completed : List CompleteResponse)

/-- The connection inside a frame, with the responses it has completed before. -/
def inFrame (count : Nat) : Connection where
  response := frame.received count
  completed
  isClosing := false

/-- A chunk that ends inside a frame. -/
theorem consume_waits {input later : List UInt8} (unfinished : later ≠ [])
    (follows : frame.encode.drop count = input ++ later) :
    (inFrame frame completed count).consume decodeResponse closes input =
      inFrame frame completed (count + input.length) := by
  by_cases empty : input = []
  · rw [empty, consume_nil]
    rfl
  · have running : ¬ (input = [] ∨ (inFrame frame completed count).isClosing = true) := by
      rintro (isEmpty | closing)
      · exact empty isEmpty
      · cases closing
    have taken : ¬ (input.length : Int) ≤ 0 := by
      have positive := length_pos_iff.mpr empty
      omega
    have notReady : (frame.received (count + input.length)).isBodyReady = false := by
      rw [Frame.received]
      split
      · rfl
      · split <;> rfl
    rw [Connection.consume, if_neg running, inFrame, frame.decode_waits empty unfinished follows]
    dsimp only
    rw [if_neg taken, if_neg (ne_true_of_eq_false notReady), Int.toNat_natCast, drop_length,
      consume_nil]
    rfl

/-- A chunk that goes past the end of a frame. -/
theorem consume_completes (within : count < frame.encode.length)
    (stays : closes frame.complete = false) (rest : List UInt8) :
    (inFrame frame completed count).consume decodeResponse closes
        (frame.encode.drop count ++ rest) =
      Connection.consume decodeResponse closes
        { response := .new, completed := completed ++ [frame.complete], isClosing := false }
        rest := by
  have running : ¬ (frame.encode.drop count ++ rest = [] ∨
      (inFrame frame completed count).isClosing = true) := by
    rintro (isEmpty | closing)
    · have none := congrArg List.length (append_eq_nil_iff.mp isEmpty).1
      rw [length_drop, length_nil] at none
      omega
    · cases closing
  have taken : ¬ ((frame.encode.length - count : Nat) : Int) ≤ 0 := by
    omega
  have after : (frame.encode.drop count ++ rest).drop (frame.encode.length - count) = rest := by
    rw [← length_drop, drop_left]
  rw [Connection.consume, if_neg running, inFrame, frame.decode_completes within]
  dsimp only
  rw [if_neg taken, if_pos rfl, Int.toNat_natCast, after]
  exact if_neg (ne_true_of_eq_false stays)

end

/-- The bytes the connection still expects of the frames, and the state it is in. -/
inductive Awaiting (frames : List (Frame decodeResponse)) : Connection → List UInt8 → Prop where
  | finished : Awaiting frames
      { response := .new, completed := frames.map Frame.complete, isClosing := false } []
  | inside (before : List (Frame decodeResponse)) (frame : Frame decodeResponse)
      (after : List (Frame decodeResponse)) (split : frames = before ++ frame :: after)
      (count : Nat) (within : count < frame.encode.length) :
      Awaiting frames (inFrame frame (before.map Frame.complete) count)
        (frame.encode.drop count ++ after.flatMap Frame.encode)

namespace Awaiting

variable {frames : List (Frame decodeResponse)}

/-- Between two frames the next one has just begun. -/
theorem between (before after : List (Frame decodeResponse)) (split : frames = before ++ after) :
    Awaiting frames
      { response := .new, completed := before.map Frame.complete, isClosing := false }
      (after.flatMap Frame.encode) := by
  cases after with
  | nil =>
    rw [append_nil] at split
    rw [split]
    exact finished
  | cons frame after => exact inside before frame after split 0 frame.encode_length_pos

/-- A chunk that ends inside the frame it starts in. -/
theorem consume_short {before : List (Frame decodeResponse)} {frame : Frame decodeResponse}
    {after : List (Frame decodeResponse)} (split : frames = before ++ frame :: after)
    {count : Nat} {chunk later : List UInt8} (unfinished : later ≠ [])
    (follows : frame.encode.drop count = chunk ++ later) :
    Awaiting frames
      ((inFrame frame (before.map Frame.complete) count).consume decodeResponse closes chunk)
      (later ++ after.flatMap Frame.encode) := by
  have left : frame.encode.drop (count + chunk.length) = later := by
    rw [← drop_drop, follows, drop_left]
  have within : count + chunk.length < frame.encode.length := by
    rw [← left] at unfinished
    exact Nat.not_le.mp fun past => unfinished (drop_eq_nil_of_le past)
  rw [consume_waits frame _ unfinished follows, ← left]
  exact inside before frame after split _ within

/-- A chunk of the expected bytes that starts inside a frame leaves the rest of them. -/
theorem consume_inFrame (stays : ∀ frame ∈ frames, closes frame.complete = false)
    {before : List (Frame decodeResponse)} {frame : Frame decodeResponse}
    {after : List (Frame decodeResponse)} (split : frames = before ++ frame :: after)
    {count : Nat} (within : count < frame.encode.length) {chunk rest : List UInt8}
    (bytes : frame.encode.drop count ++ after.flatMap Frame.encode = chunk ++ rest) :
    Awaiting frames
      ((inFrame frame (before.map Frame.complete) count).consume decodeResponse closes chunk)
      rest := by
  -- Each frame the chunk contains to its end hands the rest of the chunk to the next one.
  induction after generalizing before frame count chunk with
  | nil =>
    rw [flatMap_nil, append_nil] at bytes
    by_cases unfinished : rest = []
    · rw [unfinished, append_nil] at bytes
      rw [unfinished, ← bytes, ← append_nil (frame.encode.drop count),
        consume_completes frame _ within (stays frame (by simp [split])), consume_nil,
        ← map_singleton, ← map_append]
      exact between (before ++ [frame]) [] (by rw [append_nil, split])
    · rw [← append_nil rest]
      exact consume_short split unfinished bytes
  | cons next after ih =>
    have passes (chunk' : List UInt8) (contains : chunk = frame.encode.drop count ++ chunk')
        (follows : next.encode ++ after.flatMap Frame.encode = chunk' ++ rest) :
        Awaiting frames ((inFrame frame (before.map Frame.complete) count).consume
          decodeResponse closes chunk) rest := by
      rw [contains, consume_completes frame _ within (stays frame (by simp [split])),
        ← map_singleton, ← map_append]
      exact ih (by rw [split]; simp) next.encode_length_pos follows
    rw [flatMap_cons] at bytes
    rcases append_eq_append_iff.mp bytes with ⟨chunk', contains, follows⟩ |
      ⟨later, follows, left⟩
    · exact passes chunk' contains follows
    · by_cases unfinished : later = []
      · subst unfinished
        exact passes [] (by rw [follows, append_nil, append_nil]) left.symm
      · rw [left]
        exact consume_short split unfinished follows

/-- A chunk of the expected bytes leaves the rest of them. -/
theorem consume (stays : ∀ frame ∈ frames, closes frame.complete = false)
    {connection : Connection} {chunk rest : List UInt8}
    (awaiting : Awaiting frames connection (chunk ++ rest)) :
    Awaiting frames (connection.consume decodeResponse closes chunk) rest := by
  generalize bytes : chunk ++ rest = expected at awaiting
  cases awaiting with
  | finished =>
    obtain ⟨rfl, rfl⟩ := append_eq_nil_iff.mp bytes
    rw [consume_nil]
    exact finished
  | inside before frame after split count within =>
    exact consume_inFrame stays split within bytes.symm

theorem completed_eq {connection : Connection} (awaiting : Awaiting frames connection []) :
    connection.completed = frames.map Frame.complete := by
  generalize none : ([] : List UInt8) = expected at awaiting
  cases awaiting with
  | finished => rfl
  | inside before frame after split count within =>
    have dropped := (append_eq_nil_iff.mp none.symm).1
    exact absurd (drop_eq_nil_iff.mp dropped) (Nat.not_le.mpr within)

/-- Chunks that make up the expected bytes complete all frames. -/
theorem foldl_consume (stays : ∀ frame ∈ frames, closes frame.complete = false)
    {chunks : List (List UInt8)} {connection : Connection}
    (awaiting : Awaiting frames connection chunks.flatten) :
    (chunks.foldl (Connection.consume decodeResponse closes) connection).completed =
      frames.map Frame.complete := by
  induction chunks generalizing connection with
  | nil => exact awaiting.completed_eq
  | cons chunk chunks ih => exact ih (awaiting.consume stays)

end Awaiting

/-- However the bytes of a sequence of frames are cut into chunks, the responses that are
completed are those of a single chunk, and these are the frames. -/
theorem framing_independent (frames : List (Frame decodeResponse))
    (stays : ∀ frame ∈ frames, closes frame.complete = false) (chunks : List (List UInt8))
    (cut : chunks.flatten = frames.flatMap Frame.encode) :
    (chunks.foldl (Connection.consume decodeResponse closes) .new).completed =
        (Connection.new.consume decodeResponse closes (frames.flatMap Frame.encode)).completed ∧
      (chunks.foldl (Connection.consume decodeResponse closes) .new).completed =
        frames.map Frame.complete := by
  have start : Awaiting frames .new (frames.flatMap Frame.encode) := Awaiting.between [] frames rfl
  have inOne : (Connection.new.consume decodeResponse closes (frames.flatMap Frame.encode)).completed =
      frames.map Frame.complete := by
    refine Awaiting.completed_eq (Awaiting.consume stays ?_)
    rwa [append_nil]
  have inChunks := Awaiting.foldl_consume stays (cut.symm ▸ start)
  exact ⟨inChunks.trans inOne.symm, inChunks⟩

/-- A READY response of the fourth version. -/
def readyFrame : Frame fun _ _ => true where
  version := 0x84
  flags := 0
  stream := 1
  opcode := 0x02
  body := []
  versioned := by decide
  narrow := by decide
  known := by decide
  sized := by decide
  decodable := by decide

/-- The first chunk ends behind the version, the second one inside the next frame. -/
theorem framing_independent_ready :
    ([[0x84], [0, 0, 1, 2, 0, 0, 0, 0, 0x84, 0], [0, 1, 2, 0, 0, 0, 0]].foldl
      (Connection.consume (fun _ _ => true) fun _ => false) .new).completed =
        [readyFrame.complete, readyFrame.complete] :=
  (framing_independent [readyFrame, readyFrame] (fun _ _ => rfl)
    [[0x84], [0, 0, 1, 2, 0, 0, 0, 0, 0x84, 0], [0, 1, 2, 0, 0, 0, 0]] (by decide)).2

end DseDriver.Response
