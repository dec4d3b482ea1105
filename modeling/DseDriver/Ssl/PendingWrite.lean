import Mathlib.Data.List.Basic
import Mathlib.Tactic.Ring

/-!
# Coalescing writes for encryption

`PendingWriteSsl::encrypt` copies the buffers of the pending requests into a staging buffer and
passes it to the session each time it is full, and once more at the end.  An error of the session
ends the loop.
-/

namespace DseDriver.Ssl

open List

/-- `SSL_WRITE_SIZE`. -/
def sslWriteSize : Nat := 8192

/-- The variables of the loop.  The staging buffer is the list of the bytes copied into it, and the
iterator the list of the buffers from it on. -/
structure Staging where
  copied : List UInt8
  it : List (List UInt8)
  offset : Nat
  /-- What was passed to `SslSession::encrypt`. -/
  chunks : List (List UInt8)
  deriving DecidableEq, Repr

/-- Whether `SslSession::encrypt` leaves an error, after the chunks it was called with. -/
abbrev Fails := List (List UInt8) → Bool

namespace PendingWriteSsl

variable (fails : Fails)

/-- The copying part of a round of the loop. -/
def copy (staging : Staging) (buffer : List UInt8) (others : List (List UInt8)) : Staging :=
  let size := buffer.length
  let toCopy := size - staging.offset
  let available := sslWriteSize - staging.copied.length
  let toCopy := if available < toCopy then available else toCopy
  let copied := staging.copied ++ (buffer.drop staging.offset).take toCopy
  let offset := staging.offset + toCopy
  if offset = size then { staging with copied, it := others, offset := 0 }
  else { staging with copied, offset }

/-- The loop, with a limit on its rounds. -/
def encryptLoop : (limit : Nat) → Staging → Option (List (List UInt8))
  | 0, _ => none
  | limit + 1, staging =>
    match staging.it with
    | [] => some staging.chunks
    | buffer :: others =>
      let staging := copy staging buffer others
      if staging.it = [] ∨ staging.copied.length = sslWriteSize then
        let chunks := staging.chunks ++ [staging.copied]
        if fails chunks then some chunks
        else encryptLoop limit { staging with copied := [], chunks }
      else encryptLoop limit staging

/-- `encrypt`: the chunks passed to the session.  Every round copies a byte. -/
def encrypt (buffers : List (List UInt8)) : Option (List (List UInt8)) :=
  encryptLoop fails (buffers.flatten.length + 1) ⟨[], buffers, 0, []⟩

/-! ## What the session is passed -/

/-- The stream in chunks that fill the staging buffer, except for the last one. -/
structure IsSplit (stream : List UInt8) (chunks : List (List UInt8)) : Prop where
  whole : chunks.flatten = stream
  nonempty : ∀ chunk ∈ chunks, chunk ≠ []
  full : ∀ chunk ∈ chunks.dropLast, chunk.length = sslWriteSize
  fits : ∀ chunk ∈ chunks, chunk.length ≤ sslWriteSize

/-- The chunks up to the first one that the session fails at. -/
def upToError (passed : List (List UInt8)) : List (List UInt8) → List (List UInt8)
  | [] => passed
  | chunk :: chunks =>
    if fails (passed ++ [chunk]) then passed ++ [chunk]
    else upToError (passed ++ [chunk]) chunks

theorem isSplit_nil : IsSplit [] [] :=
  ⟨rfl, by simp, by simp, by simp⟩

theorem IsSplit.cons {chunk stream : List UInt8} {chunks : List (List UInt8)}
    (isFull : chunk.length = sslWriteSize) (split : IsSplit stream chunks) :
    IsSplit (chunk ++ stream) (chunk :: chunks) where
  whole := congrArg (chunk ++ ·) split.whole
  nonempty := by
    refine forall_mem_cons.mpr ⟨?_, split.nonempty⟩
    rintro rfl
    exact absurd isFull (by decide)
  full := by
    cases chunks with
    | nil => simp
    | cons next chunks => exact forall_mem_cons.mpr ⟨isFull, split.full⟩
  fits := forall_mem_cons.mpr ⟨isFull.le, split.fits⟩

theorem IsSplit.eq_nil {stream : List UInt8} {chunks : List (List UInt8)}
    (split : IsSplit stream chunks) (empty : stream = []) : chunks = [] := by
  cases chunks with
  | nil => rfl
  | cons chunk chunks =>
    have whole := split.whole.trans empty
    rw [flatten_cons, append_eq_nil_iff] at whole
    exact absurd whole.1 (split.nonempty chunk mem_cons_self)

theorem isSplit_singleton {chunk : List UInt8} (nonempty : chunk ≠ [])
    (fits : chunk.length ≤ sslWriteSize) : IsSplit chunk [chunk] :=
  ⟨append_nil chunk, forall_mem_singleton.mpr nonempty, by simp,
    forall_mem_singleton.mpr fits⟩

/-- The staging buffer has room, and the offset is inside of the buffer that is copied. -/
structure Ready (staging : Staging) : Prop where
  room : staging.copied.length < sslWriteSize
  inside : ∀ buffer ∈ staging.it.head?, staging.offset < buffer.length
  nonempty : ∀ buffer ∈ staging.it, buffer ≠ []
  empty : staging.it = [] → staging.copied = []

/-- The bytes from the iterator and the offset on. -/
def unread (staging : Staging) : List UInt8 :=
  staging.it.flatten.drop staging.offset

variable {staging : Staging} {buffer : List UInt8} {others : List (List UInt8)}

/-- A round copies the next bytes, as many as the buffer has and as fit. -/
theorem copy_spec (ready : Ready staging) (isBuffer : staging.it = buffer :: others) :
    ∃ count, 0 < count ∧ count ≤ (unread staging).length ∧
      (copy staging buffer others).copied = staging.copied ++ (unread staging).take count ∧
      unread (copy staging buffer others) = (unread staging).drop count ∧
      (copy staging buffer others).copied.length ≤ sslWriteSize ∧
      (∀ next ∈ (copy staging buffer others).it.head?,
        (copy staging buffer others).offset < next.length) ∧
      ∀ next ∈ (copy staging buffer others).it, next ≠ [] := by
  have room := ready.room
  have inside : staging.offset < buffer.length := ready.inside buffer (by rw [isBuffer]; rfl)
  have nonempty := ready.nonempty
  have isUnread : unread staging = buffer.drop staging.offset ++ others.flatten := by
    rw [unread, isBuffer, flatten_cons, drop_append_of_le_length inside.le]
  rw [isBuffer, forall_mem_cons] at nonempty
  rw [isUnread]
  unfold copy
  dsimp only
  -- as many bytes as there are, or as fit
  generalize isCount : (if sslWriteSize - staging.copied.length < buffer.length - staging.offset
    then sslWriteSize - staging.copied.length else buffer.length - staging.offset) = count
  have bounds : 0 < count ∧ count ≤ buffer.length - staging.offset ∧
      count ≤ sslWriteSize - staging.copied.length := by
    split at isCount <;> omega
  have within : count ≤ (buffer.drop staging.offset).length := by
    rw [length_drop]
    exact bounds.2.1
  have taken : (staging.copied ++ (buffer.drop staging.offset).take count).length ≤ sslWriteSize := by
    rw [length_append, length_take]
    omega
  refine ⟨count, bounds.1, by rw [length_append]; omega, ?_⟩
  rw [take_append_of_le_length within, drop_append_of_le_length within, drop_drop]
  split
  next last =>
    refine ⟨rfl, ?_, taken, ?_, nonempty.2⟩
    · rw [unread, last, drop_length]
      rfl
    · intro next isNext
      exact length_pos_iff.mpr (nonempty.2 next (mem_of_mem_head? isNext))
  next more =>
    refine ⟨rfl, ?_, taken, ?_, by simpa [isBuffer] using nonempty⟩
    · have le : staging.offset + count ≤ buffer.length := by omega
      rw [unread, isBuffer, flatten_cons, drop_append_of_le_length le]
    · rintro next isNext
      rw [isBuffer] at isNext
      cases isNext
      dsimp only
      omega

/-- The loop passes the rest of the stream in chunks. -/
theorem encryptLoop_spec (limit : Nat) (ready : Ready staging)
    (enough : (unread staging).length < limit) :
    ∃ chunks, IsSplit (staging.copied ++ unread staging) chunks ∧
      encryptLoop fails limit staging = some (upToError fails staging.chunks chunks) := by
  induction limit generalizing staging with
  | zero => omega
  | succ limit ih =>
    rw [encryptLoop]
    cases isBuffers : staging.it with
    | nil =>
      refine ⟨[], ?_, rfl⟩
      rw [ready.empty isBuffers, unread, isBuffers]
      simpa using isSplit_nil
    | cons buffer others =>
      obtain ⟨count, positive, short, copied, unread', fits, inside, nonempty⟩ :=
        copy_spec ready isBuffers
      have stream : staging.copied ++ unread staging =
          (copy staging buffer others).copied ++ unread (copy staging buffer others) := by
        rw [copied, unread', append_assoc, take_append_drop]
      have fewer : (unread (copy staging buffer others)).length < limit := by
        rw [unread', length_drop]
        omega
      have passed : (copy staging buffer others).chunks = staging.chunks :=
        (apply_ite Staging.chunks _ _ _).trans (ite_self _)
      rw [stream]
      dsimp only
      generalize copy staging buffer others = next at *
      split
      next flushes =>
        have ready' : Ready { next with copied := [], chunks := next.chunks ++ [next.copied] } :=
          ⟨show 0 < sslWriteSize by decide, inside, nonempty, fun _ => rfl⟩
        obtain ⟨chunks, rest, loop⟩ := ih ready' fewer
        refine ⟨next.copied :: chunks, ?_, ?_⟩
        · rcases flushes with last | isFull
          · -- the last chunk may be short
            have ended : unread next = [] := by simp [unread, last]
            have filled : next.copied ≠ [] := by
              rw [copied, ← length_pos_iff, length_append, length_take]
              omega
            rw [rest.eq_nil ended, ended, append_nil]
            exact isSplit_singleton filled fits
          · exact rest.cons isFull
        · rw [upToError, ← passed, loop]
          split <;> rfl
      next waits =>
        obtain ⟨more, partly⟩ := not_or.mp waits
        have ready' : Ready next :=
          ⟨by omega, inside, nonempty, fun none => absurd none more⟩
        obtain ⟨chunks, rest, loop⟩ := ih ready' fewer
        exact ⟨chunks, rest, passed ▸ loop⟩

theorem upToError_of_all (accepts : ∀ passed, fails passed = false)
    (passed chunks : List (List UInt8)) : upToError fails passed chunks = passed ++ chunks := by
  induction chunks generalizing passed with
  | nil => exact (append_nil passed).symm
  | cons chunk chunks ih =>
    rw [upToError, accepts, if_neg Bool.false_ne_true, ih, append_assoc]
    rfl

/-- **The session is passed the stream of the buffers in chunks**, all of them full but the last,
up to the first one that it fails at. -/
theorem encrypt_isSplit (buffers : List (List UInt8)) (nonempty : ∀ buffer ∈ buffers, buffer ≠ []) :
    ∃ chunks, IsSplit buffers.flatten chunks ∧
      encrypt fails buffers = some (upToError fails [] chunks) ∧
      ((∀ passed, fails passed = false) → encrypt fails buffers = some chunks) := by
  have ready : Ready ⟨[], buffers, 0, []⟩ := by
    refine ⟨show 0 < sslWriteSize by decide, fun buffer isFirst => ?_, nonempty, fun _ => rfl⟩
    exact length_pos_iff.mpr (nonempty buffer (mem_of_mem_head? isFirst))
  obtain ⟨chunks, split, loop⟩ := encryptLoop_spec fails _ ready (Nat.lt_succ_self _)
  refine ⟨chunks, split, loop, fun accepts => ?_⟩
  rw [← nil_append chunks, ← upToError_of_all fails accepts]
  exact loop

/-- A chunk and two bytes, in two buffers. -/
theorem encrypt_isSplit_chunk :
    ∃ chunks, IsSplit ([1, 2, 3] ++ List.replicate (sslWriteSize - 1) 4) chunks ∧
      1 < chunks.length ∧
      encrypt (fun _ => false) [[1, 2, 3], List.replicate (sslWriteSize - 1) 4] = some chunks := by
  have nonempty : List.replicate (sslWriteSize - 1) (4 : UInt8) ≠ [] :=
    ne_nil_of_length_pos (by rw [length_replicate]; decide)
  obtain ⟨chunks, split, -, accepted⟩ := encrypt_isSplit (fun _ => false)
    [[1, 2, 3], List.replicate (sslWriteSize - 1) 4] (by simp [nonempty])
  rw [flatten_cons, flatten_singleton] at split
  refine ⟨chunks, split, ?_, accepted fun _ => rfl⟩
  have length := congrArg List.length split.whole
  rw [length_append, length_replicate] at length
  match chunks, split.fits with
  | [], _ => cases length
  | [chunk], fits =>
    have short := fits chunk mem_cons_self
    simp only [flatten_singleton, length_cons, length_nil] at length
    omega
  | _ :: _ :: chunks, _ => simp

end PendingWriteSsl

end DseDriver.Ssl
