import DseDriver.Lib.Bitmaps
import DseDriver.Lib.Rotation
import DseDriver.Lib.Runs
import Mathlib.Data.List.AList

/-!
# Stream ids

`StreamManager` hands out the stream ids of a connection.  Free ids are the set bits of a vector
of words, which is searched from a word that moves on with every call; the items of the ids in use
are in a hash map beside it.
-/

namespace DseDriver

open Lib List

variable {α : Type*}

/-- Mirrors `StreamManager<T>`.  `word_t` is the 64-bit `unsigned long`. -/
structure StreamManager (α : Type*) where
  maxStreams : Nat
  numWords : Nat
  offset : UInt64
  words : List (BitVec 64)
  pending : AList fun _ : Int => α

namespace StreamManager

variable (manager : StreamManager α)

def numBitsPerWord : Nat := 64

/-- `num_bytes_for_stream`. -/
def numBytesForStream (protocolVersion : Int) : Nat :=
  if protocolVersion ≥ 3 then 2 else 1

/-- `StreamManager()`. -/
def new (protocolVersion : Int) : StreamManager α :=
  let maxStreams := 1 <<< (numBytesForStream protocolVersion * 8 - 1)
  let numWords := maxStreams / numBitsPerWord
  { maxStreams
    numWords
    offset := 0
    words := List.replicate numWords (BitVec.allOnes 64)
    pending := ∅ }

/-- `available_streams`. -/
def availableStreams : Nat :=
  manager.maxStreams - manager.pending.keys.length

/-- `pending_streams`. -/
def pendingStreams : Nat :=
  manager.pending.keys.length

/-- `get_and_set_first_available_stream`. -/
def getAndSetFirstAvailableStream (index : Nat) : Int × StreamManager α :=
  let word := manager.words.getD index 0
  if word = 0 then
    (-1, manager)
  else
    let stream := word.ctz.toNat
    (stream, { manager with words := manager.words.set index (word ^^^ 1#64 <<< stream) })

/-- The loop of `acquire_stream`, with `remaining` words still to look at. -/
def acquireFrom (offset : UInt64) (manager : StreamManager α) :
    (remaining : Nat) → Int × StreamManager α
  | 0 => (-1, manager)
  | remaining + 1 =>
    let i := manager.numWords - (remaining + 1)
    let index := (UInt64.ofNat i + offset).toNat % manager.numWords
    let (stream, manager') := manager.getAndSetFirstAvailableStream index
    if stream ≥ 0 then
      (stream + (numBitsPerWord * index : Nat), manager')
    else
      acquireFrom offset manager' remaining

/-- `acquire_stream`. -/
def acquireStream : Int × StreamManager α :=
  acquireFrom manager.offset { manager with offset := manager.offset + 1 } manager.numWords

/-- The id is not negative; the result is `none` when the assertion fails. -/
def releaseStream (stream : Int) : Option (StreamManager α) :=
  let index := stream.toNat / numBitsPerWord
  let bit := 1#64 <<< (stream.toNat % numBitsPerWord)
  let word := manager.words.getD index 0
  if word &&& bit = 0 then
    some { manager with words := manager.words.set index (word ||| bit) }
  else
    none

/-- `acquire`. -/
def acquire (item : α) : Int × StreamManager α :=
  let (stream, manager) := manager.acquireStream
  if stream < 0 then
    (-1, manager)
  else
    (stream, { manager with pending := manager.pending.insert stream item })

/-- The result is `none` when an assertion fails. -/
def release (stream : Int) : Option (StreamManager α) :=
  if stream ≥ 0 ∧ stream < manager.maxStreams then
    { manager with pending := manager.pending.erase stream }.releaseStream stream
  else
    none

/-- The output of a call that returns true, and the manager after it; the result is `none` when an
assertion fails. -/
def getPendingAndRelease (stream : Int) : Option (Option α × StreamManager α) :=
  match manager.pending.lookup stream with
  | some item =>
    ({ manager with pending := manager.pending.erase stream }.releaseStream stream).map
      fun manager => (some item, manager)
  | none => some (none, manager)

end StreamManager

/-! ## The use of a manager -/

/-- A manager with the ids that its callers have acquired and not yet given back. -/
structure StreamUse (α : Type*) where
  manager : StreamManager α
  inUse : List (Int × α)
  /-- An assertion has failed. -/
  aborted : Bool

/-- The calls of a manager. -/
inductive StreamCall (α : Type*) where
  | acquire (item : α)
  | release (stream : Int)
  | getPendingAndRelease (stream : Int)
  deriving DecidableEq, Repr

namespace StreamUse

def new (protocolVersion : Int) : StreamUse α :=
  { manager := .new protocolVersion, inUse := [], aborted := false }

def Uses (use : StreamUse α) (stream : Int) : Prop :=
  stream ∈ use.inUse.map Prod.fst

instance (use : StreamUse α) (stream : Int) : Decidable (use.Uses stream) :=
  inferInstanceAs (Decidable (stream ∈ use.inUse.map Prod.fst))

/-- The entries without those of an id. -/
def without (inUse : List (Int × α)) (stream : Int) : List (Int × α) :=
  inUse.filter fun entry => entry.1 ≠ stream

def step (use : StreamUse α) (call : StreamCall α) : StreamUse α :=
  if use.aborted then
    use
  else
    match call with
    | .acquire item =>
      let (stream, manager) := use.manager.acquire item
      { use with
        manager
        inUse := if stream < 0 then use.inUse else (stream, item) :: use.inUse }
    | .release stream =>
      match use.manager.release stream with
      | some manager => { use with manager, inUse := without use.inUse stream }
      | none => { use with aborted := true }
    | .getPendingAndRelease stream =>
      match use.manager.getPendingAndRelease stream with
      | some (_, manager) => { use with manager, inUse := without use.inUse stream }
      | none => { use with aborted := true }

/-- `release` is only called on ids in use. -/
def Proper (use : StreamUse α) : StreamCall α → Prop
  | .release stream => use.Uses stream
  | _ => True

instance (use : StreamUse α) : (call : StreamCall α) → Decidable (use.Proper call)
  | .release stream => inferInstanceAs (Decidable (use.Uses stream))
  | .acquire _ => .isTrue trivial
  | .getPendingAndRelease _ => .isTrue trivial

/-- What the callers of a manager rely on. -/
structure Sound (use : StreamUse α) : Prop where
  running : use.aborted = false
  distinct : (use.inUse.map Prod.fst).Nodup
  inRange : ∀ stream, use.Uses stream → 0 ≤ stream ∧ stream < use.manager.maxStreams
  acquire : ∀ item, (use.manager.acquire item).1 < 0 ↔
    ∀ stream : Int, 0 ≤ stream → stream < use.manager.maxStreams → use.Uses stream
  getPendingAndRelease : ∀ stream, ∃ output manager,
    use.manager.getPendingAndRelease stream = some (output, manager) ∧
      ∀ item, output = some item ↔ (stream, item) ∈ use.inUse
  counts : use.manager.availableStreams + use.manager.pendingStreams = use.manager.maxStreams

end StreamUse

/-! ## Correspondence of the words and the map -/

namespace StreamManager

/-- The free ids are those without an item. -/
structure Valid (manager : StreamManager α) : Prop where
  length_words : manager.words.length = manager.numWords
  maxStreams_eq : manager.maxStreams = 64 * manager.numWords
  divides : manager.numWords ∣ 2 ^ 64
  isFree : ∀ stream : Nat, Bitmaps.has manager.words stream = true ↔
    stream < manager.maxStreams ∧ (stream : Int) ∉ manager.pending
  inRange : ∀ stream ∈ manager.pending, 0 ≤ stream ∧ stream < manager.maxStreams

theorem new_sizes (protocolVersion : Int) :
    (new protocolVersion : StreamManager α).maxStreams =
        64 * (new protocolVersion : StreamManager α).numWords ∧
      (new protocolVersion : StreamManager α).numWords ∣ 2 ^ 64 := by
  by_cases modern : protocolVersion ≥ 3
  · simp only [new, numBytesForStream, if_pos modern, numBitsPerWord]
    decide
  · simp only [new, numBytesForStream, if_neg modern, numBitsPerWord]
    decide

theorem new_valid (protocolVersion : Int) : (new protocolVersion : StreamManager α).Valid := by
  obtain ⟨maxStreams_eq, divides⟩ := @new_sizes α protocolVersion
  refine
    { length_words := length_replicate
      maxStreams_eq
      divides
      isFree := ?_
      inRange := fun stream member => absurd member (AList.notMem_empty stream) }
  intro stream
  have full := @Bitmaps.has_replicate_allOnes 64 stream
    (new protocolVersion : StreamManager α).numWords (by decide)
  rw [← maxStreams_eq] at full
  refine (Bool.eq_iff_iff.mp full).trans ?_
  rw [decide_eq_true_iff]
  exact (and_iff_left (AList.notMem_empty _)).symm

/-- What taking a free id does to the words. -/
def Takes (manager manager' : StreamManager α) (stream : Nat) : Prop :=
  ∃ words, manager' = { manager with words } ∧ words.length = manager.words.length ∧
    Bitmaps.has manager.words stream = true ∧
    ∀ other, Bitmaps.has words other =
      (Bitmaps.has manager.words other ^^ decide (other = stream))

theorem getAndSetFirstAvailableStream_spec (manager : StreamManager α) {index : Nat}
    (inside : index < manager.words.length) :
    manager.words.getD index 0 = 0 ∧
        manager.getAndSetFirstAvailableStream index = (-1, manager) ∨
      ∃ (stream : Nat) (manager' : StreamManager α),
        manager.getAndSetFirstAvailableStream index = ((stream : Int), manager') ∧
          manager.Takes manager' (stream + numBitsPerWord * index) := by
  unfold getAndSetFirstAvailableStream
  by_cases zero : manager.words.getD index 0 = 0
  · left
    exact ⟨zero, if_pos zero⟩
  · right
    refine ⟨_, _, if_neg zero, _, rfl, length_set, Bitmaps.has_ctz zero, ?_⟩
    exact fun other => Bitmaps.has_xor inside (Bitmaps.ctz_lt zero)

variable {manager : StreamManager α}

theorem acquireFrom_spec (offset : UInt64)
    (length_words : manager.words.length = manager.numWords) {remaining : Nat}
    (bound : remaining ≤ manager.numWords) :
    (acquireFrom offset manager remaining = (-1, manager) ∧
        ∀ i, manager.numWords - remaining ≤ i → i < manager.numWords →
          manager.words.getD ((UInt64.ofNat i + offset).toNat % manager.numWords) 0 = 0) ∨
      ∃ (stream : Nat) (manager' : StreamManager α),
        acquireFrom offset manager remaining = ((stream : Int), manager') ∧
          manager.Takes manager' stream := by
  induction remaining with
  | zero =>
    left
    refine ⟨rfl, ?_⟩
    omega
  | succ remaining ih =>
    have inside : (UInt64.ofNat (manager.numWords - (remaining + 1)) + offset).toNat %
        manager.numWords < manager.words.length := by
      rw [length_words]
      exact Nat.mod_lt _ (by omega)
    rw [acquireFrom]
    rcases getAndSetFirstAvailableStream_spec manager inside with
      ⟨zero, full⟩ | ⟨stream, manager', found, takes⟩
    · simp only [full]
      rcases ih (by omega) with ⟨result, rest⟩ | taken
      · left
        refine ⟨result, ?_⟩
        intro i low high
        by_cases here : i = manager.numWords - (remaining + 1)
        · rw [here]
          exact zero
        · exact rest i (by omega) high
      · exact .inr taken
    · right
      simp only [found]
      exact ⟨_, manager', if_pos (Int.natCast_nonneg stream), takes⟩

theorem acquireStream_spec (valid : manager.Valid) :
    (manager.acquireStream = (-1, { manager with offset := manager.offset + 1 }) ∧
        ∀ stream, Bitmaps.has manager.words stream = false) ∨
      ∃ (stream : Nat) (manager' : StreamManager α),
        manager.acquireStream = ((stream : Int), manager') ∧
          { manager with offset := manager.offset + 1 }.Takes manager' stream := by
  have walk := @acquireFrom_spec _ { manager with offset := manager.offset + 1 } manager.offset
    valid.length_words manager.numWords (Nat.le_refl _)
  refine walk.imp_left ?_
  rintro ⟨result, full⟩
  refine ⟨result, ?_⟩
  intro stream
  by_cases inside : stream / 64 < manager.numWords
  · obtain ⟨i, walked, sameIndex⟩ := exists_offset_mod_eq valid.divides manager.offset inside
    refine Bitmaps.has_eq_false_of_word_eq_zero ?_
    rw [← sameIndex]
    exact full i (by simp) walked
  · refine Bool.eq_false_iff.mpr fun isFree => inside ?_
    have below := Bitmaps.lt_of_has isFree
    rw [valid.length_words] at below
    omega

/-- A call keeps the sizes and leaves the given items. -/
structure Becomes (manager manager' : StreamManager α) (pending : AList fun _ : Int => α) :
    Prop where
  valid : manager'.Valid
  maxStreams : manager'.maxStreams = manager.maxStreams
  pending : manager'.pending = pending

section Valid

variable (valid : manager.Valid)
include valid

theorem acquire_spec (item : α) : (∃ manager', manager.acquire item = (-1, manager') ∧
        manager.Becomes manager' manager.pending ∧
        ∀ stream : Int, 0 ≤ stream → stream < manager.maxStreams → stream ∈ manager.pending) ∨
      ∃ stream manager', manager.acquire item = (stream, manager') ∧
        0 ≤ stream ∧ stream < manager.maxStreams ∧ stream ∉ manager.pending ∧
        manager.Becomes manager' (manager.pending.insert stream item) := by
  rcases acquireStream_spec valid with ⟨result, full⟩ | ⟨stream, manager', result, taken⟩
  · left
    have fails : manager.acquire item = (-1, { manager with offset := manager.offset + 1 }) := by
      rw [acquire, result]
      rfl
    refine ⟨_, fails, ⟨{ valid with }, rfl, rfl⟩, ?_⟩
    intro stream nonneg below
    by_contra absent
    lift stream to Nat using nonneg
    have isFree := (valid.isFree stream).mpr ⟨by omega, absent⟩
    rw [full] at isFree
    cases isFree
  · right
    obtain ⟨words, rfl, length_words, isFree, others⟩ := taken
    obtain ⟨below, absent⟩ := (valid.isFree stream).mp isFree
    have succeeds : manager.acquire item = ((stream : Int), { manager with
        offset := manager.offset + 1
        words := words
        pending := manager.pending.insert stream item }) := by
      rw [acquire, result]
      exact if_neg (by omega)
    refine ⟨stream, _, succeeds, by omega, by omega, absent, ?_, rfl, rfl⟩
    refine
      { length_words := length_words.trans valid.length_words
        maxStreams_eq := valid.maxStreams_eq
        divides := valid.divides
        isFree := ?_
        inRange := ?_ }
    · intro other
      rw [others, AList.mem_insert]
      by_cases same : other = stream
      · simp [same, isFree]
      · have different : (other : Int) ≠ stream := by omega
        simp [same, different, valid.isFree]
    · intro other member
      rcases (AList.mem_insert _).mp member with rfl | before
      · exact ⟨by omega, by dsimp only; omega⟩
      · exact valid.inRange other before

theorem releaseStream_spec {stream : Int} (member : stream ∈ manager.pending) :
    ∃ manager',
      { manager with pending := manager.pending.erase stream }.releaseStream stream =
          some manager' ∧
        manager.Becomes manager' (manager.pending.erase stream) := by
  obtain ⟨nonneg, below⟩ := valid.inRange stream member
  lift stream to Nat using nonneg
  have taken : Bitmaps.has manager.words stream = false :=
    Bool.eq_false_iff.mpr fun isFree => ((valid.isFree stream).mp isFree).2 member
  have insideMap : stream / 64 < manager.words.length := by
    have sizes := valid.maxStreams_eq
    rw [valid.length_words]
    omega
  refine ⟨_, if_pos (Bitmaps.and_eq_zero taken), ?_, rfl, rfl⟩
  refine
    { length_words := length_set.trans valid.length_words
      maxStreams_eq := valid.maxStreams_eq
      divides := valid.divides
      isFree := ?_
      inRange := fun other kept => valid.inRange other (AList.mem_erase.mp kept).2 }
  intro other
  have added := @Bitmaps.has_or 64 manager.words (stream / 64) (stream % 64) other insideMap
    (Nat.mod_lt _ (by decide))
  rw [Nat.mod_add_div] at added
  refine (Bool.eq_iff_iff.mp added).trans ?_
  rw [AList.mem_erase]
  by_cases same : other = stream
  · simp only [same, decide_true, Bool.or_true, true_iff]
    exact ⟨by omega, by simp⟩
  · have different : (other : Int) ≠ stream := by omega
    simp [same, different, valid.isFree]

theorem release_spec {stream : Int} (member : stream ∈ manager.pending) :
    ∃ manager', manager.release stream = some manager' ∧
      manager.Becomes manager' (manager.pending.erase stream) := by
  obtain ⟨manager', released, becomes⟩ := releaseStream_spec valid member
  exact ⟨manager', (if_pos (valid.inRange stream member)).trans released, becomes⟩

theorem getPendingAndRelease_spec (stream : Int) : ∃ manager',
      manager.getPendingAndRelease stream = some (manager.pending.lookup stream, manager') ∧
        manager.Becomes manager' (manager.pending.erase stream) := by
  unfold getPendingAndRelease
  cases found : manager.pending.lookup stream with
  | none =>
    have absent := AList.lookup_eq_none.mp found
    exact ⟨manager, rfl, valid, rfl, AList.ext (kerase_of_notMem_keys absent).symm⟩
  | some item =>
    have member : stream ∈ manager.pending := AList.lookup_isSome.mp (by rw [found]; rfl)
    obtain ⟨manager', released, becomes⟩ := releaseStream_spec valid member
    exact ⟨manager', by rw [released]; rfl, becomes⟩

theorem counts_of_valid :
    manager.availableStreams + manager.pendingStreams = manager.maxStreams := by
  have within : manager.pending.keys ⊆ (List.range manager.maxStreams).map Int.ofNat := by
    intro stream member
    obtain ⟨nonneg, below⟩ := valid.inRange stream member
    lift stream to Nat using nonneg
    exact mem_map_of_mem (mem_range.mpr (by omega))
  have bounded := (subperm_of_subset manager.pending.keys_nodup within).length_le
  rw [length_map, length_range] at bounded
  exact Nat.sub_add_cancel bounded

end Valid

end StreamManager

namespace StreamUse

/-- The ids in use are those with an item in the manager. -/
structure Tracks (use : StreamUse α) : Prop where
  running : use.aborted = false
  valid : use.manager.Valid
  distinct : (use.inUse.map Prod.fst).Nodup
  entries : ∀ stream item,
    (stream, item) ∈ use.inUse ↔ use.manager.pending.lookup stream = some item

theorem Tracks.uses_iff {use : StreamUse α} (tracks : use.Tracks) (stream : Int) :
    use.Uses stream ↔ stream ∈ use.manager.pending := by
  rw [← AList.lookup_isSome, Option.isSome_iff_exists, Uses, mem_map]
  constructor
  · rintro ⟨⟨_, item⟩, member, rfl⟩
    exact ⟨item, (tracks.entries _ item).mp member⟩
  · rintro ⟨item, found⟩
    exact ⟨(stream, item), (tracks.entries stream item).mpr found, rfl⟩

theorem new_tracks (protocolVersion : Int) : (new protocolVersion : StreamUse α).Tracks :=
  { running := rfl
    valid := StreamManager.new_valid protocolVersion
    distinct := nodup_nil
    entries := fun stream item => by
      simp [new, StreamManager.new] }

/-- An id is given back. -/
theorem Tracks.without {use : StreamUse α} (tracks : use.Tracks) {stream : Int}
    {manager : StreamManager α}
    (becomes : use.manager.Becomes manager (use.manager.pending.erase stream)) :
    ({ use with manager, inUse := without use.inUse stream } : StreamUse α).Tracks := by
  refine
    { running := tracks.running
      valid := becomes.valid
      distinct := ?_
      entries := ?_ }
  · exact tracks.distinct.sublist (filter_sublist.map _)
  · intro other item
    dsimp only
    rw [becomes.pending, StreamUse.without, mem_filter, tracks.entries]
    by_cases same : other = stream
    · subst same
      simp
    · simp [same, AList.lookup_erase_ne same]

theorem Tracks.step {use : StreamUse α} (tracks : use.Tracks) {call : StreamCall α}
    (proper : use.Proper call) : (use.step call).Tracks := by
  unfold StreamUse.step
  rw [if_neg (by rw [tracks.running]; decide)]
  cases call with
  | acquire item =>
    rcases StreamManager.acquire_spec tracks.valid item with
      ⟨manager, result, becomes, -⟩ | ⟨stream, manager, result, nonneg, -, absent, becomes⟩
    · simp only [result]
      refine
        { running := tracks.running
          valid := becomes.valid
          distinct := tracks.distinct
          entries := ?_ }
      rw [becomes.pending]
      exact tracks.entries
    · simp only [result, if_neg (Int.not_lt.mpr nonneg)]
      have unused : ¬ use.Uses stream := fun used => absent ((tracks.uses_iff stream).mp used)
      refine
        { running := tracks.running
          valid := becomes.valid
          distinct := nodup_cons.mpr ⟨unused, tracks.distinct⟩
          entries := ?_ }
      intro other item'
      dsimp only
      rw [becomes.pending, mem_cons, tracks.entries]
      by_cases same : other = stream
      · subst same
        simp [AList.lookup_eq_none.mpr absent, eq_comm]
      · simp [same, AList.lookup_insert_ne same]
  | release stream =>
    have member := (tracks.uses_iff stream).mp proper
    obtain ⟨manager, released, becomes⟩ := StreamManager.release_spec tracks.valid member
    simp only [released]
    exact tracks.without becomes
  | getPendingAndRelease stream =>
    obtain ⟨manager, released, becomes⟩ :=
      StreamManager.getPendingAndRelease_spec tracks.valid stream
    simp only [released]
    exact tracks.without becomes

theorem Tracks.sound {use : StreamUse α} (tracks : use.Tracks) : use.Sound := by
  refine
    { running := tracks.running
      distinct := tracks.distinct
      inRange := fun stream used => tracks.valid.inRange stream ((tracks.uses_iff stream).mp used)
      acquire := ?_
      getPendingAndRelease := ?_
      counts := StreamManager.counts_of_valid tracks.valid }
  · intro item
    simp only [tracks.uses_iff]
    rcases StreamManager.acquire_spec tracks.valid item with
      ⟨manager, result, -, full⟩ | ⟨stream, manager, result, nonneg, below, absent, -⟩
    · rw [result]
      exact iff_of_true (by omega) full
    · rw [result]
      exact iff_of_false (by omega) fun full => absent (full stream nonneg below)
  · intro stream
    obtain ⟨manager, released, -⟩ := StreamManager.getPendingAndRelease_spec tracks.valid stream
    exact ⟨_, manager, released, fun item => (tracks.entries stream item).symm⟩

/-- Stream ids are used soundly in every run in which only ids in use are released. -/
theorem sound_of_proper (protocolVersion : Int) (calls : List (StreamCall α))
    (proper : Throughout step Proper (new protocolVersion) calls) :
    (calls.foldl step (new protocolVersion)).Sound := by
  have tracks := @Throughout.invariant _ _ step Proper Tracks
    (fun _ _ tracks meets => tracks.step meets) _ _ (new_tracks protocolVersion) proper
  exact tracks.sound

theorem sound_of_proper_reuse :
    Throughout step Proper (new 2)
        [.acquire 'a', .acquire 'b', .release 0, .getPendingAndRelease 64, .acquire 'c'] ∧
      ([.acquire 'a', .acquire 'b', .release 0, .getPendingAndRelease 64,
        .acquire 'c'].foldl step (new 2)).Sound := by
  have proper : Throughout step Proper (new 2)
      [.acquire 'a', .acquire 'b', .release 0, .getPendingAndRelease 64, .acquire 'c'] := by
    refine ⟨trivial, trivial, ?_, trivial, trivial, trivial⟩
    decide +kernel
  exact ⟨proper, sound_of_proper 2 _ proper⟩

end StreamUse

end DseDriver
