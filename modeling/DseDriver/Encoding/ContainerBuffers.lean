import DseDriver.Cql.Containers
import DseDriver.Encoding.Buffer

/-!
# Containers in buffers of their size

`Collection`, `Tuple` and `AbstractData` first compute the size of their encoding and allocate a
buffer of that size, and then write the encoding piece by piece.  Here the writes are those of the
source; the containers hold the encodings of whatever is nested in them.
-/

namespace DseDriver.Encoding

open Lib Cql List

/-! ## Writing -/

/-- A buffer is allocated and filled. -/
def encodeSized (size : Nat) (encodeBuffers : Buffer × Nat → Option (Buffer × Nat))
    (junk : Nat → UInt8) : Option Buffer :=
  (encodeBuffers (Buffer.alloc junk size, 0)).map Prod.fst

/-- A buffer is allocated and filled behind its length. -/
def encodeSizedWithLength (size : Nat) (encodeBuffers : Buffer × Nat → Option (Buffer × Nat))
    (junk : Nat → UInt8) : Option Buffer :=
  encodeSized (4 + size) (fun written => do
    let written ← written.1.encodeInt32 written.2 (Int32.ofNat size)
    encodeBuffers written) junk

/-- The loops of `encode_items_int32` and `encode_items_uint16`. -/
def writeItems (encodeSize : Nat → List UInt8) (items : List (List UInt8))
    (written : Buffer × Nat) : Option (Buffer × Nat) :=
  items.foldlM (fun written item => do
    let (buf, pos) ← written.1.put written.2 (encodeSize item.length)
    buf.put pos item) written

/-- `get_items_size` of a version. -/
def getItemsSizeFor (collection : Collection) (version : Int) : Nat :=
  if version ≥ 3 then collection.getItemsSize 4 else collection.getItemsSize 2

/-- `encode_items`. -/
def encodeItems (collection : Collection) (version : Int) (written : Buffer × Nat) :
    Option (Buffer × Nat) :=
  if version ≥ 3 then
    writeItems (fun size => Cql.encodeInt32 (Int32.ofNat size)) collection.items written
  else
    writeItems (fun size => Cql.encodeUint16 (UInt16.ofNat size)) collection.items written

/-- `Collection::encode`. -/
def encodeCollection (collection : Collection) : (Nat → UInt8) → Option Buffer :=
  encodeSized (4 + collection.getItemsSize 4) fun written => do
    let written ← written.1.encodeInt32 written.2 (Int32.ofNat collection.getCount)
    encodeItems collection 3 written

/-- `Collection::encode_with_length`. -/
def encodeCollectionWithLength (collection : Collection) (version : Int) :
    (Nat → UInt8) → Option Buffer :=
  if version ≥ 3 then
    encodeSizedWithLength (4 + collection.getItemsSize 4) fun written => do
      let written ← written.1.encodeInt32 written.2 (Int32.ofNat collection.getCount)
      encodeItems collection version written
  else
    encodeSizedWithLength (2 + collection.getItemsSize 2) fun written => do
      let written ← written.1.encodeUint16 written.2 (UInt16.ofNat collection.getCount)
      encodeItems collection version written

/-- `Tuple::encode_buffers`. -/
def encodeTupleBuffers (tuple : Tuple) (written : Buffer × Nat) : Option (Buffer × Nat) :=
  tuple.items.foldlM (fun written item =>
    if item.length ≠ 0 then written.1.copy written.2 item item.length
    else written.1.encodeInt32 written.2 (-1)) written

/-- `AbstractData::Element::copy_buffer`; the collection is encoded in a buffer of its own. -/
def copyElement (element : Element) (version : Int) (junk : Nat → UInt8)
    (written : Buffer × Nat) : Option (Buffer × Nat) :=
  match element with
  | .collection collection => do
    let encoded ← encodeCollectionWithLength collection version junk
    written.1.copy written.2 encoded encoded.length
  | .buffer bytes => written.1.copy written.2 bytes bytes.length
  | .unset | .nul => written.1.copy written.2 encodeNull encodeNull.length

/-- `AbstractData::encode_buffers`. -/
def encodeDataBuffers (data : AbstractData) (junk : Nat → UInt8) (written : Buffer × Nat) :
    Option (Buffer × Nat) :=
  data.elements.foldlM (fun written element =>
    if !element.isUnset then copyElement element highestSupportedProtocolVersion junk written
    else written.1.encodeInt32 written.2 (-1)) written

/-! ## What is written -/

/-- All writes succeed, and nothing is left of what the fresh buffer held. -/
def FillsExactly (size : Nat) (encode : (Nat → UInt8) → Option Buffer) (bytes : Buffer) : Prop :=
  bytes.length = size ∧ ∀ junk, encode junk = some bytes

/-- The writes are those of a list of pieces. -/
def Writes (encodeBuffers : Buffer × Nat → Option (Buffer × Nat)) (chunks : List (List UInt8)) :
    Prop :=
  ∀ written, encodeBuffers written = writeChunks written.1 written.2 chunks

theorem Writes.put {rest : Buffer × Nat → Option (Buffer × Nat)} {chunks : List (List UInt8)}
    (writes : Writes rest chunks) (bytes : List UInt8) :
    Writes (fun written => (written.1.put written.2 bytes).bind rest) (bytes :: chunks) := by
  intro written
  dsimp only
  rw [funext writes, Buffer.put_eq_writeChunks]
  exact (writeChunks_append written.1 written.2 [bytes] chunks).symm

/-- A loop of writes. -/
theorem Writes.foldlM {α : Type} {write : Buffer × Nat → α → Option (Buffer × Nat)}
    {chunks : α → List (List UInt8)} {items : List α}
    (each : ∀ item ∈ items, Writes (fun written => write written item) (chunks item)) :
    Writes (items.foldlM write) (items.flatMap chunks) := by
  induction items with
  | nil => exact fun _ => rfl
  | cons item items ih =>
    intro written
    have first := each item mem_cons_self written
    have later := ih fun item member => each item (.tail _ member)
    dsimp only at first ⊢
    rw [foldlM_cons, flatMap_cons, writeChunks_append, first]
    exact congrArg _ (funext later)

theorem Writes.fills {size : Nat} {encodeBuffers : Buffer × Nat → Option (Buffer × Nat)}
    {chunks : List (List UInt8)} {bytes : Buffer} (writes : Writes encodeBuffers chunks)
    (joined : chunks.flatten = bytes) (sized : bytes.length = size) :
    FillsExactly size (encodeSized size encodeBuffers) bytes := by
  subst joined
  refine ⟨sized, fun junk => ?_⟩
  rw [encodeSized, writes, Buffer.writeChunks_alloc junk sized, Option.map_some]

theorem Writes.fillsWithLength {size : Nat}
    {encodeBuffers : Buffer × Nat → Option (Buffer × Nat)} {chunks : List (List UInt8)}
    {bytes : Buffer} (writes : Writes encodeBuffers chunks) (joined : chunks.flatten = bytes)
    (sized : bytes.length = size) :
    FillsExactly (4 + size) (encodeSizedWithLength size encodeBuffers)
      (Cql.encodeInt32 (Int32.ofNat size) ++ bytes) := by
  refine (writes.put (Cql.encodeInt32 (Int32.ofNat size))).fills ?_ ?_
  · rw [flatten_cons, joined]
  · rw [length_append, sized]
    rfl

/-- The pieces that a loop writes. -/
theorem flatten_flatMap {α : Type} (chunks : α → List (List UInt8)) (items : List α) :
    (items.flatMap chunks).flatten = items.flatMap fun item => (chunks item).flatten := by
  induction items with
  | nil => rfl
  | cons item items ih => rw [flatMap_cons, flatMap_cons, flatten_append, ih]

/-! ## The containers -/

section Collections

variable (collection : Collection) (version : Int)

theorem writes_items (encodeSize : Nat → List UInt8) :
    Writes (writeItems encodeSize collection.items)
      (collection.items.flatMap fun item => [encodeSize item.length, item]) :=
  .foldlM fun _ _ written => Buffer.put_bind_put written.1 written.2 _ _

/-- The bytes of the items. -/
def itemBytes : List UInt8 :=
  if version ≥ 3 then collection.encodeItemsInt32 else collection.encodeItemsUint16

theorem writes_encodeItems :
    ∃ chunks, Writes (encodeItems collection version) chunks ∧
      chunks.flatten = itemBytes collection version := by
  unfold encodeItems itemBytes
  split
  · exact ⟨_, writes_items collection _, by simp [flatten_flatMap, Collection.encodeItemsInt32]⟩
  · exact ⟨_, writes_items collection _, by simp [flatten_flatMap, Collection.encodeItemsUint16]⟩

theorem length_itemBytes : (itemBytes collection version).length =
    getItemsSizeFor collection version := by
  rw [itemBytes, getItemsSizeFor]
  split
  · exact collection.length_encodeItemsInt32
  · exact collection.length_encodeItemsUint16

theorem encodeItems_fills :
    FillsExactly (getItemsSizeFor collection version)
      (encodeSized (getItemsSizeFor collection version) (encodeItems collection version))
      (itemBytes collection version) := by
  obtain ⟨chunks, writes, joined⟩ := writes_encodeItems collection version
  exact writes.fills joined (length_itemBytes collection version)

theorem encodeCollection_fills :
    FillsExactly (4 + collection.getItemsSize 4) (encodeCollection collection)
      collection.encode := by
  obtain ⟨chunks, writes, joined⟩ := writes_encodeItems collection 3
  refine (writes.put (Cql.encodeInt32 (Int32.ofNat collection.getCount))).fills ?_ ?_
  · rw [flatten_cons, joined]
    rfl
  · rw [Collection.encode, length_append, collection.length_encodeItemsInt32]
    rfl

theorem encodeCollectionWithLength_fills :
    FillsExactly (collection.getSizeWithLength version)
      (encodeCollectionWithLength collection version) (collection.encodeWithLength version) := by
  obtain ⟨chunks, writes, joined⟩ := writes_encodeItems collection version
  rw [itemBytes] at joined
  rw [Collection.getSizeWithLength, encodeCollectionWithLength, Collection.encodeWithLength]
  split
  next modern =>
    rw [if_pos modern] at joined
    refine (writes.put (Cql.encodeInt32 (Int32.ofNat collection.getCount))).fillsWithLength ?_ ?_
    · rw [flatten_cons, joined]
    · rw [length_append, collection.length_encodeItemsInt32]
      rfl
  next early =>
    rw [if_neg early] at joined
    refine (writes.put (Cql.encodeUint16 (UInt16.ofNat collection.getCount))).fillsWithLength ?_ ?_
    · rw [flatten_cons, joined]
    · rw [length_append, collection.length_encodeItemsUint16]
      rfl

end Collections

theorem writes_tuple (tuple : Tuple) :
    Writes (encodeTupleBuffers tuple)
      (tuple.items.flatMap fun item => [if item.length ≠ 0 then item else encodeNull]) := by
  refine .foldlM fun item _ written => ?_
  rw [← Buffer.put_eq_writeChunks]
  split
  · exact Buffer.copy_all _ _ _
  · rfl

theorem writes_data (data : AbstractData) (junk : Nat → UInt8) :
    Writes (encodeDataBuffers data junk) (data.elements.flatMap fun element =>
      [if !element.isUnset then element.copyBuffer highestSupportedProtocolVersion
        else encodeNull]) := by
  refine .foldlM fun element _ written => ?_
  rw [← Buffer.put_eq_writeChunks]
  split
  · cases element with
    | collection collection =>
      have encoded := (encodeCollectionWithLength_fills collection
        highestSupportedProtocolVersion).2 junk
      simp only [copyElement, encoded, Option.bind_eq_bind, Option.bind_some, Buffer.copy_all]
      rfl
    | _ => exact Buffer.copy_all _ _ _
  · rfl

/-- The computed sizes are those of the encodings, and every encode fills its buffer. -/
theorem encodings_fill_buffers (version : Int) (collection : Collection) (tuple : Tuple)
    (data : AbstractData) (nested : Nat → UInt8) :
    FillsExactly (getItemsSizeFor collection version)
        (encodeSized (getItemsSizeFor collection version) (encodeItems collection version))
        (itemBytes collection version) ∧
      FillsExactly (4 + collection.getItemsSize 4) (encodeCollection collection)
        collection.encode ∧
      FillsExactly (collection.getSizeWithLength version)
        (encodeCollectionWithLength collection version) (collection.encodeWithLength version) ∧
      FillsExactly tuple.getBuffersSize
        (encodeSized tuple.getBuffersSize (encodeTupleBuffers tuple)) tuple.encode ∧
      FillsExactly (4 + tuple.getBuffersSize)
        (encodeSizedWithLength tuple.getBuffersSize (encodeTupleBuffers tuple))
        tuple.encodeWithLength ∧
      FillsExactly data.getBuffersSize
        (encodeSized data.getBuffersSize (encodeDataBuffers data nested)) data.encode ∧
      FillsExactly (4 + data.getBuffersSize)
        (encodeSizedWithLength data.getBuffersSize (encodeDataBuffers data nested))
        data.encodeWithLength := by
  have tupleJoined : (tuple.items.flatMap fun item =>
      [if item.length ≠ 0 then item else encodeNull]).flatten = tuple.encodeBuffers := by
    simp [flatten_flatMap, Tuple.encodeBuffers]
  have dataJoined : (data.elements.flatMap fun element =>
      [if !element.isUnset then element.copyBuffer highestSupportedProtocolVersion
        else encodeNull]).flatten = data.encodeBuffers := by
    simp [flatten_flatMap, AbstractData.encodeBuffers]
  exact ⟨encodeItems_fills collection version, encodeCollection_fills collection,
    encodeCollectionWithLength_fills collection version,
    (writes_tuple tuple).fills tupleJoined tuple.length_encodeBuffers,
    (writes_tuple tuple).fillsWithLength tupleJoined tuple.length_encodeBuffers,
    (writes_data data nested).fills dataJoined data.length_encodeBuffers,
    (writes_data data nested).fillsWithLength dataJoined data.length_encodeBuffers⟩

end DseDriver.Encoding
