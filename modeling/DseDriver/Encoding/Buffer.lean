import DseDriver.Cql.Serialization

/-!
# Request buffers

A request is encoded into a list of `Buffer`s.  A buffer is allocated with a size and
filled by writes at offsets, each of which asserts that it stays inside; `none` is a
failed assertion.  Fresh memory holds arbitrary bytes `junk`.
-/

namespace DseDriver.Encoding

open Lib

abbrev Buffer := List UInt8

namespace Buffer

/-- `Buffer(size)`. -/
def alloc (junk : Nat → UInt8) (size : Nat) : Buffer :=
  (List.range size).map junk

@[simp] theorem alloc_length (junk : Nat → UInt8) (size : Nat) : (alloc junk size).length = size := by
  simp [alloc]

/-- The integer writes share this body: the size check, the store and the next offset. -/
def put (buf : Buffer) (offset : Nat) (bytes : List UInt8) : Option (Buffer × Nat) :=
  (writeAt buf offset bytes).map (·, offset + bytes.length)

def encodeUint16 (buf : Buffer) (offset : Nat) (value : UInt16) : Option (Buffer × Nat) :=
  buf.put offset (Cql.encodeUint16 value)

def encodeInt32 (buf : Buffer) (offset : Nat) (value : Int32) : Option (Buffer × Nat) :=
  buf.put offset (Cql.encodeInt32 value)

/-- `copy`, which also reads `size` bytes of its source. -/
def copy (buf : Buffer) (offset : Nat) (value : List UInt8) (size : Nat) :
    Option (Buffer × Nat) := do
  buf.put offset (← readAt value 0 size)

/-! ## Writes in sequence -/

theorem put_eq_writeChunks (buf : Buffer) (pos : Nat) (chunk : List UInt8) :
    buf.put pos chunk = writeChunks buf pos [chunk] := by
  rw [put, writeChunks]
  cases writeAt buf pos chunk <;> rfl

/-- Chunks that fill a fresh buffer are what it holds afterwards. -/
theorem writeChunks_alloc (junk : Nat → UInt8) {size : Nat} {chunks : List (List UInt8)}
    (sized : chunks.flatten.length = size) :
    writeChunks (alloc junk size) 0 chunks = some (chunks.flatten, size) := by
  have filled : writeChunks ([] ++ alloc junk size) 0 chunks =
      some ([] ++ chunks.flatten, 0 + chunks.flatten.length) :=
    writeChunks_fill rfl (by rw [alloc_length, sized])
  rw [sized, Nat.zero_add] at filled
  exact filled

theorem copy_all (buf : Buffer) (offset : Nat) (value : List UInt8) :
    buf.copy offset value value.length = buf.put offset value := by
  have all : readAt value 0 value.length = some value := by
    simp [readAt]
  rw [copy, all]
  rfl

/-- A write of a size and of that many bytes. -/
theorem put_bind_put (buf : Buffer) (pos : Nat) (first second : List UInt8) :
    ((buf.put pos first).bind fun written => written.1.put written.2 second) =
      writeChunks buf pos [first, second] := by
  simp only [put_eq_writeChunks]
  exact (writeChunks_append buf pos [first] [second]).symm

end Buffer

end DseDriver.Encoding
