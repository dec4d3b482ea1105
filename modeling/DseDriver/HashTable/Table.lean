import DseDriver.HashTable.StringRef
import DseDriver.Lib.IntrusiveList
import Mathlib.Tactic.Ring

/-!
# The case-insensitive hash table

`CaseInsensitiveHashTable` keeps named entries in a vector and indexes them by name with
open addressing.  A bucket points to the first entry of a name up to case; further
entries of that name are chained through the entries' `next` pointers.

Entries live in blocks of storage.  A vector that grows moves its entries to a new block
and releases the old one; reading or writing an entry of a released block is undefined
behaviour, for which the functions here have no result.  A table created with a capacity
and `reserve` get exactly the capacity they ask for.
-/

namespace DseDriver.HashTable

open Lib

/-! ## Entries and their storage -/

/-- The address of an entry: a block of storage and a slot in it. -/
structure Pointer where
  block : Nat
  slot : Nat
  deriving DecidableEq, Repr

/-- The fields of an entry the table uses: the name, and those of `HashTableEntry`. -/
structure Entry where
  name : List UInt8
  index : Nat
  next : Option Pointer
  deriving DecidableEq, Repr

/-- An entry as its constructor leaves it. -/
def Entry.named (name : List UInt8) : Entry where
  name := name
  index := 0
  next := none

/-- The blocks allocated so far, with their entries; a released block has none. -/
structure Heap where
  blocks : List (Option (List Entry))
  deriving DecidableEq, Repr

namespace Heap

variable (heap : Heap)

def entries (block : Nat) : Option (List Entry) :=
  heap.blocks[block]?.join

def read (pointer : Pointer) : Option Entry := do
  let entries ← heap.entries pointer.block
  entries[pointer.slot]?

def setEntries (block : Nat) (entries : List Entry) : Heap :=
  ⟨heap.blocks.set block (some entries)⟩

def write (pointer : Pointer) (entry : Entry) : Option Heap := do
  let entries ← heap.entries pointer.block
  if pointer.slot < entries.length then
    some (heap.setEntries pointer.block (entries.set pointer.slot entry))
  else none

def allocate (entries : List Entry) : Heap :=
  ⟨heap.blocks ++ [some entries]⟩

def release (block : Nat) : Heap :=
  ⟨heap.blocks.set block none⟩

/-- The number of live entries: a longer walk along `next` pointers never ends. -/
def liveEntries : Nat :=
  (heap.blocks.map fun block => (block.getD []).length).sum

end Heap

/-! ## The table -/

/-- `next_pow_2`'s loop; the limit is never reached. -/
def nextPow2Loop (num : Nat) : Nat → Nat → Nat → Nat
  | 0, next, _ => next
  | limit + 1, next, i =>
    if next < num then nextPow2Loop num limit (1 <<< i) (i + 1) else next

/-- `next_pow_2`. -/
def nextPow2 (num : Nat) : Nat :=
  nextPow2Loop num (num + 1) 2 0

theorem nextPow2Loop_spec (num limit next i : Nat) (power : ∃ e, next = 2 ^ e)
    (grown : num < i + limit) (reached : 0 < i → 2 ^ (i - 1) ≤ next) :
    (∃ e, nextPow2Loop num limit next i = 2 ^ e) ∧ num ≤ nextPow2Loop num limit next i := by
  induction limit generalizing next i with
  | zero =>
    rw [nextPow2Loop]
    refine ⟨power, ?_⟩
    have large := reached (by omega)
    have below : i - 1 < 2 ^ (i - 1) := Nat.lt_two_pow_self
    omega
  | succ limit ih =>
    rw [nextPow2Loop]
    split
    · rw [Nat.one_shiftLeft]
      exact ih (2 ^ i) (i + 1) ⟨i, rfl⟩ (by omega) fun _ => Nat.le_refl _
    · exact ⟨power, by omega⟩

theorem nextPow2_spec (num : Nat) : (∃ e, nextPow2 num = 2 ^ e) ∧ num ≤ nextPow2 num :=
  nextPow2Loop_spec num (num + 1) 2 0 ⟨1, rfl⟩ (by omega) fun positive => absurd positive (by omega)

/-- `CaseInsensitiveHashTable`. -/
structure CaseInsensitiveHashTable where
  indexMask : Nat
  index : List (Option Pointer)
  /-- The storage of `entries_`. -/
  block : Nat
  /-- `entries_.capacity()`. -/
  capacity : Nat
  deriving DecidableEq, Repr

namespace CaseInsensitiveHashTable

variable (heap : Heap) (table : CaseInsensitiveHashTable)

/-- The probing loop of `get_indices` and `add_index`: the bucket it stops at, or none
when it has come around to its start. -/
def probe (heap : Heap) (table : CaseInsensitiveHashTable) (name : List UInt8)
    (start : Nat) : Nat → Nat → Option (Option Nat)
  | 0, _ => none
  | limit + 1, h =>
    match table.index[h]? with
    | none => none
    | some none => some (some h)
    | some (some pointer) =>
      match heap.read pointer with
      | none => none
      | some entry =>
        if StringRef.iequals name entry.name then some (some h)
        else
          let h := (h + 1) &&& table.indexMask
          if h = start then some none else probe heap table name start limit h

/-- The bucket a name hashes to. -/
def bucketOf (name : List UInt8) : Nat :=
  (fnv1a name toLower).toNat &&& table.indexMask

def setBucket (h : Nat) (entry : Pointer) : CaseInsensitiveHashTable :=
  { table with index := table.index.set h (some entry) }

/-- Append an entry to the chain of a bucket. -/
def chainEntry (first entry : Pointer) : Option Heap := do
  let curr ← lastNode heap.read Entry.next heap.liveEntries first
  let last ← heap.read curr
  heap.write curr { last with next := some entry }

/-- `add_index`. -/
def addIndex (entry : Pointer) : Option (Heap × CaseInsensitiveHashTable) := do
  let added ← heap.read entry
  let h := table.bucketOf added.name
  match ← table.index[h]? with
  | none => some (heap, table.setBucket h entry)
  | some _ =>
    match ← table.probe heap added.name h table.index.length h with
    -- The entry is dropped from the index when there is no open bucket.
    | none => some (heap, table)
    | some h =>
      match ← table.index[h]? with
      | none => some (heap, table.setBucket h entry)
      | some first => do
        let heap ← chainEntry heap first entry
        some (heap, table)

/-- `entries_.reserve`: the entries are copied, `next` pointers included. -/
def reserve (capacity : Nat) : Option (Heap × CaseInsensitiveHashTable) :=
  if table.capacity < capacity then do
    let entries ← heap.entries table.block
    some ((heap.release table.block).allocate entries,
      { table with block := heap.blocks.length, capacity })
  else some (heap, table)

/-- `reset`.  The quotient by the load factor is exact for every capacity below `2 ^ 50`,
and larger tables do not fit into memory. -/
def reset (capacity : Nat) : Option (Heap × CaseInsensitiveHashTable) :=
  let capacity := if capacity < table.capacity then table.capacity else capacity
  let indexCapacity := nextPow2 (capacity * 4 / 3 + 1)
  reserve heap
    { table with
      index := List.replicate indexCapacity none
      indexMask := indexCapacity - 1 }
    capacity

/-- The body of `reindex`'s loop. -/
def reindexEntry (state : Heap × CaseInsensitiveHashTable) (i : Nat) :
    Option (Heap × CaseInsensitiveHashTable) := do
  let pointer : Pointer := ⟨state.2.block, i⟩
  let entry ← state.1.read pointer
  let heap ← state.1.write pointer { entry with index := i }
  addIndex heap state.2 pointer

/-- `reindex`. -/
def reindex : Option (Heap × CaseInsensitiveHashTable) := do
  let entries ← heap.entries table.block
  (List.range entries.length).foldlM reindexEntry (heap, table)

/-- `resize`. -/
def resize (newCapacity : Nat) : Option (Heap × CaseInsensitiveHashTable) := do
  let (heap, table) ← reset heap table newCapacity
  reindex heap table

/-- The part of `add` after the table has room: store the entry and index it. -/
def pushBack (entry : Entry) : Option (Heap × CaseInsensitiveHashTable) := do
  let entries ← heap.entries table.block
  let index := entries.length
  let heap := heap.setEntries table.block (entries ++ [{ entry with index := index }])
  addIndex heap table ⟨table.block, index⟩

/-- The growth at the start of `add`. -/
def makeRoom (index : Nat) : Option (Heap × CaseInsensitiveHashTable) :=
  if index ≥ table.capacity then resize heap table (2 * table.capacity)
  else some (heap, table)

/-- `add`, with the index it returns. -/
def add (entry : Entry) : Option ((Heap × CaseInsensitiveHashTable) × Nat) := do
  let entries ← heap.entries table.block
  let index := entries.length
  let (heap, table) ← makeRoom heap table index
  let state ← pushBack heap table entry
  some (state, index)

/-- The members as they are first constructed: the vector of entries has room for 16. -/
def constructed (block : Nat) : CaseInsensitiveHashTable where
  indexMask := 0
  index := []
  block := block
  capacity := 16

/-- The constructor with a capacity. -/
def create (capacity : Nat) : Option (Heap × CaseInsensitiveHashTable) :=
  reset (heap.allocate []) (constructed heap.blocks.length) capacity

/-- The double quote. -/
def quote : UInt8 := 34

/-- The name to look for and whether its case matters.  There is no result for a lone
quote, which `substr` asserts against. -/
def unquote (name : List UInt8) : Option (Bool × List UInt8) :=
  if name.length > 0 ∧ name.head? = some quote ∧ name.getLast? = some quote then
    if 1 < name.length then some (true, (name.drop 1).take (name.length - 2)) else none
  else some (false, name)

/-- `get_indices`: the returned count and the indices it leaves in the result.  The name
is absent for a `StringRef` without data. -/
def getIndices (name : Option (List UInt8)) : Option (Nat × List Nat) :=
  match name with
  | none => some (0, [])
  | some name => do
    let (isCaseSensitive, name) ← unquote name
    let h := table.bucketOf name
    match ← table.probe heap name h table.index.length h with
    | none => some (0, [])
    | some h =>
      match ← table.index[h]? with
      | none => some (0, [])
      | some entry => do
        let result ← follow heap.read Entry.next
          (fun result entry =>
            if isCaseSensitive && !StringRef.equals name entry.name then result
            else result ++ [entry.index])
          heap.liveEntries (some entry) []
        some (result.length, result)

/-- A table filled with `add` calls. -/
def addAll (state : Heap × CaseInsensitiveHashTable) (names : List (List UInt8)) :
    Option (Heap × CaseInsensitiveHashTable) :=
  names.foldlM (fun state name => (add state.1 state.2 (.named name)).map Prod.fst) state

end CaseInsensitiveHashTable

open CaseInsensitiveHashTable

/-- Create a table and add entries with the names to it. -/
def fill (heap : Heap) (capacity : Nat) (names : List (List UInt8)) :
    Option (Heap × CaseInsensitiveHashTable) := do
  let state ← create heap capacity
  addAll state names

end DseDriver.HashTable
