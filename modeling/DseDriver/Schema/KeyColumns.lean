import DseDriver.Cql.ClassNameRoundTrip
import DseDriver.Lib.Slots
import Mathlib.Data.List.Induction

/-!
# Key columns of tables

`build_keys_and_sort` collects the partition key and the clustering key of a table from its columns
and puts them in front of the other columns.  From version 2 on each key column has its position.
Before that the keys are parsed from class names, and a component that has no alias is named by its
number.
-/

namespace DseDriver.Schema

open Cql Lib List Option
open DataTypeClassNameParser (ParseResult parseWithComposite)

/-- `CassColumnType`. -/
inductive ColumnType where
  | regular
  | partitionKey
  | clusteringKey
  | static
  | compactValue
  deriving DecidableEq, Repr

/-- `CassClusteringOrder`. -/
inductive ClusteringOrder where
  | none
  | asc
  | desc
  deriving DecidableEq, Repr

/-- `ColumnMetadata`. -/
structure ColumnMetadata where
  name : List Char
  type : ColumnType
  position : Int
  dataType : DataType
  isReversed : Bool

/-- The fields of a table that the keys depend on before version 2.  A list that is not there is
empty. -/
structure LegacyFields where
  keyAliases : List (List Char)
  keyValidator : List Char
  columnAliases : List (List Char)
  comparator : List Char

/-- The columns of a `TableMetadataBase`, with the names of `columns_by_name_`.  A column that is
`none` is a null pointer. -/
structure TableColumns where
  columns : List (Option ColumnMetadata)
  names : List (List Char)
  partitionKey : List (Option ColumnMetadata)
  clusteringKey : List (Option ColumnMetadata)
  clusteringKeyOrder : List ClusteringOrder

namespace TableColumns

/-- The columns of a new table. -/
def new : TableColumns := ⟨[], [], [], [], []⟩

/-- The surrogate column of a dense table. -/
def isSurrogate (major : Nat) (column : ColumnMetadata) : Bool :=
  if 3 ≤ major then
    column.type = .regular &&
      column.dataType matches .custom "org.apache.cassandra.db.marshal.EmptyType"
  else
    column.type = .compactValue && column.name.isEmpty

/-- `TableMetadata::add_column`. -/
def addColumn (major : Nat) (table : TableColumns) (column : ColumnMetadata) : TableColumns :=
  if isSurrogate major column ∨ column.name ∈ table.names then
    table
  else
    { table with columns := table.columns ++ [some column], names := table.names ++ [column.name] }

/-- `clear_columns`.  The order of the clustering key stays. -/
def clearColumns (table : TableColumns) : TableColumns :=
  { new with clusteringKeyOrder := table.clusteringKeyOrder }

/-! ## Keys by position -/

/-- `resize` of a vector. -/
def resize {α : Type} (count : Nat) (fill : α) (values : List α) : List α :=
  values.take count ++ List.replicate (count - values.length) fill

/-- The order of a clustering column. -/
def orderOf (isReversed : Bool) : ClusteringOrder := if isReversed then .desc else .asc

/-- A key column is written to its position. -/
def placeColumn (table : TableColumns) (column : ColumnMetadata) : TableColumns :=
  if column.type = .partitionKey ∧ 0 ≤ column.position ∧
      column.position.toNat < table.partitionKey.length then
    { table with partitionKey := table.partitionKey.set column.position.toNat (some column) }
  else if column.type = .clusteringKey ∧ 0 ≤ column.position ∧
      column.position.toNat < table.clusteringKey.length then
    { table with
      clusteringKey := table.clusteringKey.set column.position.toNat (some column)
      clusteringKeyOrder :=
        table.clusteringKeyOrder.set column.position.toNat (orderOf column.isReversed) }
  else
    table

/-- Neither kind of key. -/
def isOther (column : ColumnMetadata) : Bool :=
  column.type ≠ .partitionKey ∧ column.type ≠ .clusteringKey

/-- `get_column_count`. -/
def columnCount (columns : List ColumnMetadata) (type : ColumnType) : Nat :=
  columns.countP fun column => column.type = type

/-- `build_keys_and_sort` from version 2 on; `none` when a null pointer is dereferenced. -/
def sortByPosition (table : TableColumns) : Option TableColumns := do
  let columns ← table.columns.mapM id
  let clusteringKey := resize (columnCount columns .clusteringKey) none table.clusteringKey
  let sized :=
    { table with
      partitionKey := resize (columnCount columns .partitionKey) none table.partitionKey
      clusteringKey
      clusteringKeyOrder := resize clusteringKey.length .none table.clusteringKeyOrder }
  let placed := columns.foldl placeColumn sized
  return {
    placed with
    columns := placed.partitionKey ++ placed.clusteringKey ++ (columns.filter isOther).map some }

/-! ## Keys by class names -/

/-- A string stream, with its content and where it writes. -/
structure OStringStream where
  content : List Char
  position : Nat

namespace OStringStream

/-- A stream that is constructed from a text writes at its start. -/
def new (text : List Char) : OStringStream := ⟨text, 0⟩

def write (stream : OStringStream) (text : List Char) : OStringStream :=
  ⟨stream.content.take stream.position ++ text ++
      stream.content.drop (stream.position + text.length),
    stream.position + text.length⟩

def seekp (stream : OStringStream) (position : Nat) : OStringStream :=
  { stream with position }

end OStringStream

def decimal (number : Nat) : List Char := Nat.toDigits 10 number

/-- The name of a component of a key. -/
def componentName (word : List Char) (aliases : List (List Char)) (i : Nat) : List Char :=
  match aliases[i]? with
  | some name => name
  | none =>
    let stream := OStringStream.new word
    (if i > 0 then stream.write (decimal (i + 1)) else stream).content

/-- The columns of a key that is appended to a vector. -/
def componentColumns (word : List Char) (type : ColumnType) (aliases : List (List Char))
    (first : Nat) (types : List DataType) : List (Option ColumnMetadata) :=
  types.zipIdx.map fun component => some
    { name := componentName word aliases component.2
      type
      position := first + component.2
      dataType := component.1
      isReversed := false }

/-- The number of clustering components; `none` when one is taken from none at all. -/
def clusteringSize (comparator : ParseResult)
    (columnAliases : List (List Char)) (isEmpty : Bool) : Option Nat :=
  let size := comparator.types.length
  if comparator.isComposite then
    if comparator.collections.entries ≠ [] ∨ columnAliases.length + 1 = size ∧
        comparator.types.getLast? matches some (.simple .text) then
      if size = 0 then none else some (size - 1)
    else
      some size
  else
    some (if columnAliases ≠ [] ∨ isEmpty then size else 0)

/-- `build_keys_and_sort` before version 2; `none` when a null pointer is dereferenced. -/
def sortByClassNames (fields : LegacyFields) (table : TableColumns) : Option TableColumns := do
  let keyValidator ← parseWithComposite fields.keyValidator
  let partitionKey := table.partitionKey ++ componentColumns "key".toList .partitionKey
    fields.keyAliases table.partitionKey.length keyValidator.types
  let comparator ← parseWithComposite fields.comparator
  let size ← clusteringSize comparator fields.columnAliases table.columns.isEmpty
  let clusteringKey := table.clusteringKey ++ componentColumns "column".toList .clusteringKey
    fields.columnAliases table.clusteringKey.length (comparator.types.take size)
  return {
    table with
    partitionKey
    clusteringKey
    clusteringKeyOrder :=
      table.clusteringKeyOrder ++ (comparator.reversed.take size).map orderOf
    columns := partitionKey ++ clusteringKey ++ table.columns }

/-- `build_keys_and_sort`. -/
def buildKeysAndSort (major : Nat) (fields : LegacyFields) (table : TableColumns) :
    Option TableColumns :=
  if 2 ≤ major then table.sortByPosition else table.sortByClassNames fields

/-- `TableMetadata::key_aliases`, which writes all names into one stream. -/
def keyAliases (fields : LegacyFields) : Option (List (List Char)) :=
  if fields.keyAliases ≠ [] then
    some fields.keyAliases
  else do
    let keyValidator ← parseWithComposite fields.keyValidator
    let (_, names) := (List.range keyValidator.types.length).foldl
      (fun (stream, names) i =>
        let stream : OStringStream :=
          if i > 0 then (stream.seekp 3).write (decimal (i + 1)) else stream
        (stream, names ++ [stream.content])) (OStringStream.new "key".toList, [])
    return names

/-! ## The layout by positions -/

/-- The position that a key column is written to in a key of a size. -/
def keySlot (type : ColumnType) (size : Nat) (column : ColumnMetadata) : Option Nat :=
  if column.type = type ∧ 0 ≤ column.position ∧ column.position.toNat < size then
    some column.position.toNat
  else
    none

theorem placeColumn_eq (table : TableColumns) (column : ColumnMetadata) :
    table.placeColumn column =
      { table with
        partitionKey := writeSlot (keySlot .partitionKey table.partitionKey.length) some
          table.partitionKey column
        clusteringKey := writeSlot (keySlot .clusteringKey table.clusteringKey.length) some
          table.clusteringKey column
        clusteringKeyOrder := writeSlot (keySlot .clusteringKey table.clusteringKey.length)
          (fun column => orderOf column.isReversed) table.clusteringKeyOrder column } := by
  unfold placeColumn writeSlot keySlot
  split_ifs with partition clustering clustering
  · rw [partition.1] at clustering
    cases clustering.1
  · rfl
  · rfl
  · rfl

theorem foldl_placeColumn (columns : List ColumnMetadata) (table : TableColumns) :
    columns.foldl placeColumn table =
      { table with
        partitionKey := writeSlots (keySlot .partitionKey table.partitionKey.length) some columns
          table.partitionKey
        clusteringKey := writeSlots (keySlot .clusteringKey table.clusteringKey.length) some columns
          table.clusteringKey
        clusteringKeyOrder := writeSlots (keySlot .clusteringKey table.clusteringKey.length)
          (fun column => orderOf column.isReversed) columns table.clusteringKeyOrder } := by
  induction columns generalizing table with
  | nil => rfl
  | cons column columns ih =>
    rw [foldl_cons, ih, placeColumn_eq]
    simp only [length_writeSlot]
    rfl

@[simp] theorem length_resize {α : Type} (count : Nat) (fill : α) (values : List α) :
    (resize count fill values).length = count := by
  simp [resize]
  omega

/-- The keys from version 2 on, for a table whose columns are given. -/
theorem sortByPosition_eq {table : TableColumns} {columns : List ColumnMetadata}
    (given : table.columns = columns.map some) :
    table.sortByPosition =
      let partitionCount := columnCount columns .partitionKey
      let clusteringCount := columnCount columns .clusteringKey
      let partitionKey := writeSlots (keySlot .partitionKey partitionCount) some columns
        (resize partitionCount none table.partitionKey)
      let clusteringKey := writeSlots (keySlot .clusteringKey clusteringCount) some columns
        (resize clusteringCount none table.clusteringKey)
      some
        { columns := partitionKey ++ clusteringKey ++ (columns.filter isOther).map some
          names := table.names
          partitionKey
          clusteringKey
          clusteringKeyOrder := writeSlots (keySlot .clusteringKey clusteringCount)
            (fun column => orderOf column.isReversed) columns
            (resize clusteringCount .none table.clusteringKeyOrder) } := by
  have all : table.columns.mapM id = some columns := by
    rw [given]
    clear given
    induction columns with
    | nil => rfl
    | cons column columns ih => rw [map_cons, mapM_cons, ih]; rfl
  rw [sortByPosition, all, bind_eq_bind, bind_some]
  simp only [foldl_placeColumn, length_resize]
  rfl

/-- Key columns whose positions are `0, …, count - 1` are put in this order. -/
theorem exists_key {columns : List ColumnMetadata} {type : ColumnType} {count : Nat}
    (positions : ((columns.filter fun column => column.type = type).map
      ColumnMetadata.position).Perm ((List.range count).map Int.ofNat)) :
    columnCount columns type = count ∧
      ∃ key : List ColumnMetadata, key.Perm (columns.filter fun column => column.type = type) ∧
        key.map ColumnMetadata.position = (List.range count).map Int.ofNat ∧
        ∀ {β : Type} (value : ColumnMetadata → β) (slots : List β), slots.length = count →
          writeSlots (keySlot type count) value columns slots = key.map value := by
  have counted : columnCount columns type = count := by
    rw [columnCount, countP_eq_length_filter]
    simpa using positions.length_eq
  have slot_eq {column : ColumnMetadata} (member : column ∈ columns) (own : column.type = type) :
      ∃ i, keySlot type count column = some i ∧ column.position = Int.ofNat i := by
    have listed := positions.mem_iff.mp (List.mem_map_of_mem (mem_filter.mpr
      ⟨member, by simpa using own⟩))
    obtain ⟨i, inside, same⟩ := List.mem_map.mp listed
    refine ⟨i, ?_, same.symm⟩
    rw [keySlot, ← same]
    simpa [own] using mem_range.mp inside
  have chosen : (columns.filter fun column => (keySlot type count column).isSome) =
      columns.filter fun column => column.type = type := by
    apply filter_congr
    intro column member
    by_cases own : column.type = type
    · obtain ⟨i, slot, -⟩ := slot_eq member own
      simp [slot, own]
    · simp [keySlot, own]
  have each : (columns.filterMap (keySlot type count)).Perm (List.range count) := by
    have named : (columns.filterMap (keySlot type count)).map Int.ofNat =
        (columns.filter fun column => column.type = type).map ColumnMetadata.position := by
      clear positions chosen counted
      induction columns with
      | nil => rfl
      | cons column columns ih =>
        have rest := ih fun member => slot_eq (mem_cons_of_mem column member)
        by_cases own : column.type = type
        · obtain ⟨i, slot, position⟩ := slot_eq mem_cons_self own
          rw [filterMap_cons_some slot, filter_cons_of_pos (by simpa using own),
            map_cons, map_cons, position, rest]
        · rw [filterMap_cons_none (by simp [keySlot, own]),
            filter_cons_of_neg (by simpa using own), rest]
    rw [← named] at positions
    exact (map_perm_map_iff fun _ _ same => Int.ofNat.inj same).mp positions
  obtain ⟨key, perm, slots⟩ := exists_sorted_slots each
  rw [chosen] at perm
  refine ⟨counted, key, perm, ?_, ?_⟩
  · have bySlot : key.map ColumnMetadata.position =
        (key.map (keySlot type count)).map fun slot => Int.ofNat (slot.getD 0) := by
      rw [List.map_map]
      apply map_congr_left
      intro column member
      obtain ⟨inColumns, own⟩ := mem_filter.mp (perm.mem_iff.mp member)
      obtain ⟨i, slot, position⟩ := slot_eq inColumns (by simpa using own)
      simp [slot, position]
    rw [bySlot, slots, List.map_map]
    rfl
  · intro β value slots' length
    exact writeSlots_eq_map (chosen ▸ perm) (length ▸ slots)

/-- The three kinds of columns together. -/
theorem perm_kinds (columns : List ColumnMetadata) :
    ((columns.filter fun column => column.type = .partitionKey) ++
      (columns.filter fun column => column.type = .clusteringKey) ++
        columns.filter isOther).Perm columns := by
  have keys := filter_append_perm (fun column => column.type = .partitionKey) columns
  have others := filter_append_perm (fun column => column.type = .clusteringKey)
    (columns.filter fun column => !decide (column.type = .partitionKey))
  rw [List.filter_filter, List.filter_filter] at others
  have clustering : (columns.filter fun column =>
      decide (column.type = .clusteringKey) && !decide (column.type = .partitionKey)) =
      columns.filter fun column => column.type = .clusteringKey := by
    apply filter_congr
    intro column _
    cases column.type <;> rfl
  have other : (columns.filter fun column =>
      !decide (column.type = .clusteringKey) && !decide (column.type = .partitionKey)) =
      columns.filter isOther := by
    apply filter_congr
    intro column _
    rw [isOther]
    cases column.type <;> rfl
  rw [clustering, other] at others
  rw [append_assoc]
  exact (others.append_left _).trans keys

/-- The columns are the partition key and the clustering key, both in the order of their positions,
and the other columns in the order they had. -/
theorem buildKeysAndSort_layout {major : Nat} (modern : 2 ≤ major) (fields : LegacyFields)
    {table : TableColumns} {columns : List ColumnMetadata}
    (given : table.columns = columns.map some) {partitionCount clusteringCount : Nat}
    (partitionPositions : ((columns.filter fun column => column.type = .partitionKey).map
      ColumnMetadata.position).Perm ((List.range partitionCount).map Int.ofNat))
    (clusteringPositions : ((columns.filter fun column => column.type = .clusteringKey).map
      ColumnMetadata.position).Perm ((List.range clusteringCount).map Int.ofNat)) :
    ∃ partitionKey clusteringKey built, table.buildKeysAndSort major fields = some built ∧
      partitionKey.Perm (columns.filter fun column => column.type = .partitionKey) ∧
      partitionKey.map ColumnMetadata.position = (List.range partitionCount).map Int.ofNat ∧
      clusteringKey.Perm (columns.filter fun column => column.type = .clusteringKey) ∧
      clusteringKey.map ColumnMetadata.position = (List.range clusteringCount).map Int.ofNat ∧
      (partitionKey ++ clusteringKey ++ columns.filter isOther).Perm columns ∧
      built.columns = (partitionKey ++ clusteringKey ++ columns.filter isOther).map some ∧
      built.partitionKey = partitionKey.map some ∧ built.clusteringKey = clusteringKey.map some ∧
      built.clusteringKeyOrder = clusteringKey.map fun column =>
        if column.isReversed then .desc else .asc := by
  obtain ⟨partitionCounted, partitionKey, partitionPerm, partitionSorted, partitionWritten⟩ :=
    exists_key partitionPositions
  obtain ⟨clusteringCounted, clusteringKey, clusteringPerm, clusteringSorted, clusteringWritten⟩ :=
    exists_key clusteringPositions
  refine ⟨partitionKey, clusteringKey, _, (if_pos modern).trans (sortByPosition_eq given),
    partitionPerm, partitionSorted, clusteringPerm, clusteringSorted, ?_, ?_, ?_, ?_, ?_⟩
  · exact (partitionPerm.append clusteringPerm).append_right _ |>.trans (perm_kinds columns)
  · simp only [partitionCounted, clusteringCounted]
    rw [partitionWritten some _ (length_resize ..), clusteringWritten some _ (length_resize ..),
      map_append, map_append]
  · simp only [partitionCounted]
    exact partitionWritten some _ (length_resize ..)
  · simp only [clusteringCounted]
    exact clusteringWritten some _ (length_resize ..)
  · simp only [clusteringCounted]
    exact clusteringWritten _ _ (length_resize ..)

/-- A table with its key columns behind another one and in the wrong order. -/
def sensorColumns : List ColumnMetadata :=
  [⟨['v'], .regular, -1, .simple .int, false⟩, ⟨['t'], .clusteringKey, 1, .simple .int, true⟩,
    ⟨['d'], .clusteringKey, 0, .simple .int, false⟩, ⟨['i'], .partitionKey, 0, .simple .int, false⟩]

theorem buildKeysAndSort_layout_sensor :
    ∃ partitionKey clusteringKey built,
      ({ new with columns := sensorColumns.map some }).buildKeysAndSort 3 ⟨[], [], [], []⟩ =
        some built ∧
      partitionKey.Perm (sensorColumns.filter fun column => column.type = .partitionKey) ∧
      partitionKey.map ColumnMetadata.position = (List.range 1).map Int.ofNat ∧
      clusteringKey.Perm (sensorColumns.filter fun column => column.type = .clusteringKey) ∧
      clusteringKey.map ColumnMetadata.position = (List.range 2).map Int.ofNat ∧
      (partitionKey ++ clusteringKey ++ sensorColumns.filter isOther).Perm sensorColumns ∧
      built.columns = (partitionKey ++ clusteringKey ++ sensorColumns.filter isOther).map some ∧
      built.partitionKey = partitionKey.map some ∧ built.clusteringKey = clusteringKey.map some ∧
      built.clusteringKeyOrder = clusteringKey.map fun column =>
        if column.isReversed then .desc else .asc :=
  buildKeysAndSort_layout (by decide) _ rfl (by decide) (by decide)

/-! ## Refreshing the columns -/

def addColumns (major : Nat) (table : TableColumns) (columns : List ColumnMetadata) : TableColumns :=
  columns.foldl (addColumn major) table

variable (major : Nat) (fields : LegacyFields) (columns : List ColumnMetadata)

/-- The columns of a cleared table, whatever order of the clustering key has stayed. -/
theorem exists_added :
    ∃ (added : List ColumnMetadata) (names : List (List Char)), ∀ order,
      addColumns major ⟨[], [], [], [], order⟩ columns = ⟨added.map some, names, [], [], order⟩ := by
  induction columns using List.reverseRecOn with
  | nil => exact ⟨[], [], fun _ => rfl⟩
  | append_singleton columns column ih =>
    obtain ⟨added, names, same⟩ := ih
    by_cases left : isSurrogate major column ∨ column.name ∈ names
    · refine ⟨added, names, fun order => ?_⟩
      rw [addColumns, foldl_concat]
      exact (congrArg (addColumn major · column) (same order)).trans (if_pos left)
    · refine ⟨added ++ [column], names ++ [column.name], fun order => ?_⟩
      rw [addColumns, foldl_concat, map_append]
      exact (congrArg (addColumn major · column) (same order)).trans (if_neg left)

/-- The columns are cleared and added again, and the keys are built again. -/
def refresh (built : TableColumns) : Option TableColumns :=
  (built.clearColumns.addColumns major columns).buildKeysAndSort major fields

/-- A refresh with the same columns changes nothing, and each clustering column has an order. -/
def Refreshes : Prop :=
  ∃ built, (new.addColumns major columns).buildKeysAndSort major fields = some built ∧
    refresh major fields columns built = some built ∧
    built.clusteringKeyOrder.length = built.clusteringKey.length

/-- A comparator that stands for no clustering component, in a table with or without columns.  The
last part of a composite may stand for its collections or for the value. -/
def NoClustering (comparator : ParseResult) (columnAliases : List (List Char)) (isEmpty : Bool) :
    Prop :=
  if comparator.isComposite then
    comparator.types = [] ∧ comparator.collections.entries = [] ∨
      comparator.types.length = 1 ∧ (comparator.collections.entries ≠ [] ∨
        columnAliases = [] ∧ (comparator.types.getLast? matches some (.simple .text)))
  else
    comparator.types = [] ∨ columnAliases = [] ∧ isEmpty = false

theorem clusteringSize_eq_zero_iff {comparator : ParseResult} {columnAliases : List (List Char)}
    {isEmpty : Bool} : clusteringSize comparator columnAliases isEmpty = some 0 ↔
      NoClustering comparator columnAliases isEmpty := by
  unfold clusteringSize NoClustering
  generalize (comparator.types.getLast? matches some (.simple .text)) = isText
  have noTypes : comparator.types = [] ↔ comparator.types.length = 0 := length_eq_zero_iff.symm
  have unnamed : columnAliases = [] ↔ columnAliases.length = 0 := length_eq_zero_iff.symm
  grind

theorem resize_of_length {α : Type} {count : Nat} {fill : α} {values : List α}
    (length : values.length = count) : resize count fill values = values := by
  simp [resize, ← length]

theorem refreshes_of_modern (modern : 2 ≤ major) : Refreshes major fields columns := by
  obtain ⟨added, names, same⟩ := exists_added major columns
  refine ⟨_, (if_pos modern).trans (sortByPosition_eq (by rw [new, same])), ?_, by simp⟩
  refine (if_pos modern).trans ?_
  rw [clearColumns, new, same, sortByPosition_eq rfl]
  simp only [same]
  have stays : resize (columnCount added .clusteringKey) ClusteringOrder.none
      (writeSlots (keySlot .clusteringKey (columnCount added .clusteringKey))
        (fun column => orderOf column.isReversed) added
        (resize (columnCount added .clusteringKey) .none [])) = _ := resize_of_length (by simp)
  rw [stays, writeSlots_writeSlots]

theorem length_of_mapM {parse : List Char → Option DataType} {texts : List (List Char)}
    {types : List DataType} (each : texts.mapM parse = some types) :
    types.length = texts.length := by
  induction texts generalizing types with
  | nil =>
    cases each
    rfl
  | cons text texts ih =>
    rw [mapM_cons] at each
    obtain ⟨first, -, each⟩ := bind_eq_some_iff.mp each
    obtain ⟨rest, others, made⟩ := bind_eq_some_iff.mp each
    cases made
    simp [ih others]

/-- Each part of a class name may be reversed, and a name that is no composite is one part. -/
theorem shape_of_parsed {text : List Char} {result : ParseResult}
    (parsed : parseWithComposite text = some result) :
    result.reversed.length = result.types.length ∧
      (result.isComposite = false → result.types.length = 1) := by
  rw [parseWithComposite] at parsed
  dsimp only at parsed
  split at parsed
  · obtain ⟨dataType, -, made⟩ := bind_eq_some_iff.mp parsed
    cases made
    exact ⟨rfl, fun _ => rfl⟩
  · split at parsed
    · cases parsed
    · obtain ⟨last, -, parsed⟩ := bind_eq_some_iff.mp parsed
      split at parsed <;>
        obtain ⟨collections, -, parsed⟩ := bind_eq_some_iff.mp parsed <;>
        obtain ⟨types, each, made⟩ := bind_eq_some_iff.mp parsed <;>
        cases made <;>
        exact ⟨(length_map _).trans (length_of_mapM each).symm, by simp⟩

theorem clusteringSize_le {comparator : ParseResult}
    {columnAliases : List (List Char)} {isEmpty : Bool} {size : Nat}
    (counted : clusteringSize comparator columnAliases isEmpty = some size) :
    size ≤ comparator.types.length := by
  unfold clusteringSize at counted
  dsimp only at counted
  split_ifs at counted <;> cases counted <;> omega

/-- A refresh changes nothing exactly from version 2 on or for a table without clustering key. -/
theorem refreshes_iff :
    Refreshes major fields columns ↔
      2 ≤ major ∨ (parseWithComposite fields.keyValidator).isSome ∧
        ∃ comparator ∈ parseWithComposite fields.comparator,
          NoClustering comparator fields.columnAliases
            (new.addColumns major columns).columns.isEmpty := by
  by_cases modern : 2 ≤ major
  · simp only [modern, true_or, iff_true]
    exact refreshes_of_modern major fields columns modern
  · simp only [modern, false_or]
    obtain ⟨added, names, same⟩ := exists_added major columns
    simp only [Refreshes, refresh, buildKeysAndSort, if_neg modern, ← clusteringSize_eq_zero_iff,
      new, clearColumns, same, sortByClassNames]
    cases parseWithComposite fields.keyValidator with
    | none => simp
    | some keyValidator =>
      cases compared : parseWithComposite fields.comparator with
      | none => simp
      | some comparator =>
        simp only [bind_eq_bind, bind_some, isSome_some, true_and,
          mem_some_iff, exists_eq_left']
        cases counted : clusteringSize comparator fields.columnAliases
          (added.map some).isEmpty with
        | none => simp
        | some size =>
          have inside := clusteringSize_le counted
          have both := (shape_of_parsed compared).1
          constructor
          · rintro ⟨built, made, again, -⟩
            cases made
            have twice := congrArg clusteringKeyOrder (Option.some.inj again)
            have none : (comparator.reversed.take size).map orderOf = [] := by
              simpa using twice
            have zero : size = 0 := by
              have shown := congrArg List.length none
              rw [length_map, length_take, length_nil] at shown
              omega
            rw [zero]
          · intro zero
            cases zero
            exact ⟨_, rfl, rfl, rfl⟩

/-- The class name of a key of two integers. -/
def twoIntegers : List Char :=
  DataTypeClassNameParser.compositeName [⟨.simple .int, false⟩, ⟨.simple .int, false⟩] []

theorem parseWithComposite_twoIntegers :
    parseWithComposite twoIntegers =
      some ⟨true, [.simple .int, .simple .int], [false, false], ∅⟩ := by
  have named : ∀ component ∈ [(⟨.simple .int, false⟩ : DataTypeClassNameParser.Component),
      ⟨.simple .int, false⟩], DataTypeClassNameParser.HasClassName component.type := by
    simpa using DataTypeClassNameParser.HasClassName.simple (by decide)
  obtain ⟨parsed, written⟩ := DataTypeClassNameParser.exists_written_components named
  have types := (DataTypeClassNameParser.types_eq_iff written).mpr (by simp)
  subst types
  exact DataTypeClassNameParser.parseWithComposite_written written (by simp)

/-- The keys of a table whose key and column names are two integers. -/
theorem buildKeysAndSort_twoIntegers (keyAliases columnAliases : List (List Char))
    (order : List ClusteringOrder) :
    buildKeysAndSort 1 ⟨keyAliases, twoIntegers, columnAliases, twoIntegers⟩
        ⟨[], [], [], [], order⟩ =
      let types : List DataType := [.simple .int, .simple .int]
      let partitionKey := componentColumns "key".toList .partitionKey keyAliases 0 types
      let clusteringKey := componentColumns "column".toList .clusteringKey columnAliases 0 types
      some ⟨partitionKey ++ clusteringKey ++ [], [], partitionKey, clusteringKey,
        order ++ [.asc, .asc]⟩ := by
  have size : clusteringSize ⟨true, [.simple .int, .simple .int], [false, false], ∅⟩
      columnAliases true = some 2 := if_neg fun fewer => fewer.elim (absurd rfl) nofun
  rw [buildKeysAndSort, if_neg (by decide), sortByClassNames, parseWithComposite_twoIntegers]
  simp only [bind_eq_bind, bind_some, isEmpty_nil, size]
  rfl

/-- The clustering columns of a table before version 2 get their orders twice. -/
theorem refresh_legacy_doubles_order :
    ∃ built refreshed,
      (new.addColumns 1 []).buildKeysAndSort 1 ⟨[], twoIntegers, [], twoIntegers⟩ = some built ∧
      refresh 1 ⟨[], twoIntegers, [], twoIntegers⟩ [] built = some refreshed ∧
      built.clusteringKeyOrder = [.asc, .asc] ∧
      refreshed.clusteringKeyOrder = [.asc, .asc, .asc, .asc] ∧
      refreshed.clusteringKey.length = 2 :=
  ⟨_, _, buildKeysAndSort_twoIntegers [] [] [], buildKeysAndSort_twoIntegers [] [] _, rfl, rfl, rfl⟩

/-! ## Names of legacy components -/

/-- The number of a component is appended to the word, except for the first one. -/
def numberedName (word : List Char) (i : Nat) : List Char :=
  if i = 0 then word else word ++ decimal (i + 1)

/-- Components without alias are numbered, and `key_aliases` agrees. -/
structure NumbersComponents (fields : LegacyFields) (built : TableColumns) : Prop where
  partition : ∀ i column, built.partitionKey[i]? = some (some column) →
    fields.keyAliases.length ≤ i → column.name = numberedName "key".toList i
  clustering : ∀ i column, built.clusteringKey[i]? = some (some column) →
    fields.columnAliases.length ≤ i → column.name = numberedName "column".toList i
  aliases : fields.keyAliases = [] →
    keyAliases fields = some (built.partitionKey.filterMap (Option.map ColumnMetadata.name))

/-- The number is written over the start of the word. -/
theorem componentName_ne {word : List Char} {aliases : List (List Char)} {i : Nat}
    (letter : ∃ first rest, word = first :: rest ∧ first.isDigit = false) (later : 0 < i)
    (unnamed : aliases.length ≤ i) : componentName word aliases i ≠ numberedName word i := by
  obtain ⟨first, rest, rfl, notDigit⟩ := letter
  intro same
  rw [componentName, getElem?_eq_none unnamed] at same
  simp only [OStringStream.new, OStringStream.write, numberedName, later, if_true,
    if_neg (Nat.ne_of_gt later), take_zero, nil_append, cons_append] at same
  cases digits : decimal (i + 1) with
  | nil => exact Nat.toDigits_ne_nil digits
  | cons digit digits' =>
    rw [digits] at same
    have isDigit : digit.isDigit = true :=
      Nat.isDigit_of_mem_toDigits (by decide) (by decide) (digits ▸ mem_cons_self)
    rw [(List.cons.inj same).1, notDigit] at isDigit
    cases isDigit

/-- The components of a key are numbered when only the first has no alias. -/
theorem componentColumns_numbered_iff {word : List Char} {type : ColumnType}
    {aliases : List (List Char)} {first : Nat} {types : List DataType}
    (letter : ∃ first rest, word = first :: rest ∧ first.isDigit = false) :
    (∀ i column, (componentColumns word type aliases first types)[i]? = some (some column) →
        aliases.length ≤ i → column.name = numberedName word i) ↔
      types.length ≤ max 1 aliases.length := by
  have nameOf {i : Nat} (inside : i < types.length) : ∃ column,
      (componentColumns word type aliases first types)[i]? = some (some column) ∧
        column.name = componentName word aliases i := by
    refine ⟨⟨componentName word aliases i, type, first + i, types[i], false⟩, ?_, rfl⟩
    rw [componentColumns, getElem?_map, getElem?_zipIdx, getElem?_eq_getElem inside,
      map_some, map_some, Nat.zero_add]
  constructor
  · intro numbered
    by_contra long
    obtain ⟨column, there, name⟩ := nameOf (show max 1 aliases.length < types.length by omega)
    have later : 0 < max 1 aliases.length := by omega
    have unnamed : aliases.length ≤ max 1 aliases.length := by omega
    exact componentName_ne letter later unnamed (name.symm.trans (numbered _ column there unnamed))
  · intro short i column there unnamed
    have inside : i < types.length := by
      by_contra outside
      rw [getElem?_eq_none (by simp [componentColumns]; omega)] at there
      cases there
    obtain ⟨other, found, name⟩ := nameOf inside
    rw [found] at there
    cases there
    have zero : i = 0 := by omega
    subst zero
    rw [name, componentName, getElem?_eq_none unnamed]
    rfl

/-- A comparator with at most one clustering component, or with an alias for each. -/
def FewUnnamed (comparator : ParseResult) (columnAliases : List (List Char)) : Prop :=
  comparator.isComposite = true →
    (comparator.types.length ≤ max 1 columnAliases.length ∨
      comparator.types.length = max 1 columnAliases.length + 1 ∧
        (comparator.collections.entries ≠ [] ∨
          columnAliases ≠ [] ∧ (comparator.types.getLast? matches some (.simple .text))))

theorem clusteringSize_le_iff {comparator : ParseResult} {columnAliases : List (List Char)}
    {isEmpty : Bool} {size : Nat}
    (counted : clusteringSize comparator columnAliases isEmpty = some size)
    (single : comparator.isComposite = false → comparator.types.length = 1) :
    size ≤ max 1 columnAliases.length ↔ FewUnnamed comparator columnAliases := by
  unfold clusteringSize at counted
  unfold FewUnnamed
  generalize (comparator.types.getLast? matches some (.simple .text)) = isText at *
  have named : columnAliases ≠ [] ↔ 0 < columnAliases.length := length_pos_iff.symm
  grind

/-- Before version 2 the components of the keys are numbered exactly when at most the first one of
each key has no alias. -/
theorem numbersComponents_iff {major : Nat} (legacy : major < 2) (fields : LegacyFields)
    (columns : List ColumnMetadata) {table built : TableColumns}
    (made : (table.clearColumns.addColumns major columns).buildKeysAndSort major fields =
      some built) :
    NumbersComponents fields built ↔
      (∀ keyValidator ∈ parseWithComposite fields.keyValidator,
        keyValidator.types.length ≤ max 1 fields.keyAliases.length) ∧
      ∀ comparator ∈ parseWithComposite fields.comparator,
        FewUnnamed comparator fields.columnAliases := by
  obtain ⟨added, names, same⟩ := exists_added major columns
  rw [clearColumns, new, same, buildKeysAndSort, if_neg (by omega), sortByClassNames] at made
  obtain ⟨keyValidator, parsed, made⟩ := bind_eq_some_iff.mp made
  obtain ⟨comparator, compared, made⟩ := bind_eq_some_iff.mp made
  obtain ⟨size, counted, made⟩ := bind_eq_some_iff.mp made
  cases made
  rw [parsed, compared]
  simp only [mem_some_iff, forall_eq']
  have partition := @componentColumns_numbered_iff "key".toList .partitionKey fields.keyAliases 0
    keyValidator.types ⟨'k', "ey".toList, rfl, rfl⟩
  have clustering := @componentColumns_numbered_iff "column".toList .clusteringKey
    fields.columnAliases 0 (comparator.types.take size) ⟨'c', "olumn".toList, rfl, rfl⟩
  rw [length_take, Nat.min_eq_left (clusteringSize_le counted),
    clusteringSize_le_iff counted (shape_of_parsed compared).2] at clustering
  constructor
  · exact fun numbers => ⟨partition.mp numbers.partition, clustering.mp numbers.clustering⟩
  · intro short
    refine ⟨partition.mpr short.1, clustering.mpr short.2, fun none => ?_⟩
    have few : keyValidator.types.length ≤ 1 := by
      simpa [none] using short.1
    rw [keyAliases, if_neg (by simpa using none), parsed]
    rcases types : keyValidator.types with _ | ⟨type, _ | ⟨next, rest⟩⟩
    · simp [types, componentColumns]
    · simp [types, componentColumns, componentName, none, OStringStream.new]
    · rw [types] at few
      simp at few

/-- A table with an alias for each component. -/
def aliasedFields : LegacyFields := ⟨[['a'], ['b']], twoIntegers, [['c'], ['d']], twoIntegers⟩

theorem numbersComponents_iff_aliased :
    ∃ built, (new.clearColumns.addColumns 1 []).buildKeysAndSort 1 aliasedFields = some built ∧
      NumbersComponents aliasedFields built := by
  have made : ∃ built,
      (new.clearColumns.addColumns 1 []).buildKeysAndSort 1 aliasedFields = some built :=
    ⟨_, buildKeysAndSort_twoIntegers [['a'], ['b']] [['c'], ['d']] []⟩
  obtain ⟨built, made⟩ := made
  refine ⟨built, made, (numbersComponents_iff (by decide) aliasedFields [] made).mpr ?_⟩
  simp only [aliasedFields, parseWithComposite_twoIntegers, mem_some_iff, forall_eq']
  exact ⟨by decide, fun _ => .inl (by decide)⟩

/-- The second component of a key without aliases is named by writing over the word. -/
theorem legacyNames_overwritten :
    ∃ built, new.buildKeysAndSort 1 ⟨[], twoIntegers, [], twoIntegers⟩ = some built ∧
      built.partitionKey.filterMap (Option.map ColumnMetadata.name) =
        [['k', 'e', 'y'], ['2', 'e', 'y']] ∧
      built.clusteringKey.filterMap (Option.map ColumnMetadata.name) =
        [['c', 'o', 'l', 'u', 'm', 'n'], ['2', 'o', 'l', 'u', 'm', 'n']] ∧
      keyAliases ⟨[], twoIntegers, [], twoIntegers⟩ = some [['k', 'e', 'y'], ['k', 'e', 'y', '2']] := by
  refine ⟨_, buildKeysAndSort_twoIntegers [] [] [], rfl, rfl, ?_⟩
  rw [keyAliases, if_neg (by simp), parseWithComposite_twoIntegers]
  rfl

end TableColumns

end DseDriver.Schema
