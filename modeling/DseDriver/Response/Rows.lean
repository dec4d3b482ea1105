import DseDriver.Cql.Layout
import DseDriver.Response.ResultMetadata

/-!
# The rows of a result

The first row of a result is decoded with the result, or when its metadata is set.  A
`ResultIterator` decodes the others one by one, from where the decoder of the result stands
then.
-/

namespace DseDriver.Response

open Lib Cql List Option

/-! ## Results and their iterators -/

/-- `decode_row`, with the types of the columns and the values decoded so far. -/
def decodeRow : List DataType → List Value → Filling Decoder (List Value)
  | [], output, decoder => some (true, output, decoder)
  | dataType :: types, output, decoder => do
    match ← decoder.decodeValue dataType false with
    | (none, decoder) => return (false, output, decoder)
    | (some value, decoder) => decodeRow types (output ++ [value]) decoder

/-- A `ResultResponse` of rows: the types of its columns are absent without metadata. -/
structure ResultResponse where
  metadata : Option (List DataType)
  rowCount : Int32
  decoder : Decoder
  firstRow : List Value
  deriving Repr

namespace ResultResponse

/-- `decode_first_row`. -/
def decodeFirstRow (result : ResultResponse) : Option (Bool × ResultResponse) :=
  match result.metadata with
  | none => some (true, result)
  | some types =>
    if 0 < result.rowCount ∧ result.firstRow.isEmpty then do
      let (decoded, firstRow, decoder) ← decodeRow types [] result.decoder
      return (decoded, { result with firstRow, decoder })
    else some (true, result)

/-- `decode_rows`.  A column type with a null reference in it has no values here. -/
def decodeRows (decoder : Decoder) : Option (Option ResultResponse) := do
  match ← decodeMetadata false decoder with
  | (none, _) => return none
  | (some metadata, decoder) =>
    let types ← metadata.columns.mapM fun columns =>
      columns.mapM fun column => column.dataType.toDataType
    match ← decoder.decodeInt32 with
    | (none, _) => return none
    | (some rowCount, decoder) => do
      let (decoded, result) ←
        decodeFirstRow { metadata := types, rowCount, decoder, firstRow := [] }
      return if decoded then some result else none

/-- `set_metadata`, for a result without metadata of a prepared statement. -/
def setMetadata (result : ResultResponse) (types : List DataType) : Option ResultResponse :=
  (decodeFirstRow { result with metadata := some types }).map Prod.snd

/-- The rows of a body, with the metadata of its prepared statement if it has none itself. -/
def ofBody (prepared : List DataType) (decoder : Decoder) : Option (Option ResultResponse) := do
  match ← decodeRows decoder with
  | none => return none
  | some result =>
    if result.metadata.isNone then some <$> result.setMetadata prepared else return some result

end ResultResponse

/-- `ResultIterator`. -/
structure ResultIterator where
  result : ResultResponse
  decoder : Decoder
  index : Int
  values : List Value
  deriving Repr

namespace ResultIterator

def ofResult (result : ResultResponse) : ResultIterator where
  result := result
  decoder := result.decoder
  index := -1
  values := []

/-- `ResultIterator::next`. -/
def next (iterator : ResultIterator) : Option (Bool × ResultIterator) :=
  if iterator.index + 1 ≥ iterator.result.rowCount.toInt then some (false, iterator)
  else
    let index := iterator.index + 1
    if index > 0 then do
      let (decoded, values, decoder) ←
        decodeRow (iterator.result.metadata.getD []) [] iterator.decoder
      return (decoded, { iterator with index, values, decoder })
    else some (true, { iterator with index })

/-- `row`, which asserts that there is a current row. -/
def row (iterator : ResultIterator) : Option (List Value) :=
  if 0 ≤ iterator.index ∧ iterator.index < iterator.result.rowCount.toInt then
    some (if iterator.index > 0 then iterator.values else iterator.result.firstRow)
  else none

/-- What a number of calls of `next` give: the row that is then current, or none if the call
returns false. -/
def calls : Nat → ResultIterator → Option (List (Option (List Value)))
  | 0, _ => some []
  | count + 1, iterator => do
    let (found, iterator) ← iterator.next
    let row ← if found then iterator.row.map some else some none
    let rest ← calls count iterator
    return row :: rest

end ResultIterator

/-! ## Well-formed rows -/

/-- A cell of a row as it is sent. -/
inductive Cell where
  | null (length : Int32)
  | content (bytes : List UInt8)
  deriving Repr

namespace Cell

def encode : Cell → List UInt8
  | null length => encodeInt32 length
  | content bytes => encodeWithLength bytes

/-- The bytes of the cell, unless it is null. -/
def bytes : Cell → Option (List UInt8)
  | null _ => none
  | content bytes => some bytes

/-- How many bytes the number of elements takes in a collection. -/
def countWidth (version : Int) : Nat :=
  if version < 3 then 2 else 4

/-- The length of a null cell is negative; a collection has the number of its elements. -/
def WellFormed (version : Int) (dataType : DataType) : Cell → Prop
  | null length => length < 0
  | content bytes => bytes.length < 2 ^ 31 ∧
      (dataType.isCollection = true → countWidth version ≤ bytes.length)

end Cell

/-- The number of elements as it is sent. -/
def countBytes (version : Int) (count : Int32) : List UInt8 :=
  if version < 3 then encodeUint16 count.toUInt32.toUInt16 else encodeInt32 count

/-- The bytes that a value holds, none for null.  The decoder of a collection stands behind the
number of its elements, which is kept apart. -/
def heldBytes (value : Value) : Option (Option (List UInt8)) :=
  if value.isNull then some none
  else
    value.decoder.asStringRef.map fun bytes =>
      some ((if (value.dataType.map DataType.isCollection).getD false then
        countBytes value.decoder.protocolVersion value.count else []) ++ bytes)

/-! ## Decoding a cell -/

theorem exists_encodeUint16 {bytes : List UInt8} (sized : bytes.length = 2) :
    ∃ value, bytes = encodeUint16 value := by
  refine ⟨UInt16.ofNat (ofBytes .big bytes), ?_⟩
  have bound := ofBytes_lt .big bytes
  have whole := toBytes_ofBytes .big bytes
  rw [sized] at bound whole
  rw [encodeUint16, encodeWord, UInt16.toNat_ofNat_of_lt' (by omega), whole]

theorem exists_encodeInt32 {bytes : List UInt8} (sized : bytes.length = 4) :
    ∃ value, bytes = encodeInt32 value := by
  refine ⟨(UInt32.ofNat (ofBytes .big bytes)).toInt32, ?_⟩
  have bound := ofBytes_lt .big bytes
  have whole := toBytes_ofBytes .big bytes
  rw [sized] at bound whole
  rw [encodeInt32, encodeWord, UInt32.toUInt32_toInt32, UInt32.toNat_ofNat_of_lt' (by omega), whole]

variable {decoder : Decoder}

/-- The number of elements at the start of a collection. -/
theorem exists_count {bytes : List UInt8} (sees : Sees decoder bytes)
    (enough : Cell.countWidth decoder.protocolVersion ≤ bytes.length) :
    ∃ count elements after, decoder.decodeSize = some (some count, after) ∧
      bytes = countBytes decoder.protocolVersion count ++ elements ∧ Sees after elements ∧
      after.protocolVersion = decoder.protocolVersion := by
  rw [Cell.countWidth] at enough
  by_cases early : decoder.protocolVersion < 3
  · rw [if_pos early] at enough
    obtain ⟨value, isValue⟩ := exists_encodeUint16 (length_take_of_le enough)
    rw [← take_append_drop 2 bytes, isValue] at sees
    refine ⟨value.toUInt32.toInt32, bytes.drop 2, _, sees.decodeSize_short early, ?_, ?_, rfl⟩
    · rw [countBytes, if_pos early, UInt32.toUInt32_toInt32, UInt16.toUInt16_toUInt32, ← isValue,
        take_append_drop]
    · simpa using sees.advance
  · rw [if_neg early] at enough
    obtain ⟨value, isValue⟩ := exists_encodeInt32 (length_take_of_le enough)
    rw [← take_append_drop 4 bytes, isValue] at sees
    refine ⟨value, bytes.drop 4, _, sees.decodeSize (by omega), ?_, ?_, rfl⟩
    · rw [countBytes, if_neg early, ← isValue, take_append_drop]
    · simpa using sees.advance

/-- The value made of the bytes of a cell holds them. -/
theorem exists_makeValue {bytes : List UInt8} {dataType : DataType}
    (sees : Sees decoder bytes)
    (counted : dataType.isCollection = true →
      Cell.countWidth decoder.protocolVersion ≤ bytes.length) :
    ∃ value, makeValue dataType decoder = some (some value) ∧
      heldBytes value = some (some bytes) := by
  rw [makeValue]
  cases isCollection : dataType.isCollection with
  | false =>
    refine ⟨_, rfl, ?_⟩
    simp [heldBytes, Value.ofDecoder, sees.asStringRef, isCollection]
  | true =>
    obtain ⟨count, elements, after, sized, split, rest, version⟩ :=
      exists_count sees (counted isCollection)
    refine ⟨.ofCollection dataType count after, by simp [sized], ?_⟩
    simp [heldBytes, Value.ofCollection, rest.asStringRef, isCollection, version, ← split]

theorem decodeValue_cell {cell : Cell} {rest : List UInt8} {dataType : DataType}
    (sees : Sees decoder (cell.encode ++ rest))
    (formed : cell.WellFormed decoder.protocolVersion dataType) :
    ∃ value after, decoder.decodeValue dataType false = some (some value, after) ∧
      Sees after rest ∧ after.protocolVersion = decoder.protocolVersion ∧
      heldBytes value = some cell.bytes := by
  cases cell with
  | null length =>
    refine ⟨_, _, decodeValue_negative sees formed, ?_, rfl, rfl⟩
    simpa [Cell.encode] using sees.advance
  | content bytes =>
    rw [Cell.encode, encodeWithLength, append_assoc] at sees
    have sized := sees.advance
    rw [encodeInt32_length] at sized
    obtain ⟨value, made, held⟩ := exists_makeValue sized.slice formed.2
    exact ⟨value, _, decodeValue_of_size false formed.1 sees.decodeInt32 made, sized.advance, rfl,
      held⟩

/-! ## Decoding rows -/

/-- A row has a well-formed cell for each column. -/
def RowFormed (version : Int) (types : List DataType) (row : List Cell) : Prop :=
  List.Forall₂ (Cell.WellFormed version) types row

/-- The bytes of rows. -/
def encodeRows (rows : List (List Cell)) : List UInt8 :=
  rows.flatMap fun row => row.flatMap Cell.encode

theorem decodeRow_cells {version : Int} {types : List DataType} {row : List Cell}
    (formed : RowFormed version types row) {rest : List UInt8} (output : List Value)
    (sees : Sees decoder (row.flatMap Cell.encode ++ rest))
    (same : decoder.protocolVersion = version) :
    ∃ values after, decodeRow types output decoder = some (true, output ++ values, after) ∧
      Sees after rest ∧ after.protocolVersion = version ∧
      values.map heldBytes = row.map fun cell => some cell.bytes := by
  induction formed generalizing decoder output with
  | nil => exact ⟨[], decoder, by simp [decodeRow], sees, same, rfl⟩
  | cons cellFormed _ ih =>
    rw [flatMap_cons, append_assoc] at sees
    obtain ⟨value, between, decoded, sees', same', held⟩ :=
      decodeValue_cell sees (same ▸ cellFormed)
    obtain ⟨values, after, others, sees'', same'', held'⟩ :=
      ih (output ++ [value]) sees' (same'.trans same)
    refine ⟨value :: values, after, ?_, sees'', same'', by simp [held, held']⟩
    rw [decodeRow, decoded]
    simpa using others

/-- After the last row `next` returns false. -/
theorem calls_done {iterator : ResultIterator}
    (last : iterator.index + 1 ≥ iterator.result.rowCount.toInt) (count : Nat) :
    iterator.calls count = some (List.replicate count none) := by
  induction count with
  | zero => rfl
  | succ count ih =>
    simp only [ResultIterator.calls, ResultIterator.next, if_pos last, bind_eq_bind,
      bind_some, Bool.false_eq_true, if_false, ih, Option.pure_def, replicate_succ]

/-- From a current row on, `next` decodes the rows that follow it. -/
theorem calls_rows {version : Int} {types : List DataType} {rows : List (List Cell)}
    (formed : ∀ row ∈ rows, RowFormed version types row) {iterator : ResultIterator}
    {trailing : List UInt8} (current : 0 ≤ iterator.index)
    (typed : iterator.result.metadata = some types)
    (counted : iterator.result.rowCount.toInt = iterator.index + 1 + rows.length)
    (sees : Sees iterator.decoder (encodeRows rows ++ trailing))
    (same : iterator.decoder.protocolVersion = version) :
    ∃ valueRows : List (List Value), valueRows.map (List.map heldBytes) =
        rows.map (List.map fun cell => some cell.bytes) ∧
      ∀ extra, iterator.calls (rows.length + extra) =
        some (valueRows.map some ++ List.replicate extra none) := by
  induction rows generalizing iterator with
  | nil =>
    refine ⟨[], rfl, fun extra => ?_⟩
    rw [length_nil, Nat.zero_add, calls_done (by simp [counted])]
    rfl
  | cons row rows ih =>
    rw [encodeRows, flatMap_cons, append_assoc] at sees
    obtain ⟨values, after, decoded, sees', same', held⟩ :=
      decodeRow_cells (formed row mem_cons_self) [] sees same
    rw [length_cons] at counted
    obtain ⟨valueRows, heldRows, calls⟩ :=
      ih (fun row member => formed row (mem_cons_of_mem _ member))
        (show 0 ≤ ({ iterator with
          index := iterator.index + 1, values := values, decoder := after } :
            ResultIterator).index by dsimp only; omega)
        typed (by dsimp only; push_cast at counted; omega) sees' same'
    refine ⟨values :: valueRows, by simp [held, heldRows], fun extra => ?_⟩
    have more : ¬ iterator.index + 1 ≥ iterator.result.rowCount.toInt := by
      push_cast at counted
      omega
    have behindFirst : iterator.index + 1 > 0 := by omega
    have inRange : 0 ≤ iterator.index + 1 ∧
      iterator.index + 1 < iterator.result.rowCount.toInt := by omega
    rw [nil_append] at decoded
    rw [length_cons, Nat.add_right_comm, ResultIterator.calls]
    simp only [ResultIterator.next, if_neg more, if_pos behindFirst, typed, getD_some,
      decoded, bind_eq_bind, bind_some, Option.pure_def, if_true,
      ResultIterator.row, if_pos inRange, map_some, calls extra, map_cons,
      cons_append]

/-- The types of the columns: those in the metadata, or those of the prepared statement. -/
def columnTypes (prepared : List DataType) (metadata : Metadata) : Option (List DataType) :=
  match metadata.columns with
  | none => some prepared
  | some columns => columns.mapM fun column => column.dataType.toDataType

/-- The first row is decoded, and the decoder then stands before the second one. -/
theorem decodeFirstRow_rows {version : Int} {types : List DataType} {rows : List (List Cell)}
    (formed : ∀ row ∈ rows, RowFormed version types row) {trailing : List UInt8}
    (few : rows.length < 2 ^ 31) (sees : Sees decoder (encodeRows rows ++ trailing))
    (same : decoder.protocolVersion = version) :
    ∃ result, ResultResponse.decodeFirstRow
        ⟨some types, Int32.ofNat rows.length, decoder, []⟩ = some (true, result) ∧
      result.metadata = some types ∧ result.rowCount.toInt = rows.length ∧
      result.firstRow.map heldBytes = (rows.headD []).map (fun cell => some cell.bytes) ∧
      Sees result.decoder (encodeRows rows.tail ++ trailing) ∧
      result.decoder.protocolVersion = version := by
  have counted := Int32.toInt_ofNat_of_lt few
  cases rows with
  | nil => exact ⟨_, rfl, rfl, rfl, rfl, sees, same⟩
  | cons row rows =>
    rw [encodeRows, flatMap_cons, append_assoc] at sees
    obtain ⟨values, after, decoded, sees', same', held⟩ :=
      decodeRow_cells (formed row mem_cons_self) [] sees same
    have positive : 0 < Int32.ofNat (row :: rows).length := by
      rw [Int32.lt_iff_toInt_lt, counted]
      exact Int.natCast_pos.mpr (Nat.succ_pos _)
    refine ⟨⟨some types, Int32.ofNat (row :: rows).length, after, values⟩, ?_, rfl, counted, held,
      sees', same'⟩
    simp only [ResultResponse.decodeFirstRow, positive, isEmpty_nil, and_self, if_true,
      decoded, nil_append, bind_eq_bind, bind_some, Option.pure_def]

/-- For every well-formed body: an iterator of the result yields as many rows as there are, with
the bytes of their cells, then none, and the first row of the result is the first one. -/
theorem resultIterator_rows {decoder atCount : Decoder} {metadata : Metadata}
    (prepared types : List DataType) (rows : List (List Cell)) (trailing : List UInt8)
    (decoded : decodeMetadata false decoder = some (some metadata, atCount))
    (typed : columnTypes prepared metadata = some types)
    (sees : Sees atCount
      (encodeInt32 (Int32.ofNat rows.length) ++ (encodeRows rows ++ trailing)))
    (few : rows.length < 2 ^ 31)
    (formed : ∀ row ∈ rows, RowFormed atCount.protocolVersion types row) :
    ∃ result, ∃ valueRows : List (List Value),
      ResultResponse.ofBody prepared decoder = some (some result) ∧
      valueRows.map (List.map heldBytes) = rows.map (List.map fun cell => some cell.bytes) ∧
      (∀ extra, (ResultIterator.ofResult result).calls (rows.length + extra) =
        some (valueRows.map some ++ List.replicate extra none)) ∧
      (rows ≠ [] → valueRows.head? = some result.firstRow) := by
  have sees' := sees.advance
  rw [encodeInt32_length] at sees'
  obtain ⟨result, first, types', counted, held, rest, version⟩ :=
    decodeFirstRow_rows formed few sees' rfl
  have body : ResultResponse.ofBody prepared decoder = some (some result) := by
    rw [columnTypes] at typed
    simp only [ResultResponse.ofBody, ResultResponse.decodeRows, decoded, bind_eq_bind,
      bind_some, sees.decodeInt32]
    cases columns : metadata.columns with
    | none =>
      rw [columns] at typed
      cases typed
      have kept : ResultResponse.decodeFirstRow
        ⟨none, Int32.ofNat rows.length, atCount.advance 4, []⟩ = some (true, _) := rfl
      simp [kept, ResultResponse.setMetadata, first]
    | some columns =>
      rw [columns] at typed
      simp [typed, first, types']
  refine ⟨result, ?_⟩
  cases rows with
  | nil =>
    refine ⟨[], body, rfl, fun extra => ?_, fun none => absurd rfl none⟩
    rw [length_nil, Nat.zero_add, calls_done (by simp [ResultIterator.ofResult, counted])]
    rfl
  | cons row rows =>
    rw [length_cons] at counted
    obtain ⟨valueRows, heldRows, calls⟩ :=
      calls_rows (fun row member => formed row (mem_cons_of_mem _ member))
        (show 0 ≤ ({ ResultIterator.ofResult result with index := 0 } : ResultIterator).index from
          Int.le_refl 0) types'
        (by simp only [ResultIterator.ofResult]; push_cast at counted; omega) rest version
    refine ⟨result.firstRow :: valueRows, body, ?_, fun extra => ?_, fun _ => rfl⟩
    · rw [map_cons, map_cons, heldRows]
      exact congrArg (· :: _) held
    · have more : ¬ (0 : Int) ≥ result.rowCount.toInt := by
        push_cast at counted
        omega
      have inRange : (0 : Int) ≤ 0 ∧ (0 : Int) < result.rowCount.toInt := by omega
      dsimp only [ResultIterator.ofResult] at calls ⊢
      rw [length_cons, Nat.add_right_comm, ResultIterator.calls]
      simp only [ResultIterator.next, if_neg more, Int.reduceNeg, Int.reduceAdd,
        Int.lt_irrefl, if_false, bind_eq_bind, bind_some, if_true,
        ResultIterator.row, if_pos inRange, map_some, calls extra, Option.pure_def,
        map_cons, cons_append]

/-- The body of two rows of the `int` column `c` of the table `t` in the keyspace `k`: 7 and
null. -/
def sevenAndNull : List UInt8 :=
  [0, 0, 0, 1, 0, 0, 0, 1, 0, 1, 107, 0, 1, 116, 0, 1, 99, 0, 9, 0, 0, 0, 2,
    0, 0, 0, 4, 0, 0, 0, 7, 255, 255, 255, 255]

theorem resultIterator_sevenAndNull :
    ∃ result, ∃ valueRows : List (List Value),
      ResultResponse.ofBody [] (.mk' sevenAndNull 0 35 4) = some (some result) ∧
      valueRows.map (List.map heldBytes) = [[some (some [0, 0, 0, 7])], [some none]] ∧
      (∀ extra, (ResultIterator.ofResult result).calls (2 + extra) =
        some (valueRows.map some ++ List.replicate extra none)) ∧
      ([[Cell.content [0, 0, 0, 7]], [.null (-1)]] ≠ [] →
        valueRows.head? = some result.firstRow) := by
  have computed : (decodeMetadata false (.mk' sevenAndNull 0 35 4)).map (fun read =>
      (read.1.map fun metadata => (columnTypes [] metadata).map (List.map DataType.valueType),
        read.2)) = some (some (some [.int]), .mk' sevenAndNull 19 16 4) := by
    decide +kernel
  obtain ⟨⟨metadata, atCount⟩, decoded, shown⟩ := map_eq_some_iff.mp computed
  obtain ⟨accepted, rfl⟩ := Prod.mk.inj shown
  obtain ⟨metadata, rfl, hasTypes⟩ := map_eq_some_iff.mp accepted
  obtain ⟨types, typed, valueTypes⟩ := map_eq_some_iff.mp hasTypes
  obtain ⟨dataType, others, rfl, isInt, noOther⟩ := map_eq_cons_iff.mp valueTypes
  obtain rfl := map_eq_nil_iff.mp noOther
  refine resultIterator_rows [] [dataType] [[.content [0, 0, 0, 7]], [.null (-1)]] [] decoded typed
    ⟨rfl, by decide, sevenAndNull.take 19, [], by decide +kernel, rfl⟩ (by decide) ?_
  simp [RowFormed, Cell.WellFormed, DataType.isCollection, isInt]

end DseDriver.Response
