import DseDriver.Cql.Cursor
import DseDriver.Cql.NameParser
import DseDriver.Cql.TypeRef
import DseDriver.Cql.WireLanguages

/-!
# The metadata of a result

`decode_metadata` reads the columns of a result, with a `DataTypeDecoder` for their types.  The
type of a column is checked, but the types in it are not: a nested option that cannot be
decoded leaves a null reference in the type.  The metadata without such references is a language:
all options in it are there, and have the numbers of types.
-/

namespace DseDriver.Response

open Lib Cql List Option
open Fallible (andThen succeed)
open Cql.Decoder

/-! ## Decoding data types -/

/-- The text of a range of bytes, `to_string`. -/
def textOf (bytes : List UInt8) : String :=
  String.ofList (bytes.map fun byte => Char.ofNat byte.toNat)

/-- The value types with numbers; one without a name is `unknown`. -/
def simpleTypeOf (valueType : UInt16) : SimpleType :=
  [.unknown, .ascii, .bigint, .blob, .boolean, .counter, .decimal, .double, .float, .int, .text,
    .timestamp, .uuid, .varchar, .varint, .timeuuid, .inet, .date, .time, .smallInt, .tinyInt,
    .duration].getD valueType.toNat .unknown

/-- `CASS_VALUE_TYPE_LAST_ENTRY`. -/
def lastEntry : UInt16 := 0x0032

/-- `SimpleDataTypeCache::by_value_type` for the number of a type without parameters. -/
def byValueType (valueType : UInt16) : Option SimpleType :=
  if valueType = 0xFFFF ∨ valueType ≥ lastEntry then none else some (simpleTypeOf valueType)

/-- The kind of a collection type. -/
def collectionKind (valueType : UInt16) : Option CollectionKind :=
  if valueType = 0x0020 then some .list
  else if valueType = 0x0021 then some .map
  else if valueType = 0x0022 then some .set
  else none

namespace DataTypeDecoder

/-- `decode_custom`. -/
def decodeCustom : Fallible Decoder TypeRef :=
  andThen decodeStringCopy fun className =>
    match SimpleDataTypeCache.byClass (textOf className).toList with
    | some simpleType => succeed (.simple simpleType)
    | none => succeed (.custom (textOf className))

section Nested

variable (decode : Fallible Decoder TypeRef)

/-- A number of nested types. -/
def decodeTypes (count : Nat) : Fallible Decoder (List TypeRef) :=
  Filling.complete (decode.fill pushBack count [])

/-- `decode_collection`. -/
def decodeCollection (kind : CollectionKind) : Fallible Decoder TypeRef :=
  andThen (decodeTypes decode (if kind = .map then 2 else 1)) fun types =>
    succeed (.collection kind types false)

/-- A field of a user type. -/
def decodeField : Fallible Decoder (List UInt8 × TypeRef) :=
  andThen decodeStringCopy fun fieldName =>
    andThen decode fun type => succeed (fieldName, type)

/-- `decode_user_type`. -/
def decodeUserType : Fallible Decoder TypeRef :=
  andThen decodeStringCopy fun keyspace =>
    andThen decodeStringCopy fun typeName =>
      andThen decodeUint16 fun n =>
        andThen (Filling.complete ((decodeField decode).fill pushBack n.toNat []))
          fun fields => succeed (.userType (textOf keyspace) (textOf typeName)
            (fields.map fun field => textOf field.1) (fields.map Prod.snd) false)

/-- `decode_tuple`. -/
def decodeTuple : Fallible Decoder TypeRef :=
  andThen decodeUint16 fun n =>
    andThen (decodeTypes decode n.toNat) fun types => succeed (.tuple types false)

/-- The switch of `decode` on the value type, with the decoder of the nested types.  To return
`DataType::NIL` is to fail here. -/
def decodeOfType (valueType : UInt16) : Fallible Decoder TypeRef :=
  if valueType = cassValueTypeCustom then decodeCustom
  else
    match collectionKind valueType with
    | some kind => decodeCollection decode kind
    | none =>
      if valueType = 0x0030 then decodeUserType decode
      else if valueType = 0x0031 then decodeTuple decode
      else
        match byValueType valueType with
        | some simpleType => succeed (.simple simpleType)
        | none => Fallible.fail

/-- `decode`. -/
def decodeOption : Fallible Decoder TypeRef :=
  andThen decodeUint16 (decodeOfType decode)

end Nested

/-- A type that cannot be decoded is `DataType::NIL`. -/
def orNil (operation : Fallible Decoder TypeRef) : Fallible Decoder TypeRef := fun decoder =>
  (operation decoder).map fun (type, decoder) => (some (type.getD .nil), decoder)

/-- The check of a column's type for `DataType::NIL`. -/
def notNil (operation : Fallible Decoder TypeRef) : Fallible Decoder TypeRef :=
  andThen operation fun type => if type.isNil then Fallible.fail else succeed type

/-- `decode`, with a limit on the nesting that the bytes do not reach. -/
def decode : (depth : Nat) → Fallible Decoder TypeRef
  | 0 => fun _ => none
  | depth + 1 => orNil (decodeOption (decode depth))

end DataTypeDecoder

/-! ## Decoding metadata -/

/-- `ColumnDefinition`; the keyspace and the table are absent if they are those of the result. -/
structure ColumnDefinition where
  tableSpec : Option (StringRef × StringRef)
  name : StringRef
  dataType : TypeRef
  deriving Repr

/-- What `decode_metadata` stores.  There are no columns if the server has left them out. -/
structure Metadata where
  pkIndices : List UInt16
  pagingState : Option StringRef
  tableSpec : Option (StringRef × StringRef)
  columns : Option (List ColumnDefinition)
  deriving Repr

/-- Every type in the columns is there. -/
def Metadata.IsComplete (metadata : Metadata) : Prop :=
  ∀ columns, metadata.columns = some columns → ∀ column ∈ columns, column.dataType.IsComplete

/-- `flags & CASS_RESULT_FLAG_...`. -/
def hasFlag (flags flag : Int32) : Bool :=
  flags &&& flag ≠ 0

/-- An operation for an option of the result. -/
def decodeIf {α : Type} (condition : Bool) (operation : Fallible Decoder α) :
    Fallible Decoder (Option α) :=
  if condition then andThen operation fun output => succeed (some output)
  else succeed none

def decodeTableSpec : Fallible Decoder (StringRef × StringRef) :=
  andThen decodeString fun keyspace =>
    andThen decodeString fun table => succeed (keyspace, table)

def decodePkIndices : Fallible Decoder (List UInt16) :=
  andThen decodeInt32 fun pkCount =>
    Filling.complete (Fallible.fill Decoder.decodeUint16 pushBack pkCount.toNatClampNeg [])

/-- One column of `decode_metadata`. -/
def decodeColumn (globalTableSpec : Bool) (decodeType : Fallible Decoder TypeRef) :
    Fallible Decoder ColumnDefinition :=
  andThen (decodeIf (!globalTableSpec) decodeTableSpec) fun tableSpec =>
    andThen decodeString fun name =>
      andThen decodeType fun dataType => succeed { tableSpec, name, dataType }

/-- `decode_metadata`, with the decoder of a column's type.  A negative number of columns is a
fault, since `reserve` throws. -/
def decodeMetadataWith (decodeType : Fallible Decoder TypeRef) (hasPkIndices : Bool) :
    Fallible Decoder Metadata :=
  andThen decodeInt32 fun flags =>
    andThen decodeInt32 fun columnCount =>
      andThen (decodeIf hasPkIndices decodePkIndices) fun pkIndices =>
        andThen (decodeIf (hasFlag flags 2) decodeBytes) fun pagingState =>
          if hasFlag flags 4 then
            succeed
              { pkIndices := pkIndices.getD [], pagingState, tableSpec := none, columns := none }
          else
            andThen (decodeIf (hasFlag flags 1) decodeTableSpec) fun tableSpec =>
              if columnCount < 0 then fun _ => none
              else
                andThen (Filling.complete ((decodeColumn (hasFlag flags 1) decodeType).fill
                  pushBack columnCount.toNatClampNeg [])) fun columns =>
                    succeed
                      { pkIndices := pkIndices.getD [], pagingState, tableSpec
                        columns := some columns }

/-- `decode_metadata`. -/
def decodeMetadata (hasPkIndices : Bool) : Fallible Decoder Metadata := fun decoder =>
  decodeMetadataWith (DataTypeDecoder.notNil (DataTypeDecoder.decode (decoder.remaining + 1)))
    hasPkIndices decoder

/-! ## The bytes of complete metadata -/

/-- What follows the number of a type. -/
def parameterBytes (nested : Language UInt8) (valueType : UInt16) : Language UInt8 :=
  if valueType = cassValueTypeCustom then stringBytes
  else
    match collectionKind valueType with
    | some kind => nested ^ (if kind = .map then 2 else 1)
    | none =>
      if valueType = 0x0030 then
        stringBytes * (stringBytes *
          ⨆ n : UInt16, {encodeUint16 n} * (stringBytes * nested) ^ n.toNat)
      else if valueType = 0x0031 then ⨆ n : UInt16, {encodeUint16 n} * nested ^ n.toNat
      -- Other numbers stand alone, if they are those of types.
      else if (byValueType valueType).isSome then 1
      else 0

/-- A type option that is there in full and has the number of a type, and so are and have those
nested in it, up to a depth. -/
def typeBytes : (depth : Nat) → Language UInt8
  | 0 => 0
  | depth + 1 => ⨆ valueType : UInt16,
      {encodeUint16 valueType} * parameterBytes (typeBytes depth) valueType

/-- The columns of a result, with such types. -/
def columnBytes (depth : Nat) (globalTableSpec : Bool) : Language UInt8 :=
  (if !globalTableSpec then stringBytes * stringBytes else 1) * (stringBytes * typeBytes depth)

def pkIndexBytes : Language UInt8 :=
  ⨆ pkCount : Int32, {encodeInt32 pkCount} *
    (⨆ index : UInt16, {encodeUint16 index}) ^ pkCount.toNatClampNeg

/-- Metadata whose columns have such types. -/
def metadataBytes (depth : Nat) (hasPkIndices : Bool) : Language UInt8 :=
  ⨆ flags : Int32, {encodeInt32 flags} * ⨆ columnCount : Int32, {encodeInt32 columnCount} *
    ((if hasPkIndices then pkIndexBytes else 1) * ((if hasFlag flags 2 then bytesBytes else 1) *
      if hasFlag flags 4 then 1
      else
        (if hasFlag flags 1 then stringBytes * stringBytes else 1) *
          if columnCount < 0 then 0
          else columnBytes depth (hasFlag flags 1) ^ columnCount.toNatClampNeg))

/-- A list of good items. -/
theorem recognises_list {α : Type} {good : α → Prop} {language : Language UInt8}
    {item : Fallible Decoder α} (each : Recognises Sees good language item) (count : Nat) :
    Recognises Sees (fun items => ∀ item ∈ items, good item) (language ^ count)
      (Filling.complete (item.fill pushBack count [])) := by
  refine each.fill (fun items item => ?_) count (by simp)
  simp only [pushBack, mem_append, mem_singleton, or_imp, forall_and, forall_eq]

namespace DataTypeDecoder

section Nested

variable {decode : Fallible Decoder TypeRef} {language : Language UInt8}

theorem recognises_decodeUserType (nested : Recognises Sees TypeRef.IsComplete language decode) :
    Recognises Sees TypeRef.IsComplete
      (stringBytes * (stringBytes *
        ⨆ n : UInt16, {encodeUint16 n} * (stringBytes * language) ^ n.toNat))
      (decodeUserType decode) := by
  have field : Recognises Sees (fun field => field.2.IsComplete) (stringBytes * language)
      (decodeField decode) :=
    recognises_stringCopy.after fun name => nested.map fun _ => Iff.rfl
  refine recognises_stringCopy.after fun keyspace => recognises_stringCopy.after fun typeName =>
    .headed recognises_uint16 fun n => (recognises_list field n.toNat).map fun fields => ?_
  rw [TypeRef.isComplete_userType, List.forall_mem_map]

theorem recognises_decodeOfType (nested : Recognises Sees TypeRef.IsComplete language decode)
    (valueType : UInt16) :
    Recognises Sees TypeRef.IsComplete (parameterBytes language valueType)
      (decodeOfType decode valueType) := by
  rw [decodeOfType, parameterBytes]
  split
  next =>
    rw [← mul_one stringBytes]
    refine recognises_stringCopy.after fun className => ?_
    split <;> exact .succeed (by simp)
  next =>
    split
    next kind _ => exact (recognises_list nested _).map fun types => by simp
    next =>
      split
      next => exact recognises_decodeUserType nested
      next =>
        split
        next => exact .headed recognises_uint16 fun n =>
          (recognises_list nested n.toNat).map fun types => by simp
        next =>
          cases byValueType valueType with
          | none => exact .fail
          | some simpleType => exact .succeed (by simp)

end Nested

/-- The types without a null reference are those with known options. -/
theorem recognises_decode (depth : Nat) :
    Recognises Sees TypeRef.IsComplete (typeBytes depth) (decode depth) := by
  induction depth with
  | zero => exact .fault
  | succ depth ih =>
    have option : Recognises Sees TypeRef.IsComplete (typeBytes (depth + 1))
        (decodeOption (decode depth)) :=
      .headed recognises_uint16 (recognises_decodeOfType ih)
    constructor
    · intro decoder input result rest sees ran complete
      obtain ⟨⟨type, last⟩, decoded, same⟩ := map_eq_some_iff.mp ran
      cases same
      cases type with
      | none => exact absurd complete TypeRef.not_isComplete_nil
      | some type => exact option.sound sees decoded complete
    · intro decoder word rest member sees
      obtain ⟨type, last, complete, decoded, behind⟩ := option.complete member sees
      exact ⟨type, last, complete, by rw [decode, orNil, decoded]; rfl, behind⟩

theorem recognises_notNil (depth : Nat) :
    Recognises Sees TypeRef.IsComplete (typeBytes depth) (notNil (decode depth)) := by
  constructor
  · intro decoder input result rest sees ran complete
    obtain ⟨⟨type, last⟩, decoded, checked⟩ := bind_eq_some_iff.mp ran
    cases type with
    | none => cases checked
    | some type =>
      dsimp only at checked
      split at checked
      · cases checked
      · cases checked
        exact (recognises_decode depth).sound sees decoded complete
  · intro decoder word rest member sees
    obtain ⟨type, last, complete, decoded, behind⟩ := (recognises_decode depth).complete member sees
    refine ⟨type, last, complete, ?_, behind⟩
    simp [notNil, andThen, decoded, TypeRef.isComplete_ne_nil complete, succeed]

variable {buffer : InputBuffer}

theorem keeps_list {α : Type} {item : Fallible Decoder α} {good : α → Prop}
    (each : Keeps buffer.Covers item good) (count : Nat) :
    Keeps buffer.Covers (Filling.complete (item.fill pushBack count []))
      fun items => ∀ item ∈ items, good item := by
  refine (each.fill (fun items item all isGood => ?_) count (by simp)).complete
  simpa [pushBack, or_imp, forall_and] using ⟨all, isGood⟩

theorem keeps_decodeOfType {decode : Fallible Decoder TypeRef}
    (nested : Keeps buffer.Covers decode fun _ => True) (valueType : UInt16) :
    Keeps buffer.Covers (decodeOfType decode valueType) fun _ => True := by
  rw [decodeOfType]
  split
  next =>
    refine keeps_stringCopy.andThen fun className _ => ?_
    split <;> exact .succeed trivial
  next =>
    split
    next => exact (keeps_list nested _).andThen fun _ _ => .succeed trivial
    next =>
      split
      next =>
        have field : Keeps buffer.Covers (decodeField decode) fun _ => True :=
          keeps_stringCopy.andThen fun _ _ => nested.andThen fun _ _ => .succeed trivial
        exact keeps_stringCopy.andThen fun _ _ => keeps_stringCopy.andThen fun _ _ =>
          keeps_uint16.andThen fun n _ => (keeps_list field _).andThen fun _ _ => .succeed trivial
      next =>
        split
        next =>
          exact keeps_uint16.andThen fun n _ =>
            (keeps_list nested _).andThen fun _ _ => .succeed trivial
        next => split <;> first | exact .succeed trivial | exact .fail

/-- The limit on the nesting is not reached: each option takes two of the bytes that remain. -/
theorem keeps_decode {depth : Nat} (enough : buffer.stop < buffer.start + depth) :
    Keeps buffer.Covers (decode depth) fun _ => True := by
  induction depth generalizing buffer with
  | zero => exact absurd buffer.ordered (Nat.not_le.mpr enough)
  | succ depth ih =>
    intro decoder covers
    obtain ⟨output, after, ran, covers', -⟩ : ∃ output after,
        decodeOption (decode depth) decoder = some (output, after) ∧ buffer.Covers after ∧
          ∀ type, output = some type → True := by
      refine keeps_uint16.andThen_at covers fun valueType middle read _ covers' => ?_
      have taken : decoder.input < middle.input := by
        simp only [Decoder.decodeUint16, decodeFixed, Cql.decodeUint16, decodeWord] at read
        split at read
        · cases read
        · cases found : readAt decoder.memory decoder.input 2 <;> simp [found] at read
          simp [← read.2]
      -- The nested options are in what remains behind the value type.
      have nested : Keeps covers'.rest.Covers (decode depth) fun _ => True := by
        have start := covers.start
        exact ih (show buffer.stop < middle.input + depth by omega)
      obtain ⟨output, after, ran, inner, -⟩ := keeps_decodeOfType nested valueType middle
        ⟨covers'.memory, Nat.le_refl _, covers'.stop⟩
      exact ⟨output, after, ran, covers'.of_rest inner, fun _ _ => trivial⟩
    exact ⟨some (output.getD .nil), after, by rw [decode, orNil, ran]; rfl, covers',
      fun _ _ => trivial⟩

end DataTypeDecoder

theorem recognises_decodeIf {α : Type} {operation : Fallible Decoder α} {language : Language UInt8}
    (recognises : Recognises Sees (fun _ => True) language operation) (condition : Bool) :
    Recognises Sees (fun _ => True) (if condition then language else 1)
      (decodeIf condition operation) := by
  rw [decodeIf]
  split
  · exact recognises.map fun _ => Iff.rfl
  · exact .succeed trivial

theorem recognises_decodeTableSpec :
    Recognises Sees (fun _ => True) (stringBytes * stringBytes) decodeTableSpec :=
  recognises_string.after fun _ => recognises_string.map fun _ => Iff.rfl

theorem recognises_decodePkIndices :
    Recognises Sees (fun _ => True) pkIndexBytes decodePkIndices :=
  .headed recognises_int32 fun pkCount => by
    simpa only [implies_true] using
      recognises_list (.any recognises_uint16) pkCount.toNatClampNeg

theorem recognises_decodeMetadata (depth : Nat) (hasPkIndices : Bool) :
    Recognises Sees Metadata.IsComplete (metadataBytes depth hasPkIndices)
      (decodeMetadataWith (DataTypeDecoder.notNil (DataTypeDecoder.decode depth)) hasPkIndices) := by
  have column (globalTableSpec : Bool) :
      Recognises Sees (fun column => column.dataType.IsComplete)
        (columnBytes depth globalTableSpec)
        (decodeColumn globalTableSpec
          (DataTypeDecoder.notNil (DataTypeDecoder.decode depth))) :=
    (recognises_decodeIf recognises_decodeTableSpec _).after fun _ => recognises_string.after fun _ =>
      (DataTypeDecoder.recognises_notNil depth).map fun _ => Iff.rfl
  refine .headed recognises_int32 fun flags => .headed recognises_int32 fun columnCount =>
    (recognises_decodeIf recognises_decodePkIndices _).after fun pkIndices =>
      (recognises_decodeIf recognises_bytes _).after fun pagingState => ?_
  split
  · exact .succeed nofun
  · refine (recognises_decodeIf recognises_decodeTableSpec _).after fun tableSpec => ?_
    split
    · exact .fault
    · exact (recognises_list (column _) _).map fun columns => by simp [Metadata.IsComplete]

/-- Metadata that `decode_metadata` accepts, in a body of any protocol version, has no null reference
in its types exactly if the options in its bytes, nested ones too, are there in full and have the
numbers of types. -/
theorem decodeMetadata_isComplete_iff {body : List UInt8} (small : body.length < 2 ^ 64)
    (protocolVersion : Int) (hasPkIndices : Bool) {metadata : Metadata} {rest : Decoder}
    (accepted : decodeMetadata hasPkIndices (.mk' body 0 body.length protocolVersion) =
      some (some metadata, rest)) :
    metadata.IsComplete ↔
      ∃ word ∈ metadataBytes (body.length + 1) hasPkIndices, word <+: body := by
  have sees : Sees (.mk' body 0 body.length protocolVersion) body :=
    ⟨rfl, small, [], [], by simp [Decoder.mk'], rfl⟩
  have recognises := recognises_decodeMetadata (body.length + 1) hasPkIndices
  constructor
  · intro complete
    obtain ⟨word, member, more, split, -⟩ := recognises.sound sees accepted complete
    exact ⟨word, member, more, split.symm⟩
  · rintro ⟨word, member, more, split⟩
    have seen : Sees (.mk' body 0 body.length protocolVersion) (word ++ more) := by
      rw [split]
      exact sees
    obtain ⟨other, last, complete, decoded, -⟩ := recognises.complete member seen
    cases accepted.symm.trans decoded
    exact complete

/-- Which columns of accepted metadata have complete types. -/
def completeColumns (body : List UInt8) : Option (Option (Option (List Bool))) :=
  (decodeMetadata false (.mk' body 0 body.length 4)).map fun result =>
    result.1.map fun metadata => metadata.columns.map
      (List.map fun column => decide column.dataType.IsComplete)

theorem exists_metadata {body : List UInt8} {flags : List Bool}
    (columns : completeColumns body = some (some (some flags))) :
    ∃ metadata rest, decodeMetadata false (.mk' body 0 body.length 4) = some (some metadata, rest) ∧
      (metadata.IsComplete ↔ ∀ flag ∈ flags, flag = true) := by
  obtain ⟨⟨result, rest⟩, ran, accepted⟩ := map_eq_some_iff.mp columns
  obtain ⟨metadata, rfl, shown⟩ := map_eq_some_iff.mp accepted
  obtain ⟨columns, held, rfl⟩ := map_eq_some_iff.mp shown
  refine ⟨metadata, rest, ran, ?_⟩
  simp [Metadata.IsComplete, held]

/-- One column `c` of the table `t` in the keyspace `k`: a list of a type with this number. -/
def listOf (valueType : UInt8) : List UInt8 :=
  [0, 0, 0, 1, 0, 0, 0, 1, 0, 1, 107, 0, 1, 116, 0, 1, 99, 0, 32, 0, valueType]

/-- A list of a type that has no name is accepted with a null reference to its element type. -/
theorem decodeMetadata_listOfUnknown :
    ∃ metadata rest, decodeMetadata false (.mk' (listOf 64) 0 21 4) = some (some metadata, rest) ∧
      ¬ metadata.IsComplete := by
  obtain ⟨metadata, rest, accepted, complete⟩ :=
    exists_metadata (show completeColumns (listOf 64) = some (some (some [false])) by decide +kernel)
  exact ⟨metadata, rest, accepted, fun all => absurd (complete.mp all) (by decide)⟩

/-- A list of integers. -/
theorem decodeMetadata_listOfInt :
    ∃ word ∈ metadataBytes 22 false, word <+: listOf 9 := by
  obtain ⟨metadata, rest, accepted, complete⟩ :=
    exists_metadata (show completeColumns (listOf 9) = some (some (some [true])) by decide +kernel)
  exact (decodeMetadata_isComplete_iff (by decide) 4 false accepted).mp (complete.mpr (by decide))

/-! ## References into the body -/

section Inside

variable (buffer : InputBuffer)

abbrev SpecInside (spec : StringRef × StringRef) : Prop :=
  buffer.Contains spec.1 ∧ buffer.Contains spec.2

/-- What the metadata refers to is in the buffer. -/
structure Metadata.Inside (metadata : Metadata) : Prop where
  pagingState : ∀ state ∈ metadata.pagingState, buffer.Contains state
  tableSpec : ∀ spec ∈ metadata.tableSpec, SpecInside buffer spec
  columns : ∀ columns ∈ metadata.columns, ∀ column ∈ columns,
    buffer.Contains column.name ∧ ∀ spec ∈ column.tableSpec, SpecInside buffer spec

variable {buffer}

theorem keeps_decodeIf {α : Type} {operation : Fallible Decoder α} {good : α → Prop}
    (keeps : Keeps buffer.Covers operation good) (condition : Bool) :
    Keeps buffer.Covers (decodeIf condition operation) fun output => ∀ item ∈ output, good item := by
  rw [decodeIf]
  split
  · exact keeps.andThen fun output isGood => .succeed (by simpa using isGood)
  · exact .succeed (by simp)

theorem keeps_decodeTableSpec : Keeps buffer.Covers decodeTableSpec (SpecInside buffer) :=
  keeps_string.andThen fun _ first => keeps_string.andThen fun _ second => .succeed ⟨first, second⟩

theorem keeps_decodeColumn {decodeType : Fallible Decoder TypeRef}
    (type : Keeps buffer.Covers decodeType fun _ => True) (globalTableSpec : Bool) :
    Keeps buffer.Covers (decodeColumn globalTableSpec decodeType) fun column =>
      buffer.Contains column.name ∧ ∀ spec ∈ column.tableSpec, SpecInside buffer spec :=
  (keeps_decodeIf keeps_decodeTableSpec _).andThen fun _ specs =>
    keeps_string.andThen fun _ name => type.andThen fun _ _ => .succeed ⟨name, specs⟩

/-- Whatever the bytes of a body are, `decode_metadata` reads no others, leaves the cursor in them
and stores references to them, unless the number of columns is negative. -/
theorem decodeMetadata_inside (buffer : InputBuffer) (protocolVersion : Int) (hasPkIndices : Bool) :
    let decoder := Decoder.mk' buffer.memory buffer.start (buffer.stop - buffer.start) protocolVersion
    (∃ columnCount rest, andThen decodeInt32 (fun _ => decodeInt32) decoder =
      some (some columnCount, rest) ∧ columnCount < 0) ∨
    ∃ output rest, decodeMetadata hasPkIndices decoder = some (output, rest) ∧ buffer.Covers rest ∧
      ∀ metadata, output = some metadata → metadata.Inside buffer := by
  intro decoder
  have covers : buffer.Covers decoder := ⟨rfl, Nat.le_refl _, Nat.add_sub_of_le buffer.ordered⟩
  have type : Keeps buffer.Covers
      (DataTypeDecoder.notNil (DataTypeDecoder.decode (decoder.remaining + 1))) fun _ => True := by
    refine (DataTypeDecoder.keeps_decode (Nat.lt_succ_of_le covers.stop.ge)).andThen fun _ _ => ?_
    split
    · exact .fail
    · exact .succeed trivial
  refine or_iff_not_imp_left.mpr fun counted => ?_
  refine keeps_int32.andThen_at covers fun flags middle first _ covers => ?_
  refine keeps_int32.andThen_at covers fun columnCount last second _ covers => ?_
  have notNegative : ¬ columnCount < 0 := fun negative =>
    counted ⟨columnCount, last, by simp [andThen, first, second], negative⟩
  have indices : Keeps buffer.Covers decodePkIndices fun indices => ∀ index ∈ indices, True :=
    keeps_int32.andThen fun _ _ => DataTypeDecoder.keeps_list keeps_uint16 _
  refine (keeps_decodeIf indices _).andThen (fun pkIndices _ =>
    (keeps_decodeIf keeps_bytes _).andThen fun pagingState paging => ?_) last covers
  split
  · exact .succeed ⟨paging, by simp, by simp⟩
  · refine (keeps_decodeIf keeps_decodeTableSpec _).andThen fun tableSpec specs => ?_
    refine (DataTypeDecoder.keeps_list (keeps_decodeColumn type _) _).andThen fun columns inside => ?_
    exact .succeed ⟨paging, specs, by simpa using inside⟩

end Inside

end DseDriver.Response
