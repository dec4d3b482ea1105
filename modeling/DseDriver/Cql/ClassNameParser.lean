import DseDriver.Cql.NameParser
import Mathlib.Data.List.AList

/-!
# Class names of data types

Older versions of Cassandra name the type of a column by a Java class with its arguments in
parentheses.  `DataTypeClassNameParser::parse_one` reads such a name.  It cuts the arguments out of
the text by counting parentheses and then parses each of them.  `parse_with_composite` reads the
name of a table's comparator, which may have several types.
-/

namespace DseDriver.Cql

open Lib

namespace DataTypeClassNameParser

/-! ## Class names -/

/-- `REVERSED_TYPE`. -/
def reversedType : List Char := "org.apache.cassandra.db.marshal.ReversedType".toList

/-- `FROZEN_TYPE`. -/
def frozenType : List Char := "org.apache.cassandra.db.marshal.FrozenType".toList

/-- `COMPOSITE_TYPE`. -/
def compositeType : List Char := "org.apache.cassandra.db.marshal.CompositeType".toList

/-- `COLLECTION_TYPE`. -/
def collectionType : List Char := "org.apache.cassandra.db.marshal.ColumnToCollectionType".toList

/-- `LIST_TYPE`. -/
def listType : List Char := "org.apache.cassandra.db.marshal.ListType".toList

/-- `SET_TYPE`. -/
def setType : List Char := "org.apache.cassandra.db.marshal.SetType".toList

/-- `MAP_TYPE`. -/
def mapType : List Char := "org.apache.cassandra.db.marshal.MapType".toList

/-- `UDT_TYPE`. -/
def udtType : List Char := "org.apache.cassandra.db.marshal.UserType".toList

/-- `TUPLE_TYPE`. -/
def tupleType : List Char := "org.apache.cassandra.db.marshal.TupleType".toList

/-- `starts_with`. -/
def startsWith (input target : List Char) : Bool :=
  target.isPrefixOf input

/-- `is_reversed`. -/
def isReversed (type : List Char) : Bool :=
  startsWith type reversedType

/-- `is_frozen`. -/
def isFrozen (type : List Char) : Bool :=
  startsWith type frozenType

/-- `is_composite`. -/
def isComposite (type : List Char) : Bool :=
  startsWith type compositeType

/-- `is_collection`. -/
def isCollection (type : List Char) : Bool :=
  startsWith type collectionType

/-- `is_user_type`. -/
def isUserType (type : List Char) : Bool :=
  startsWith type udtType

/-- `is_tuple_type`. -/
def isTupleType (type : List Char) : Bool :=
  startsWith type tupleType

/-- `hex_value`; none for its -1. -/
def hexValue (c : Char) : Option Nat :=
  if '0' ≤ c ∧ c ≤ '9' then some (c.toNat - '0'.toNat)
  else if 'A' ≤ c ∧ c ≤ 'F' then some (c.toNat - 'A'.toNat + 10)
  else if 'a' ≤ c ∧ c ≤ 'f' then some (c.toNat - 'a'.toNat + 10)
  else none

/-- `from_hex`.  A byte is the character with its number. -/
def fromHex : List Char → Option (List Char)
  | [] => some []
  | [_] => none
  | high :: low :: hex => do
    let half0 ← hexValue high
    let half1 ← hexValue low
    let result ← fromHex hex
    return Char.ofNat (half0 * 16 + half1) :: result

/-! ## The parser -/

variable (parser : ParserBase)

/-- `read_next_identifier`. -/
def readNextIdentifier : List Char × ParserBase :=
  let name := parser.rest.takeWhile isIdentifierChar
  (name, parser.advance name.length)

/-- `get_next_name`. -/
def getNextName : List Char × ParserBase :=
  readNextIdentifier parser.skipBlank

/-- `read_raw_arguments`.  The second argument of `substr` is a length, but the code passes the
index behind the arguments: what follows them in the text is taken as well, up to that length. -/
def readRawArguments : Option (List Char × ParserBase) :=
  let parser := parser.skipBlank
  if parser.isEos ∨ parser.current = ')' ∨ parser.current = ',' then
    some ([], parser)
  else if parser.current ≠ '(' then
    none
  else
    (splitClosing '(' ')' 1 (parser.rest.drop 1)).map fun split =>
      let behind := parser.advance (split.1.length + 1)
      (parser.rest.take behind.index, behind)

/-- `read_one`. -/
def readOne : Option (List Char × ParserBase) :=
  let (name, parser) := getNextName parser
  (readRawArguments parser).map fun (args, parser) => (name ++ args, parser)

/-- The loop of `get_type_params`: whether it finds the end, and the parameters it has read.  Each
round moves on, so that there are no more rounds than characters. -/
def typeParams : (limit : Nat) → ParserBase → Bool × List (List Char)
  | 0, _ => (false, [])
  | limit + 1, parser =>
    match parser.skipBlankAndComma with
    | (false, _) => (false, [])
    | (true, parser) =>
      if parser.current = ')' then
        (true, [])
      else
        match readOne parser with
        | none => (false, [])
        | some (param, parser) =>
          let (complete, params) := typeParams limit parser
          (complete, param :: params)

/-- `get_type_params`. -/
def getTypeParams : Bool × List (List Char) :=
  if parser.isEos then (true, [])
  else if parser.current ≠ '(' then (false, [])
  else typeParams parser.str.length parser.skip

/-- The loop of `get_name_and_type_params`. -/
def nameAndTypeParams : (limit : Nat) → ParserBase → Option (List (List Char × List Char))
  | 0, _ => none
  | limit + 1, parser =>
    match parser.skipBlankAndComma with
    | (false, _) => none
    | (true, parser) =>
      if parser.current = ')' then
        some []
      else do
        let (hex, parser) := readNextIdentifier parser
        let name ← fromHex hex
        let parser := parser.skipBlank
        if parser.current ≠ ':' then
          none
        else
          let (type, parser) ← readOne parser.skip.skipBlank
          let params ← nameAndTypeParams limit parser
          return (name, type) :: params

/-- `get_name_and_type_params`. -/
def getNameAndTypeParams : Option (List (List Char × List Char)) :=
  nameAndTypeParams (parser.str.length + 1) parser

/-- `get_collection_params`. -/
def getCollectionParams : Option (List (List Char × List Char)) :=
  if parser.isEos then some []
  else if parser.current ≠ '(' then none
  else getNameAndTypeParams parser.skip

/-- `get_nested_class_name`, which does not ask whether the parameters were read to their end. -/
def getNestedClassName (type : List Char) : Option (List Char) :=
  let (_, parser) := getNextName { str := type, index := 0 }
  match (getTypeParams parser).2 with
  | [className] => some className
  | _ => none

/-- The branch of `parse_one` for user types. -/
def userTypeNamed (parseOne : List Char → Option DataType) (parser : ParserBase) :
    Option DataType := do
  let (keyspace, parser) ← readOne parser.skip
  let (_, parser) := parser.skipBlankAndComma
  let (hex, parser) ← readOne parser
  let typeName ← fromHex hex
  if keyspace = [] ∨ typeName = [] then
    none
  else
    let (_, parser) := parser.skipBlankAndComma
    let rawFields ← getNameAndTypeParams parser
    let types ← rawFields.mapM fun field => parseOne field.2
    return .userType (String.ofList keyspace) (String.ofList typeName)
      (rawFields.map fun field => String.ofList field.1) types true

/-- The part of `parse_one` behind the wrapper, with the whole text `type` and the text `className`
without the wrapper.  The branch for tuples looks at the whole text. -/
def typeNamed (parseOne : List Char → Option DataType) (type className : List Char)
    (isFrozen : Bool) : Option DataType :=
  let (next, parser) := getNextName { str := className, index := 0 }
  if startsWith next listType then
    match getTypeParams parser with
    | (true, element :: _) =>
      (parseOne element).map fun elementType => .collection .list [elementType] isFrozen
    | _ => none
  else if startsWith next setType then
    match getTypeParams parser with
    | (true, element :: _) =>
      (parseOne element).map fun elementType => .collection .set [elementType] isFrozen
    | _ => none
  else if startsWith next mapType then
    match getTypeParams parser with
    | (true, key :: value :: _) => do
      let keyType ← parseOne key
      let valueType ← parseOne value
      return .collection .map [keyType, valueType] isFrozen
    | _ => none
  else if isUserType next then
    userTypeNamed parseOne parser
  else if isTupleType type then
    match getTypeParams parser with
    | (true, rawTypes) => (rawTypes.mapM parseOne).map fun types => .tuple types true
    | (false, _) => none
  else
    match SimpleDataTypeCache.byClass next with
    | some simpleType => some (.simple simpleType)
    | none => some (.custom (String.ofList next))

/-- `parse_one`, with a limit on the nesting. -/
def parseOneWithin : (limit : Nat) → List Char → Option DataType
  | 0, _ => none
  | limit + 1, type => do
    let className ←
      if isReversed type ∨ isFrozen type then getNestedClassName type else some type
    typeNamed (parseOneWithin limit) type className (isFrozen type)

/-- `parse_one`.  The parameters of a type are shorter than its text. -/
def parseOne (type : List Char) : Option DataType :=
  parseOneWithin (type.length + 1) type

/-! ## Composite types -/

/-- `ParseResult`. -/
structure ParseResult where
  isComposite : Bool
  types : List DataType
  reversed : List Bool
  collections : AList fun _ : String => DataType

/-- The collections at the end of a composite type. -/
def parseCollections (last : List Char) : Option (AList fun _ : String => DataType) := do
  let (_, parser) := getNextName { str := last, index := 0 }
  let params ← getCollectionParams parser
  params.foldlM (fun collections param => do
    let dataType ← parseOne param.2
    return collections.insert (String.ofList param.1) dataType) ∅

/-- `parse_with_composite`. -/
def parseWithComposite (type : List Char) : Option ParseResult :=
  let (next, parser) := getNextName { str := type, index := 0 }
  if !isComposite next then do
    let dataType ← parseOne type
    return ⟨false, [dataType], [isReversed next], ∅⟩
  else
    match getTypeParams parser with
    | (false, _) => none
    | (true, subClassNames) => do
      let last ← subClassNames.getLast?
      let collections ← if isCollection last then parseCollections last else some ∅
      let count := if isCollection last then subClassNames.length - 1 else subClassNames.length
      let types ← (subClassNames.take count).mapM parseOne
      return ⟨true, types, (subClassNames.take count).map isReversed, collections⟩

end DataTypeClassNameParser

end DseDriver.Cql
