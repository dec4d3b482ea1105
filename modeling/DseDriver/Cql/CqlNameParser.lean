import DseDriver.Cql.NameParser
import DseDriver.Cql.TypeRef
import Mathlib.Data.List.AList

/-!
# CQL names of data types

`DataType::to_string` writes a data type in CQL, and `DataTypeCqlNameParser` reads it back.  The
parser cuts the parameters of a type out of its text by counting angle brackets and then parses
each of them.
-/

namespace DseDriver.Cql

open Lib

/-! ## Writing -/

/-- `CompositeType::to_string`, with the texts of the parameters. -/
def compositeText (name : List Char) (parameters : List (List Char)) (isFrozen : Bool) :
    List Char :=
  (if isFrozen then "frozen<".toList else []) ++ name ++ ['<'] ++
    (", ".toList).intercalate parameters ++ (if isFrozen then ">>".toList else ['>'])

namespace DataType

mutual

/-- `to_string`. -/
def toString : DataType → List Char
  | simple simpleType => simpleType.valueType.cqlName
  | custom className => className.toList
  | collection kind types isFrozen =>
    compositeText (collection kind [] isFrozen).valueType.cqlName (toStrings types) isFrozen
  | tuple types isFrozen => compositeText CassValueType.tuple.cqlName (toStrings types) isFrozen
  | userType _ typeName _ _ isFrozen =>
    (if isFrozen then "frozen<".toList else []) ++ typeName.toList ++
      (if isFrozen then ['>'] else [])

def toStrings : List DataType → List (List Char)
  | [] => []
  | dataType :: types => toString dataType :: toStrings types

end

end DataType

/-! ## Reading -/

/-- A user type of a keyspace. -/
structure UserType where
  keyspace : String
  typeName : String
  fields : List String
  types : List DataType
  isFrozen : Bool
  deriving Repr

/-- The part of a `KeyspaceMetadata` that the parser uses. -/
structure KeyspaceTypes where
  name : String
  userTypes : AList fun _ : String => UserType

/-- `KeyspaceMetadata::get_or_create_user_type`. -/
def KeyspaceTypes.getOrCreateUserType (keyspace : KeyspaceTypes) (name : String)
    (isFrozen : Bool) : UserType × KeyspaceTypes :=
  match keyspace.userTypes.lookup name with
  | some userType => (userType, keyspace)
  | none =>
    let userType : UserType :=
      { keyspace := keyspace.name, typeName := name, fields := [], types := [], isFrozen }
    (userType, { keyspace with userTypes := keyspace.userTypes.insert name userType })

def doubleQuote : Char := Char.ofNat 34

def singleQuote : Char := Char.ofNat 39

def emptyType : String := "org.apache.cassandra.db.marshal.EmptyType"

namespace DataTypeCqlNameParser

/-- The length of a name in double quotes, from behind the first quote on.  Two quotes in a row
do not end it. -/
def quotedLength : List Char → Nat
  | [] => 0
  | [_] => 1
  | c :: next :: text =>
    if c = doubleQuote then
      if next = doubleQuote then quotedLength text + 2 else 1
    else
      quotedLength (next :: text) + 1

/-- The length of a name in single quotes, from behind the first quote on. -/
def singleQuotedLength : List Char → Nat
  | [] => 0
  | c :: text => if c = singleQuote then 1 else singleQuotedLength text + 1

/-- `read_next_identifier`. -/
def readNextIdentifier (parser : ParserBase) : List Char × ParserBase :=
  let length :=
    if parser.current = doubleQuote then
      quotedLength (parser.rest.drop 1) + 1
    else if parser.current = singleQuote then
      singleQuotedLength (parser.rest.drop 1) + 1
    else
      (parser.rest.takeWhile fun c => isIdentifierChar c || c = doubleQuote).length
  (parser.rest.take length, parser.advance length)

def parseTypeName (parser : ParserBase) : List Char × ParserBase :=
  readNextIdentifier parser.skipBlank

/-- The loop of `read_raw_type_parameters`: how many characters there are up to the bracket that
closes the first one. -/
def closingLength : (inQuotes : Bool) → (opened : Nat) → List Char → Option Nat
  | _, _, [] => none
  | inQuotes, opened, c :: text =>
    let (inQuotes, opened) :=
      if !inQuotes then
        if c = doubleQuote then (true, opened)
        else if c = '<' then (false, opened + 1)
        else if c = '>' then (false, opened - 1)
        else (false, opened)
      else if c = doubleQuote then (false, opened)
      else (true, opened)
    if opened > 0 then (closingLength inQuotes opened text).map (· + 1) else some 1

/-- `read_raw_type_parameters`. -/
def readRawTypeParameters (parser : ParserBase) : Option (List Char × ParserBase) :=
  let parser := parser.skipBlank
  if parser.isEos ∨ parser.current = '>' ∨ parser.current = ',' then
    some ([], parser)
  else if parser.current ≠ '<' then
    none
  else
    (closingLength false 1 (parser.rest.drop 1)).map fun length =>
      (parser.rest.take (length + 1), parser.advance (length + 1))

/-- The loop of `parse_type_parameters`.  Each round moves on, so that there are no more rounds
than characters. -/
def typeParameters : (limit : Nat) → ParserBase → List (List Char)
  | 0, _ => []
  | limit + 1, parser =>
    match parser.skipBlankAndComma with
    | (false, _) => []
    | (true, parser) =>
      if parser.current = '>' then
        []
      else
        let (name, parser) := parseTypeName parser
        match readRawTypeParameters parser with
        | none => []
        | some (args, parser) => (name ++ args) :: typeParameters limit parser

def parseTypeParameters (parser : ParserBase) : List (List Char) :=
  if parser.isEos then
    []
  else
    let (_, parser) := parser.skipBlankAndComma
    if parser.current ≠ '<' then [] else typeParameters parser.str.length parser.skip

/-- The user type at the end of `parse`. -/
def userTypeNamed (typeName : List Char) (isFrozen : Bool) : StateM KeyspaceTypes DataType := do
  let keyspace ← get
  let (userType, keyspace) := keyspace.getOrCreateUserType (String.ofList typeName) isFrozen
  set keyspace
  return .userType userType.keyspace userType.typeName userType.fields userType.types isFrozen

/-- What `parse` makes of a text: the kind of type, and the texts that it parses. -/
inductive Shape where
  | simple (simpleType : SimpleType)
  | collection (kind : CollectionKind) (params : List (List Char))
  | tuple (params : List (List Char))
  | frozen (param : List Char)
  | custom (className : String)
  | userType (typeName : List Char)
  | rejected
  deriving DecidableEq, Repr

/-- The tests of `parse` on a name and its parameters. -/
def shapeNamed (typeName : List Char) (params : List (List Char)) : Shape :=
  match SimpleDataTypeCache.byCql typeName with
  | some simpleType => .simple simpleType
  | none =>
    if iequals typeName "list".toList then
      if params.length ≠ 1 then .rejected else .collection .list params
    else if iequals typeName "set".toList then
      if params.length ≠ 1 then .rejected else .collection .set params
    else if iequals typeName "map".toList then
      if params.length ≠ 2 then .rejected else .collection .map params
    else if iequals typeName "tuple".toList then
      if params = [] then .rejected else .tuple params
    else if iequals typeName "frozen".toList then
      match params with
      | [param] => .frozen param
      | _ => .rejected
    else if typeName = [] then .rejected
    else if iequals typeName "empty".toList then .custom emptyType
    else if typeName.head? = some singleQuote then
      .custom (String.ofList ((typeName.drop 1).take (typeName.length - 2)))
    else .userType typeName

/-- What `parse` makes of a text, by its name and its parameters. -/
def shapeOf (type : List Char) : Shape :=
  let (typeName, parser) := parseTypeName { str := type, index := 0 }
  shapeNamed typeName (parseTypeParameters parser)

/-- `parse`, with a limit on the nesting.  A type without a result is a null pointer; the parts of a
collection or a tuple may be null pointers, too. -/
def parseWithin : (limit : Nat) → (type : List Char) → (isFrozen : Bool) →
    StateM KeyspaceTypes TypeRef
  | 0, _, _ => return .nil
  | limit + 1, type, isFrozen =>
    match shapeOf type with
    | .simple simpleType => return .simple simpleType
    | .collection kind params => do
      let types ← params.mapM fun param => parseWithin limit param false
      return .collection kind types isFrozen
    | .tuple params => do
      let types ← params.mapM fun param => parseWithin limit param false
      return .tuple types isFrozen
    | .frozen param => parseWithin limit param true
    | .custom className => return .custom className
    | .userType typeName => TypeRef.ofDataType <$> userTypeNamed typeName isFrozen
    | .rejected => return .nil

/-- `parse` of a whole type. -/
def parse (type : List Char) : StateM KeyspaceTypes TypeRef :=
  parseWithin (type.length + 1) type false

end DataTypeCqlNameParser

end DseDriver.Cql
