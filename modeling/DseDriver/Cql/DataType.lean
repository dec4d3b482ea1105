/-!
# CQL data types

The data type tree of `data_type.hpp`.  The C++ class hierarchy stores one value
type in the base class; here the constructor fixes it, so a list type that holds
no element types and a custom type without a class name are the only degenerate
trees that remain, as in the source.
-/

namespace DseDriver.Cql

/-- `CassValueType`. -/
inductive CassValueType where
  | unknown
  | custom
  | ascii
  | bigint
  | blob
  | boolean
  | counter
  | decimal
  | double
  | float
  | int
  | text
  | timestamp
  | uuid
  | varchar
  | varint
  | timeuuid
  | inet
  | date
  | time
  | smallInt
  | tinyInt
  | duration
  | list
  | map
  | set
  | udt
  | tuple
  deriving DecidableEq, Repr

/-- Value types of a plain `DataType` object, which has no parameters. -/
inductive SimpleType where
  | unknown
  | ascii
  | bigint
  | blob
  | boolean
  | counter
  | decimal
  | double
  | float
  | int
  | text
  | timestamp
  | uuid
  | varchar
  | varint
  | timeuuid
  | inet
  | date
  | time
  | smallInt
  | tinyInt
  | duration
  deriving DecidableEq, Repr

/-- `CassCollectionType`. -/
inductive CollectionKind where
  | list
  | map
  | set
  deriving DecidableEq, Repr

/-- `DataType` and its subclasses `CustomType`, `CollectionType`, `TupleType` and
`UserType`.  The field names and field types of a user type are parallel lists. -/
inductive DataType where
  | simple (simpleType : SimpleType)
  | custom (className : String)
  | collection (kind : CollectionKind) (types : List DataType) (isFrozen : Bool)
  | tuple (types : List DataType) (isFrozen : Bool)
  | userType (keyspace typeName : String) (fields : List String) (types : List DataType)
      (isFrozen : Bool)
  deriving Repr

namespace SimpleType

def valueType : SimpleType → CassValueType
  | unknown => .unknown
  | ascii => .ascii
  | bigint => .bigint
  | blob => .blob
  | boolean => .boolean
  | counter => .counter
  | decimal => .decimal
  | double => .double
  | float => .float
  | int => .int
  | text => .text
  | timestamp => .timestamp
  | uuid => .uuid
  | varchar => .varchar
  | varint => .varint
  | timeuuid => .timeuuid
  | inet => .inet
  | date => .date
  | time => .time
  | smallInt => .smallInt
  | tinyInt => .tinyInt
  | duration => .duration

end SimpleType

namespace DataType

/-- `DataType::value_type`. -/
def valueType : DataType → CassValueType
  | simple simpleType => simpleType.valueType
  | custom _ => .custom
  | collection .list _ _ => .list
  | collection .map _ _ => .map
  | collection .set _ _ => .set
  | tuple _ _ => .tuple
  | userType _ _ _ _ _ => .udt

/-- `DataType::is_collection`. -/
def isCollection (dataType : DataType) : Bool :=
  dataType.valueType = .list || dataType.valueType = .map || dataType.valueType = .set

end DataType

end DseDriver.Cql
