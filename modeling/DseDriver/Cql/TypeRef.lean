import DseDriver.Cql.DataType
import Mathlib.Data.List.Basic

/-!
# References to data types

The parsers and decoders of data types hand out `DataType::ConstPtr`s, and put those of the
parts into collections, tuples and user types as they are.  A part may be `DataType::NIL`.
-/

namespace DseDriver.Cql

open Option

/-- `DataType::ConstPtr`, with what it points to. -/
inductive TypeRef where
  | nil
  | simple (simpleType : SimpleType)
  | custom (className : String)
  | collection (kind : CollectionKind) (types : List TypeRef) (isFrozen : Bool)
  | tuple (types : List TypeRef) (isFrozen : Bool)
  | userType (keyspace typeName : String) (fields : List String) (types : List TypeRef)
      (isFrozen : Bool)
  deriving Repr

namespace TypeRef

mutual

/-- The data type, if neither the reference nor one in it is null. -/
def toDataType : TypeRef → Option DataType
  | nil => none
  | simple simpleType => some (.simple simpleType)
  | custom className => some (.custom className)
  | collection kind types isFrozen =>
    (toDataTypes types).map fun types => .collection kind types isFrozen
  | tuple types isFrozen => (toDataTypes types).map fun types => .tuple types isFrozen
  | userType keyspace typeName fields types isFrozen =>
    (toDataTypes types).map fun types => .userType keyspace typeName fields types isFrozen

def toDataTypes : List TypeRef → Option (List DataType)
  | [] => some []
  | type :: types => (toDataType type).bind fun type => (toDataTypes types).map (type :: ·)

end

/-- `type == DataType::NIL`. -/
def isNil : TypeRef → Bool
  | nil => true
  | _ => false

/-- No reference in the type is null, at any depth. -/
def IsComplete (type : TypeRef) : Prop :=
  type.toDataType.isSome = true

instance (type : TypeRef) : Decidable type.IsComplete :=
  inferInstanceAs (Decidable (_ = true))

theorem toDataTypes_isSome_iff (types : List TypeRef) :
    (toDataTypes types).isSome = true ↔ ∀ type ∈ types, type.IsComplete := by
  induction types with
  | nil => simp [toDataTypes]
  | cons type types ih =>
    rw [List.forall_mem_cons, ← ih, IsComplete, toDataTypes]
    cases toDataType type <;> simp

@[simp] theorem not_isComplete_nil : ¬ nil.IsComplete := by
  decide

@[simp] theorem isComplete_simple (simpleType : SimpleType) : (simple simpleType).IsComplete := rfl

@[simp] theorem isComplete_custom (className : String) : (custom className).IsComplete := rfl

@[simp] theorem isComplete_collection (kind : CollectionKind) (types : List TypeRef)
    (isFrozen : Bool) :
    (collection kind types isFrozen).IsComplete ↔ ∀ type ∈ types, type.IsComplete := by
  rw [← toDataTypes_isSome_iff, IsComplete, toDataType, isSome_map]

@[simp] theorem isComplete_tuple (types : List TypeRef) (isFrozen : Bool) :
    (tuple types isFrozen).IsComplete ↔ ∀ type ∈ types, type.IsComplete := by
  rw [← toDataTypes_isSome_iff, IsComplete, toDataType, isSome_map]

@[simp] theorem isComplete_userType (keyspace typeName : String) (fields : List String)
    (types : List TypeRef) (isFrozen : Bool) :
    (userType keyspace typeName fields types isFrozen).IsComplete ↔
      ∀ type ∈ types, type.IsComplete := by
  rw [← toDataTypes_isSome_iff, IsComplete, toDataType, isSome_map]

theorem isComplete_ne_nil {type : TypeRef} (complete : type.IsComplete) : type.isNil = false := by
  cases type <;> first | rfl | exact absurd complete not_isComplete_nil

/-! ## References to data types -/

mutual

/-- The reference to a data type. -/
def ofDataType : DataType → TypeRef
  | .simple simpleType => simple simpleType
  | .custom className => custom className
  | .collection kind types isFrozen => collection kind (ofDataTypes types) isFrozen
  | .tuple types isFrozen => tuple (ofDataTypes types) isFrozen
  | .userType keyspace typeName fields types isFrozen =>
    userType keyspace typeName fields (ofDataTypes types) isFrozen

def ofDataTypes : List DataType → List TypeRef
  | [] => []
  | dataType :: types => ofDataType dataType :: ofDataTypes types

end

mutual

@[simp] theorem toDataType_ofDataType (dataType : DataType) :
    toDataType (ofDataType dataType) = some dataType := by
  cases dataType <;> simp [ofDataType, toDataType, toDataTypes_ofDataTypes]

theorem toDataTypes_ofDataTypes (types : List DataType) :
    toDataTypes (ofDataTypes types) = some types := by
  cases types <;> simp [ofDataTypes, toDataTypes, toDataType_ofDataType, toDataTypes_ofDataTypes]

end

theorem isComplete_ofDataType (dataType : DataType) : (ofDataType dataType).IsComplete := by
  rw [IsComplete, toDataType_ofDataType, isSome_some]

end TypeRef

end DseDriver.Cql
