import DseDriver.Cql.ClassNameParser
import Mathlib.Data.List.Find

/-!
# The names of Cassandra's types

All names that the driver knows are classes of one package, and none of the names that
`parse_one` looks for starts another one.  The characters of the names are written out here: the
kernel takes long to get them out of a string.
-/

namespace DseDriver.Cql

open List

/-- The package of the classes. -/
def marshal : List Char :=
  ['o', 'r', 'g', '.', 'a', 'p', 'a', 'c', 'h', 'e', '.', 'c', 'a', 's', 's', 'a', 'n', 'd', 'r',
    'a', '.', 'd', 'b', '.', 'm', 'a', 'r', 's', 'h', 'a', 'l', '.']

/-- The name of the class of a value type in the package. -/
def CassValueType.classSuffix : CassValueType → List Char
  | ascii => ['A', 's', 'c', 'i', 'i', 'T', 'y', 'p', 'e']
  | bigint => ['L', 'o', 'n', 'g', 'T', 'y', 'p', 'e']
  | blob => ['B', 'y', 't', 'e', 's', 'T', 'y', 'p', 'e']
  | boolean => ['B', 'o', 'o', 'l', 'e', 'a', 'n', 'T', 'y', 'p', 'e']
  | counter => ['C', 'o', 'u', 'n', 't', 'e', 'r', 'C', 'o', 'l', 'u', 'm', 'n', 'T', 'y', 'p', 'e']
  | decimal => ['D', 'e', 'c', 'i', 'm', 'a', 'l', 'T', 'y', 'p', 'e']
  | double => ['D', 'o', 'u', 'b', 'l', 'e', 'T', 'y', 'p', 'e']
  | float => ['F', 'l', 'o', 'a', 't', 'T', 'y', 'p', 'e']
  | int => ['I', 'n', 't', '3', '2', 'T', 'y', 'p', 'e']
  | text => ['U', 'T', 'F', '8', 'T', 'y', 'p', 'e']
  | timestamp => ['T', 'i', 'm', 'e', 's', 't', 'a', 'm', 'p', 'T', 'y', 'p', 'e']
  | uuid => ['U', 'U', 'I', 'D', 'T', 'y', 'p', 'e']
  | varint => ['I', 'n', 't', 'e', 'g', 'e', 'r', 'T', 'y', 'p', 'e']
  | timeuuid => ['T', 'i', 'm', 'e', 'U', 'U', 'I', 'D', 'T', 'y', 'p', 'e']
  | inet => ['I', 'n', 'e', 't', 'A', 'd', 'd', 'r', 'e', 's', 's', 'T', 'y', 'p', 'e']
  | date => ['S', 'i', 'm', 'p', 'l', 'e', 'D', 'a', 't', 'e', 'T', 'y', 'p', 'e']
  | time => ['T', 'i', 'm', 'e', 'T', 'y', 'p', 'e']
  | smallInt => ['S', 'h', 'o', 'r', 't', 'T', 'y', 'p', 'e']
  | tinyInt => ['B', 'y', 't', 'e', 'T', 'y', 'p', 'e']
  | duration => ['D', 'u', 'r', 'a', 't', 'i', 'o', 'n', 'T', 'y', 'p', 'e']
  | list => ['L', 'i', 's', 't', 'T', 'y', 'p', 'e']
  | map => ['M', 'a', 'p', 'T', 'y', 'p', 'e']
  | set => ['S', 'e', 't', 'T', 'y', 'p', 'e']
  | tuple => ['T', 'u', 'p', 'l', 'e', 'T', 'y', 'p', 'e']
  | _ => []

theorem toList_className : ∀ entry ∈ valueTypeMapping, entry.2.2 ≠ "" →
    entry.2.2.toList = marshal ++ entry.1.classSuffix := by
  have unnamed : ∀ {text : List Char}, "" ≠ "" → "".toList = text := fun named => absurd rfl named
  simp only [valueTypeMapping, forall_mem_cons]
  repeat' apply And.intro
  all_goals first
    | exact unnamed
    | exact fun _ => String.toList_ofList
    | exact fun _ member => absurd member not_mem_nil

theorem className_eq {valueType : CassValueType} (named : valueType.className ≠ []) :
    valueType.className = marshal ++ valueType.classSuffix := by
  unfold CassValueType.className at named ⊢
  cases found : valueTypeMapping.find? fun entry => entry.1 = valueType with
  | none =>
    rw [found] at named
    exact absurd rfl named
  | some entry =>
    rw [found] at named
    have isType : entry.1 = valueType := by simpa using find?_some found
    have isNamed : entry.2.2 ≠ "" := by
      intro unnamed
      exact named (congrArg String.toList unnamed)
    exact isType ▸ toList_className entry (mem_of_find?_eq_some found) isNamed

theorem iequals_marshal (left right : List Char) :
    iequals (marshal ++ left) (marshal ++ right) = iequals left right := by
  simp [iequals]

/-- A class of the package that is none of the value types. -/
theorem byClass_eq_none {suffix : List Char}
    (other : ∀ valueType : CassValueType, iequals suffix valueType.classSuffix = false) :
    SimpleDataTypeCache.byClass (marshal ++ suffix) = none := by
  have notFound : valueTypeMapping.find? (fun entry =>
      decide (entry.2.2 ≠ "" ∧ iequals (marshal ++ suffix) entry.2.2.toList = true)) = none := by
    rw [find?_eq_none]
    intro entry member found
    obtain ⟨named, same⟩ := of_decide_eq_true found
    rw [toList_className entry member named, iequals_marshal, other] at same
    cases same
  rw [SimpleDataTypeCache.byClass, ValueTypes.byClass, ValueTypes.lookup]
  simp only [notFound]
  rfl

/-- A class of the package is looked up by its name there. -/
theorem byClass_marshal (suffix : List Char) :
    ValueTypes.byClass (marshal ++ suffix) =
      ((valueTypeMapping.map Prod.fst).find? fun valueType =>
        valueType.classSuffix ≠ [] ∧ iequals suffix valueType.classSuffix = true).getD .unknown := by
  have same : ∀ entry ∈ valueTypeMapping,
      decide (entry.2.2 ≠ "" ∧ iequals (marshal ++ suffix) entry.2.2.toList = true) =
        decide (entry.1.classSuffix ≠ [] ∧ iequals suffix entry.1.classSuffix = true) := by
    intro entry member
    have unnamed : entry.2.2 = "" ↔ entry.1.classSuffix = [] := by
      revert entry
      decide
    by_cases named : entry.2.2 = ""
    · simp [named, unnamed.mp named]
    · rw [toList_className entry member named, iequals_marshal, decide_eq_decide, ne_eq, ne_eq,
        unnamed]
  rw [ValueTypes.byClass, ValueTypes.lookup, find?_congr same, find?_map,
    Function.comp_def]
  cases valueTypeMapping.find? _ <;> rfl

theorem byClass_className {simpleType : SimpleType}
    (named : simpleType.valueType.className ≠ []) :
    SimpleDataTypeCache.byClass simpleType.valueType.className = some simpleType := by
  rw [className_eq named, SimpleDataTypeCache.byClass, byClass_marshal]
  cases simpleType <;> first | rfl | exact absurd rfl named

theorem className_ne_nil {simpleType : SimpleType} (known : simpleType ≠ .unknown)
    (notAlias : simpleType ≠ .varchar) : simpleType.valueType.className ≠ [] := by
  intro unnamed
  cases simpleType with
  | unknown => exact known rfl
  | varchar => exact notAlias rfl
  | _ => exact absurd (String.toList_eq_nil_iff.mp unnamed) (by decide)

namespace DataTypeClassNameParser

theorem startsWith_marshal (input target : List Char) :
    startsWith (marshal ++ input) (marshal ++ target) = startsWith input target := by
  simp [startsWith, marshal]

/-- The classes that `parse_one` looks for. -/
inductive KnownType where
  | reversed
  | frozen
  | list
  | set
  | map
  | udt
  | tuple
  deriving DecidableEq, Repr

namespace KnownType

def name : KnownType → List Char
  | reversed => reversedType
  | frozen => frozenType
  | list => listType
  | set => setType
  | map => mapType
  | udt => udtType
  | tuple => tupleType

def suffix : KnownType → List Char
  | reversed => ['R', 'e', 'v', 'e', 'r', 's', 'e', 'd', 'T', 'y', 'p', 'e']
  | frozen => ['F', 'r', 'o', 'z', 'e', 'n', 'T', 'y', 'p', 'e']
  | list => ['L', 'i', 's', 't', 'T', 'y', 'p', 'e']
  | set => ['S', 'e', 't', 'T', 'y', 'p', 'e']
  | map => ['M', 'a', 'p', 'T', 'y', 'p', 'e']
  | udt => ['U', 's', 'e', 'r', 'T', 'y', 'p', 'e']
  | tuple => ['T', 'u', 'p', 'l', 'e', 'T', 'y', 'p', 'e']

theorem name_eq (known : KnownType) : known.name = marshal ++ known.suffix := by
  cases known <;> exact String.toList_ofList

/-- No known name starts with another one. -/
theorem startsWith_name (known other : KnownType) :
    startsWith known.name other.name = decide (known = other) := by
  rw [name_eq, name_eq, startsWith_marshal]
  cases known <;> cases other <;> rfl

theorem isIdentifier_name (known : KnownType) : IsIdentifier known.name := by
  rw [name_eq]
  cases known <;> decide

theorem paren_not_mem_name (known : KnownType) : '(' ∉ known.name :=
  fun member => absurd (known.isIdentifier_name.2 _ member) (by decide)

end KnownType

end DataTypeClassNameParser

end DseDriver.Cql
