import DseDriver.Cql.DataType
import DseDriver.Lib.Brackets

/-!
# Names of data types

The names of the value types, and the base of the two parsers that read data types from texts.
A text is a list of characters, with an index into it that moves on.
-/

namespace DseDriver.Cql

open List

/-! ## Value types -/

/-- `CASS_VALUE_TYPE_MAPPING`: the CQL name and the class name of each value type. -/
def valueTypeMapping : List (CassValueType × String × String) :=
  [(.custom, "", ""),
    (.ascii, "ascii", "org.apache.cassandra.db.marshal.AsciiType"),
    (.bigint, "bigint", "org.apache.cassandra.db.marshal.LongType"),
    (.blob, "blob", "org.apache.cassandra.db.marshal.BytesType"),
    (.boolean, "boolean", "org.apache.cassandra.db.marshal.BooleanType"),
    (.counter, "counter", "org.apache.cassandra.db.marshal.CounterColumnType"),
    (.decimal, "decimal", "org.apache.cassandra.db.marshal.DecimalType"),
    (.double, "double", "org.apache.cassandra.db.marshal.DoubleType"),
    (.float, "float", "org.apache.cassandra.db.marshal.FloatType"),
    (.int, "int", "org.apache.cassandra.db.marshal.Int32Type"),
    (.text, "text", "org.apache.cassandra.db.marshal.UTF8Type"),
    (.timestamp, "timestamp", "org.apache.cassandra.db.marshal.TimestampType"),
    (.uuid, "uuid", "org.apache.cassandra.db.marshal.UUIDType"),
    (.varchar, "varchar", ""),
    (.varint, "varint", "org.apache.cassandra.db.marshal.IntegerType"),
    (.timeuuid, "timeuuid", "org.apache.cassandra.db.marshal.TimeUUIDType"),
    (.inet, "inet", "org.apache.cassandra.db.marshal.InetAddressType"),
    (.date, "date", "org.apache.cassandra.db.marshal.SimpleDateType"),
    (.time, "time", "org.apache.cassandra.db.marshal.TimeType"),
    (.smallInt, "smallint", "org.apache.cassandra.db.marshal.ShortType"),
    (.tinyInt, "tinyint", "org.apache.cassandra.db.marshal.ByteType"),
    (.duration, "duration", "org.apache.cassandra.db.marshal.DurationType"),
    (.list, "list", "org.apache.cassandra.db.marshal.ListType"),
    (.map, "map", "org.apache.cassandra.db.marshal.MapType"),
    (.set, "set", "org.apache.cassandra.db.marshal.SetType"),
    (.udt, "", ""),
    (.tuple, "tuple", "org.apache.cassandra.db.marshal.TupleType")]

namespace CassValueType

/-- `DataType::to_string` of the base class. -/
def cqlName (valueType : CassValueType) : List Char :=
  match valueTypeMapping.find? fun entry => entry.1 = valueType with
  | some entry => entry.2.1.toList
  | none => []

/-- The class name in the mapping. -/
def className (valueType : CassValueType) : List Char :=
  match valueTypeMapping.find? fun entry => entry.1 = valueType with
  | some entry => entry.2.2.toList
  | none => []

end CassValueType

/-- Equality up to the case of letters. -/
def iequals (left right : List Char) : Bool :=
  left.map Char.toUpper = right.map Char.toUpper

namespace ValueTypes

/-- The names in the maps are not empty. -/
def lookup (name : List Char) (nameOf : CassValueType × String × String → String) :
    CassValueType :=
  match valueTypeMapping.find? fun entry =>
      nameOf entry ≠ "" ∧ iequals name (nameOf entry).toList = true with
  | some entry => entry.1
  | none => .unknown

/-- `by_class`. -/
def byClass (name : List Char) : CassValueType :=
  lookup name fun entry => entry.2.2

/-- `by_cql`. -/
def byCql (name : List Char) : CassValueType :=
  lookup name fun entry => entry.2.1

end ValueTypes

namespace SimpleDataTypeCache

/-- `by_value_type`. -/
def byValueType : CassValueType → Option SimpleType
  | .unknown | .custom | .list | .map | .set | .udt | .tuple => none
  | .ascii => some .ascii
  | .bigint => some .bigint
  | .blob => some .blob
  | .boolean => some .boolean
  | .counter => some .counter
  | .decimal => some .decimal
  | .double => some .double
  | .float => some .float
  | .int => some .int
  | .text => some .text
  | .timestamp => some .timestamp
  | .uuid => some .uuid
  | .varchar => some .varchar
  | .varint => some .varint
  | .timeuuid => some .timeuuid
  | .inet => some .inet
  | .date => some .date
  | .time => some .time
  | .smallInt => some .smallInt
  | .tinyInt => some .tinyInt
  | .duration => some .duration

/-- `by_class`. -/
def byClass (name : List Char) : Option SimpleType :=
  byValueType (ValueTypes.byClass name)

/-- `by_cql`. -/
def byCql (name : List Char) : Option SimpleType :=
  byValueType (ValueTypes.byCql name)

end SimpleDataTypeCache

/-! ## The base of the parsers -/

/-- `ParserBase`. -/
structure ParserBase where
  str : List Char
  index : Nat
  deriving DecidableEq, Repr

/-- `is_identifier_char`. -/
def isIdentifierChar (c : Char) : Bool :=
  ('0' ≤ c ∧ c ≤ '9') ∨ ('a' ≤ c ∧ c ≤ 'z') ∨ ('A' ≤ c ∧ c ≤ 'Z') ∨
    c = '-' ∨ c = '+' ∨ c = '.' ∨ c = '_' ∨ c = '&'

/-- `is_blank`. -/
def isBlank (c : Char) : Bool :=
  c = ' ' ∨ c = '\t' ∨ c = '\n'

namespace ParserBase

variable (parser : ParserBase)

/-- The part of the text from the index on. -/
def rest : List Char :=
  parser.str.drop parser.index

/-- `is_eos`. -/
def isEos : Bool :=
  parser.index ≥ parser.str.length

/-- `str_[index_]`, which is a zero at the end. -/
def current : Char :=
  parser.str.getD parser.index (Char.ofNat 0)

/-- Move the index on. -/
def advance (count : Nat) : ParserBase :=
  { parser with index := parser.index + count }

/-- `skip`. -/
def skip : ParserBase :=
  parser.advance 1

/-- `skip_blank`. -/
def skipBlank : ParserBase :=
  parser.advance (parser.rest.takeWhile isBlank).length

/-- The loop of `skip_blank_and_comma` over the part of the text that is left: how far it goes,
and whether it ends before the text. -/
def blanksAndComma : (commaFound : Bool) → List Char → Nat × Bool
  | _, [] => (0, false)
  | commaFound, c :: text =>
    if c = ',' then
      if commaFound then
        (0, true)
      else
        let (count, found) := blanksAndComma true text
        (count + 1, found)
    else if !isBlank c then
      (0, true)
    else
      let (count, found) := blanksAndComma commaFound text
      (count + 1, found)

/-- `skip_blank_and_comma`. -/
def skipBlankAndComma : Bool × ParserBase :=
  let (count, found) := blanksAndComma false parser.rest
  (found, parser.advance count)

/-- The part of a text in front of the first character that a loop stops at. -/
theorem takeWhile_append_stop {p : Char → Bool} {front rest : List Char}
    (all : ∀ c ∈ front, p c = true) (stops : ∀ c ∈ rest.head?, p c = false) :
    (front ++ rest).takeWhile p = front := by
  rw [takeWhile_append_of_pos all]
  cases rest with
  | nil => simp
  | cons c rest => rw [takeWhile_cons_of_neg (by simpa using stops c rfl), append_nil]

/-! ## Parsers between two parts of a text -/

/-- The parser has read the first part. -/
def between (before after : List Char) : ParserBase :=
  { str := before ++ after, index := before.length }

variable {before after : List Char}

@[simp] theorem rest_between : (between before after).rest = after := by
  simp [between, rest]

@[simp] theorem isEos_between : (between before after).isEos = after.isEmpty := by
  cases after <;> simp [between, isEos]

@[simp] theorem current_between {c : Char} : (between before (c :: after)).current = c := by
  simp [between, current]

theorem advance_between {text : List Char} :
    (between before (text ++ after)).advance text.length = between (before ++ text) after := by
  simp [between, advance]

@[simp] theorem skip_between {c : Char} :
    (between before (c :: after)).skip = between (before ++ [c]) after := by
  simp [between, skip, advance]

/-- A text of blanks alone. -/
def IsBlanks (text : List Char) : Prop :=
  ∀ c ∈ text, isBlank c = true

instance (text : List Char) : Decidable (IsBlanks text) :=
  List.decidableBAll _ text

theorem isBlanks_nil : IsBlanks [] :=
  fun _ member => absurd member not_mem_nil

variable {blanks blanks' : List Char} {c : Char}

/-- Blanks are skipped up to another character. -/
theorem skipBlank_blanks (areBlank : IsBlanks blanks) (stops : ∀ c ∈ after.head?, isBlank c = false) :
    (between before (blanks ++ after)).skipBlank = between (before ++ blanks) after := by
  rw [skipBlank, rest_between, takeWhile_append_stop areBlank stops, advance_between]

/-- Nothing is skipped in front of another character. -/
theorem skipBlank_between (stops : ∀ c ∈ after.head?, isBlank c = false) :
    (between before after).skipBlank = between before after := by
  simpa using @skipBlank_blanks before after [] isBlanks_nil stops

theorem blanksAndComma_blanks {commaFound : Bool} (areBlank : IsBlanks blanks) :
    blanksAndComma commaFound (blanks ++ after) =
      ((blanksAndComma commaFound after).1 + blanks.length,
        (blanksAndComma commaFound after).2) := by
  induction blanks with
  | nil => rfl
  | cons blank blanks ih =>
    obtain ⟨isBlank, others⟩ := forall_mem_cons.mp areBlank
    have notComma : blank ≠ ',' := by
      rintro rfl
      exact absurd isBlank (by decide)
    simp only [cons_append, blanksAndComma, if_neg notComma, isBlank, ih others,
      Bool.not_true, Bool.false_eq_true, if_false, length_cons, Nat.add_assoc]

/-- Blanks in front of a character that ends the loop. -/
theorem skipBlankAndComma_blanks (areBlank : IsBlanks blanks) (notComma : c ≠ ',')
    (notBlank : isBlank c = false) :
    (between before (blanks ++ c :: after)).skipBlankAndComma =
      (true, between (before ++ blanks) (c :: after)) := by
  rw [skipBlankAndComma, rest_between, blanksAndComma_blanks areBlank]
  simp only [blanksAndComma, if_neg notComma, notBlank, Bool.not_false, if_true, Nat.zero_add,
    advance_between]

/-- A character that ends the loop at once. -/
theorem skipBlankAndComma_here (notComma : c ≠ ',') (notBlank : isBlank c = false) :
    (between before (c :: after)).skipBlankAndComma = (true, between before (c :: after)) := by
  simpa using @skipBlankAndComma_blanks before after [] c isBlanks_nil notComma notBlank

/-- A comma with blanks around it. -/
theorem skipBlankAndComma_comma (areBlank : IsBlanks blanks) (areBlank' : IsBlanks blanks')
    (notComma : c ≠ ',') (notBlank : isBlank c = false) :
    (between before (blanks ++ ',' :: (blanks' ++ c :: after))).skipBlankAndComma =
      (true, between (before ++ (blanks ++ ',' :: blanks')) (c :: after)) := by
  have split : blanks ++ ',' :: (blanks' ++ c :: after) =
      (blanks ++ ',' :: blanks') ++ c :: after := by simp
  have moved : 0 + blanks'.length + 1 + blanks.length = (blanks ++ ',' :: blanks').length := by
    simp only [length_append, length_cons]
    omega
  rw [skipBlankAndComma, rest_between, blanksAndComma_blanks areBlank]
  simp only [blanksAndComma, if_true, Bool.false_eq_true, if_false,
    blanksAndComma_blanks areBlank', if_neg notComma, notBlank, Bool.not_false]
  rw [moved, split, advance_between]

end ParserBase

/-- A name stands between two characters that are none of it. -/
def IsIdentifier (name : List Char) : Prop :=
  name ≠ [] ∧ ∀ c ∈ name, isIdentifierChar c = true

instance (name : List Char) : Decidable (IsIdentifier name) :=
  @instDecidableAnd _ _ _ (List.decidableBAll _ name)

theorem ne_of_isIdentifierChar {c other : Char} (ident : isIdentifierChar c = true)
    (notIdent : isIdentifierChar other = false) : c ≠ other := by
  rintro rfl
  rw [ident] at notIdent
  cases notIdent

theorem isBlank_of_isIdentifierChar {c : Char} (ident : isIdentifierChar c = true) :
    isBlank c = false := by
  by_contra blank
  simp only [isBlank, Bool.not_eq_false, decide_eq_true_eq] at blank
  rcases blank with rfl | rfl | rfl <;> exact absurd ident (by decide)

/-- Names have no brackets. -/
theorem IsIdentifier.balanced {name : List Char} {opening closing : Char}
    (identifier : IsIdentifier name) (notOpening : isIdentifierChar opening = false)
    (notClosing : isIdentifierChar closing = false) : Lib.Balanced opening closing name :=
  Lib.Balanced.of_forall fun c member =>
    ⟨ne_of_isIdentifierChar (identifier.2 c member) notOpening,
      ne_of_isIdentifierChar (identifier.2 c member) notClosing⟩

end DseDriver.Cql
