import DseDriver.Cql.ClassNameArguments
import DseDriver.Cql.ClassNames

/-!
# Wrappers of class names

Cassandra writes `ReversedType` around the type of a clustering column in descending order and
`FrozenType` around a frozen type.  `parse_one` takes off one wrapper, and what is left is read as
without it, if it is no tuple and has no other wrapper.
-/

namespace DseDriver.Cql

open DseDriver.Lib ParserBase List

/-- The type with its frozen flag set.  Simple and custom types have none. -/
def DataType.freeze : DataType → DataType
  | .collection kind types _ => .collection kind types true
  | .tuple types _ => .tuple types true
  | .userType keyspace typeName fields types _ => .userType keyspace typeName fields types true
  | dataType => dataType

namespace DataTypeClassNameParser

/-! ## Well-formed class names -/

/-- A class around another one. -/
inductive Wrapper where
  | reversed
  | frozen
  deriving DecidableEq, Repr

def Wrapper.known : Wrapper → KnownType
  | reversed => .reversed
  | frozen => .frozen

def Wrapper.name (wrapper : Wrapper) : List Char :=
  wrapper.known.name

/-- The name of a class without arguments. -/
def IsLeafName (name : List Char) : Prop :=
  IsIdentifier name ∧ ∀ known : KnownType, startsWith name known.name = false

/-- Well-formed class names, with blanks around the arguments where the parser allows them. -/
inductive IsClassName : List Char → Prop where
  | leaf {name : List Char} (isLeaf : IsLeafName name) : IsClassName name
  | list {text inner : List Char} (element : IsClassName text) (arguments : Arguments [text] inner) :
      IsClassName (call listType inner)
  | set {text inner : List Char} (element : IsClassName text) (arguments : Arguments [text] inner) :
      IsClassName (call setType inner)
  | map {key value inner : List Char} (isKey : IsClassName key) (isValue : IsClassName value)
      (arguments : Arguments [key, value] inner) : IsClassName (call mapType inner)
  | tuple {texts : List (List Char)} {inner : List Char}
      (each : ∀ text ∈ texts, IsClassName text) (arguments : Arguments texts inner) :
      IsClassName (call tupleType inner)
  | userType {keyspace hex inner : List Char} {fields : List (List Char × List Char)}
      {texts : List (List Char)} (identifier : IsIdentifier keyspace) (isHex : IsHexName hex)
      (names : ∀ field ∈ fields, IsHexName field.1)
      (each : ∀ field ∈ fields, IsClassName field.2)
      (areFields : List.Forall₂ IsField fields texts)
      (arguments : Arguments (keyspace :: hex :: texts) inner) : IsClassName (call udtType inner)
  | wrapped {wrapper : Wrapper} {text inner : List Char} (isClassName : IsClassName text)
      (arguments : Arguments [text] inner) : IsClassName (call wrapper.name inner)

/-- A class name in wrappers, the first of them outermost. -/
def wrap (wrappers : List Wrapper) (text : List Char) : List Char :=
  wrappers.foldr (fun wrapper text => call wrapper.name text) text

variable {text name inner before after : List Char} {texts : List (List Char)}

theorem arguments_self (text : List Char) : Arguments [text] text := by
  simpa using @Arguments.cons text [] [] [] isBlanks_nil (.nil isBlanks_nil)

theorem isClassName_wrap (wrappers : List Wrapper) (isClassName : IsClassName text) :
    IsClassName (wrap wrappers text) := by
  induction wrappers with
  | nil => exact isClassName
  | cons wrapper wrappers ih => exact .wrapped ih (arguments_self _)

theorem isField_balanced {field : List Char × List Char} (isField : IsField field text)
    (isHex : IsHexName field.1) (isCall : IsCall field.2) : Balanced '(' ')' text := by
  cases isField with
  | mk areBlank areBlank' =>
    refine (isHex.identifier.balanced (by decide) (by decide)).append ?_
    refine (balanced_blanks areBlank).append ?_
    exact (Balanced.singleton (by decide) (by decide)).append
      ((balanced_blanks areBlank').append isCall.balanced)

variable {fields : List (List Char × List Char)}

theorem balanced_fields (areFields : List.Forall₂ IsField fields texts)
    (each : ∀ field ∈ fields, IsHexName field.1 ∧ IsCall field.2) :
    ∀ text ∈ texts, Balanced '(' ')' text := by
  induction areFields with
  | nil => exact fun _ member => absurd member not_mem_nil
  | cons isField _ ih =>
    obtain ⟨first, others⟩ := forall_mem_cons.mp each
    exact forall_mem_cons.mpr ⟨isField_balanced isField first.1 first.2, ih others⟩

theorem balanced_userType {keyspace hex : List Char} (identifier : IsIdentifier keyspace)
    (isHex : IsHexName hex) (areFields : List.Forall₂ IsField fields texts)
    (each : ∀ field ∈ fields, IsHexName field.1 ∧ IsCall field.2) :
    ∀ text ∈ keyspace :: hex :: texts, Balanced '(' ')' text :=
  forall_mem_cons.mpr ⟨identifier.balanced (by decide) (by decide),
    forall_mem_cons.mpr ⟨isHex.identifier.balanced (by decide) (by decide),
      balanced_fields areFields each⟩⟩

/-- Every class name is a name with balanced arguments. -/
theorem IsClassName.isCall (isClassName : IsClassName text) : IsCall text := by
  induction isClassName with
  | leaf isLeaf => exact .name isLeaf.1
  | list _ arguments ih =>
    exact .call (KnownType.isIdentifier_name .list) (arguments.balanced (by simpa using ih.balanced))
  | set _ arguments ih =>
    exact .call (KnownType.isIdentifier_name .set) (arguments.balanced (by simpa using ih.balanced))
  | map _ _ arguments ihKey ihValue =>
    exact .call (KnownType.isIdentifier_name .map)
      (arguments.balanced (by simpa using ⟨ihKey.balanced, ihValue.balanced⟩))
  | tuple _ arguments ih =>
    exact .call (KnownType.isIdentifier_name .tuple)
      (arguments.balanced fun text member => (ih text member).balanced)
  | @userType keyspace hex inner fields texts identifier isHex names each areFields arguments ih =>
    exact .call (KnownType.isIdentifier_name .udt) (arguments.balanced
      (balanced_userType identifier isHex areFields
        fun field member => ⟨names field member, ih field member⟩))
  | @wrapped wrapper text inner _ arguments ih =>
    exact .call wrapper.known.isIdentifier_name (arguments.balanced (by simpa using ih.balanced))

/-! ## Names in front of arguments -/

/-- The parenthesis is no part of a known name. -/
theorem startsWith_call {known : List Char} (plain : '(' ∉ known) :
    startsWith (name ++ '(' :: after) known = startsWith name known := by
  induction name generalizing known with
  | nil =>
    cases known with
    | nil => rfl
    | cons c known =>
      have different : c ≠ '(' := fun same => plain (by simp [same])
      have noMatch : (c == '(') = false := beq_false_of_ne different
      change (c == '(' && known.isPrefixOf after) = false
      rw [noMatch, Bool.false_and]
  | cons first name ih =>
    cases known with
    | nil => rfl
    | cons c known =>
      exact congrArg (c == first && ·) (ih fun member => plain (mem_cons_of_mem _ member))

theorem getNextName_call (identifier : IsIdentifier name) :
    getNextName { str := name ++ '(' :: after, index := 0 } = (name, between name ('(' :: after)) :=
  @getNextName_between [] _ name [] isBlanks_nil identifier (by rintro c ⟨⟩; decide)

theorem getNextName_name (identifier : IsIdentifier name) :
    getNextName { str := name, index := 0 } = (name, between name []) := by
  have read := @getNextName_between [] [] name [] isBlanks_nil identifier
    (fun c member => nomatch member)
  rwa [append_nil] at read

/-! ## Reading user types -/

/-- An argument is parsed to a type, whatever it is read as. -/
def Parses (parse : List Char → Option DataType) (text : List Char) (dataType : DataType) : Prop :=
  ∀ read, ReadAs text read → parse read = some dataType

variable {types : List DataType}

theorem mapM_parses {parse : List Char → Option DataType} {reads : List (List Char)}
    (parses : List.Forall₂ (Parses parse) texts types) (readAs : List.Forall₂ ReadAs texts reads) :
    reads.mapM parse = some types := by
  induction parses generalizing reads with
  | nil =>
    cases readAs
    rfl
  | cons first _ ih =>
    cases readAs with
    | cons firstRead otherReads =>
      rw [mapM_cons, first _ firstRead, ih otherReads]
      rfl

theorem hexNames_fields {fields reads : List (List Char × List Char)}
    (readAs : List.Forall₂ FieldReadAs fields reads) :
    reads.map (fun field => String.ofList field.1) = fields.map fun field => hexName field.1 := by
  induction readAs with
  | nil => rfl
  | cons first _ ih =>
    rw [map_cons, map_cons, ih, hexName, first.1]
    rfl

theorem userTypeNamed_arguments {parse : List Char → Option DataType} {keyspace hex : List Char}
    (identifier : IsIdentifier keyspace) (isHex : IsHexName hex)
    (areFields : List.Forall₂ IsField fields texts)
    (each : ∀ field ∈ fields, IsHexName field.1 ∧ IsCall field.2)
    (arguments : Arguments (keyspace :: hex :: texts) inner)
    (parses : List.Forall₂ (Parses parse) (fields.map Prod.snd) types) :
    userTypeNamed parse (between before ('(' :: (inner ++ ')' :: after))) =
      some (.userType (String.ofList keyspace) (hexName hex)
        (fields.map fun field => hexName field.1) types true) := by
  cases arguments with
  | @cons _ _ blanks rest areBlank following =>
    obtain ⟨read, before₁, rest₁, readKeyspace, readAs, following⟩ :=
      @readOne_between (before ++ ['(']) after keyspace rest (hex :: texts) blanks areBlank
        (.name identifier) following
    rw [readAs.1.eq_name identifier] at readKeyspace
    obtain ⟨before₂, rest₂, skipped, following⟩ :=
      following.skipBlankAndComma (IsCall.name isHex.identifier).startsName before₁ after
    obtain ⟨read, before₃, rest₃, readHex, readAs, following⟩ :=
      @readOne_between before₂ after hex rest₂ texts [] isBlanks_nil (.name isHex.identifier)
        following
    rw [readAs.1.eq_name isHex.identifier, nil_append] at readHex
    obtain ⟨typeName, isTypeName, isName⟩ := isHex.result
    have named : ¬(keyspace = [] ∨ typeName = []) := by
      rintro (noKeyspace | noName)
      · exact identifier.1 noKeyspace
      · exact fromHex_ne_nil isTypeName isHex.1 noName
    have enough : texts.length <
        (between before₃ (rest₃ ++ ')' :: after)).skipBlankAndComma.2.str.length + 1 := by
      have short := following.length_le
      change texts.length < (before₃ ++ (rest₃ ++ ')' :: after)).length + 1
      simp only [length_append, length_cons]
      omega
    obtain ⟨reads, readFields, fieldsReadAs⟩ :=
      @nameAndTypeParams_listed before₃ after rest₃ texts _ fields areFields (.inr following) each
        enough
    rw [← nameAndTypeParams_skipBlankAndComma areFields following each] at readFields
    have types : reads.mapM (fun field => parse field.2) = some types := by
      have read : List.Forall₂ ReadAs (fields.map Prod.snd) (reads.map Prod.snd) := by
        rw [forall₂_map_left_iff, forall₂_map_right_iff]
        exact fieldsReadAs.imp fun _ _ readAs => readAs.2
      have parsed := mapM_parses parses read
      rwa [mapM_map] at parsed
    have split : '(' :: (blanks ++ (keyspace ++ rest) ++ ')' :: after) =
        '(' :: (blanks ++ (keyspace ++ (rest ++ ')' :: after))) := by
      simp
    rw [split, userTypeNamed, skip_between, readKeyspace]
    simp only [Option.bind_eq_bind, Option.bind_some, skipped, readHex, isTypeName, if_neg named,
      getNameAndTypeParams, readFields, types, hexNames_fields fieldsReadAs, isName]
    rfl

/-! ## The branches for the known names -/

/-- The class of a collection. -/
def knownOf : CollectionKind → KnownType
  | .list => .list
  | .set => .set
  | .map => .map

section Branches

variable {parse : List Char → Option DataType} {type className : List Char} {parser : ParserBase}
  {frozen : Bool} {params : List (List Char)}

theorem typeNamed_element {kind : CollectionKind} (notMap : kind ≠ .map) {element : List Char}
    {dataType : DataType}
    (next : getNextName { str := className, index := 0 } = ((knownOf kind).name, parser))
    (read : getTypeParams parser = (true, element :: params))
    (parsed : parse element = some dataType) :
    typeNamed parse type className frozen = some (.collection kind [dataType] frozen) := by
  have isList : startsWith (knownOf kind).name listType = decide (knownOf kind = .list) :=
    KnownType.startsWith_name _ .list
  have isSet : startsWith (knownOf kind).name setType = decide (knownOf kind = .set) :=
    KnownType.startsWith_name _ .set
  rw [typeNamed]
  simp only [next, isList, isSet, read, parsed, Option.map_some]
  cases kind with
  | list => rfl
  | set => rfl
  | map => exact absurd rfl notMap

theorem typeNamed_map {key value : List Char} {keyType valueType : DataType}
    (next : getNextName { str := className, index := 0 } = (name, parser))
    (other : ∀ known ∈ [KnownType.list, .set], startsWith name known.name = false)
    (isMap : startsWith name mapType = true)
    (read : getTypeParams parser = (true, key :: value :: params))
    (parsedKey : parse key = some keyType) (parsedValue : parse value = some valueType) :
    typeNamed parse type className frozen =
      some (.collection .map [keyType, valueType] frozen) := by
  have notList : startsWith name listType = false := other .list (by decide)
  have notSet : startsWith name setType = false := other .set (by decide)
  rw [typeNamed]
  simp only [next, notList, notSet, Bool.false_eq_true, if_false, isMap, if_true, read, parsedKey,
    parsedValue, Option.bind_eq_bind, Option.bind_some, Option.pure_def]

theorem typeNamed_user
    (next : getNextName { str := className, index := 0 } = (name, parser))
    (other : ∀ known ∈ [KnownType.list, .set, .map], startsWith name known.name = false)
    (isUser : isUserType name = true) :
    typeNamed parse type className frozen = userTypeNamed parse parser := by
  have notList : startsWith name listType = false := other .list (by decide)
  have notSet : startsWith name setType = false := other .set (by decide)
  have notMap : startsWith name mapType = false := other .map (by decide)
  rw [typeNamed]
  simp only [next, notList, notSet, notMap, Bool.false_eq_true, if_false, isUser, if_true]

/-- The type that the name of a class without arguments stands for. -/
def leafType (name : List Char) : DataType :=
  match SimpleDataTypeCache.byClass name with
  | some simpleType => .simple simpleType
  | none => .custom (String.ofList name)

section Others

variable (next : getNextName { str := className, index := 0 } = (name, parser))
variable (other : ∀ known ∈ [KnownType.list, .set, .map, .udt], startsWith name known.name = false)

include next other

/-- A name that is none of those looked for in the name itself. -/
theorem typeNamed_beyond :
    typeNamed parse type className frozen =
      if isTupleType type then
        if (getTypeParams parser).1 then
          ((getTypeParams parser).2.mapM parse).map fun types => .tuple types true
        else none
      else some (leafType name) := by
  have notList : startsWith name listType = false := other .list (by decide)
  have notSet : startsWith name setType = false := other .set (by decide)
  have notMap : startsWith name mapType = false := other .map (by decide)
  have notUser : isUserType name = false := other .udt (by decide)
  rw [typeNamed]
  simp only [next, notList, notSet, notMap, notUser, Bool.false_eq_true, if_false, leafType]
  congr 1
  · rcases getTypeParams parser with ⟨_ | _, rawTypes⟩ <;> rfl
  · cases SimpleDataTypeCache.byClass name <;> rfl

theorem typeNamed_tuple (isTuple : isTupleType type = true)
    (read : getTypeParams parser = (true, params)) (parsed : params.mapM parse = some types) :
    typeNamed parse type className frozen = some (.tuple types true) := by
  rw [typeNamed_beyond next other, if_pos isTuple, read, if_pos rfl, parsed, Option.map_some]

/-- A name that is not looked for, with or without arguments. -/
theorem typeNamed_other (notTuple : isTupleType type = false) :
    typeNamed parse type className frozen = some (leafType name) := by
  rw [typeNamed_beyond next other, if_neg (by rw [notTuple]; exact Bool.false_ne_true)]

end Others

end Branches

/-- A known name is none of some others. -/
theorem KnownType.startsWith_others {known : KnownType} {others : List KnownType}
    (different : ∀ other ∈ others, known ≠ other) :
    ∀ other ∈ others, startsWith known.name other.name = false :=
  fun other member => (known.startsWith_name other).trans
    (decide_eq_false (different other member))

/-! ## Results -/

/-- The text is parsed to the type, within every limit that it fits into. -/
def Reads (text : List Char) (dataType : DataType) : Prop :=
  ∀ limit, text.length < limit → Parses (parseOneWithin limit) text dataType

/-- What the text names behind a wrapper, with and without the frozen flag. -/
def Names (text : List Char) (dataType : Bool → DataType) : Prop :=
  ∀ limit read type frozen, text.length ≤ limit → ReadAs text read → isTupleType type = false →
    typeNamed (parseOneWithin limit) type read frozen = some (dataType frozen)

theorem Following.length_text_le {rest : List Char} (following : Following texts rest)
    (member : text ∈ texts) : text.length ≤ rest.length := by
  induction following with
  | nil => cases member
  | cons _ _ _ ih =>
    simp only [length_append, length_cons]
    rcases mem_cons.mp member with rfl | later
    · omega
    · have shorter := ih later
      omega

/-- An argument is shorter than the whole text. -/
theorem Arguments.length_lt (arguments : Arguments texts inner) (member : text ∈ texts) :
    text.length < (call name inner).length := by
  have inside : text.length ≤ inner.length := by
    cases arguments with
    | nil => cases member
    | cons _ following =>
      simp only [length_append]
      rcases mem_cons.mp member with rfl | later
      · omega
      · have shorter := following.length_text_le later
        omega
  simp only [call, length_append, length_cons, length_nil]
  omega

theorem Reads.parses {dataType : DataType} {limit : Nat} (reads : Reads text dataType)
    (arguments : Arguments texts inner) (member : text ∈ texts)
    (fits : (call name inner).length ≤ limit) : Parses (parseOneWithin limit) text dataType :=
  reads limit (Nat.lt_of_lt_of_le (arguments.length_lt member) fits)

theorem forall_parses {limit : Nat} (reads : List.Forall₂ Reads texts types)
    (short : ∀ text ∈ texts, text.length < limit) :
    List.Forall₂ (Parses (parseOneWithin limit)) texts types :=
  List.Forall₂.imp (fun _ _ both => both.2 limit both.1)
    ((forall₂_and_left texts types).mpr ⟨short, reads⟩)

theorem names_element {kind : CollectionKind} (notMap : kind ≠ .map) {dataType : DataType}
    (isCall : IsCall text) (reads : Reads text dataType) (arguments : Arguments [text] inner) :
    Names (call (knownOf kind).name inner) fun frozen => .collection kind [dataType] frozen := by
  intro limit read type frozen fits readAs _
  obtain ⟨more, rfl⟩ := readAs.eq_call
  obtain ⟨params, readParams, paramsReadAs⟩ :=
    @getTypeParams_arguments (knownOf kind).name more inner [text] arguments (by simpa using isCall)
  cases paramsReadAs with
  | cons first others =>
    exact typeNamed_element notMap (getNextName_call (knownOf kind).isIdentifier_name) readParams
      (reads.parses arguments mem_cons_self fits _ first)

theorem names_map {key value : List Char} {keyType valueType : DataType} (isKey : IsCall key)
    (isValue : IsCall value) (readsKey : Reads key keyType) (readsValue : Reads value valueType)
    (arguments : Arguments [key, value] inner) :
    Names (call mapType inner) fun frozen => .collection .map [keyType, valueType] frozen := by
  intro limit read type frozen fits readAs _
  obtain ⟨more, rfl⟩ := readAs.eq_call
  obtain ⟨params, readParams, paramsReadAs⟩ :=
    @getTypeParams_arguments mapType more inner [key, value] arguments
      (by simpa using ⟨isKey, isValue⟩)
  cases paramsReadAs with
  | cons first others =>
    cases others with
    | cons second others =>
      exact typeNamed_map (getNextName_call (KnownType.isIdentifier_name .map))
        (@KnownType.startsWith_others .map _ (by decide)) (KnownType.startsWith_name .map .map)
        readParams (readsKey.parses arguments mem_cons_self fits _ first)
        (readsValue.parses arguments (mem_cons_of_mem _ mem_cons_self) fits _ second)

/-- The text of the type of a field is shorter than the arguments. -/
theorem length_field_lt {field : List Char × List Char}
    (areFields : List.Forall₂ IsField fields texts) (member : field ∈ fields)
    (shorter : ∀ text ∈ texts, text.length < (call name inner).length) :
    field.2.length < (call name inner).length := by
  induction areFields with
  | nil => cases member
  | cons isField _ ih =>
    obtain ⟨first, others⟩ := forall_mem_cons.mp shorter
    rcases mem_cons.mp member with rfl | later
    · cases isField with
      | @mk hex type =>
        simp only [length_append, length_cons] at first ⊢
        omega
    · exact ih later others

theorem names_userType {keyspace hex : List Char} (identifier : IsIdentifier keyspace)
    (isHex : IsHexName hex) (areFields : List.Forall₂ IsField fields texts)
    (each : ∀ field ∈ fields, IsHexName field.1 ∧ IsCall field.2)
    (arguments : Arguments (keyspace :: hex :: texts) inner)
    (reads : List.Forall₂ Reads (fields.map Prod.snd) types) :
    Names (call udtType inner) fun _ => .userType (String.ofList keyspace) (hexName hex)
      (fields.map fun field => hexName field.1) types true := by
  intro limit read type frozen fits readAs _
  obtain ⟨more, rfl⟩ := readAs.eq_call
  have short : ∀ text ∈ fields.map Prod.snd, text.length < limit := by
    intro text member
    obtain ⟨field, isField, rfl⟩ := mem_map.mp member
    refine Nat.lt_of_lt_of_le (length_field_lt areFields isField fun text member => ?_) fits
    exact arguments.length_lt (mem_cons_of_mem _ (mem_cons_of_mem _ member))
  have branch : typeNamed (parseOneWithin limit) type (udtType ++ '(' :: (inner ++ ')' :: more))
      frozen = userTypeNamed (parseOneWithin limit)
        (between udtType ('(' :: (inner ++ ')' :: more))) :=
    typeNamed_user (getNextName_call (KnownType.isIdentifier_name .udt))
      (@KnownType.startsWith_others .udt _ (by decide)) (KnownType.startsWith_name .udt .udt)
  rw [branch]
  exact userTypeNamed_arguments identifier isHex areFields each arguments
    (forall_parses reads short)

/-- Behind a wrapper, tuples and other wrappers are read like classes without arguments. -/
theorem names_known {known : KnownType}
    (other : ∀ looked ∈ [KnownType.list, .set, .map, .udt], known ≠ looked) :
    Names (call known.name inner) fun _ => leafType known.name := by
  intro limit read type frozen fits readAs notTuple
  obtain ⟨more, rfl⟩ := readAs.eq_call
  exact typeNamed_other (getNextName_call known.isIdentifier_name)
    (KnownType.startsWith_others other) notTuple

theorem leafType_ne_tuple {isFrozen : Bool} :
    leafType name ≠ .tuple types isFrozen := by
  unfold leafType
  cases SimpleDataTypeCache.byClass name <;> exact nofun

theorem names_leaf (isLeaf : IsLeafName name) : Names name fun _ => leafType name := by
  intro limit read type frozen fits readAs notTuple
  obtain rfl := readAs.eq_name isLeaf.1
  exact typeNamed_other (getNextName_name isLeaf.1) (fun known _ => isLeaf.2 known) notTuple

theorem parseOneWithin_unwrapped {type : List Char} {limit : Nat}
    (notReversed : isReversed type = false) (notFrozen : isFrozen type = false) :
    parseOneWithin (limit + 1) type = typeNamed (parseOneWithin limit) type type false := by
  rw [parseOneWithin]
  simp only [notReversed, notFrozen, Bool.false_eq_true, or_self, if_false, Option.bind_eq_bind,
    Option.bind_some]

/-- Without a wrapper the whole text is parsed. -/
theorem reads_of_names {dataType : Bool → DataType} (names : Names text dataType)
    (unwrapped : ∀ read, ReadAs text read →
      isReversed read = false ∧ isFrozen read = false ∧ isTupleType read = false) :
    Reads text (dataType false) := by
  intro limit fits read readAs
  obtain ⟨limit, rfl⟩ : ∃ smaller, limit = smaller + 1 := ⟨limit - 1, by omega⟩
  obtain ⟨notReversed, notFrozen, notTuple⟩ := unwrapped read readAs
  rw [parseOneWithin_unwrapped notReversed notFrozen]
  exact names limit read read false (Nat.le_of_lt_succ fits) readAs notTuple

/-- A known name in front of arguments. -/
theorem KnownType.startsWith_call (known other : KnownType) (after : List Char) :
    startsWith (known.name ++ '(' :: after) other.name = decide (known = other) := by
  rw [DataTypeClassNameParser.startsWith_call other.paren_not_mem_name, known.startsWith_name]

/-- What `parse_one` asks about a text in a wrapper. -/
theorem Wrapper.starts (wrapper : Wrapper) (after : List Char) :
    (isReversed (wrapper.name ++ '(' :: after) = true ∨
      isFrozen (wrapper.name ++ '(' :: after) = true) ∧
    isFrozen (wrapper.name ++ '(' :: after) = decide (wrapper = .frozen) ∧
    isTupleType (wrapper.name ++ '(' :: after) = false := by
  have starts := fun other => wrapper.known.startsWith_call other after
  cases wrapper with
  | reversed => exact ⟨.inl (starts .reversed), starts .frozen, starts .tuple⟩
  | frozen => exact ⟨.inr (starts .frozen), starts .frozen, starts .tuple⟩

theorem names_wrapper (wrapper : Wrapper) :
    Names (call wrapper.name inner) fun _ => .custom (String.ofList wrapper.name) := by
  have notSimple : SimpleDataTypeCache.byClass wrapper.name = none := by
    rw [Wrapper.name, KnownType.name_eq]
    refine byClass_eq_none fun valueType => ?_
    cases wrapper <;> cases valueType <;> rfl
  have isCustom : leafType wrapper.known.name = .custom (String.ofList wrapper.name) := by
    rw [leafType, ← Wrapper.name, notSimple]
  rw [← isCustom]
  exact names_known (by cases wrapper <;> decide)

/-- One wrapper is taken off. -/
theorem reads_wrapped {wrapper : Wrapper} {dataType : Bool → DataType} (isCall : IsCall text)
    (names : Names text dataType) (arguments : Arguments [text] inner) :
    Reads (call wrapper.name inner) (dataType (decide (wrapper = .frozen))) := by
  intro limit fits read readAs
  obtain ⟨limit, rfl⟩ : ∃ smaller, limit = smaller + 1 := ⟨limit - 1, by omega⟩
  obtain ⟨more, rfl⟩ := readAs.eq_call
  obtain ⟨params, readParams, paramsReadAs⟩ :=
    @getTypeParams_arguments wrapper.name more inner [text] arguments (by simpa using isCall)
  obtain ⟨isWrapped, isFrozen, notTuple⟩ := wrapper.starts (inner ++ ')' :: more)
  have shorter : text.length < (call wrapper.name inner).length :=
    arguments.length_lt mem_cons_self
  cases paramsReadAs with
  | @cons _ param _ _ first others =>
    cases others
    have nested : getNestedClassName (wrapper.name ++ '(' :: (inner ++ ')' :: more)) =
        some param := by
      rw [getNestedClassName, Wrapper.name, getNextName_call wrapper.known.isIdentifier_name]
      rw [Wrapper.name] at readParams
      simp only [readParams]
    rw [parseOneWithin, if_pos isWrapped, nested, isFrozen]
    exact names limit param _ _ (by omega) first notTuple

/-- What the parser makes of a class name: a type that freezes, a tuple, or another wrapper. -/
inductive Outcome (text : List Char) : Prop where
  | plain (dataType : Bool → DataType) (names : Names text dataType)
      (unwrapped : ∀ read, ReadAs text read →
        isReversed read = false ∧ isFrozen read = false ∧ isTupleType read = false)
      (freezes : (dataType false).freeze = dataType true)
      (proper : ∀ frozen (wrapper : Wrapper),
        dataType frozen ≠ .custom (String.ofList wrapper.name))
  | tuple (types : List DataType) (reads : Reads text (.tuple types true))
      (names : Names text fun _ => leafType KnownType.tuple.name)
      (isTuple : isTupleType text = true)
  | wrapped (wrapper : Wrapper) (dataType : DataType) (reads : Reads text dataType)
      (names : Names text fun _ => .custom (String.ofList wrapper.name))
      (isWrapped : isReversed text = true ∨ isFrozen text = true)

theorem Outcome.reads (outcome : Outcome text) : ∃ dataType, Reads text dataType := by
  cases outcome with
  | plain dataType names unwrapped _ _ => exact ⟨_, reads_of_names names unwrapped⟩
  | tuple types reads _ _ => exact ⟨_, reads⟩
  | wrapped _ dataType reads _ _ => exact ⟨_, reads⟩

theorem Outcome.names (outcome : Outcome text) : ∃ dataType, Names text dataType := by
  cases outcome with
  | plain dataType names _ _ _ => exact ⟨_, names⟩
  | tuple _ _ names _ => exact ⟨_, names⟩
  | wrapped _ _ _ names _ => exact ⟨_, names⟩

theorem exists_reads (each : ∀ text ∈ texts, Outcome text) :
    ∃ types, List.Forall₂ Reads texts types := by
  induction texts with
  | nil => exact ⟨[], .nil⟩
  | cons text texts ih =>
    obtain ⟨first, others⟩ := forall_mem_cons.mp each
    obtain ⟨dataType, reads⟩ := first.reads
    obtain ⟨types, readsOthers⟩ := ih others
    exact ⟨dataType :: types, .cons reads readsOthers⟩

/-- A class with arguments that is no wrapper and no tuple. -/
theorem unwrapped_call {known : KnownType}
    (other : ∀ wrapper ∈ [KnownType.reversed, .frozen, .tuple], known ≠ wrapper) :
    ∀ read, ReadAs (call known.name inner) read →
      isReversed read = false ∧ isFrozen read = false ∧ isTupleType read = false := by
  intro read readAs
  obtain ⟨more, rfl⟩ := readAs.eq_call
  have starts : ∀ wrapper ∈ [KnownType.reversed, .frozen, .tuple],
      startsWith (known.name ++ '(' :: (inner ++ ')' :: more)) wrapper.name = false :=
    fun wrapper member => (known.startsWith_call wrapper _).trans
      (decide_eq_false (other wrapper member))
  exact ⟨starts .reversed (by decide), starts .frozen (by decide), starts .tuple (by decide)⟩

theorem reads_tuple (each : ∀ text ∈ texts, IsCall text) (reads : List.Forall₂ Reads texts types)
    (arguments : Arguments texts inner) :
    Reads (call tupleType inner) (.tuple types true) := by
  intro limit fits read readAs
  obtain ⟨limit, rfl⟩ : ∃ smaller, limit = smaller + 1 := ⟨limit - 1, by omega⟩
  obtain ⟨more, rfl⟩ := readAs.eq_call
  obtain ⟨params, readParams, paramsReadAs⟩ :=
    @getTypeParams_arguments tupleType more inner texts arguments each
  have starts := fun other => KnownType.tuple.startsWith_call other (inner ++ ')' :: more)
  have notReversed : isReversed (tupleType ++ '(' :: (inner ++ ')' :: more)) = false :=
    starts .reversed
  have notFrozen : isFrozen (tupleType ++ '(' :: (inner ++ ')' :: more)) = false := starts .frozen
  have isTuple : isTupleType (tupleType ++ '(' :: (inner ++ ')' :: more)) = true := starts .tuple
  have short : ∀ text ∈ texts, text.length < limit := by
    intro text member
    have shorter : text.length < (call tupleType inner).length := arguments.length_lt member
    omega
  rw [parseOneWithin_unwrapped notReversed notFrozen]
  exact typeNamed_tuple (getNextName_call (KnownType.isIdentifier_name .tuple))
    (@KnownType.startsWith_others .tuple _ (by decide)) isTuple readParams
    (mapM_parses (forall_parses reads short) paramsReadAs)

theorem outcome_leaf (isLeaf : IsLeafName name) : Outcome name := by
  refine .plain (fun _ => leafType name) (names_leaf isLeaf) ?_ ?_ ?_
  · intro read readAs
    obtain rfl := readAs.eq_name isLeaf.1
    exact ⟨isLeaf.2 .reversed, isLeaf.2 .frozen, isLeaf.2 .tuple⟩
  · unfold leafType
    cases SimpleDataTypeCache.byClass name <;> rfl
  · intro _ wrapper isCustom
    unfold leafType at isCustom
    cases found : SimpleDataTypeCache.byClass name with
    | some simpleType =>
      rw [found] at isCustom
      cases isCustom
    | none =>
      rw [found] at isCustom
      injection isCustom with same
      have isWrapper : name = wrapper.name := String.ofList_injective same
      have other := isLeaf.2 wrapper.known
      rw [isWrapper, Wrapper.name, KnownType.startsWith_name, decide_eq_false_iff_not] at other
      exact other rfl

/-- What every class name is parsed to. -/
theorem IsClassName.outcome (isClassName : IsClassName text) : Outcome text := by
  induction isClassName with
  | leaf isLeaf => exact outcome_leaf isLeaf
  | list element arguments ih =>
    obtain ⟨dataType, reads⟩ := ih.reads
    exact .plain _ (@names_element _ _ .list (by decide) _ element.isCall reads arguments)
      (@unwrapped_call _ .list (by decide)) rfl
      (fun _ _ => nofun)
  | set element arguments ih =>
    obtain ⟨dataType, reads⟩ := ih.reads
    exact .plain _ (@names_element _ _ .set (by decide) _ element.isCall reads arguments)
      (@unwrapped_call _ .set (by decide)) rfl
      (fun _ _ => nofun)
  | map isKey isValue arguments ihKey ihValue =>
    obtain ⟨keyType, readsKey⟩ := ihKey.reads
    obtain ⟨valueType, readsValue⟩ := ihValue.reads
    exact .plain _ (names_map isKey.isCall isValue.isCall readsKey readsValue arguments)
      (@unwrapped_call _ .map (by decide)) rfl (fun _ _ => nofun)
  | tuple each arguments ih =>
    obtain ⟨types, reads⟩ := exists_reads ih
    have each := fun text member => (each text member).isCall
    exact .tuple types (reads_tuple each reads arguments) (@names_known _ .tuple (by decide))
      (KnownType.tuple.startsWith_call .tuple _)
  | @userType keyspace hex inner fields texts identifier isHex names each areFields arguments ih =>
    have outcomes : ∀ text ∈ fields.map Prod.snd, Outcome text := by
      intro text member
      obtain ⟨field, isField, rfl⟩ := mem_map.mp member
      exact ih field isField
    obtain ⟨types, reads⟩ := exists_reads outcomes
    exact .plain _ (names_userType identifier isHex areFields
      (fun field member => ⟨names field member, (each field member).isCall⟩) arguments reads)
      (@unwrapped_call _ .udt (by decide)) rfl (fun _ _ => nofun)
  | @wrapped wrapper text inner isClassName arguments ih =>
    obtain ⟨dataType, names⟩ := ih.names
    exact .wrapped wrapper _ (reads_wrapped isClassName.isCall names arguments)
      (names_wrapper wrapper) (wrapper.starts (inner ++ [')'])).1

/-! ## Compositions of wrappers -/

theorem parseOne_eq {dataType : DataType} (reads : Reads text dataType) :
    parseOne text = some dataType :=
  reads _ (Nat.lt_succ_self _) text (readAs_self text)

theorem parseOne_wrap_cons {wrapper : Wrapper} {dataType : Bool → DataType} (isCall : IsCall text)
    (names : Names text dataType) :
    parseOne (wrap [wrapper] text) = some (dataType (decide (wrapper = .frozen))) :=
  parseOne_eq (reads_wrapped isCall names (arguments_self text))

/-- Two wrappers are too many: the second is taken for a custom type. -/
theorem parseOne_wrap_twice {outer wrapper : Wrapper} {wrappers : List Wrapper}
    (isClassName : IsClassName text) :
    parseOne (wrap (outer :: wrapper :: wrappers) text) =
      some (.custom (String.ofList wrapper.name)) :=
  parseOne_wrap_cons (isClassName_wrap (wrapper :: wrappers) isClassName).isCall
    (names_wrapper wrapper)

/-- **A well-formed class name without a wrapper is parsed to a type, and a composition of wrappers
around it to the same type, frozen if one of them is `FrozenType`, if and only if there is at most
one wrapper, and none around a tuple.** -/
theorem parseOne_wrap_iff (text : List Char) (wrappers : List Wrapper)
    (isClassName : IsClassName text) (notReversed : isReversed text = false)
    (notFrozen : isFrozen text = false) :
    ∃ dataType, parseOne text = some dataType ∧
      (parseOne (wrap wrappers text) =
          some (if .frozen ∈ wrappers then dataType.freeze else dataType) ↔
        wrappers.length ≤ 1 ∧ (isTupleType text = true → wrappers = [])) := by
  cases isClassName.outcome with
  | plain dataType names unwrapped freezes proper =>
    have parsed := parseOne_eq (reads_of_names names unwrapped)
    refine ⟨dataType false, parsed, ?_⟩
    match wrappers with
    | [] => simpa [wrap] using parsed
    | [wrapper] =>
      have notTuple := (unwrapped text (readAs_self text)).2.2
      rw [parseOne_wrap_cons isClassName.isCall names, notTuple]
      cases wrapper with
      | reversed => simp
      | frozen => simp [freezes]
    | outer :: wrapper :: wrappers =>
      rw [parseOne_wrap_twice isClassName]
      refine iff_of_false ?_ (by simp)
      rw [Option.some_inj]
      split
      · rw [freezes]
        exact (proper true wrapper).symm
      · exact (proper false wrapper).symm
  | tuple types reads names isTuple =>
    have parsed := parseOne_eq reads
    refine ⟨.tuple types true, parsed, ?_⟩
    match wrappers with
    | [] => simpa [wrap] using parsed
    | [wrapper] =>
      rw [parseOne_wrap_cons isClassName.isCall names]
      refine iff_of_false ?_ (by simp [isTuple])
      rw [Option.some_inj]
      split <;> exact leafType_ne_tuple
    | outer :: wrapper :: wrappers =>
      rw [parseOne_wrap_twice isClassName]
      refine iff_of_false ?_ (by simp)
      split <;> exact nofun
  | wrapped wrapper _ _ _ isWrapped =>
    rw [notReversed, notFrozen] at isWrapped
    simp at isWrapped

/-- The classes of the simple types are well-formed names. -/
theorem isLeafName_className {valueType : CassValueType} (named : valueType.className ≠ [])
    (simple : (SimpleDataTypeCache.byValueType valueType).isSome = true) :
    IsLeafName valueType.className := by
  rw [className_eq named]
  constructor
  · cases valueType <;> first | (exact absurd simple (by decide)) | decide
  · intro known
    rw [KnownType.name_eq, startsWith_marshal]
    cases valueType <;> first | (exact absurd simple (by decide)) | (cases known <;> rfl)

/-- `ListType(Int32Type)`. -/
def listOfInt : List Char :=
  call listType CassValueType.int.className

theorem isLeafName_int : IsLeafName CassValueType.int.className :=
  isLeafName_className (fun unnamed => nomatch unnamed) rfl

theorem parseOne_wrap_iff_frozenList :
    ∃ dataType, parseOne listOfInt = some dataType ∧
      (parseOne (wrap [.frozen] listOfInt) =
          some (if .frozen ∈ [Wrapper.frozen] then dataType.freeze else dataType) ↔
        [Wrapper.frozen].length ≤ 1 ∧ (isTupleType listOfInt = true → [Wrapper.frozen] = [])) :=
  parseOne_wrap_iff listOfInt [.frozen] (.list (.leaf isLeafName_int) (arguments_self _))
    (KnownType.list.startsWith_call .reversed (CassValueType.int.className ++ [')']))
    (KnownType.list.startsWith_call .frozen (CassValueType.int.className ++ [')']))

/-- `TupleType(Int32Type)`. -/
def tupleOfInt : List Char :=
  call tupleType CassValueType.int.className

theorem isClassName_tupleOfInt : IsClassName tupleOfInt :=
  .tuple (by simpa using IsClassName.leaf isLeafName_int) (arguments_self _)

theorem parseOne_tupleOfInt {element : DataType}
    (reads : Reads CassValueType.int.className element) :
    parseOne tupleOfInt = some (.tuple [element] true) :=
  parseOne_eq (reads_tuple (by simpa using (IsClassName.leaf isLeafName_int).isCall)
    (.cons reads .nil) (arguments_self _))

/-- A reversed tuple is not read as a tuple. -/
theorem reversedTuple_not_tuple :
    IsClassName tupleOfInt ∧ isReversed tupleOfInt = false ∧ isFrozen tupleOfInt = false ∧
      ∃ element, parseOne tupleOfInt = some (.tuple [element] true) ∧
        parseOne (wrap [.reversed] tupleOfInt) ≠ some (.tuple [element] true) := by
  obtain ⟨element, reads⟩ := (outcome_leaf isLeafName_int).reads
  have notReversed : isReversed tupleOfInt = false :=
    KnownType.tuple.startsWith_call .reversed (CassValueType.int.className ++ [')'])
  have notFrozen : isFrozen tupleOfInt = false :=
    KnownType.tuple.startsWith_call .frozen (CassValueType.int.className ++ [')'])
  have names : Names tupleOfInt fun _ => leafType KnownType.tuple.name :=
    @names_known _ .tuple (by decide)
  have read := @parseOne_wrap_cons _ .reversed _ isClassName_tupleOfInt.isCall names
  have different : parseOne (wrap [.reversed] tupleOfInt) ≠ some (.tuple [element] true) := by
    rw [read]
    exact fun same => leafType_ne_tuple (Option.some_inj.mp same)
  exact ⟨isClassName_tupleOfInt, notReversed, notFrozen, element, parseOne_tupleOfInt reads,
    different⟩

end DataTypeClassNameParser

end DseDriver.Cql
