import DseDriver.Cql.ClassNameWrappers

/-!
# Class names of data types, written and read

Cassandra writes the class name of a type, and the comparator of a table as a composite type whose
components may be reversed.  `parse_one` and `parse_with_composite` read them back, but a reversed
component is lost if it is a tuple or has `FrozenType` around it.
-/

namespace DseDriver.Cql

open DseDriver.Lib ParserBase List Option

/-! ## Writing -/

/-- A `varchar` is another name of a `text`. -/
def SimpleType.unaliased : SimpleType → SimpleType
  | varchar => text
  | simpleType => simpleType

mutual

def DataType.unaliased : DataType → DataType
  | .simple simpleType => .simple simpleType.unaliased
  | .custom className => .custom className
  | .collection kind types isFrozen => .collection kind (unaliasedTypes types) isFrozen
  | .tuple types isFrozen => .tuple (unaliasedTypes types) isFrozen
  | .userType keyspace typeName fields types isFrozen =>
    .userType keyspace typeName fields (unaliasedTypes types) isFrozen

def unaliasedTypes : List DataType → List DataType
  | [] => []
  | dataType :: types => dataType.unaliased :: unaliasedTypes types

end

namespace DataTypeClassNameParser

def hexDigit (value : Nat) : Char :=
  Char.ofNat (if value < 10 then 48 + value else 87 + value)

/-- The bytes of a name in hex digits. -/
def toHex (name : String) : List Char :=
  name.toList.flatMap fun c => [hexDigit (c.toNat / 16), hexDigit (c.toNat % 16)]

def fieldText (name : String) (type : List Char) : List Char :=
  toHex name ++ ':' :: type

mutual

/-- The class name that Cassandra writes for a type. -/
def classNameOf : DataType → List Char
  | .simple simpleType => simpleType.unaliased.valueType.className
  | .custom className => className.toList
  | .collection kind types isFrozen =>
    let unfrozen := call (knownOf kind).name ([','].intercalate (classNamesOf types))
    if isFrozen then call frozenType unfrozen else unfrozen
  | .tuple types _ => call tupleType ([','].intercalate (classNamesOf types))
  | .userType keyspace typeName fields types _ =>
    call udtType ([','].intercalate (keyspace.toList :: toHex typeName ::
      fields.zipWith fieldText (classNamesOf types)))

def classNamesOf : List DataType → List (List Char)
  | [] => []
  | dataType :: types => classNameOf dataType :: classNamesOf types

end

/-- A component of a composite type. -/
structure Component where
  type : DataType
  isReversed : Bool

def Component.className (component : Component) : List Char :=
  if component.isReversed then call reversedType (classNameOf component.type)
  else classNameOf component.type

def collectionTexts (collections : List (String × DataType)) : List (List Char) :=
  collections.map fun entry => fieldText entry.1 (classNameOf entry.2)

/-- The last component, with the collections of a table. -/
def collectionsName (collections : List (String × DataType)) : List Char :=
  call collectionType ([','].intercalate (collectionTexts collections))

def compositeName (components : List Component) (collections : List (String × DataType)) :
    List Char :=
  call compositeType ([','].intercalate
    (components.map Component.className ++ [collectionsName collections]))

/-! ## Types with a class name -/

/-- A name of bytes. -/
def IsByteName (name : String) : Prop :=
  name ≠ "" ∧ ∀ c ∈ name.toList, c.toNat < 256

/-- The types that Cassandra writes class names for. -/
inductive HasClassName : DataType → Prop where
  | simple {simpleType : SimpleType} (known : simpleType ≠ .unknown) :
      HasClassName (.simple simpleType)
  | list {element : DataType} (isFrozen : Bool) (isElement : HasClassName element) :
      HasClassName (.collection .list [element] isFrozen)
  | set {element : DataType} (isFrozen : Bool) (isElement : HasClassName element) :
      HasClassName (.collection .set [element] isFrozen)
  | map {key value : DataType} (isFrozen : Bool) (isKey : HasClassName key)
      (isValue : HasClassName value) : HasClassName (.collection .map [key, value] isFrozen)
  | tuple {types : List DataType} (nonempty : types ≠ [])
      (each : ∀ type ∈ types, HasClassName type) : HasClassName (.tuple types true)
  | userType {keyspace typeName : String} {fields : List String} {types : List DataType}
      (identifier : IsIdentifier keyspace.toList) (named : IsByteName typeName)
      (fieldsNamed : ∀ field ∈ fields, IsByteName field) (parallel : fields.length = types.length)
      (each : ∀ type ∈ types, HasClassName type) :
      HasClassName (.userType keyspace typeName fields types true)

/-- A type that `ReversedType` around it hides from `parse_one`. -/
def hiddenByReversed : DataType → Bool
  | .tuple _ _ => true
  | .collection _ _ isFrozen => isFrozen
  | _ => false

/-! ## Hex digits -/

theorem hexValue_hexDigit {value : Nat} (small : value < 16) :
    hexValue (hexDigit value) = some value := by
  have all : ∀ value : Fin 16, hexValue (hexDigit value) = some value.val := by decide
  exact all ⟨value, small⟩

theorem fromHex_flatMap {bytes : List Char} (small : ∀ c ∈ bytes, c.toNat < 256) :
    fromHex (bytes.flatMap fun c => [hexDigit (c.toNat / 16), hexDigit (c.toNat % 16)]) =
      some bytes := by
  induction bytes with
  | nil => rfl
  | cons c bytes ih =>
    obtain ⟨first, others⟩ := forall_mem_cons.mp small
    have whole : c.toNat / 16 * 16 + c.toNat % 16 = c.toNat := by omega
    simp only [flatMap_cons, cons_append, nil_append, fromHex, ih others,
      hexValue_hexDigit (show c.toNat / 16 < 16 by omega),
      hexValue_hexDigit (show c.toNat % 16 < 16 by omega), whole, Char.ofNat_toNat,
      bind_eq_bind, bind_some, Option.pure_def]

theorem IsByteName.fromHex {name : String} (isName : IsByteName name) :
    fromHex (toHex name) = some name.toList :=
  fromHex_flatMap isName.2

theorem IsByteName.isHexName {name : String} (isName : IsByteName name) :
    IsHexName (toHex name) := by
  refine ⟨fun empty => ?_, by rw [isName.fromHex]; rfl⟩
  have read := isName.fromHex
  rw [empty, DataTypeClassNameParser.fromHex, some_inj] at read
  exact isName.1 (String.toList_eq_nil_iff.mp read.symm)

theorem IsByteName.hexName {name : String} (isName : IsByteName name) :
    hexName (toHex name) = name := by
  rw [DataTypeClassNameParser.hexName, isName.fromHex, getD_some, String.ofList_toList]

/-! ## Arguments between commas -/

variable {texts : List (List Char)} {types : List DataType}

theorem following_flatMap (texts : List (List Char)) :
    Following texts (texts.flatMap fun text => ',' :: text) := by
  induction texts with
  | nil => exact .nil isBlanks_nil
  | cons text texts ih => exact .cons isBlanks_nil isBlanks_nil ih

theorem intercalate_comma (text : List Char) (texts : List (List Char)) :
    [','].intercalate (text :: texts) = text ++ texts.flatMap fun text => ',' :: text := by
  induction texts generalizing text with
  | nil => simp [List.intercalate]
  | cons next texts ih =>
    have step : [','].intercalate (text :: next :: texts) =
        text ++ ',' :: [','].intercalate (next :: texts) := by
      simp [List.intercalate]
    rw [step, ih, flatMap_cons, cons_append]

theorem arguments_intercalate (texts : List (List Char)) :
    Arguments texts ([','].intercalate texts) := by
  cases texts with
  | nil => exact .nil isBlanks_nil
  | cons text texts =>
    rw [intercalate_comma]
    exact .cons isBlanks_nil (following_flatMap texts)

/-! ## Reading types -/

/-- What becomes of a class name: as it stands, and behind `ReversedType`. -/
structure Written (dataType : DataType) : Prop where
  isCall : IsCall (classNameOf dataType)
  reads : Reads (classNameOf dataType) dataType.unaliased
  behind : ∃ result, Names (classNameOf dataType) result ∧
    (result false = dataType.unaliased ↔ hiddenByReversed dataType = false)
  notReversed : ∀ read, ReadAs (classNameOf dataType) read → isReversed read = false

theorem isCall_classNamesOf (each : ∀ type ∈ types, Written type) :
    ∀ text ∈ classNamesOf types, IsCall text := by
  induction types with
  | nil => simp [classNamesOf]
  | cons type types ih =>
    obtain ⟨first, others⟩ := forall_mem_cons.mp each
    exact forall_mem_cons.mpr ⟨first.isCall, ih others⟩

theorem reads_classNamesOf (each : ∀ type ∈ types, Written type) :
    List.Forall₂ Reads (classNamesOf types) (unaliasedTypes types) := by
  induction types with
  | nil => exact .nil
  | cons type types ih =>
    obtain ⟨first, others⟩ := forall_mem_cons.mp each
    exact .cons first.reads (ih others)

theorem isCall_known (known : KnownType) (each : ∀ text ∈ texts, Balanced '(' ')' text) :
    IsCall (call known.name ([','].intercalate texts)) :=
  .call known.isIdentifier_name ((arguments_intercalate texts).balanced each)

theorem notReversed_call {known : KnownType} (other : known ≠ .reversed) (inner : List Char) :
    ∀ read, ReadAs (call known.name inner) read → isReversed read = false := by
  intro read readAs
  obtain ⟨more, rfl⟩ := readAs.eq_call
  exact (known.startsWith_call .reversed _).trans (decide_eq_false other)

theorem written_simple {simpleType : SimpleType} (known : simpleType ≠ .unknown) :
    Written (.simple simpleType) := by
  have named : simpleType.unaliased.valueType.className ≠ [] := by
    refine className_ne_nil ?_ ?_ <;> cases simpleType <;> simp_all [SimpleType.unaliased]
  have isLeaf : IsLeafName simpleType.unaliased.valueType.className := by
    refine isLeafName_className named ?_
    cases simpleType <;> first | rfl | exact absurd rfl known
  have isSimple : leafType simpleType.unaliased.valueType.className =
      .simple simpleType.unaliased := by
    rw [leafType, byClass_className named]
  have names := names_leaf isLeaf
  rw [isSimple] at names
  have unwrapped : ∀ read, ReadAs simpleType.unaliased.valueType.className read →
      isReversed read = false ∧ isFrozen read = false ∧ isTupleType read = false := by
    intro read readAs
    obtain rfl := readAs.eq_name isLeaf.1
    exact ⟨isLeaf.2 .reversed, isLeaf.2 .frozen, isLeaf.2 .tuple⟩
  exact
    { isCall := .name isLeaf.1
      reads := reads_of_names names unwrapped
      behind := ⟨_, names, iff_of_true rfl rfl⟩
      notReversed := fun read readAs => (unwrapped read readAs).1 }

/-- `FrozenType` around a collection freezes it, but hides it behind another wrapper. -/
theorem written_collection {kind : CollectionKind} (isFrozen : Bool)
    (each : ∀ type ∈ types, Written type)
    (names : Names (call (knownOf kind).name ([','].intercalate (classNamesOf types)))
      fun frozen => .collection kind (unaliasedTypes types) frozen) :
    Written (.collection kind types isFrozen) := by
  have isCall := isCall_known (knownOf kind) fun text member =>
    (isCall_classNamesOf each text member).balanced
  cases isFrozen with
  | false =>
    exact
      { isCall
        reads := reads_of_names names (unwrapped_call (by cases kind <;> decide))
        behind := ⟨_, names, iff_of_true rfl rfl⟩
        notReversed := notReversed_call (by cases kind <;> decide) _ }
  | true =>
    exact
      { isCall := .call (KnownType.isIdentifier_name .frozen) isCall.balanced
        reads := @reads_wrapped _ _ .frozen _ isCall names (arguments_self _)
        behind := ⟨_, names_wrapper .frozen, iff_of_false (fun same => by cases same)
          (by simp [hiddenByReversed])⟩
        notReversed := notReversed_call (show KnownType.frozen ≠ .reversed by decide) _ }

theorem written_tuple (each : ∀ type ∈ types, Written type) : Written (.tuple types true) :=
  { isCall := isCall_known .tuple fun text member => (isCall_classNamesOf each text member).balanced
    reads := reads_tuple (isCall_classNamesOf each) (reads_classNamesOf each)
      (arguments_intercalate _)
    behind := ⟨_, @names_known _ .tuple (by decide), iff_of_false leafType_ne_tuple
      (by simp [hiddenByReversed])⟩
    notReversed := notReversed_call (show KnownType.tuple ≠ .reversed by decide) _ }

theorem length_classNamesOf (types : List DataType) :
    (classNamesOf types).length = types.length := by
  induction types with
  | nil => rfl
  | cons type types ih => rw [classNamesOf, length_cons, length_cons, ih]

theorem isField_fieldText (name : String) (type : List Char) :
    IsField (toHex name, type) (fieldText name type) :=
  @IsField.mk (toHex name) type [] [] isBlanks_nil isBlanks_nil

theorem isField_zipWith (fields : List String) (texts : List (List Char)) :
    List.Forall₂ IsField ((fields.map toHex).zip texts) (fields.zipWith fieldText texts) := by
  induction fields generalizing texts with
  | nil => exact .nil
  | cons field fields ih =>
    cases texts with
    | nil => exact .nil
    | cons text texts => exact .cons (isField_fieldText field text) (ih texts)

theorem written_userType {keyspace typeName : String} {fields : List String}
    (identifier : IsIdentifier keyspace.toList) (named : IsByteName typeName)
    (fieldsNamed : ∀ field ∈ fields, IsByteName field) (parallel : fields.length = types.length)
    (each : ∀ type ∈ types, Written type) :
    Written (.userType keyspace typeName fields types true) := by
  have areFields := isField_zipWith fields (classNamesOf types)
  have eachField : ∀ field ∈ (fields.map toHex).zip (classNamesOf types),
      IsHexName field.1 ∧ IsCall field.2 := by
    intro field member
    obtain ⟨isHex, isType⟩ := of_mem_zip member
    obtain ⟨name, isName, same⟩ := List.mem_map.mp isHex
    exact ⟨same ▸ (fieldsNamed name isName).isHexName, isCall_classNamesOf each _ isType⟩
  have fieldTypes : ((fields.map toHex).zip (classNamesOf types)).map Prod.snd =
      classNamesOf types :=
    map_snd_zip (by rw [length_map, length_classNamesOf, parallel])
  have fieldNames : ((fields.map toHex).zip (classNamesOf types)).map
      (fun field => hexName field.1) = fields := by
    have first : ((fields.map toHex).zip (classNamesOf types)).map Prod.fst = fields.map toHex :=
      map_fst_zip (by rw [length_map, length_classNamesOf, parallel])
    have whole := congrArg (List.map hexName) first
    rw [List.map_map, List.map_map] at whole
    refine whole.trans ((map_congr_left fun field member => ?_).trans (List.map_id fields))
    exact (fieldsNamed field member).hexName
  have names := names_userType identifier named.isHexName areFields eachField
    (arguments_intercalate _) (fieldTypes.symm ▸ reads_classNamesOf each)
  rw [String.ofList_toList, named.hexName, fieldNames] at names
  exact
    { isCall := isCall_known .udt (balanced_userType identifier named.isHexName areFields eachField)
      reads := reads_of_names names (@unwrapped_call _ .udt (by decide))
      behind := ⟨_, names, iff_of_true rfl rfl⟩
      notReversed := notReversed_call (show KnownType.udt ≠ .reversed by decide) _ }

/-- Every class name is read as the type it was written for. -/
theorem HasClassName.written {dataType : DataType} (hasName : HasClassName dataType) :
    Written dataType := by
  induction hasName with
  | simple known => exact written_simple known
  | list isFrozen _ ih =>
    refine written_collection isFrozen (by simpa using ih) ?_
    exact names_element (by decide) ih.isCall ih.reads (arguments_intercalate _)
  | set isFrozen _ ih =>
    refine written_collection isFrozen (by simpa using ih) ?_
    exact names_element (by decide) ih.isCall ih.reads (arguments_intercalate _)
  | map isFrozen _ _ ihKey ihValue =>
    refine written_collection isFrozen (by simpa using ⟨ihKey, ihValue⟩) ?_
    exact names_map ihKey.isCall ihValue.isCall ihKey.reads ihValue.reads
      (arguments_intercalate _)
  | tuple _ _ ih => exact written_tuple ih
  | userType identifier named fieldsNamed parallel _ ih =>
    exact written_userType identifier named fieldsNamed parallel ih

/-! ## Reading composite types -/

theorem Reads.parseOne {text : List Char} {dataType : DataType} (reads : Reads text dataType) :
    Parses parseOne text dataType := by
  intro read readAs
  refine reads _ ?_ read readAs
  obtain ⟨more, rfl, -⟩ := readAs
  rw [length_append]
  omega

/-- What becomes of a component: it is lost only behind `ReversedType`. -/
structure WrittenComponent (component : Component) (parsed : DataType) : Prop where
  isCall : IsCall component.className
  reads : Reads component.className parsed
  same_iff : parsed = component.type.unaliased ↔
    (component.isReversed = true → hiddenByReversed component.type = false)
  reversed : ∀ read, ReadAs component.className read → isReversed read = component.isReversed

theorem exists_writtenComponent {component : Component} (hasName : HasClassName component.type) :
    ∃ parsed, WrittenComponent component parsed := by
  obtain ⟨type, isReversed⟩ := component
  have written := hasName.written
  obtain ⟨result, names, same⟩ := written.behind
  cases isReversed with
  | false =>
    exact ⟨type.unaliased, written.isCall, written.reads, by simp, written.notReversed⟩
  | true =>
    refine ⟨result false, .call (KnownType.isIdentifier_name .reversed) written.isCall.balanced,
      @reads_wrapped _ _ .reversed _ written.isCall names (arguments_self _), by simpa using same,
      ?_⟩
    intro read readAs
    obtain ⟨more, rfl⟩ := ReadAs.eq_call readAs
    exact KnownType.reversed.startsWith_call .reversed _

theorem exists_written_components {components : List Component}
    (each : ∀ component ∈ components, HasClassName component.type) :
    ∃ parsed, List.Forall₂ WrittenComponent components parsed := by
  induction components with
  | nil => exact ⟨[], .nil⟩
  | cons component components ih =>
    obtain ⟨first, others⟩ := forall_mem_cons.mp each
    obtain ⟨type, written⟩ := exists_writtenComponent first
    obtain ⟨parsed, writtenOthers⟩ := ih others
    exact ⟨type :: parsed, .cons written writtenOthers⟩

section Components

variable {components : List Component} {parsed : List DataType}

/-- The types of the components, if and only if none is lost. -/
theorem types_eq_iff (written : List.Forall₂ WrittenComponent components parsed) :
    parsed = components.map (fun component => component.type.unaliased) ↔
      ∀ component ∈ components,
        component.isReversed = true → hiddenByReversed component.type = false := by
  induction written with
  | nil => simp
  | cons first _ ih => rw [map_cons, List.cons.injEq, first.same_iff, ih, forall_mem_cons]

theorem isCall_components (written : List.Forall₂ WrittenComponent components parsed) :
    ∀ text ∈ components.map Component.className, IsCall text := by
  induction written with
  | nil => exact fun _ member => absurd member not_mem_nil
  | cons first _ ih => exact forall_mem_cons.mpr ⟨first.isCall, ih⟩

theorem mapM_components {reads : List (List Char)}
    (written : List.Forall₂ WrittenComponent components parsed)
    (readAs : List.Forall₂ ReadAs (components.map Component.className) reads) :
    reads.mapM parseOne = some parsed ∧
      reads.map isReversed = components.map Component.isReversed := by
  induction written generalizing reads with
  | nil =>
    cases readAs
    exact ⟨rfl, rfl⟩
  | cons first _ ih =>
    cases readAs with
    | cons firstRead otherReads =>
      obtain ⟨types, flags⟩ := ih otherReads
      rw [mapM_cons, first.reads.parseOne _ firstRead, types, map_cons, map_cons,
        first.reversed _ firstRead, flags]
      exact ⟨rfl, rfl⟩

end Components

section Collections

variable {collections : List (String × DataType)}

/-- The fields of the last component. -/
def collectionFields (collections : List (String × DataType)) : List (List Char × List Char) :=
  collections.map fun entry => (toHex entry.1, classNameOf entry.2)

theorem areFields_collections (collections : List (String × DataType)) :
    List.Forall₂ IsField (collectionFields collections) (collectionTexts collections) := by
  induction collections with
  | nil => exact .nil
  | cons entry collections ih => exact .cons (isField_fieldText _ _) ih

theorem each_collectionFields
    (each : ∀ entry ∈ collections, IsByteName entry.1 ∧ HasClassName entry.2) :
    ∀ field ∈ collectionFields collections, IsHexName field.1 ∧ IsCall field.2 := by
  intro field member
  obtain ⟨entry, isEntry, rfl⟩ := List.mem_map.mp member
  obtain ⟨named, hasName⟩ := each entry isEntry
  exact ⟨named.isHexName, hasName.written.isCall⟩

/-- The collections by their names.  The last one of a name counts. -/
def collectionMap (collections : List (String × DataType)) : AList fun _ : String => DataType :=
  collections.foldl (fun map entry => map.insert entry.1 entry.2.unaliased) ∅

theorem lookup_foldl (collections : List (String × DataType))
    (map : AList fun _ : String => DataType) (name : String) :
    (collections.foldl (fun map entry => map.insert entry.1 entry.2.unaliased) map).lookup name =
      ((collections.reverse.lookup name).map DataType.unaliased).or (map.lookup name) := by
  induction collections generalizing map with
  | nil => rfl
  | cons entry collections ih =>
    rw [foldl_cons, ih, reverse_cons, lookup_append]
    by_cases same : name = entry.1
    · subst same
      rw [AList.lookup_insert]
      have own : [entry].lookup entry.1 = some entry.2 := lookup_cons_self
      cases collections.reverse.lookup entry.1 <;> simp [own]
    · rw [AList.lookup_insert_ne same]
      have other : [entry].lookup name = none := by
        simpa [lookup_eq_none_iff] using same
      rw [other, or_none]

theorem foldlM_fields {reads : List (List Char × List Char)}
    (each : ∀ entry ∈ collections, IsByteName entry.1 ∧ HasClassName entry.2)
    (readAs : List.Forall₂ FieldReadAs (collectionFields collections) reads)
    (map : AList fun _ : String => DataType) :
    reads.foldlM (fun collections param => do
      let dataType ← parseOne param.2
      return collections.insert (String.ofList param.1) dataType) map =
        some (collections.foldl (fun map entry => map.insert entry.1 entry.2.unaliased) map) := by
  induction collections generalizing reads map with
  | nil =>
    cases readAs
    rfl
  | cons entry collections ih =>
    obtain ⟨⟨named, hasName⟩, others⟩ := forall_mem_cons.mp each
    cases readAs with
    | @cons _ read _ _ firstRead otherReads =>
      have isName := some_inj.mp (firstRead.1.symm.trans named.fromHex)
      rw [foldlM_cons, hasName.written.reads.parseOne _ firstRead.2, isName,
        String.ofList_toList]
      exact ih others otherReads _

theorem isIdentifier_collectionType : IsIdentifier collectionType := by
  have named : collectionType = marshal ++ ['C', 'o', 'l', 'u', 'm', 'n', 'T', 'o', 'C', 'o', 'l',
      'l', 'e', 'c', 't', 'i', 'o', 'n', 'T', 'y', 'p', 'e'] := String.toList_ofList
  rw [named]
  decide

theorem isCall_collectionsName
    (each : ∀ entry ∈ collections, IsByteName entry.1 ∧ HasClassName entry.2) :
    IsCall (collectionsName collections) :=
  .call isIdentifier_collectionType ((arguments_intercalate _).balanced
    (balanced_fields (areFields_collections collections) (each_collectionFields each)))

theorem parseCollections_read {read : List Char}
    (each : ∀ entry ∈ collections, IsByteName entry.1 ∧ HasClassName entry.2)
    (readAs : ReadAs (collectionsName collections) read) :
    isCollection read = true ∧ parseCollections read = some (collectionMap collections) := by
  obtain ⟨more, rfl⟩ := ReadAs.eq_call readAs
  refine ⟨List.isPrefixOf_iff_prefix.mpr (prefix_append _ _), ?_⟩
  have arguments := arguments_intercalate (collectionTexts collections)
  have short := arguments.length_le
  have enough : (collectionTexts collections).length < (between (collectionType ++ ['('])
      ([','].intercalate (collectionTexts collections) ++ ')' :: more)).str.length + 1 := by
    simp only [between, length_append, length_cons]
    omega
  obtain ⟨reads, readFields, fieldsReadAs⟩ := nameAndTypeParams_listed
    (areFields_collections collections) (.inl arguments) (each_collectionFields each) enough
  have readParams : getCollectionParams (between collectionType ('(' ::
      ([','].intercalate (collectionTexts collections) ++ ')' :: more))) = some reads := by
    rw [getCollectionParams, isEos_between, current_between, skip_between, getNameAndTypeParams,
      readFields]
    simp
  rw [parseCollections, getNextName_call isIdentifier_collectionType]
  simp only [readParams, bind_eq_bind, bind_some]
  exact foldlM_fields each fieldsReadAs ∅

end Collections

theorem isIdentifier_compositeType : IsIdentifier compositeType := by
  have named : compositeType = marshal ++ ['C', 'o', 'm', 'p', 'o', 's', 'i', 't', 'e', 'T', 'y',
      'p', 'e'] := String.toList_ofList
  rw [named]
  decide

/-- The last of the texts that are read. -/
theorem forall₂_concat {text : List Char} {reads : List (List Char)}
    (readAs : List.Forall₂ ReadAs (texts ++ [text]) reads) :
    ∃ others last, reads = others ++ [last] ∧ List.Forall₂ ReadAs texts others ∧
      ReadAs text last := by
  induction texts generalizing reads with
  | nil =>
    cases readAs with
    | @cons _ last _ _ lastRead none =>
      cases none
      exact ⟨[], last, rfl, .nil, lastRead⟩
  | cons first texts ih =>
    cases readAs with
    | @cons _ read _ _ firstRead otherReads =>
      obtain ⟨others, last, rfl, readOthers, lastRead⟩ := ih otherReads
      exact ⟨read :: others, last, rfl, .cons firstRead readOthers, lastRead⟩

/-- Everything but the lost components is read back. -/
theorem parseWithComposite_written {components : List Component} {parsed : List DataType}
    {collections : List (String × DataType)}
    (written : List.Forall₂ WrittenComponent components parsed)
    (each : ∀ entry ∈ collections, IsByteName entry.1 ∧ HasClassName entry.2) :
    parseWithComposite (compositeName components collections) =
      some ⟨true, parsed, components.map Component.isReversed, collectionMap collections⟩ := by
  have areCalls : ∀ text ∈ components.map Component.className ++ [collectionsName collections],
      IsCall text := by
    refine forall_mem_append.mpr ⟨?_, forall_mem_singleton.mpr ?_⟩
    · exact isCall_components written
    · exact isCall_collectionsName each
  obtain ⟨reads, readParams, readAs⟩ := @getTypeParams_arguments compositeType [] _ _
    (arguments_intercalate (components.map Component.className ++ [collectionsName collections]))
    areCalls
  obtain ⟨others, last, rfl, readOthers, lastRead⟩ := forall₂_concat readAs
  obtain ⟨types, flags⟩ := mapM_components written readOthers
  obtain ⟨isLast, collections⟩ := parseCollections_read each lastRead
  have isComposite : isComposite compositeType = true :=
    isPrefixOf_iff_prefix.mpr (prefix_refl _)
  rw [parseWithComposite, compositeName, call, getNextName_call isIdentifier_compositeType]
  simp only [isComposite, readParams, getLast?_concat, isLast, collections, if_true,
    bind_eq_bind, bind_some, Bool.not_true, Bool.false_eq_true, if_false]
  simp [types, flags]

/-! ## The round trip -/

/-- `parse_with_composite` returns the types, the flags and the collections that were written. -/
def CompositeReadBack (components : List Component) (collections : List (String × DataType)) :
    Prop :=
  ∃ result, parseWithComposite (compositeName components collections) = some result ∧
    result.isComposite = true ∧
    result.types = components.map (fun component => component.type.unaliased) ∧
    result.reversed = components.map Component.isReversed ∧
    ∀ name, result.collections.lookup name =
      (collections.reverse.lookup name).map DataType.unaliased

theorem compositeReadBack_of_written {components : List Component} {parsed : List DataType}
    {collections : List (String × DataType)}
    (written : List.Forall₂ WrittenComponent components parsed)
    (each : ∀ entry ∈ collections, IsByteName entry.1 ∧ HasClassName entry.2) :
    CompositeReadBack components collections ↔
      parsed = components.map fun component => component.type.unaliased := by
  have parses := parseWithComposite_written written each
  constructor
  · rintro ⟨result, read, -, types, -, -⟩
    rw [parses] at read
    cases read
    exact types
  · intro types
    refine ⟨_, parses, rfl, types, rfl, fun name => ?_⟩
    exact (lookup_foldl collections ∅ name).trans (or_none)

/-- **A class name is read back as the type it was written for, and a composite type as its
components, their flags and its collections, if and only if no component is reversed that is a
tuple or a frozen collection.** -/
theorem classNames_readBack_iff (dataType : DataType) (components : List Component)
    (collections : List (String × DataType)) (hasName : HasClassName dataType)
    (eachComponent : ∀ component ∈ components, HasClassName component.type)
    (eachCollection : ∀ entry ∈ collections, IsByteName entry.1 ∧ HasClassName entry.2) :
    (parseOne (classNameOf dataType) = some dataType.unaliased ∧
      CompositeReadBack components collections) ↔
    ∀ component ∈ components,
      component.isReversed = true → hiddenByReversed component.type = false := by
  obtain ⟨parsed, written⟩ := exists_written_components eachComponent
  rw [compositeReadBack_of_written written eachCollection, types_eq_iff written]
  exact and_iff_right (parseOne_eq hasName.written.reads)

theorem hasClassName_int : HasClassName (.simple .int) :=
  .simple (by decide)

theorem classNames_readBack_iff_descending :
    (parseOne (classNameOf (.collection .list [.simple .int] true)) =
        some (DataType.collection .list [.simple .int] true).unaliased ∧
      CompositeReadBack [⟨.simple .int, true⟩] [("v", .collection .list [.simple .int] false)]) ↔
    ∀ component ∈ [(⟨.simple .int, true⟩ : Component)],
      component.isReversed = true → hiddenByReversed component.type = false :=
  classNames_readBack_iff _ _ _ (.list true hasClassName_int)
    (forall_mem_singleton.mpr hasClassName_int)
    (forall_mem_singleton.mpr ⟨⟨by decide, forall_mem_singleton.mpr (by decide)⟩,
      .list false hasClassName_int⟩)

/-- A reversed tuple is lost. -/
theorem reversedTuple_not_readBack :
    HasClassName (.tuple [.simple .int] true) ∧
      ¬ CompositeReadBack [⟨.tuple [.simple .int] true, true⟩] [] := by
  have hasName : HasClassName (.tuple [.simple .int] true) :=
    .tuple (cons_ne_nil _ _) (forall_mem_singleton.mpr hasClassName_int)
  refine ⟨hasName, ?_⟩
  obtain ⟨parsed, written⟩ := @exists_written_components [⟨.tuple [.simple .int] true, true⟩]
    (forall_mem_singleton.mpr hasName)
  rw [compositeReadBack_of_written written (by simp), types_eq_iff written]
  simp [hiddenByReversed]

end DataTypeClassNameParser

end DseDriver.Cql
