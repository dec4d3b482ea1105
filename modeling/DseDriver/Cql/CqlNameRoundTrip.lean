import DseDriver.Cql.Nesting

/-!
# CQL names are read back

Every data type that is built from simple types, collections, tuples and user types is read back
from its CQL name, with its structure, its user type names and its frozen flags.
-/

namespace DseDriver.Cql

open DseDriver.Lib DataTypeCqlNameParser List ParserBase

/-! ## Types and names -/

/-- A character of a plain lower-case identifier. -/
def isPlainChar (c : Char) : Bool :=
  ('a' ≤ c ∧ c ≤ 'z') ∨ ('0' ≤ c ∧ c ≤ '9') ∨ c = '_'

/-- The names that a CQL type can begin with, other than those of user types. -/
def reservedNames : List String :=
  valueTypeMapping.map (fun entry => entry.2.1) ++ ["frozen", "empty"]

/-- A plain lower-case identifier that is no keyword and no name of a simple type. -/
def IsPlainName (name : String) : Prop :=
  name.toList ≠ [] ∧ (∀ c ∈ name.toList, isPlainChar c = true) ∧ name ∉ reservedNames

instance (name : String) : Decidable (IsPlainName name) :=
  @instDecidableAnd _ _ _ (@instDecidableAnd _ _ (List.decidableBAll _ name.toList) _)

/-- A user type is stored under its own name. -/
def KeyspaceTypes.Holds (keyspace : KeyspaceTypes) (name : String) : Prop :=
  ∃ userType, keyspace.userTypes.lookup name = some userType ∧ userType.typeName = name

/-- Data types built from simple types, collections, non-empty tuples and user types with plain
names that the keyspace holds. -/
inductive Printable (keyspace : KeyspaceTypes) : DataType → Prop where
  | simple {simpleType : SimpleType} (known : simpleType ≠ .unknown) :
      Printable keyspace (.simple simpleType)
  | list {element : DataType} {isFrozen : Bool} (elements : Printable keyspace element) :
      Printable keyspace (.collection .list [element] isFrozen)
  | set {element : DataType} {isFrozen : Bool} (elements : Printable keyspace element) :
      Printable keyspace (.collection .set [element] isFrozen)
  | map {key value : DataType} {isFrozen : Bool} (keys : Printable keyspace key)
      (values : Printable keyspace value) :
      Printable keyspace (.collection .map [key, value] isFrozen)
  | tuple {types : List DataType} {isFrozen : Bool} (nonempty : types ≠ [])
      (each : ∀ dataType ∈ types, Printable keyspace dataType) :
      Printable keyspace (.tuple types isFrozen)
  | userType {ownKeyspace typeName : String} {fields : List String} {types : List DataType}
      {isFrozen : Bool} (plain : IsPlainName typeName) (holds : keyspace.Holds typeName) :
      Printable keyspace (.userType ownKeyspace typeName fields types isFrozen)

/-- The same structure, user type names and frozen flags. -/
inductive SameShape : DataType → DataType → Prop where
  | simple (simpleType : SimpleType) : SameShape (.simple simpleType) (.simple simpleType)
  | collection (kind : CollectionKind) {types types' : List DataType} (isFrozen : Bool)
      (each : List.Forall₂ SameShape types types') :
      SameShape (.collection kind types isFrozen) (.collection kind types' isFrozen)
  | tuple {types types' : List DataType} (isFrozen : Bool)
      (each : List.Forall₂ SameShape types types') :
      SameShape (.tuple types isFrozen) (.tuple types' isFrozen)
  | userType {keyspace keyspace' : String} (typeName : String) {fields fields' : List String}
      {types types' : List DataType} (isFrozen : Bool) :
      SameShape (.userType keyspace typeName fields types isFrozen)
        (.userType keyspace' typeName fields' types' isFrozen)

/-! ## Texts of types -/

/-- A name with its parameters in angle brackets, if it has any. -/
def IsTypeText (text : List Char) : Prop :=
  ∃ name args, text = name ++ args ∧ IsIdentifier name ∧ doubleQuote ∉ args ∧
    (args = [] ∨ ∃ inner, args = '<' :: (inner ++ ['>']) ∧ Balanced '<' '>' inner)

/-- Texts that come after others, each behind a comma and a blank. -/
def separated (texts : List (List Char)) : List Char :=
  texts.flatMap fun text => ',' :: ' ' :: text

theorem intercalate_eq (text : List Char) (texts : List (List Char)) :
    (", ".toList).intercalate (text :: texts) = text ++ separated texts := by
  induction texts generalizing text with
  | nil => simp [separated]
  | cons next texts ih =>
    rw [intercalate_cons_cons, ih]
    simp [separated]

theorem length_le_separated (texts : List (List Char)) :
    texts.length ≤ (separated texts).length := by
  induction texts with
  | nil => exact Nat.zero_le _
  | cons text texts ih =>
    have joined : separated (text :: texts) = ',' :: ' ' :: (text ++ separated texts) := rfl
    simp only [joined, length_cons, length_append]
    omega

/-! ## Reading one type -/

variable {before after text name : List Char}

theorem parseTypeName_between (identifier : IsIdentifier name)
    (stops : ∀ c ∈ after.head?, isIdentifierChar c = false ∧ c ≠ doubleQuote) :
    parseTypeName (.between before (name ++ after)) = (name, .between (before ++ name) after) := by
  obtain ⟨nonempty, each⟩ := identifier
  obtain ⟨c, others, rfl⟩ := exists_cons_of_ne_nil nonempty
  have first := each c mem_cons_self
  have read : ((c :: others) ++ after).takeWhile
      (fun c => isIdentifierChar c || decide (c = doubleQuote)) = c :: others := by
    rw [takeWhile_append_of_pos (fun other member => by simp [each other member])]
    cases after with
    | nil => simp
    | cons stop after =>
      obtain ⟨notIdent, notQuote⟩ := stops stop rfl
      rw [takeWhile_cons_of_neg (by simp [notIdent, notQuote]), append_nil]
  have unmoved : (between before ((c :: others) ++ after)).skipBlank =
      .between before ((c :: others) ++ after) :=
    skipBlank_between fun head member => by
      cases member
      exact isBlank_of_isIdentifierChar first
  have current : (between before ((c :: others) ++ after)).current = c :=
    current_between
  rw [parseTypeName, unmoved, readNextIdentifier, current,
    if_neg (ne_of_isIdentifierChar first (by decide)),
    if_neg (ne_of_isIdentifierChar first (by decide)), rest_between, read,
    take_left, advance_between]

/-- Without quotes, the loop looks for the closing bracket. -/
theorem closingLength_eq {opened : Nat} (noQuote : doubleQuote ∉ text) :
    closingLength false opened text =
      (splitClosing '<' '>' opened text).map fun split => split.1.length := by
  induction text generalizing opened with
  | nil => rfl
  | cons c text ih =>
    obtain ⟨notQuote, others⟩ := not_or.mp (mt mem_cons.mpr noQuote)
    have step : closingLength false opened (c :: text) =
        if (if c = '<' then opened + 1 else if c = '>' then opened - 1 else opened) > 0 then
          (closingLength false
            (if c = '<' then opened + 1 else if c = '>' then opened - 1 else opened) text).map
              (· + 1)
        else some 1 := by
      rw [closingLength]
      simp only [Bool.not_false, if_true, if_neg (Ne.symm notQuote)]
      split
      · rfl
      · split <;> rfl
    rw [step, splitClosing, ih others]
    generalize (if c = '<' then opened + 1 else if c = '>' then opened - 1 else opened) = depth
    by_cases zero : depth = 0
    · rw [if_pos zero, if_neg (by omega)]
      rfl
    · rw [if_neg zero, if_pos (by omega), Option.map_map, Option.map_map]
      rfl

/-- What ends the parameters of a type. -/
def endsParameters (after : List Char) : Prop :=
  ∀ c ∈ after.head?, c = ',' ∨ c = '>'

theorem endsParameters.stops (ends : endsParameters after) :
    ∀ c ∈ after.head?, isIdentifierChar c = false ∧ c ≠ doubleQuote := by
  intro c member
  rcases ends c member with rfl | rfl <;> decide

theorem readRawTypeParameters_nil (ends : endsParameters after) :
    readRawTypeParameters (.between before after) = some ([], .between before after) := by
  have unmoved : (between before after).skipBlank = .between before after := by
    refine skipBlank_between fun c member => ?_
    rcases ends c member with rfl | rfl <;> decide
  rw [readRawTypeParameters, unmoved]
  refine if_pos ?_
  cases after with
  | nil => simp
  | cons c after =>
    rw [current_between]
    rcases ends c rfl with comma | closing
    · exact .inr (.inr comma)
    · exact .inr (.inl closing)

theorem readRawTypeParameters_brackets {inner : List Char} (balanced : Balanced '<' '>' inner)
    (noQuote : doubleQuote ∉ inner ++ '>' :: after) :
    readRawTypeParameters (.between before ('<' :: (inner ++ ['>']) ++ after)) =
      some ('<' :: (inner ++ ['>']), .between (before ++ '<' :: (inner ++ ['>'])) after) := by
  have unmoved : (between before ('<' :: (inner ++ ['>']) ++ after)).skipBlank =
      .between before ('<' :: (inner ++ ['>']) ++ after) := by
    refine skipBlank_between fun c member => ?_
    cases member
    decide
  have current : (between before ('<' :: (inner ++ ['>']) ++ after)).current = '<' :=
    current_between
  have closes : closingLength false 1 (inner ++ '>' :: after) = some (inner.length + 1) := by
    rw [closingLength_eq noQuote, balanced.splitClosing_one (by decide)]
    simp
  have length : ('<' :: (inner ++ ['>'])).length = inner.length + 1 + 1 := by simp
  have inside : ('<' :: (inner ++ ['>']) ++ after).drop 1 = inner ++ '>' :: after := by simp
  rw [readRawTypeParameters, unmoved]
  simp only [current, isEos_between, rest_between, inside, closes]
  rw [if_neg (by simp), if_neg (by simp), Option.map_some, ← length, take_left,
    advance_between]

/-- A type is read up to the character that ends it. -/
theorem read_typeText (isText : IsTypeText text) (ends : endsParameters after)
    (noQuote : doubleQuote ∉ after) :
    ∃ name args, text = name ++ args ∧
      parseTypeName (.between before (text ++ after)) =
        (name, .between (before ++ name) (args ++ after)) ∧
      readRawTypeParameters (.between (before ++ name) (args ++ after)) =
        some (args, .between (before ++ text) after) := by
  obtain ⟨name, args, rfl, identifier, plain, shape⟩ := isText
  refine ⟨name, args, rfl, ?_, ?_⟩
  · rw [append_assoc]
    refine parseTypeName_between identifier ?_
    rcases shape with rfl | ⟨inner, rfl, -⟩
    · exact ends.stops
    · intro c member
      cases member
      decide
  · rcases shape with rfl | ⟨inner, rfl, balanced⟩
    · rw [nil_append, append_nil]
      exact readRawTypeParameters_nil ends
    · rw [← append_assoc before]
      refine readRawTypeParameters_brackets balanced ?_
      simp only [mem_cons, mem_append, not_or] at plain ⊢
      exact ⟨plain.2.1, plain.2.2.1, noQuote⟩

/-! ## Reading parameters -/

theorem typeText_head (isText : IsTypeText text) :
    ∃ c rest, text = c :: rest ∧ isIdentifierChar c = true := by
  obtain ⟨name, args, rfl, ⟨nonempty, each⟩, -⟩ := isText
  obtain ⟨c, rest, rfl⟩ := exists_cons_of_ne_nil nonempty
  exact ⟨c, rest ++ args, rfl, each c mem_cons_self⟩

/-- One round of the loop, once blanks and a comma are skipped. -/
theorem typeParameters_cons {limit : Nat} {parser : ParserBase} (isText : IsTypeText text)
    (ends : endsParameters after) (noQuote : doubleQuote ∉ after)
    (skipped : parser.skipBlankAndComma = (true, .between before (text ++ after))) :
    typeParameters (limit + 1) parser =
      text :: typeParameters limit (.between (before ++ text) after) := by
  obtain ⟨name, args, split, readName, readArgs⟩ :=
    @read_typeText before after text isText ends noQuote
  obtain ⟨c, rest, headed, ident⟩ := typeText_head isText
  have current : (between before (text ++ after)).current = c := by
    rw [headed]
    exact current_between
  have notClosing : c ≠ '>' := ne_of_isIdentifierChar ident (by decide)
  rw [typeParameters, skipped]
  simp only [current, if_neg notClosing, readName, readArgs, ← split]

variable {texts : List (List Char)}

theorem endsParameters_separated :
    endsParameters (separated texts ++ '>' :: after) := by
  intro c member
  cases texts with
  | nil =>
    cases member
    exact .inr rfl
  | cons text texts =>
    cases member
    exact .inl rfl

/-- The parameters up to the closing bracket. -/
theorem typeParameters_separated {limit : Nat} (each : ∀ text ∈ texts, IsTypeText text)
    (noQuote : doubleQuote ∉ separated texts ++ '>' :: after) (enough : texts.length < limit) :
    typeParameters limit (.between before (separated texts ++ '>' :: after)) = texts := by
  induction texts generalizing limit before with
  | nil =>
    obtain ⟨limit, rfl⟩ := Nat.exists_eq_succ_of_ne_zero (Nat.ne_of_gt enough)
    rw [typeParameters, separated, flatMap_nil, nil_append,
      skipBlankAndComma_here (by decide) (by decide)]
    simp
  | cons text texts ih =>
    obtain ⟨limit, rfl⟩ := Nat.exists_eq_succ_of_ne_zero (Nat.ne_of_gt (Nat.zero_lt_of_lt enough))
    obtain ⟨first, others⟩ := forall_mem_cons.mp each
    obtain ⟨c, rest, headed, ident⟩ := typeText_head first
    have joined : separated (text :: texts) ++ '>' :: after =
        ',' :: ([' '] ++ (text ++ (separated texts ++ '>' :: after))) := by
      simp [separated]
    have later : doubleQuote ∉ separated texts ++ '>' :: after := by
      rw [joined] at noQuote
      exact fun member => noQuote (by simp [member])
    have ends : endsParameters (separated texts ++ '>' :: after) := endsParameters_separated
    have skipped : (between before
        (',' :: ([' '] ++ (text ++ (separated texts ++ '>' :: after))))).skipBlankAndComma =
        (true, .between (before ++ [',', ' ']) (text ++ (separated texts ++ '>' :: after))) := by
      rw [headed]
      exact skipBlankAndComma_comma isBlanks_nil (by decide)
        (ne_of_isIdentifierChar ident (by decide)) (isBlank_of_isIdentifierChar ident)
    rw [joined, typeParameters_cons first ends later skipped,
      ih others later (Nat.lt_of_succ_lt_succ enough)]

theorem parseTypeParameters_between (each : ∀ text ∈ texts, IsTypeText text)
    (noQuote : doubleQuote ∉ (", ".toList).intercalate texts) (nonempty : texts ≠ []) :
    parseTypeParameters (.between before ('<' :: ((", ".toList).intercalate texts ++ ['>']))) =
      texts := by
  obtain ⟨text, others, rfl⟩ := exists_cons_of_ne_nil nonempty
  obtain ⟨first, later⟩ := forall_mem_cons.mp each
  obtain ⟨c, rest, headed, ident⟩ := typeText_head first
  rw [intercalate_eq] at noQuote ⊢
  have noQuoteLater : doubleQuote ∉ separated others ++ ['>'] := by
    intro member
    rcases mem_append.mp member with inside | closing
    · exact noQuote (mem_append_right _ inside)
    · exact absurd closing (by decide)
  have skippedBracket : (between before
      ('<' :: (text ++ separated others ++ ['>']))).skipBlankAndComma =
        (true, .between before ('<' :: (text ++ separated others ++ ['>']))) :=
    skipBlankAndComma_here (by decide) (by decide)
  have skipped : (between (before ++ ['<'])
      (text ++ (separated others ++ ['>']))).skipBlankAndComma =
        (true, .between (before ++ ['<']) (text ++ (separated others ++ ['>']))) := by
    rw [headed]
    exact skipBlankAndComma_here (ne_of_isIdentifierChar ident (by decide))
      (isBlank_of_isIdentifierChar ident)
  have rounds : others.length < (between before
      ('<' :: (text ++ separated others ++ ['>']))).str.length - 1 := by
    have short := length_le_separated others
    simp only [between, length_append, length_cons, length_nil]
    omega
  obtain ⟨limit, isLimit⟩ := Nat.exists_eq_add_of_lt (Nat.zero_lt_of_lt rounds)
  have isSucc : (between before
      ('<' :: (text ++ separated others ++ ['>']))).str.length = limit + 1 + 1 := by
    omega
  rw [parseTypeParameters, isEos_between, skippedBracket]
  simp only [isEmpty_cons, Bool.false_eq_true, if_false, current_between, ne_eq,
    not_true, skip_between, isSucc]
  rw [append_assoc text,
    typeParameters_cons first endsParameters_separated noQuoteLater skipped,
    typeParameters_separated later noQuoteLater (by omega)]

/-! ## Texts of printable types -/

theorem isPlainChar_ident {c : Char} (plain : isPlainChar c = true) : isIdentifierChar c = true := by
  simp only [isPlainChar, isIdentifierChar, decide_eq_true_eq] at plain ⊢
  rcases plain with letter | digit | underscore
  · exact .inr (.inl letter)
  · exact .inl digit
  · subst underscore
    decide

theorem IsPlainName.identifier {name : String} (plain : IsPlainName name) :
    IsIdentifier name.toList :=
  ⟨plain.1, fun c member => isPlainChar_ident (plain.2.1 c member)⟩

theorem IsIdentifier.noQuote (identifier : IsIdentifier name) : doubleQuote ∉ name := by
  intro member
  exact absurd (identifier.2 _ member) (by decide)

theorem IsIdentifier.typeText (identifier : IsIdentifier name) : IsTypeText name :=
  ⟨name, [], (append_nil name).symm, identifier, not_mem_nil, .inl rfl⟩

theorem IsTypeText.balanced (isText : IsTypeText text) : Balanced '<' '>' text := by
  obtain ⟨name, args, rfl, identifier, -, shape⟩ := isText
  refine (identifier.balanced (by decide) (by decide)).append ?_
  rcases shape with rfl | ⟨inner, rfl, balanced⟩
  · exact Balanced.nil
  · exact balanced.enclose (by decide)

theorem IsTypeText.noQuote (isText : IsTypeText text) : doubleQuote ∉ text := by
  obtain ⟨name, args, rfl, identifier, plain, -⟩ := isText
  intro member
  rcases mem_append.mp member with inName | inArgs
  · exact identifier.noQuote inName
  · exact plain inArgs

theorem noQuote_intercalate (each : ∀ text ∈ texts, IsTypeText text) :
    doubleQuote ∉ (", ".toList).intercalate texts := by
  cases texts with
  | nil => exact not_mem_nil
  | cons text texts =>
    obtain ⟨first, others⟩ := forall_mem_cons.mp each
    rw [intercalate_eq]
    intro member
    rcases mem_append.mp member with inFirst | later
    · exact first.noQuote inFirst
    · obtain ⟨next, isNext, inside⟩ := mem_flatMap.mp later
      simp only [mem_cons] at inside
      rcases inside with comma | blank | inNext
      · exact absurd comma (by decide)
      · exact absurd blank (by decide)
      · exact (others next isNext).noQuote inNext

/-- A name with parameters. -/
theorem typeText_brackets (identifier : IsIdentifier name)
    (each : ∀ text ∈ texts, IsTypeText text) :
    IsTypeText (name ++ '<' :: ((", ".toList).intercalate texts ++ ['>'])) := by
  refine ⟨name, _, rfl, identifier, ?_, .inr ⟨_, rfl, ?_⟩⟩
  · have inside := noQuote_intercalate each
    intro member
    rcases mem_cons.mp member with opening | member
    · exact absurd opening (by decide)
    · rcases mem_append.mp member with joined | closing
      · exact inside joined
      · exact absurd closing (by decide)
  · refine Balanced.intercalate (Balanced.of_forall (by simp)) ?_
    exact fun text member => (each text member).balanced

/-! ## Reading the name -/

/-- The text of a name with parameters. -/
def withParameters (name : List Char) (texts : List (List Char)) : List Char :=
  name ++ '<' :: ((", ".toList).intercalate texts ++ ['>'])

theorem compositeText_false (name : List Char) (texts : List (List Char)) :
    compositeText name texts false = withParameters name texts := by
  simp [compositeText, withParameters]

theorem compositeText_true (name : List Char) (texts : List (List Char)) :
    compositeText name texts true =
      withParameters "frozen".toList [withParameters name texts] := by
  simp [compositeText, withParameters]

/-- The start of `parse` for a name with parameters. -/
theorem parseTypeName_withParameters (identifier : IsIdentifier name) :
    parseTypeName ⟨withParameters name texts, 0⟩ =
      (name, .between name ('<' :: ((", ".toList).intercalate texts ++ ['>']))) := by
  refine @parseTypeName_between [] _ name identifier ?_
  intro c member
  cases member
  decide

theorem shapeOf_withParameters (identifier : IsIdentifier name)
    (each : ∀ text ∈ texts, IsTypeText text) (nonempty : texts ≠ []) :
    shapeOf (withParameters name texts) = shapeNamed name texts := by
  rw [shapeOf, parseTypeName_withParameters identifier]
  dsimp only
  rw [parseTypeParameters_between each (noQuote_intercalate each) nonempty]

theorem run_bind_of_run {σ α β : Type} {action : StateM σ α} {next : α → StateM σ β}
    {state state' : σ} {value : α} (runs : action.run state = (value, state')) :
    (action >>= next).run state = (next value).run state' := by
  rw [StateT.run_bind, runs]
  rfl

section Reading

variable {limit : Nat} {keyspace : KeyspaceTypes} {isFrozen : Bool}

/-- A text of a type is read as the type. -/
def ReadsAs (limit : Nat) (keyspace : KeyspaceTypes) (text : List Char) (isFrozen : Bool)
    (dataType : DataType) : Prop :=
  IsTypeText text ∧
    (parseWithin limit text isFrozen).run keyspace = (.ofDataType dataType, keyspace)

variable {types : List DataType}

theorem isTypeText_of_reads
    (reads : List.Forall₂ (fun text dataType => ReadsAs limit keyspace text false dataType)
      texts types) : ∀ text ∈ texts, IsTypeText text := by
  induction reads with
  | nil => exact fun _ member => absurd member not_mem_nil
  | cons first _ ih => exact forall_mem_cons.mpr ⟨first.1, ih⟩

/-- The loop over the parameters of a type. -/
theorem mapM_readsAs
    (reads : List.Forall₂ (fun text dataType => ReadsAs limit keyspace text false dataType)
      texts types) :
    (texts.mapM fun param => parseWithin limit param false).run keyspace =
      (TypeRef.ofDataTypes types, keyspace) := by
  induction reads with
  | nil => rfl
  | cons first others ih =>
    rw [mapM_cons, run_bind_of_run first.2, run_bind_of_run ih]
    rfl

/-- A name with parameters is read with the types of its parts, if it is the name of a composite
type. -/
theorem readsAs_parts
    {make : List TypeRef → TypeRef} {dataType : DataType} (isName : IsIdentifier name)
    (parses : parseWithin (limit + 1) (withParameters name texts) isFrozen = do
      let types ← texts.mapM fun param => parseWithin limit param false
      return make types)
    (made : make (TypeRef.ofDataTypes types) = .ofDataType dataType)
    (reads : List.Forall₂ (fun text dataType => ReadsAs limit keyspace text false dataType)
      texts types) :
    ReadsAs (limit + 1) keyspace (withParameters name texts) isFrozen dataType := by
  refine ⟨typeText_brackets isName (isTypeText_of_reads reads), ?_⟩
  rw [parses, run_bind_of_run (mapM_readsAs reads), made]
  rfl

theorem readsAs_collection {kind : CollectionKind}
    (isName : IsIdentifier name)
    (shape : shapeNamed name texts = .collection kind texts) (nonempty : texts ≠ [])
    (reads : List.Forall₂ (fun text dataType => ReadsAs limit keyspace text false dataType)
      texts types) :
    ReadsAs (limit + 1) keyspace (withParameters name texts) isFrozen
      (.collection kind types isFrozen) := by
  have parses : parseWithin (limit + 1) (withParameters name texts) isFrozen = do
      let types ← texts.mapM fun param => parseWithin limit param false
      return .collection kind types isFrozen := by
    rw [parseWithin, shapeOf_withParameters isName (isTypeText_of_reads reads) nonempty, shape]
  exact readsAs_parts isName parses (by rw [TypeRef.ofDataType]) reads

theorem readsAs_tuple
    (reads : List.Forall₂ (fun text dataType => ReadsAs limit keyspace text false dataType)
      texts types) (nonempty : texts ≠ []) :
    ReadsAs (limit + 1) keyspace (withParameters "tuple".toList texts) isFrozen
      (.tuple types isFrozen) := by
  obtain ⟨first, others, rfl⟩ := exists_cons_of_ne_nil nonempty
  have isName : IsIdentifier "tuple".toList := by decide
  have shape : shapeNamed "tuple".toList (first :: others) = .tuple (first :: others) := rfl
  have parses : parseWithin (limit + 1) (withParameters "tuple".toList (first :: others)) isFrozen = do
      let types ← (first :: others).mapM fun param => parseWithin limit param false
      return .tuple types isFrozen := by
    rw [parseWithin, shapeOf_withParameters isName (isTypeText_of_reads reads) nonempty, shape]
  exact readsAs_parts isName parses (by rw [TypeRef.ofDataType]) reads

/-- A frozen type is its text in brackets. -/
theorem readsAs_frozen {dataType : DataType} (reads : ReadsAs limit keyspace text true dataType) :
    ReadsAs (limit + 1) keyspace (withParameters "frozen".toList [text]) isFrozen dataType := by
  have isName : IsIdentifier "frozen".toList := by decide
  have shape : shapeNamed "frozen".toList [text] = .frozen text := rfl
  have each : ∀ other ∈ [text], IsTypeText other := by simpa using reads.1
  refine ⟨typeText_brackets isName each, ?_⟩
  rw [parseWithin, shapeOf_withParameters isName each (cons_ne_nil _ _), shape]
  exact reads.2

/-! ## Plain names -/

theorem toLower_toUpper {c : Char} (plain : isPlainChar c = true) : c.toUpper.toLower = c := by
  have small : c.toNat < 128 := by
    simp only [isPlainChar, decide_eq_true_eq] at plain
    rcases plain with letter | digit | underscore
    · exact Nat.lt_of_le_of_lt letter.2 (by decide)
    · exact Nat.lt_of_le_of_lt digit.2 (by decide)
    · subst underscore
      decide
  have each : ∀ code < 128, isPlainChar (Char.ofNat code) = true →
      (Char.ofNat code).toUpper.toLower = Char.ofNat code := by
    decide
  have back := each c.toNat small
  rw [Char.ofNat_toNat] at back
  exact back plain

/-- Plain names that are equal up to case are equal. -/
theorem eq_of_iequals {left right : List Char} (plainLeft : ∀ c ∈ left, isPlainChar c = true)
    (plainRight : ∀ c ∈ right, isPlainChar c = true) (same : iequals left right = true) :
    left = right := by
  have lower : ∀ {name : List Char}, (∀ c ∈ name, isPlainChar c = true) →
      (name.map Char.toUpper).map Char.toLower = name := by
    intro name plain
    rw [map_map]
    exact (map_congr_left fun c member => toLower_toUpper (plain c member)).trans
      (map_id name)
  have upper : left.map Char.toUpper = right.map Char.toUpper := by simpa [iequals] using same
  rw [← lower plainLeft, upper, lower plainRight]

theorem IsPlainName.not_iequals {name other : String} (plain : IsPlainName name)
    (reserved : other ∈ reservedNames) (plainOther : ∀ c ∈ other.toList, isPlainChar c = true) :
    iequals name.toList other.toList = false := by
  refine Bool.eq_false_iff.mpr fun same => plain.2.2 ?_
  have equal : name = other := String.toList_inj.mp (eq_of_iequals plain.2.1 plainOther same)
  rw [equal]
  exact reserved

theorem IsPlainName.byCql {name : String} (plain : IsPlainName name) :
    SimpleDataTypeCache.byCql name.toList = none := by
  have notFound : valueTypeMapping.find? (fun entry =>
      decide (entry.2.1 ≠ "" ∧ iequals name.toList entry.2.1.toList = true)) = none := by
    rw [find?_eq_none]
    intro entry member found
    have plainEntry : ∀ entry ∈ valueTypeMapping, entry.2.1.toList.all isPlainChar = true := by
      decide
    have reserved : entry.2.1 ∈ reservedNames :=
      mem_append_left _ (mem_map_of_mem member)
    have different := plain.not_iequals reserved (all_eq_true.mp (plainEntry entry member))
    rw [decide_eq_true_iff, different] at found
    cases found.2
  rw [SimpleDataTypeCache.byCql, ValueTypes.byCql, ValueTypes.lookup]
  simp only [notFound]
  rfl

theorem readsAs_userType {typeName : String} (plain : IsPlainName typeName)
    (holds : keyspace.Holds typeName) :
    ∃ userType : UserType, ∀ limit isFrozen,
      ReadsAs (limit + 1) keyspace typeName.toList isFrozen
        (.userType userType.keyspace typeName userType.fields userType.types isFrozen) := by
  obtain ⟨userType, stored, named⟩ := holds
  have notKeyword : ∀ other ∈ ["list", "set", "map", "tuple", "frozen", "empty"],
      iequals typeName.toList other.toList = false := by
    intro other member
    have known : ∀ other ∈ ["list", "set", "map", "tuple", "frozen", "empty"],
        other ∈ reservedNames ∧ other.toList.all isPlainChar = true := by
      decide
    exact plain.not_iequals (known other member).1 (all_eq_true.mp (known other member).2)
  have notQuoted : typeName.toList.head? ≠ some singleQuote := by
    intro quoted
    exact absurd (plain.2.1 singleQuote (mem_of_mem_head? quoted)) (by decide)
  have readName : parseTypeName ⟨typeName.toList, 0⟩ =
      (typeName.toList, .between typeName.toList []) := by
    have read := @parseTypeName_between [] [] typeName.toList plain.identifier
      (fun c member => nomatch member)
    rwa [append_nil] at read
  have shape : shapeOf typeName.toList = .userType typeName.toList := by
    simp only [shapeOf, readName, shapeNamed, plain.byCql, notKeyword "list" (by decide),
      notKeyword "set" (by decide), notKeyword "map" (by decide), notKeyword "tuple" (by decide),
      notKeyword "frozen" (by decide), notKeyword "empty" (by decide), if_neg plain.1,
      if_neg notQuoted, Bool.false_eq_true, if_false]
  refine ⟨userType, fun limit isFrozen => ⟨plain.identifier.typeText, ?_⟩⟩
  have found : (userTypeNamed typeName.toList isFrozen).run keyspace =
      (.userType userType.keyspace typeName userType.fields userType.types isFrozen, keyspace) := by
    have same : keyspace.getOrCreateUserType typeName isFrozen = (userType, keyspace) := by
      rw [KeyspaceTypes.getOrCreateUserType, stored]
    rw [userTypeNamed, String.ofList_toList]
    simp only [StateT.run_bind, StateT.run_get, pure_bind, same, StateT.run_set, named]
    rfl
  rw [parseWithin, shape, StateT.run_map, found]
  rfl

theorem readsAs_simple {simpleType : SimpleType} (known : simpleType ≠ .unknown) :
    ReadsAs (limit + 1) keyspace (DataType.simple simpleType).toString isFrozen
      (.simple simpleType) := by
  have names : IsIdentifier simpleType.valueType.cqlName ∧
      SimpleDataTypeCache.byCql simpleType.valueType.cqlName = some simpleType := by
    cases simpleType with
    | unknown => exact absurd rfl known
    | _ => decide
  have readName : parseTypeName ⟨simpleType.valueType.cqlName, 0⟩ =
      (simpleType.valueType.cqlName, .between simpleType.valueType.cqlName []) := by
    have read := @parseTypeName_between [] [] _ names.1 (fun c member => nomatch member)
    rwa [append_nil] at read
  refine ⟨names.1.typeText, ?_⟩
  rw [DataType.toString, parseWithin, shapeOf, readName]
  simp only [shapeNamed, names.2]
  rfl

end Reading

/-! ## Reading printed types -/

theorem toStrings_eq_map (types : List DataType) :
    DataType.toStrings types = types.map DataType.toString := by
  induction types with
  | nil => rfl
  | cons dataType types ih => rw [DataType.toStrings, ih, map_cons]

theorem length_lt_withParameters (member : text ∈ texts) :
    text.length < (withParameters name texts).length := by
  have inside : text.length ≤ ((", ".toList).intercalate texts).length := by
    cases texts with
    | nil => cases member
    | cons first texts =>
      rw [intercalate_eq, length_append]
      rcases mem_cons.mp member with rfl | later
      · omega
      · have part : text.length ≤ (separated texts).length := by
          have isPart : ',' :: ' ' :: text ∈ texts.map fun text => ',' :: ' ' :: text :=
            mem_map_of_mem later
          have shorter := (sublist_flatten_of_mem isPart).length_le
          rw [← flatMap_def, length_cons, length_cons] at shorter
          exact Nat.le_trans (Nat.le_add_right _ 2) shorter
        omega
  simp only [withParameters, length_append, length_cons, length_nil]
  omega

section Printable

variable {keyspace : KeyspaceTypes}

/-- A composite type is read back if its text without `frozen` is, for both flags. -/
theorem readsAs_compositeText {make : Bool → DataType}
    {isFrozen : Bool}
    (reads : ∀ isFrozen limit, (withParameters name texts).length ≤ limit →
      ReadsAs (limit + 1) keyspace (withParameters name texts) isFrozen (make isFrozen))
    {limit : Nat} (enough : (compositeText name texts isFrozen).length ≤ limit) :
    ReadsAs (limit + 1) keyspace (compositeText name texts isFrozen) false (make isFrozen) := by
  cases isFrozen with
  | false =>
    rw [compositeText_false] at enough ⊢
    exact reads false limit enough
  | true =>
    rw [compositeText_true] at enough ⊢
    have shorter : (withParameters name texts).length <
        (withParameters "frozen".toList [withParameters name texts]).length :=
      length_lt_withParameters mem_cons_self
    obtain ⟨smaller, rfl⟩ : ∃ smaller, limit = smaller + 1 := ⟨limit - 1, by omega⟩
    exact readsAs_frozen (reads true smaller (by omega))

/-- What is said about a printable type: it is read back within every limit that its text fits
into. -/
def ReadsBack (keyspace : KeyspaceTypes) (dataType parsed : DataType) : Prop :=
  (∀ limit, dataType.toString.length ≤ limit →
    ReadsAs (limit + 1) keyspace dataType.toString false parsed) ∧ SameShape dataType parsed

/-- The texts inside the brackets fit into a smaller limit. -/
theorem ReadsBack.inside {dataType parsed : DataType} {limit : Nat}
    (reads : ReadsBack keyspace dataType parsed) (member : dataType.toString ∈ texts)
    (enough : (withParameters name texts).length ≤ limit) :
    ReadsAs limit keyspace dataType.toString false parsed := by
  have shorter : dataType.toString.length < (withParameters name texts).length :=
    length_lt_withParameters member
  obtain ⟨smaller, rfl⟩ : ∃ smaller, limit = smaller + 1 := ⟨limit - 1, by omega⟩
  exact reads.1 smaller (by omega)

theorem readsBack_userType {ownKeyspace typeName : String} {fields : List String}
    {types : List DataType} {isFrozen : Bool} (plain : IsPlainName typeName)
    (holds : keyspace.Holds typeName) :
    ∃ parsed, ReadsBack keyspace (.userType ownKeyspace typeName fields types isFrozen) parsed := by
  obtain ⟨userType, reads⟩ := readsAs_userType plain holds
  refine ⟨.userType userType.keyspace typeName userType.fields userType.types isFrozen,
    fun limit enough => ?_, .userType typeName isFrozen⟩
  cases isFrozen with
  | false =>
    rw [DataType.toString, if_neg Bool.false_ne_true, if_neg Bool.false_ne_true,
      nil_append, append_nil]
    exact reads limit false
  | true =>
    have text : (DataType.userType ownKeyspace typeName fields types true).toString =
        withParameters "frozen".toList [typeName.toList] := by
      simp [DataType.toString, withParameters]
    rw [text] at enough ⊢
    have shorter : typeName.toList.length <
        (withParameters "frozen".toList [typeName.toList]).length :=
      length_lt_withParameters mem_cons_self
    obtain ⟨smaller, rfl⟩ : ∃ smaller, limit = smaller + 1 := ⟨limit - 1, by omega⟩
    exact readsAs_frozen (reads smaller true)

/-- The elements of a tuple are read back one by one. -/
theorem exists_readsBack {types : List DataType}
    (each : ∀ dataType ∈ types, ∃ parsed, ReadsBack keyspace dataType parsed) :
    ∃ parsed, List.Forall₂ (ReadsBack keyspace) types parsed := by
  induction types with
  | nil => exact ⟨[], .nil⟩
  | cons dataType types ih =>
    obtain ⟨first, others⟩ := forall_mem_cons.mp each
    obtain ⟨parsed, reads⟩ := first
    obtain ⟨parsedOthers, readsOthers⟩ := ih others
    exact ⟨parsed :: parsedOthers, .cons reads readsOthers⟩

theorem inside_toStrings {types parsed : List DataType} {limit : Nat}
    (reads : List.Forall₂ (ReadsBack keyspace) types parsed)
    (enough : (withParameters name (types.map DataType.toString)).length ≤ limit) :
    List.Forall₂ (fun text dataType => ReadsAs limit keyspace text false dataType)
      (types.map DataType.toString) parsed := by
  rw [forall₂_map_left_iff]
  have members : ∀ dataType ∈ types, dataType.toString ∈ types.map DataType.toString :=
    fun _ member => mem_map_of_mem member
  refine List.Forall₂.imp ?_ ((forall₂_and_left types parsed).mpr ⟨members, reads⟩)
  exact fun _ _ back => back.2.inside back.1 enough

theorem readsBack_collection {kind : CollectionKind} {types parsed : List DataType}
    {isFrozen : Bool}
    (isName : IsIdentifier name)
    (named : (DataType.collection kind [] isFrozen).valueType.cqlName = name)
    (shape : shapeNamed name (types.map DataType.toString) =
      .collection kind (types.map DataType.toString))
    (reads : List.Forall₂ (ReadsBack keyspace) types parsed) (nonempty : types ≠ []) :
    ReadsBack keyspace (.collection kind types isFrozen) (.collection kind parsed isFrozen) := by
  refine ⟨fun limit enough => ?_, .collection kind isFrozen (reads.imp fun _ _ back => back.2)⟩
  rw [DataType.toString, toStrings_eq_map, named] at enough ⊢
  exact @readsAs_compositeText name _ _ (fun isFrozen => .collection kind parsed isFrozen) _
    (fun _ _ enough => readsAs_collection isName shape (by simpa using nonempty)
      (inside_toStrings reads enough)) _ enough

/-- Every printable type is read back from its text. -/
theorem Printable.readsBack {dataType : DataType} (printable : Printable keyspace dataType) :
    ∃ parsed, ReadsBack keyspace dataType parsed := by
  induction printable with
  | @simple simpleType known =>
    exact ⟨.simple simpleType, fun _ _ => readsAs_simple known, .simple simpleType⟩
  | @list element isFrozen elements ih =>
    obtain ⟨parsed, reads⟩ := ih
    exact ⟨_, readsBack_collection (show IsIdentifier "list".toList by decide) rfl rfl
      (.cons reads .nil) (cons_ne_nil _ _)⟩
  | @set element isFrozen elements ih =>
    obtain ⟨parsed, reads⟩ := ih
    exact ⟨_, readsBack_collection (show IsIdentifier "set".toList by decide) rfl rfl
      (.cons reads .nil) (cons_ne_nil _ _)⟩
  | @map key value isFrozen keys values ihKeys ihValues =>
    obtain ⟨parsedKey, readsKey⟩ := ihKeys
    obtain ⟨parsedValue, readsValue⟩ := ihValues
    exact ⟨_, readsBack_collection (show IsIdentifier "map".toList by decide) rfl rfl
      (.cons readsKey (.cons readsValue .nil)) (cons_ne_nil _ _)⟩
  | @tuple types isFrozen nonempty each ih =>
    obtain ⟨parsed, reads⟩ := exists_readsBack ih
    refine ⟨.tuple parsed isFrozen, fun limit enough => ?_,
      .tuple isFrozen (reads.imp fun _ _ back => back.2)⟩
    rw [DataType.toString, toStrings_eq_map] at enough ⊢
    exact readsAs_compositeText (fun _ _ enough =>
      readsAs_tuple (inside_toStrings reads enough) (by simpa using nonempty)) enough
  | userType plain holds => exact readsBack_userType plain holds

/-- **The CQL name of a type is read back** as a type with the same structure, user type names and
frozen flags, and the keyspace stays as it is. -/
theorem parse_toString {dataType : DataType} (printable : Printable keyspace dataType) :
    ∃ parsed, (parse dataType.toString).run keyspace = (.ofDataType parsed, keyspace) ∧
      SameShape dataType parsed := by
  obtain ⟨parsed, reads, same⟩ := printable.readsBack
  exact ⟨parsed, (reads _ (Nat.le_refl _)).2, same⟩

/-- A keyspace with a user type `address`. -/
def addressKeyspace : KeyspaceTypes where
  name := "ks"
  userTypes := AList.singleton "address"
    { keyspace := "ks", typeName := "address", fields := ["zip"], types := [.simple .int],
      isFrozen := false }

/-- `map<int, frozen<list<frozen<address>>>>`. -/
def addressMap : DataType :=
  .collection .map [.simple .int,
    .collection .list [.userType "ks" "address" ["zip"] [.simple .int] true] true] false

theorem parse_toString_addressMap :
    addressMap.toString = "map<int, frozen<list<frozen<address>>>>".toList ∧
      ∃ parsed, (parse addressMap.toString).run addressKeyspace =
          (.ofDataType parsed, addressKeyspace) ∧ SameShape addressMap parsed :=
  ⟨by decide, parse_toString (.map (.simple (by decide))
    (.list (.userType (by decide) ⟨_, rfl, rfl⟩)))⟩

end Printable

end DseDriver.Cql
