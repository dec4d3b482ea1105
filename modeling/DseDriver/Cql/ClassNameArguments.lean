import DseDriver.Cql.ClassNameParser

/-!
# Reading the arguments of a class name

Arguments stand between commas with blanks around them.  Each is read as its own text, and an
argument with parentheses may have some of the text that follows it at its end.
-/

namespace DseDriver.Cql.DataTypeClassNameParser

open DseDriver.Lib ParserBase List Option

/-! ## Texts -/

/-- A name with a text in parentheses. -/
def call (name inner : List Char) : List Char :=
  name ++ '(' :: (inner ++ [')'])

/-- A name, or a name with a balanced text in parentheses. -/
inductive IsCall : List Char → Prop where
  | name {name : List Char} (identifier : IsIdentifier name) : IsCall name
  | call {name inner : List Char} (identifier : IsIdentifier name)
      (balanced : Balanced '(' ')' inner) : IsCall (call name inner)

/-- The text between an argument and the closing parenthesis: other arguments, each behind a comma
and with blanks around it. -/
inductive Following : List (List Char) → List Char → Prop where
  | nil {blanks : List Char} (areBlank : IsBlanks blanks) : Following [] blanks
  | cons {text : List Char} {texts : List (List Char)} {blanks blanks' rest : List Char}
      (areBlank : IsBlanks blanks) (areBlank' : IsBlanks blanks') (following : Following texts rest) :
      Following (text :: texts) (blanks ++ ',' :: (blanks' ++ (text ++ rest)))

/-- The text between parentheses with its arguments. -/
inductive Arguments : List (List Char) → List Char → Prop where
  | nil {blanks : List Char} (areBlank : IsBlanks blanks) : Arguments [] blanks
  | cons {text : List Char} {texts : List (List Char)} {blanks rest : List Char}
      (areBlank : IsBlanks blanks) (following : Following texts rest) :
      Arguments (text :: texts) (blanks ++ (text ++ rest))

/-- A text is read with more text behind it, if it ends in a parenthesis. -/
def ReadAs (text read : List Char) : Prop :=
  ∃ more, read = text ++ more ∧ (more = [] ∨ ∃ inner, text = inner ++ [')'])

theorem readAs_self (text : List Char) : ReadAs text text :=
  ⟨[], (append_nil text).symm, .inl rfl⟩

/-- A text with parentheses is read with some of the text behind it, and a name as it is. -/
def ReadPast (text read : List Char) : Prop :=
  ReadAs text read ∧ (read = text ↔ IsIdentifier text)

variable {before after text name inner rest : List Char} {texts : List (List Char)}

/-- Names are read as they are. -/
theorem ReadAs.eq_name {read : List Char} (reads : ReadAs name read) (identifier : IsIdentifier name) :
    read = name := by
  obtain ⟨more, rfl, rfl | ⟨inner, rfl⟩⟩ := reads
  · exact append_nil name
  · exact absurd (identifier.2 ')' (by simp)) (by decide)

theorem not_isIdentifier_call : ¬ IsIdentifier (call name inner) := by
  intro identifier
  have ident := identifier.2 '(' (mem_append_right _ mem_cons_self)
  exact absurd ident (by decide)

theorem ReadAs.eq_call {read : List Char} (reads : ReadAs (call name inner) read) :
    ∃ more, read = name ++ '(' :: (inner ++ ')' :: more) := by
  obtain ⟨more, rfl, -⟩ := reads
  exact ⟨more, by simp [DataTypeClassNameParser.call]⟩

/-- The text starts with a character of a name. -/
def StartsName (text : List Char) : Prop :=
  ∃ c others, text = c :: others ∧ isIdentifierChar c = true

theorem startsName_append (identifier : IsIdentifier name) (more : List Char) :
    StartsName (name ++ more) := by
  obtain ⟨nonempty, each⟩ := identifier
  obtain ⟨c, others, rfl⟩ := exists_cons_of_ne_nil nonempty
  exact ⟨c, others ++ more, rfl, each c mem_cons_self⟩

theorem IsCall.startsName (isCall : IsCall text) : StartsName text := by
  cases isCall with
  | name identifier => simpa using startsName_append identifier []
  | call identifier balanced => exact startsName_append identifier _

theorem StartsName.notBlank (starts : StartsName text) :
    ∀ c ∈ (text ++ after).head?, isBlank c = false := by
  obtain ⟨first, others, rfl, ident⟩ := starts
  rintro c ⟨⟩
  exact isBlank_of_isIdentifierChar ident

/-- Nothing is skipped in front of a name. -/
theorem StartsName.skipBlankAndComma (starts : StartsName text) :
    (between before (text ++ after)).skipBlankAndComma = (true, between before (text ++ after)) := by
  obtain ⟨first, others, rfl, ident⟩ := starts
  exact skipBlankAndComma_here (ne_of_isIdentifierChar ident (by decide))
    (isBlank_of_isIdentifierChar ident)

variable {blanks : List Char}

theorem StartsName.skipBlankAndComma_blanks (starts : StartsName text)
    (areBlank : IsBlanks blanks) :
    (between before (blanks ++ (text ++ rest) ++ after)).skipBlankAndComma =
      (true, between (before ++ blanks) (text ++ (rest ++ after))) := by
  obtain ⟨first, others, rfl, ident⟩ := starts
  rw [append_assoc, append_assoc]
  exact ParserBase.skipBlankAndComma_blanks areBlank (ne_of_isIdentifierChar ident (by decide))
    (isBlank_of_isIdentifierChar ident)

theorem StartsName.notClosing (starts : StartsName text) :
    (between before (text ++ after)).current ≠ ')' := by
  obtain ⟨first, others, rfl, ident⟩ := starts
  rw [cons_append, current_between]
  exact ne_of_isIdentifierChar ident (by decide)

theorem IsCall.balanced (isCall : IsCall text) : Balanced '(' ')' text := by
  cases isCall with
  | name identifier => exact identifier.balanced (by decide) (by decide)
  | call identifier balanced =>
    exact (identifier.balanced (by decide) (by decide)).append (balanced.enclose (by decide))

theorem balanced_blanks (areBlank : IsBlanks blanks) :
    Balanced '(' ')' blanks := by
  refine Balanced.of_forall fun c member => ?_
  have blank := areBlank c member
  constructor <;> (rintro rfl; exact absurd blank (by decide))

theorem Following.balanced (following : Following texts rest)
    (each : ∀ text ∈ texts, Balanced '(' ')' text) : Balanced '(' ')' rest := by
  induction following with
  | nil areBlank => exact balanced_blanks areBlank
  | cons areBlank areBlank' _ ih =>
    obtain ⟨first, others⟩ := forall_mem_cons.mp each
    refine (balanced_blanks areBlank).append ?_
    exact (Balanced.singleton (by decide) (by decide)).append
      ((balanced_blanks areBlank').append (first.append (ih others)))

theorem Arguments.balanced (arguments : Arguments texts inner)
    (each : ∀ text ∈ texts, Balanced '(' ')' text) : Balanced '(' ')' inner := by
  cases arguments with
  | nil areBlank => exact balanced_blanks areBlank
  | cons areBlank following =>
    obtain ⟨first, others⟩ := forall_mem_cons.mp each
    exact (balanced_blanks areBlank).append (first.append (following.balanced others))

/-- Blanks in front of the comma or the parenthesis can be left out. -/
theorem Following.skipBlank (following : Following texts rest) (before after : List Char) :
    ∃ before' rest' c more, (between before (rest ++ ')' :: after)).skipBlank =
        between before' (rest' ++ ')' :: after) ∧
      rest' ++ ')' :: after = c :: more ∧ (c = ')' ∨ c = ',') ∧ Following texts rest' := by
  cases following with
  | @nil blanks areBlank =>
    refine ⟨before ++ rest, [], ')', after, ?_, rfl, .inl rfl, .nil isBlanks_nil⟩
    exact skipBlank_blanks areBlank (by rintro c ⟨⟩; decide)
  | @cons text texts blanks blanks' rest areBlank areBlank' following =>
    refine ⟨before ++ blanks, ',' :: (blanks' ++ (text ++ rest)), ',', _, ?_, rfl, .inr rfl,
      .cons isBlanks_nil areBlank' following⟩
    rw [append_assoc]
    exact skipBlank_blanks areBlank (by rintro c ⟨⟩; decide)

/-- Blanks and separators are no part of a name. -/
theorem stops_blanks {next : Char} (areBlank : IsBlanks blanks)
    (notIdent : isIdentifierChar next = false) :
    ∀ c ∈ (blanks ++ next :: after).head?, isIdentifierChar c = false := by
  intro c member
  cases blanks with
  | nil =>
    cases member
    exact notIdent
  | cons first blanks =>
    cases member
    have isBlank := areBlank c mem_cons_self
    by_contra ident
    rw [isBlank_of_isIdentifierChar (by simpa using ident)] at isBlank
    cases isBlank

/-- What follows an argument is no part of a name. -/
theorem Following.stops (following : Following texts rest) :
    ∀ c ∈ (rest ++ ')' :: after).head?, isIdentifierChar c = false := by
  cases following with
  | nil areBlank => exact stops_blanks areBlank (by decide)
  | cons areBlank _ _ =>
    rw [append_assoc]
    exact stops_blanks areBlank (by decide)

/-! ## Reading one argument -/

theorem getNextName_between (areBlank : IsBlanks blanks) (identifier : IsIdentifier name)
    (stops : ∀ c ∈ after.head?, isIdentifierChar c = false) :
    getNextName (between before (blanks ++ (name ++ after))) =
      (name, between (before ++ blanks ++ name) after) := by
  have skipped : (between before (blanks ++ (name ++ after))).skipBlank =
      between (before ++ blanks) (name ++ after) :=
    skipBlank_blanks areBlank (IsCall.name identifier).startsName.notBlank
  rw [getNextName, skipped, readNextIdentifier, rest_between,
    takeWhile_append_stop identifier.2 stops, advance_between]

theorem readRawArguments_none (following : Following texts rest) :
    ∃ before' rest', readRawArguments (between before (rest ++ ')' :: after)) =
      some ([], between before' (rest' ++ ')' :: after)) ∧ Following texts rest' := by
  obtain ⟨before', rest', c, more, skipped, headed, isEnd, following'⟩ :=
    following.skipBlank before after
  refine ⟨before', rest', ?_, following'⟩
  have ends : (between before' (rest' ++ ')' :: after)).isEos = true ∨
      (between before' (rest' ++ ')' :: after)).current = ')' ∨
      (between before' (rest' ++ ')' :: after)).current = ',' := by
    rw [headed, current_between]
    exact .inr isEnd
  rw [readRawArguments, skipped]
  exact if_pos ends

/-- The length passed to `substr` is large enough for the arguments. -/
theorem readRawArguments_call (balanced : Balanced '(' ')' inner) :
    readRawArguments (between before ('(' :: (inner ++ ')' :: after))) =
      some ('(' :: (inner ++ ')' :: after.take before.length),
        between (before ++ '(' :: (inner ++ [')'])) after) := by
  have unmoved : (between before ('(' :: (inner ++ ')' :: after))).skipBlank =
      between before ('(' :: (inner ++ ')' :: after)) :=
    skipBlank_between (by rintro c ⟨⟩; decide)
  have moved : (between before ('(' :: (inner ++ ')' :: after))).advance
      ((inner ++ [')']).length + 1) = between (before ++ '(' :: (inner ++ [')'])) after := by
    have split : '(' :: (inner ++ ')' :: after) = '(' :: (inner ++ [')']) ++ after := by simp
    rw [split]
    exact advance_between
  have taken : ('(' :: (inner ++ ')' :: after)).take
      (before ++ '(' :: (inner ++ [')'])).length =
        '(' :: (inner ++ ')' :: after.take before.length) := by
    have split : '(' :: (inner ++ ')' :: after) = '(' :: (inner ++ [')']) ++ after := by simp
    rw [split, length_append, Nat.add_comm, take_length_add_append]
    simp
  rw [readRawArguments, unmoved]
  simp only [isEos_between, isEmpty_cons, current_between, rest_between, drop_one,
    tail_cons, balanced.splitClosing_one (by decide), map_some, moved]
  simp only [between, taken]
  simp

/-- An argument is read up to what follows it. -/
theorem readOne_between (areBlank : IsBlanks blanks) (isCall : IsCall text)
    (following : Following texts rest) :
    ∃ read before' rest',
      readOne (between before (blanks ++ (text ++ (rest ++ ')' :: after)))) =
        some (read, between before' (rest' ++ ')' :: after)) ∧
      ReadPast text read ∧ Following texts rest' := by
  cases isCall with
  | name identifier =>
    obtain ⟨before', rest', readArgs, following'⟩ :=
      @readRawArguments_none (before ++ blanks ++ text) after rest texts following
    refine ⟨text, before', rest', ?_,
      ⟨readAs_self text, iff_of_true rfl identifier⟩, following'⟩
    simp only [readOne, getNextName_between areBlank identifier following.stops, readArgs,
      map_some, append_nil]
  | @call name inner identifier balanced =>
    have readArgs := @readRawArguments_call (before ++ blanks ++ name)
      (rest ++ ')' :: after) inner balanced
    -- the text behind the call has at least the closing parenthesis
    have passes : (rest ++ ')' :: after).take (before ++ blanks ++ name).length ≠ [] := by
      rw [ne_eq, take_eq_nil_iff, length_eq_zero_iff]
      simp [identifier.1]
    generalize (rest ++ ')' :: after).take (before ++ blanks ++ name).length = more at *
    have split : call name inner ++ (rest ++ ')' :: after) =
        name ++ '(' :: (inner ++ ')' :: (rest ++ ')' :: after)) := by
      simp [call]
    refine ⟨call name inner ++ more, before ++ blanks ++ name ++ '(' :: (inner ++ [')']), rest, ?_,
      ⟨⟨more, rfl, .inr ⟨name ++ '(' :: inner, by simp [call]⟩⟩,
        iff_of_false (fun same => passes (append_right_eq_self.mp same))
          not_isIdentifier_call⟩, following⟩
    rw [split, readOne]
    simp only [getNextName_between areBlank identifier
      (show ∀ c ∈ ('(' :: (inner ++ ')' :: (rest ++ ')' :: after))).head?,
        isIdentifierChar c = false by rintro c ⟨⟩; decide), readArgs, map_some]
    simp [call]

/-! ## Reading all arguments -/

variable {limit : Nat}

/-- One round of the loop, once blanks and a comma are skipped. -/
theorem typeParams_cons {parser : ParserBase} (isCall : IsCall text)
    (following : Following texts rest)
    (skipped : parser.skipBlankAndComma = (true, between before (text ++ (rest ++ ')' :: after)))) :
    ∃ read before' rest', typeParams (limit + 1) parser =
        ((typeParams limit (between before' (rest' ++ ')' :: after))).1,
          read :: (typeParams limit (between before' (rest' ++ ')' :: after))).2) ∧
      ReadPast text read ∧ Following texts rest' := by
  obtain ⟨read, before', rest', readText, readAs, following'⟩ :=
    @readOne_between before after text rest texts [] isBlanks_nil isCall following
  refine ⟨read, before', rest', ?_, readAs, following'⟩
  rw [nil_append] at readText
  rw [typeParams, skipped]
  simp only [if_neg isCall.startsName.notClosing, readText]

theorem typeParams_nil (areBlank : IsBlanks blanks) :
    typeParams (limit + 1) (between before (blanks ++ ')' :: after)) = (true, []) := by
  rw [typeParams, skipBlankAndComma_blanks areBlank (by decide) (by decide)]
  simp

theorem Following.skipBlankAndComma (following : Following (text :: texts) rest)
    (starts : StartsName text) (before after : List Char) :
    ∃ before' rest', (between before (rest ++ ')' :: after)).skipBlankAndComma =
      (true, between before' (text ++ (rest' ++ ')' :: after))) ∧ Following texts rest' := by
  obtain ⟨c, others, headed, ident⟩ := starts
  cases following with
  | @cons _ _ blanks blanks' rest areBlank areBlank' following =>
    refine ⟨before ++ (blanks ++ ',' :: blanks'), rest, ?_, following⟩
    have split : blanks ++ ',' :: (blanks' ++ (text ++ rest)) ++ ')' :: after =
        blanks ++ ',' :: (blanks' ++ (text ++ (rest ++ ')' :: after))) := by
      simp
    rw [split, headed]
    exact skipBlankAndComma_comma areBlank areBlank' (ne_of_isIdentifierChar ident (by decide))
      (isBlank_of_isIdentifierChar ident)

/-- A list of arguments starts behind the opening parenthesis or behind another argument. -/
def Listed (texts : List (List Char)) (rest : List Char) : Prop :=
  Arguments texts rest ∨ Following texts rest

theorem Listed.isBlanks (listed : Listed [] rest) : IsBlanks rest := by
  rcases listed with arguments | following
  · cases arguments with
    | nil areBlank => exact areBlank
  · cases following with
    | nil areBlank => exact areBlank

theorem Listed.skipBlankAndComma (listed : Listed (text :: texts) rest) (starts : StartsName text)
    (before after : List Char) :
    ∃ before' rest', (between before (rest ++ ')' :: after)).skipBlankAndComma =
      (true, between before' (text ++ (rest' ++ ')' :: after))) ∧ Following texts rest' := by
  rcases listed with arguments | following
  · cases arguments with
    | cons areBlank following =>
      exact ⟨_, _, starts.skipBlankAndComma_blanks areBlank, following⟩
  · exact following.skipBlankAndComma starts before after

/-- The arguments up to the closing parenthesis. -/
theorem typeParams_listed (listed : Listed texts rest) (each : ∀ text ∈ texts, IsCall text)
    (enough : texts.length < limit) :
    ∃ reads, typeParams limit (between before (rest ++ ')' :: after)) = (true, reads) ∧
      List.Forall₂ ReadPast texts reads := by
  induction texts generalizing limit before rest with
  | nil =>
    obtain ⟨limit, rfl⟩ : ∃ smaller, limit = smaller + 1 := ⟨limit - 1, by omega⟩
    exact ⟨[], typeParams_nil listed.isBlanks, .nil⟩
  | cons text texts ih =>
    obtain ⟨limit, rfl⟩ : ∃ smaller, limit = smaller + 1 := ⟨limit - 1, by omega⟩
    obtain ⟨first, others⟩ := forall_mem_cons.mp each
    obtain ⟨before', rest', skipped, following⟩ :=
      listed.skipBlankAndComma first.startsName before after
    obtain ⟨read, before'', rest'', round, readAs, following⟩ :=
      @typeParams_cons before' after text rest' texts limit _ first following skipped
    obtain ⟨reads, later, readAll⟩ := ih (.inr following) others (Nat.lt_of_succ_lt_succ enough)
    exact ⟨read :: reads, by rw [round, later], .cons readAs readAll⟩

theorem Following.length_le (following : Following texts rest) : texts.length ≤ rest.length := by
  induction following with
  | nil => exact Nat.zero_le _
  | cons _ _ _ ih =>
    simp only [length_cons, length_append]
    omega

theorem Arguments.length_le (arguments : Arguments texts inner) :
    texts.length ≤ inner.length + 1 := by
  cases arguments with
  | nil => exact Nat.zero_le _
  | cons _ following =>
    have short := following.length_le
    simp only [length_cons, length_append]
    omega

/-- `get_type_params` reads all arguments of a call. -/
theorem getTypeParams_reads (arguments : Arguments texts inner)
    (each : ∀ text ∈ texts, IsCall text) :
    ∃ reads, getTypeParams (between before ('(' :: (inner ++ ')' :: after))) = (true, reads) ∧
      List.Forall₂ ReadPast texts reads := by
  have enough : texts.length < (between before ('(' :: (inner ++ ')' :: after))).str.length := by
    have short := arguments.length_le
    simp only [between, length_append, length_cons]
    omega
  obtain ⟨reads, readAll, readAs⟩ := @typeParams_listed (before ++ ['(']) after inner texts _
    (.inl arguments) each enough
  refine ⟨reads, ?_, readAs⟩
  rw [getTypeParams, isEos_between, skip_between, readAll]
  simp

theorem getTypeParams_arguments (arguments : Arguments texts inner)
    (each : ∀ text ∈ texts, IsCall text) :
    ∃ reads, getTypeParams (between before ('(' :: (inner ++ ')' :: after))) = (true, reads) ∧
      List.Forall₂ ReadAs texts reads := by
  obtain ⟨reads, readAll, readPast⟩ := @getTypeParams_reads before after inner texts arguments each
  exact ⟨reads, readAll, readPast.imp fun _ _ => And.left⟩

theorem forall₂_readPast_eq_iff {reads : List (List Char)}
    (readPast : List.Forall₂ ReadPast texts reads) :
    reads = texts ↔ ∀ text ∈ texts, IsIdentifier text := by
  induction readPast with
  | nil => simp
  | cons first _ ih => rw [List.cons.injEq, forall_mem_cons, first.2, ih]

/-- The arguments of a call are read as they are exactly if all of them are names. -/
theorem getTypeParams_eq_iff (before after inner : List Char) (texts : List (List Char))
    (arguments : Arguments texts inner) (each : ∀ text ∈ texts, IsCall text) :
    getTypeParams (between before ('(' :: (inner ++ ')' :: after))) = (true, texts) ↔
      ∀ text ∈ texts, IsIdentifier text := by
  obtain ⟨reads, readAll, readPast⟩ := @getTypeParams_reads before after inner texts arguments each
  rw [readAll, Prod.mk.injEq, ← forall₂_readPast_eq_iff readPast]
  exact and_iff_right rfl

theorem arguments_pair (first second : List Char) :
    Arguments [first, second] (first ++ ',' :: ' ' :: second) := by
  have following : Following [second] (',' :: ' ' :: (second ++ [])) :=
    .cons isBlanks_nil (show IsBlanks [' '] by decide) (.nil isBlanks_nil)
  rw [append_nil] at following
  exact .cons isBlanks_nil following

theorem getTypeParams_eq_iff_names :
    getTypeParams (between "MapType".toList
        ('(' :: (("UTF8Type".toList ++ ',' :: ' ' :: "Int32Type".toList) ++ [')']))) =
      (true, ["UTF8Type".toList, "Int32Type".toList]) ↔
    ∀ text ∈ ["UTF8Type".toList, "Int32Type".toList], IsIdentifier text :=
  getTypeParams_eq_iff _ [] _ _ (arguments_pair _ _)
    (forall_mem_cons.mpr ⟨.name (by decide), forall_mem_singleton.mpr (.name (by decide))⟩)

/-- The closing parenthesis of the map is read as a part of its second argument. -/
theorem getTypeParams_reads_closing :
    Arguments ["UTF8Type".toList, call "SetType".toList "Int32Type".toList]
        ("UTF8Type".toList ++ ',' :: ' ' :: call "SetType".toList "Int32Type".toList) ∧
      IsCall "UTF8Type".toList ∧ IsCall (call "SetType".toList "Int32Type".toList) ∧
      getTypeParams (between "MapType".toList
          ('(' :: (("UTF8Type".toList ++ ',' :: ' ' :: call "SetType".toList "Int32Type".toList) ++
            [')']))) =
        (true, ["UTF8Type".toList, "SetType(Int32Type))".toList]) := by
  have isName : IsIdentifier "Int32Type".toList := by decide
  exact ⟨arguments_pair _ _, .name (by decide),
    .call (by decide) (isName.balanced (by decide) (by decide)), by decide +kernel⟩

/-! ## Fields of user types -/

/-- A name in hex digits. -/
def IsHexName (hex : List Char) : Prop :=
  hex ≠ [] ∧ (fromHex hex).isSome = true

/-- The name that hex digits stand for. -/
def hexName (hex : List Char) : String :=
  String.ofList ((fromHex hex).getD [])

/-- The hex digits of the name of a field, a colon and the text of its type. -/
inductive IsField : List Char × List Char → List Char → Prop where
  | mk {hex type blanks blanks' : List Char} (areBlank : IsBlanks blanks)
      (areBlank' : IsBlanks blanks') :
      IsField (hex, type) (hex ++ (blanks ++ ':' :: (blanks' ++ type)))

theorem hexValue_isIdentifierChar {c : Char} {value : Nat} (isHex : hexValue c = some value) :
    isIdentifierChar c = true := by
  unfold hexValue at isHex
  unfold isIdentifierChar
  rw [decide_eq_true_iff]
  split at isHex
  · next digit => exact .inl digit
  · split at isHex
    · next upper => exact .inr (.inr (.inl ⟨upper.1, Char.le_trans upper.2 (by decide)⟩))
    · split at isHex
      · next lower => exact .inr (.inl ⟨lower.1, Char.le_trans lower.2 (by decide)⟩)
      · cases isHex

theorem fromHex_isIdentifierChar {hex result : List Char} (isHex : fromHex hex = some result) :
    ∀ c ∈ hex, isIdentifierChar c = true := by
  fun_induction fromHex hex generalizing result with
  | case1 => exact fun _ member => absurd member not_mem_nil
  | case2 => cases isHex
  | case3 high low hex ih =>
    obtain ⟨half0, isHigh, isHex⟩ := bind_eq_some_iff.mp isHex
    obtain ⟨half1, isLow, isHex⟩ := bind_eq_some_iff.mp isHex
    obtain ⟨rest, isRest, -⟩ := bind_eq_some_iff.mp isHex
    exact forall_mem_cons.mpr ⟨hexValue_isIdentifierChar isHigh,
      forall_mem_cons.mpr ⟨hexValue_isIdentifierChar isLow, ih isRest⟩⟩

theorem fromHex_ne_nil {hex result : List Char} (isHex : fromHex hex = some result)
    (nonempty : hex ≠ []) : result ≠ [] := by
  cases hex with
  | nil => exact absurd rfl nonempty
  | cons high hex =>
    cases hex with
    | nil => cases isHex
    | cons low hex =>
      obtain ⟨half0, -, isHex⟩ := bind_eq_some_iff.mp isHex
      obtain ⟨half1, -, isHex⟩ := bind_eq_some_iff.mp isHex
      obtain ⟨rest, -, isCons⟩ := bind_eq_some_iff.mp isHex
      cases isCons
      exact cons_ne_nil _ _

theorem IsHexName.result {hex : List Char} (isHex : IsHexName hex) :
    ∃ result, fromHex hex = some result ∧ hexName hex = String.ofList result := by
  obtain ⟨result, isResult⟩ := isSome_iff_exists.mp isHex.2
  exact ⟨result, isResult, by rw [hexName, isResult, getD_some]⟩

theorem IsHexName.identifier {hex : List Char} (isHex : IsHexName hex) : IsIdentifier hex := by
  obtain ⟨result, isResult, -⟩ := isHex.result
  exact ⟨isHex.1, fromHex_isIdentifierChar isResult⟩

/-- What is read of a field. -/
def FieldReadAs (field read : List Char × List Char) : Prop :=
  fromHex field.1 = some read.1 ∧ ReadAs field.2 read.2

theorem IsField.startsName {field : List Char × List Char} (isField : IsField field text)
    (isHex : IsHexName field.1) : StartsName text := by
  cases isField with
  | mk => exact startsName_append isHex.identifier _

/-- One round of the loop over the fields. -/
theorem nameAndTypeParams_cons {parser : ParserBase}
    {field : List Char × List Char} (isField : IsField field text) (isHex : IsHexName field.1)
    (isCall : IsCall field.2) (following : Following texts rest)
    (skipped : parser.skipBlankAndComma = (true, between before (text ++ (rest ++ ')' :: after)))) :
    ∃ read before' rest', nameAndTypeParams (limit + 1) parser =
        (nameAndTypeParams limit (between before' (rest' ++ ')' :: after))).map (read :: ·) ∧
      FieldReadAs field read ∧ Following texts rest' := by
  have notClosing : (between before (text ++ (rest ++ ')' :: after))).current ≠ ')' :=
    (isField.startsName isHex).notClosing
  cases isField with
  | @mk hex type blanks blanks' areBlank areBlank' =>
    obtain ⟨name, isName, -⟩ := isHex.result
    -- the hex digits
    have split : hex ++ (blanks ++ ':' :: (blanks' ++ type)) ++ (rest ++ ')' :: after) =
        hex ++ (blanks ++ ':' :: (blanks' ++ (type ++ (rest ++ ')' :: after)))) := by
      simp
    rw [split] at skipped notClosing
    have readHex : readNextIdentifier (between before
        (hex ++ (blanks ++ ':' :: (blanks' ++ (type ++ (rest ++ ')' :: after)))))) =
          (hex, between (before ++ hex)
            (blanks ++ ':' :: (blanks' ++ (type ++ (rest ++ ')' :: after))))) := by
      rw [readNextIdentifier, rest_between,
        takeWhile_append_stop isHex.identifier.2 (stops_blanks areBlank (by decide)),
        advance_between]
    -- the colon with its blanks
    have toColon : (between (before ++ hex)
        (blanks ++ ':' :: (blanks' ++ (type ++ (rest ++ ')' :: after))))).skipBlank =
          between (before ++ hex ++ blanks)
            (':' :: (blanks' ++ (type ++ (rest ++ ')' :: after)))) :=
      skipBlank_blanks areBlank (by rintro c ⟨⟩; decide)
    have toType : (between (before ++ hex ++ blanks ++ [':'])
        (blanks' ++ (type ++ (rest ++ ')' :: after)))).skipBlank =
          between (before ++ hex ++ blanks ++ [':'] ++ blanks')
            (type ++ (rest ++ ')' :: after)) :=
      skipBlank_blanks areBlank' isCall.startsName.notBlank
    -- the type
    obtain ⟨read, before', rest', readType, readAs, following'⟩ :=
      @readOne_between (before ++ hex ++ blanks ++ [':'] ++ blanks') after type rest texts []
        isBlanks_nil isCall following
    rw [nil_append] at readType
    refine ⟨(name, read), before', rest', ?_, ⟨isName, readAs.1⟩, following'⟩
    rw [nameAndTypeParams, skipped]
    simp only [if_neg notClosing, readHex, isName, toColon, current_between, skip_between, toType,
      readType, ne_eq, not_true, if_false, bind_eq_bind, bind_some]
    cases nameAndTypeParams limit (between before' (rest' ++ ')' :: after)) <;> rfl

/-- The fields up to the closing parenthesis. -/
theorem nameAndTypeParams_listed {fields : List (List Char × List Char)}
    (areFields : List.Forall₂ IsField fields texts) (listed : Listed texts rest)
    (each : ∀ field ∈ fields, IsHexName field.1 ∧ IsCall field.2) (enough : texts.length < limit) :
    ∃ reads, nameAndTypeParams limit (between before (rest ++ ')' :: after)) = some reads ∧
      List.Forall₂ FieldReadAs fields reads := by
  induction areFields generalizing limit before rest with
  | nil =>
    obtain ⟨limit, rfl⟩ : ∃ smaller, limit = smaller + 1 := ⟨limit - 1, by omega⟩
    refine ⟨[], ?_, .nil⟩
    rw [nameAndTypeParams, skipBlankAndComma_blanks listed.isBlanks (by decide) (by decide)]
    simp
  | @cons field text fields texts isField _ ih =>
    obtain ⟨limit, rfl⟩ : ∃ smaller, limit = smaller + 1 := ⟨limit - 1, by omega⟩
    obtain ⟨⟨isHex, isCall⟩, others⟩ := forall_mem_cons.mp each
    obtain ⟨before', rest', skipped, following⟩ :=
      listed.skipBlankAndComma (isField.startsName isHex) before after
    obtain ⟨read, before'', rest'', round, readAs, following⟩ :=
      @nameAndTypeParams_cons before' after text rest' texts limit _ field isField isHex isCall
        following skipped
    obtain ⟨reads, later, readAll⟩ := ih (.inr following) others (Nat.lt_of_succ_lt_succ enough)
    exact ⟨read :: reads, by rw [round, later, map_some], .cons readAs readAll⟩

/-- To skip blanks and the comma before the loop makes no difference. -/
theorem nameAndTypeParams_skipBlankAndComma {fields : List (List Char × List Char)}
    (areFields : List.Forall₂ IsField fields texts) (following : Following texts rest)
    (each : ∀ field ∈ fields, IsHexName field.1 ∧ IsCall field.2) :
    nameAndTypeParams limit (between before (rest ++ ')' :: after)).skipBlankAndComma.2 =
      nameAndTypeParams limit (between before (rest ++ ')' :: after)) := by
  have again : (between before (rest ++ ')' :: after)).skipBlankAndComma.2.skipBlankAndComma =
      (between before (rest ++ ')' :: after)).skipBlankAndComma := by
    cases areFields with
    | nil =>
      cases following with
      | nil areBlank =>
        rw [skipBlankAndComma_blanks areBlank (by decide) (by decide)]
        exact skipBlankAndComma_here (by decide) (by decide)
    | @cons field text fields texts isField _ =>
      have starts := isField.startsName (each field mem_cons_self).1
      obtain ⟨before', rest', skipped, -⟩ := following.skipBlankAndComma starts before after
      rw [skipped]
      exact starts.skipBlankAndComma
  cases limit with
  | zero => rfl
  | succ limit => rw [nameAndTypeParams, nameAndTypeParams, again]

end DseDriver.Cql.DataTypeClassNameParser
