import DseDriver.Cql.Nesting
import Mathlib.Data.List.TakeWhile

/-!
# What the parser of CQL types accepts

The grammar of CQL types, and the laxer one whose texts `DataTypeCqlNameParser::parse` accepts.
The parser does not look at what follows a name or a closing bracket, does not ask for the
closing bracket, and takes what it has cut out so far when it cannot read on.
-/

namespace DseDriver.Cql.DataTypeCqlNameParser

open Lib List ParserBase
open ParserBase (IsBlanks)

/-! ## The grammar -/

/-- The number of parameters of a composite type. -/
def Arity (keyword : List Char) (count : Nat) : Prop :=
  (iequals keyword "list".toList ∨ iequals keyword "set".toList) ∧ count = 1 ∨
    iequals keyword "map".toList ∧ count = 2 ∨ iequals keyword "tuple".toList ∧ 0 < count

theorem Arity.pos {keyword : List Char} {count : Nat} (arity : Arity keyword count) :
    0 < count := by
  rcases arity with ⟨-, rfl⟩ | ⟨-, rfl⟩ | ⟨-, positive⟩
  · exact Nat.one_pos
  · exact Nat.two_pos
  · exact positive

/-- The name of a composite type. -/
def IsKeyword (name : List Char) : Prop :=
  iequals name "list".toList ∨ iequals name "set".toList ∨ iequals name "map".toList ∨
    iequals name "tuple".toList ∨ iequals name "frozen".toList

theorem IsKeyword.of_frozen {name : List Char} (isFrozen : iequals name "frozen".toList = true) :
    IsKeyword name :=
  .inr (.inr (.inr (.inr isFrozen)))

theorem Arity.isKeyword {keyword : List Char} {count : Nat} (arity : Arity keyword count) :
    IsKeyword keyword := by
  rcases arity with ⟨isList | isSet, -⟩ | ⟨isMap, -⟩ | ⟨isTuple, -⟩
  · exact .inl isList
  · exact .inr (.inl isSet)
  · exact .inr (.inr (.inl isMap))
  · exact .inr (.inr (.inr (.inl isTuple)))

/-- How far the name at the start of a text goes. -/
def nameLength (text : List Char) : Nat :=
  if text.headD (Char.ofNat 0) = doubleQuote then quotedLength (text.drop 1) + 1
  else if text.headD (Char.ofNat 0) = singleQuote then singleQuotedLength (text.drop 1) + 1
  else (text.takeWhile fun c => isIdentifierChar c || c = doubleQuote).length

/-- The name at the start of a text. -/
def nameOf (text : List Char) : List Char :=
  text.take (nameLength text)

/-- Blanks with at most one comma among them, as far as they go. -/
def Separates (separator rest : List Char) : Prop :=
  (IsBlanks separator ∧ rest.head? ≠ some ',' ∨ ∃ blanks blanks', IsBlanks blanks ∧
    IsBlanks blanks' ∧ separator = blanks ++ ',' :: blanks') ∧ ∀ c ∈ rest.head?, isBlank c = false

/-- A parameter starts behind a separator. -/
def Starts (separator rest : List Char) : Prop :=
  Separates separator rest ∧ ∃ c ∈ rest.head?, c ≠ '>'

/-- The parameters that are cut out of the text behind an opening bracket. -/
inductive Cut : List Char → List (List Char) → Prop where
  /-- The text ends without a closing bracket. -/
  | ends {separator : List Char} (skipped : Separates separator []) : Cut separator []
  /-- What follows the closing bracket is not looked at. -/
  | closed {separator rest : List Char} (skipped : Separates separator ('>' :: rest)) :
      Cut (separator ++ '>' :: rest) []
  /-- Neither is what cannot be read: a character that does not end a parameter, or a bracket
  without a closing one. -/
  | stuck {separator name blanks rest : List Char} {c : Char}
      (starts : Starts separator (name ++ (blanks ++ c :: rest)))
      (named : nameOf (name ++ (blanks ++ c :: rest)) = name) (blank : IsBlanks blanks)
      (other : isBlank c = false ∧ c ≠ '>' ∧ c ≠ ',' ∧
        (c = '<' → closingLength false 1 rest = none)) :
      Cut (separator ++ (name ++ (blanks ++ c :: rest))) []
  /-- A parameter that is a name. -/
  | name {separator name blanks rest : List Char} {params : List (List Char)}
      (starts : Starts separator (name ++ (blanks ++ rest)))
      (named : nameOf (name ++ (blanks ++ rest)) = name)
      (blank : IsBlanks blanks) (stops : ∀ c ∈ rest.head?, c = '>' ∨ c = ',')
      (others : Cut rest params) :
      Cut (separator ++ (name ++ (blanks ++ rest))) (name :: params)
  /-- A parameter with a bracket and the one that closes it. -/
  | bracketed {separator name blanks inner rest : List Char} {params : List (List Char)}
      (starts : Starts separator (name ++ (blanks ++ '<' :: (inner ++ rest))))
      (named : nameOf (name ++ (blanks ++ '<' :: (inner ++ rest))) = name)
      (blank : IsBlanks blanks) (closes : closingLength false 1 (inner ++ rest) = some inner.length)
      (others : Cut rest params) :
      Cut (separator ++ (name ++ (blanks ++ '<' :: (inner ++ rest))))
        ((name ++ '<' :: inner) :: params)

/-- The text is, behind blanks, a name, a separator, an opening bracket and what is behind it. -/
def Opens (text name separator tail : List Char) : Prop :=
  ∃ before, IsBlanks before ∧ text = before ++ (name ++ (separator ++ '<' :: tail)) ∧
    nameOf (name ++ (separator ++ '<' :: tail)) = name ∧ Separates separator ('<' :: tail)

/-- A text that starts like a type: behind its name, or behind an opening bracket and the right
number of parameters, anything may follow. -/
inductive Lax : List Char → Prop where
  | name {before text : List Char} (blank : IsBlanks before) (named : nameOf text ≠ [])
      (plain : ¬ IsKeyword (nameOf text)) : Lax (before ++ text)
  | composite {text name separator tail : List Char} {params : List (List Char)}
      (opens : Opens text name separator tail) (cut : Cut tail params)
      (arity : Arity name params.length) : Lax text
  | frozen {text name separator tail param : List Char} (opens : Opens text name separator tail)
      (cut : Cut tail [param]) (isFrozen : iequals name "frozen".toList) (inner : Lax param) :
      Lax text

/-! ## Reading a text -/

theorem current_eq (parser : ParserBase) :
    parser.current = parser.rest.headD (Char.ofNat 0) := by
  rw [ParserBase.current, ParserBase.rest, headD_eq_head?_getD, head?_drop,
    getD_eq_getElem?_getD]

theorem isEos_eq (parser : ParserBase) : parser.isEos = decide (parser.rest = []) := by
  rw [ParserBase.isEos, ParserBase.rest, decide_eq_decide, drop_eq_nil_iff]

/-- Every text starts with blanks. -/
theorem exists_blanks (text : List Char) :
    ∃ blanks rest, text = blanks ++ rest ∧ IsBlanks blanks ∧
      ∀ c ∈ rest.head?, isBlank c = false := by
  refine ⟨text.takeWhile isBlank, text.dropWhile isBlank, takeWhile_append_dropWhile.symm,
    fun c member => mem_takeWhile_imp member, fun c isHead => ?_⟩
  have stops := head?_dropWhile_not isBlank text
  rw [isHead] at stops
  simpa using stops

theorem exists_separates (text : List Char) :
    ∃ separator rest, text = separator ++ rest ∧ Separates separator rest := by
  obtain ⟨blanks, rest, rfl, areBlank, stops⟩ := exists_blanks text
  by_cases comma : rest.head? = some ','
  · obtain ⟨rest, rfl⟩ := head?_eq_some_iff.mp comma
    obtain ⟨blanks', rest, rfl, areBlank', stops'⟩ := exists_blanks rest
    exact ⟨blanks ++ ',' :: blanks', rest, by simp, .inr ⟨_, _, areBlank, areBlank', rfl⟩, stops'⟩
  · exact ⟨blanks, rest, rfl, .inl ⟨areBlank, comma⟩, stops⟩

/-- `skip_blank_and_comma` stops in front of a character. -/
theorem blanksAndComma_stops {commaFound : Bool} {rest : List Char}
    (stops : ∀ c ∈ rest.head?, isBlank c = false)
    (comma : commaFound = true ∨ rest.head? ≠ some ',') :
    ParserBase.blanksAndComma commaFound rest = (0, decide (rest ≠ [])) := by
  cases rest with
  | nil => rfl
  | cons c rest =>
    rw [ParserBase.blanksAndComma]
    rcases comma with rfl | notComma
    · by_cases isComma : c = ',' <;> simp [isComma, stops c rfl]
    · rw [if_neg (by simpa using notComma)]
      simp [stops c rfl]

theorem Separates.blanksAndComma {separator rest : List Char}
    (separates : Separates separator rest) :
    ParserBase.blanksAndComma false (separator ++ rest) =
      (separator.length, decide (rest ≠ [])) := by
  obtain ⟨⟨areBlank, notComma⟩ | ⟨blanks, blanks', areBlank, areBlank', rfl⟩, stops⟩ := separates
  · rw [blanksAndComma_blanks areBlank, blanksAndComma_stops stops (.inr notComma)]
    simp
  · rw [append_assoc, blanksAndComma_blanks areBlank, cons_append,
      ParserBase.blanksAndComma, blanksAndComma_blanks areBlank',
      blanksAndComma_stops stops (.inl rfl)]
    simp [Nat.add_comm]

/-- The loop of `skip_blank_and_comma` skips a separator. -/
theorem Separates.skip {separator rest : List Char} (separates : Separates separator rest)
    {parser : ParserBase} (split : parser.rest = separator ++ rest) :
    ∃ moved : ParserBase, parser.skipBlankAndComma = (decide (rest ≠ []), moved) ∧
      moved.rest = rest ∧ moved.str = parser.str := by
  refine ⟨parser.advance separator.length, ?_, ?_, rfl⟩
  · rw [ParserBase.skipBlankAndComma, split, separates.blanksAndComma]
  · rw [rest_advance, split, drop_left]

theorem rest_skipBlank {parser : ParserBase} {blanks rest : List Char}
    (split : parser.rest = blanks ++ rest) (areBlank : IsBlanks blanks)
    (stops : ∀ c ∈ rest.head?, isBlank c = false) : parser.skipBlank.rest = rest := by
  rw [ParserBase.skipBlank, rest_advance, split, takeWhile_append_stop areBlank stops,
    drop_left]

/-- The name behind blanks. -/
theorem parseTypeName_of {parser : ParserBase} {blanks name rest : List Char}
    (split : parser.rest = blanks ++ (name ++ rest)) (areBlank : IsBlanks blanks)
    (stops : ∀ c ∈ (name ++ rest).head?, isBlank c = false) (named : nameOf (name ++ rest) = name) :
    ∃ after : ParserBase, parseTypeName parser = (name, after) ∧ after.rest = rest := by
  have behind := rest_skipBlank split areBlank stops
  have reads : parseTypeName parser = (nameOf (name ++ rest),
      parser.skipBlank.advance (nameLength (name ++ rest))) := by
    rw [parseTypeName, readNextIdentifier, current_eq, behind]
    rfl
  refine ⟨_, reads.trans (by rw [named]), ?_⟩
  have whole : nameOf (name ++ rest) ++ (name ++ rest).drop (nameLength (name ++ rest)) =
      name ++ rest := take_append_drop _ _
  rw [named] at whole
  rw [rest_advance, behind]
  exact append_cancel_left whole

theorem closingLength_le {inQuotes : Bool} {opened length : Nat} {text : List Char}
    (closes : closingLength inQuotes opened text = some length) : length ≤ text.length := by
  induction text generalizing inQuotes opened length with
  | nil => cases closes
  | cons c text ih =>
    rw [closingLength] at closes
    dsimp only at closes
    generalize (if !inQuotes then _ else _ : Bool × Nat) = next at closes
    obtain ⟨inQuotes', opened'⟩ := next
    dsimp only at closes
    split at closes
    · obtain ⟨shorter, inner, rfl⟩ := Option.map_eq_some_iff.mp closes
      exact Nat.succ_le_succ (ih inner)
    · cases closes
      exact Nat.succ_le_succ (Nat.zero_le _)

section Brackets

variable {parser : ParserBase} {blanks rest : List Char} (split : parser.rest = blanks ++ rest)
  (areBlank : IsBlanks blanks)
include split areBlank

theorem readRawTypeParameters_ends (stops : ∀ c ∈ rest.head?, c = '>' ∨ c = ',') :
    ∃ after, readRawTypeParameters parser = some ([], after) ∧ after.rest = rest := by
  have behind := rest_skipBlank split areBlank (by
    intro c isHead
    rcases stops c isHead with rfl | rfl <;> rfl)
  refine ⟨parser.skipBlank, ?_, behind⟩
  rw [readRawTypeParameters]
  simp only [isEos_eq, current_eq, behind]
  rw [if_pos]
  cases rest with
  | nil => exact .inl (by simp)
  | cons c rest => exact .inr (stops c rfl)

variable {c : Char} {others : List Char} (isRest : rest = c :: others)
include isRest

theorem readRawTypeParameters_stuck (other : isBlank c = false ∧ c ≠ '>' ∧ c ≠ ',' ∧
      (c = '<' → closingLength false 1 others = none)) : readRawTypeParameters parser = none := by
  subst isRest
  have behind := rest_skipBlank split areBlank (by simpa using other.1)
  rw [readRawTypeParameters]
  simp only [isEos_eq, current_eq, behind]
  rw [if_neg (by simp [other.2.1, other.2.2.1])]
  by_cases opens : c = '<'
  · rw [if_neg (by simp [opens]), drop_one, tail_cons, other.2.2.2 opens]
    rfl
  · rw [if_pos (by simpa using opens)]

theorem readRawTypeParameters_closes {inner last : List Char} (opens : c = '<')
    (isOthers : others = inner ++ last)
    (closes : closingLength false 1 (inner ++ last) = some inner.length) :
    ∃ after, readRawTypeParameters parser = some ('<' :: inner, after) ∧ after.rest = last := by
  subst isRest opens isOthers
  have behind := rest_skipBlank split areBlank (by simp; decide)
  refine ⟨parser.skipBlank.advance (inner.length + 1), ?_, ?_⟩
  · rw [readRawTypeParameters]
    simp only [isEos_eq, current_eq, behind]
    rw [if_neg (by simp), if_neg (by simp), drop_one, tail_cons, closes]
    simp
  · rw [rest_advance, behind, drop_succ_cons, drop_left]

end Brackets

/-! ## Cutting out the parameters -/

/-- A round of `parse_type_parameters` that has found a parameter has moved on. -/
theorem Starts.length_lt {separator name blanks rest : List Char}
    (starts : Starts separator (name ++ (blanks ++ rest)))
    (stops : ∀ c ∈ rest.head?, c = '>' ∨ c = ',') :
    rest.length < (separator ++ (name ++ (blanks ++ rest))).length := by
  obtain ⟨⟨separates, -⟩, c, isHead, opened⟩ := starts
  by_cases moved : separator = [] ∧ name = [] ∧ blanks = []
  · obtain ⟨rfl, rfl, rfl⟩ := moved
    rw [nil_append, nil_append] at separates isHead
    rcases stops c isHead with rfl | rfl
    · exact absurd rfl opened
    · rcases separates with ⟨-, notComma⟩ | ⟨blanks, blanks', -, -, nonempty⟩
      · exact absurd isHead notComma
      · simp at nonempty
  · simp only [← length_eq_zero_iff] at moved
    simp only [length_append]
    omega

/-- The start of a round of `parse_type_parameters` that finds a parameter. -/
theorem Starts.round {separator name tail : List Char} (starts : Starts separator (name ++ tail))
    (named : nameOf (name ++ tail) = name) {parser : ParserBase} {limit : Nat}
    (isText : parser.rest = separator ++ (name ++ tail))
    (enough : (separator ++ (name ++ tail)).length < limit) :
    ∃ limit', limit = limit' + 1 ∧ ∃ after : ParserBase, after.rest = tail ∧
      typeParameters limit parser =
        match readRawTypeParameters after with
        | none => []
        | some (args, parser) => (name ++ args) :: typeParameters limit' parser := by
  obtain ⟨limit', rfl⟩ := Nat.exists_eq_add_of_lt (Nat.zero_lt_of_lt enough)
  obtain ⟨separates, c, isHead, opened⟩ := starts
  obtain ⟨moved, skips, behind, -⟩ := separates.skip isText
  obtain ⟨after, names, isTail⟩ := parseTypeName_of (behind.trans (nil_append _).symm)
    isBlanks_nil separates.2 named
  refine ⟨0 + limit', rfl, after, isTail, ?_⟩
  have nonempty : name ++ tail ≠ [] := by
    intro empty
    rw [empty] at isHead
    cases isHead
  have current : moved.current = c := by
    rw [current_eq, behind, headD_eq_head?_getD, isHead]
    rfl
  rw [typeParameters, skips, decide_eq_true nonempty]
  exact (if_neg (current ▸ opened)).trans (names ▸ rfl)

/-- Every text behind a bracket is cut somehow. -/
theorem exists_cut (text : List Char) : ∃ params, Cut text params := by
  induction size : text.length using Nat.strongRecOn generalizing text with
  | ind length ih =>
    subst size
    obtain ⟨separator, rest, rfl, separates⟩ := exists_separates text
    cases rest with
    | nil => exact ⟨[], by simpa using Cut.ends separates⟩
    | cons c others =>
      by_cases closes : c = '>'
      · subst closes
        exact ⟨[], .closed separates⟩
      have starts : Starts separator (c :: others) := ⟨separates, c, rfl, closes⟩
      obtain ⟨name, tail, named, split⟩ : ∃ name tail, nameOf (c :: others) = name ∧
          c :: others = name ++ tail := ⟨_, _, rfl, (take_append_drop _ _).symm⟩
      obtain ⟨blanks, last, rfl, areBlank, notBlank⟩ := exists_blanks tail
      rw [split] at starts named ih ⊢
      by_cases stops : ∀ c ∈ last.head?, c = '>' ∨ c = ','
      · obtain ⟨params, cut⟩ := ih _ (starts.length_lt stops) last rfl
        exact ⟨_, .name starts named areBlank stops cut⟩
      simp only [not_forall, not_or] at stops
      obtain ⟨next, isNext, notClosing, notComma⟩ := stops
      obtain ⟨last, rfl⟩ := head?_eq_some_iff.mp isNext
      by_cases closed : next = '<' ∧ closingLength false 1 last ≠ none
      · obtain ⟨rfl, closed⟩ := closed
        obtain ⟨length, closed⟩ := Option.ne_none_iff_exists'.mp closed
        have short := closingLength_le closed
        have whole := take_append_drop length last
        obtain ⟨params, cut⟩ := ih (last.drop length).length (by simp; omega) _ rfl
        rw [← whole] at starts named closed ⊢
        refine ⟨_, .bracketed starts named areBlank ?_ cut⟩
        rw [closed, length_take_of_le short]
      · refine ⟨[], .stuck starts named areBlank ⟨notBlank next rfl, notClosing, notComma, ?_⟩⟩
        intro opens
        by_contra open_
        exact closed ⟨opens, open_⟩

/-- The loop of `parse_type_parameters` cuts like that. -/
theorem typeParameters_of_cut {text : List Char} {params : List (List Char)} (cut : Cut text params)
    {limit : Nat} {parser : ParserBase} (isText : parser.rest = text)
    (enough : text.length < limit) : typeParameters limit parser = params := by
  induction cut generalizing limit parser with
  | ends separates =>
    obtain ⟨limit, rfl⟩ := Nat.exists_eq_add_of_lt (Nat.zero_lt_of_lt enough)
    obtain ⟨moved, skips, -⟩ := separates.skip (isText.trans (append_nil _).symm)
    rw [typeParameters, skips]
    rfl
  | closed separates =>
    obtain ⟨limit, rfl⟩ := Nat.exists_eq_add_of_lt (Nat.zero_lt_of_lt enough)
    obtain ⟨moved, skips, behind, -⟩ := separates.skip isText
    rw [typeParameters, skips]
    simp [current_eq, behind]
  | stuck starts named areBlank other =>
    obtain ⟨limit, rfl, after, behind, round⟩ := starts.round named isText enough
    rw [round, readRawTypeParameters_stuck behind areBlank rfl other]
  | name starts named areBlank stops others ih =>
    obtain ⟨limit, rfl, after, behind, round⟩ := starts.round named isText enough
    obtain ⟨last, reads, isLast⟩ := readRawTypeParameters_ends behind areBlank stops
    have shorter := starts.length_lt stops
    rw [round, reads]
    simp only [append_nil, @ih limit last isLast (by omega)]
  | bracketed starts named areBlank closes others ih =>
    obtain ⟨limit, rfl, after, behind, round⟩ := starts.round named isText enough
    obtain ⟨last, reads, isLast⟩ :=
      readRawTypeParameters_closes behind areBlank rfl rfl rfl closes
    simp only [length_append, length_cons] at enough
    rw [round, reads]
    simp only [@ih limit last isLast (by omega)]

theorem parseTypeParameters_of {parser : ParserBase} {separator tail : List Char}
    {params : List (List Char)} (split : parser.rest = separator ++ '<' :: tail)
    (separates : Separates separator ('<' :: tail)) (cut : Cut tail params) :
    parseTypeParameters parser = params := by
  obtain ⟨moved, skips, behind, same⟩ := separates.skip split
  have started : parser.isEos = false := by
    rw [isEos_eq, split]
    simp
  have isTail : moved.skip.rest = tail := by
    rw [ParserBase.skip, rest_advance, behind, drop_one, tail_cons]
  have lengths := congrArg List.length behind
  rw [ParserBase.rest, length_drop, length_cons] at lengths
  rw [parseTypeParameters, started, skips]
  simp only [current_eq, behind, headD_cons, ne_eq, not_true_eq_false, if_false,
    Bool.false_eq_true]
  exact typeParameters_of_cut cut isTail (by omega)

theorem exists_cut_of_parameters {parser : ParserBase} (found : parseTypeParameters parser ≠ []) :
    ∃ separator tail, parser.rest = separator ++ '<' :: tail ∧ Separates separator ('<' :: tail) ∧
      Cut tail (parseTypeParameters parser) := by
  obtain ⟨separator, rest, split, separates⟩ := exists_separates parser.rest
  by_cases opens : rest.head? = some '<'
  · obtain ⟨tail, rfl⟩ := head?_eq_some_iff.mp opens
    obtain ⟨params, cut⟩ := exists_cut tail
    refine ⟨separator, tail, split, separates, ?_⟩
    rwa [parseTypeParameters_of split separates cut]
  · obtain ⟨moved, skips, behind, -⟩ := separates.skip split
    have notOpen : moved.current ≠ '<' := by
      rw [current_eq, behind]
      cases rest with
      | nil => decide
      | cons c rest => simpa using opens
    rw [parseTypeParameters, skips] at found
    simp [notOpen] at found

/-! ## Shapes -/

theorem iequals_congr {name keyword : List Char} (same : iequals name keyword = true)
    (other : List Char) : iequals name other = iequals keyword other := by
  rw [iequals, decide_eq_true_eq] at same
  rw [iequals, same, iequals]

theorem byCql_congr {name keyword : List Char} (same : iequals name keyword = true) :
    SimpleDataTypeCache.byCql name = SimpleDataTypeCache.byCql keyword := by
  simp only [SimpleDataTypeCache.byCql, ValueTypes.byCql, ValueTypes.lookup, iequals_congr same]

/-- The shape of a type without parameters. -/
def Shape.IsLeaf : Shape → Prop
  | simple _ | custom _ | userType _ => True
  | _ => False

/-- The shape of a collection or a tuple. -/
def Shape.HasParts (params : List (List Char)) : Shape → Prop
  | collection _ params' | tuple params' => params' = params
  | _ => False

theorem shapeNamed_plain {name : List Char} (named : name ≠ []) (plain : ¬ IsKeyword name)
    (params : List (List Char)) : (shapeNamed name params).IsLeaf := by
  simp only [IsKeyword, not_or] at plain
  obtain ⟨notList, notSet, notMap, notTuple, notFrozen⟩ := plain
  unfold shapeNamed
  cases SimpleDataTypeCache.byCql name with
  | some simpleType => trivial
  | none =>
    simp only [if_neg notList, if_neg notSet, if_neg notMap, if_neg notTuple, if_neg notFrozen,
      if_neg named]
    repeat' split
    all_goals trivial

theorem shapeNamed_arity {name : List Char} {params : List (List Char)}
    (arity : Arity name params.length) : (shapeNamed name params).HasParts params := by
  unfold shapeNamed
  rcases arity with ⟨same | same, count⟩ | ⟨same, count⟩ | ⟨same, count⟩
  all_goals rw [byCql_congr same]; simp only [iequals_congr same]
  · simp [count, iequals]
    rfl
  · simp [count, iequals]
    rfl
  · simp [count, iequals]
    rfl
  · have nonempty : params ≠ [] := length_pos_iff.mp count
    simp [nonempty, iequals]
    rfl

theorem shapeNamed_frozen {name : List Char} (same : iequals name "frozen".toList = true)
    (param : List Char) : shapeNamed name [param] = .frozen param := by
  unfold shapeNamed
  rw [byCql_congr same]
  simp only [iequals_congr same]
  rfl

theorem shapeNamed_rejected {name : List Char} {params : List (List Char)}
    (arity : ¬ Arity name params.length)
    (frozen : ¬ (iequals name "frozen".toList = true ∧ ∃ param, params = [param]))
    (plain : ¬ (name ≠ [] ∧ ¬ IsKeyword name)) : shapeNamed name params = .rejected := by
  by_cases keyword : IsKeyword name
  · unfold shapeNamed
    rcases keyword with same | same | same | same | same
    all_goals rw [byCql_congr same]; simp only [iequals_congr same]
    · have count : params.length ≠ 1 := fun count => arity (.inl ⟨.inl same, count⟩)
      simp [count, iequals]
      rfl
    · have count : params.length ≠ 1 := fun count => arity (.inl ⟨.inr same, count⟩)
      simp [count, iequals]
      rfl
    · have count : params.length ≠ 2 := fun count => arity (.inr (.inl ⟨same, count⟩))
      simp [count, iequals]
      rfl
    · have empty : params = [] := by
        by_contra nonempty
        exact arity (.inr (.inr ⟨same, length_pos_iff.mpr nonempty⟩))
      rw [empty]
      rfl
    · match params with
      | [] | _ :: _ :: _ => rfl
      | [param] => exact absurd ⟨same, param, rfl⟩ frozen
  · obtain rfl : name = [] := by
      by_contra nonempty
      exact plain ⟨nonempty, keyword⟩
    rfl

/-- A name does not start with a blank. -/
theorem not_blank_of_nameOf {text : List Char} (named : nameOf text ≠ []) :
    ∀ c ∈ text.head?, isBlank c = false := by
  intro c isHead
  obtain ⟨text, rfl⟩ := head?_eq_some_iff.mp isHead
  by_contra blank
  simp only [isBlank, Bool.not_eq_false, decide_eq_true_eq] at blank
  rcases blank with rfl | rfl | rfl <;> exact named rfl

theorem exists_shapeOf {before text : List Char} (blank : IsBlanks before)
    (named : nameOf text ≠ []) :
    ∃ after : ParserBase, after.rest = text.drop (nameLength text) ∧
      shapeOf (before ++ text) = shapeNamed (nameOf text) (parseTypeParameters after) := by
  have whole : nameOf text ++ text.drop (nameLength text) = text := take_append_drop _ _
  have split : (ParserBase.mk (before ++ text) 0).rest =
      before ++ (nameOf text ++ text.drop (nameLength text)) := by
    rw [whole, ParserBase.rest, drop_zero]
  obtain ⟨after, names, behind⟩ := parseTypeName_of split blank
    (by rw [whole]; exact not_blank_of_nameOf named) (by rw [whole])
  exact ⟨after, behind, by rw [shapeOf, names]⟩

theorem ne_nil_of_isKeyword {name : List Char} (keyword : IsKeyword name) : name ≠ [] := by
  rintro rfl
  exact absurd keyword (by unfold IsKeyword; decide)

theorem Opens.shapeOf {text name separator tail : List Char} {params : List (List Char)}
    (opens : Opens text name separator tail) (keyword : IsKeyword name) (cut : Cut tail params) :
    shapeOf text = shapeNamed name params := by
  obtain ⟨before, blank, rfl, named, separates⟩ := opens
  have nonempty := ne_nil_of_isKeyword keyword
  obtain ⟨after, behind, shape⟩ := exists_shapeOf blank (named.trans_ne nonempty)
  have whole : nameOf (name ++ (separator ++ '<' :: tail)) ++ _ = _ := take_append_drop _ _
  rw [named] at shape whole
  rw [append_cancel_left whole] at behind
  rw [shape, parseTypeParameters_of behind separates cut]

/-- What `parse` finds in a text, by its shape. -/
theorem shapeOf_cases (text : List Char) :
    shapeOf text = .rejected ∨
      (shapeOf text).IsLeaf ∧ (∃ before rest, IsBlanks before ∧ text = before ++ rest ∧
        nameOf rest ≠ [] ∧ ¬ IsKeyword (nameOf rest)) ∨
      ∃ name separator tail params, Opens text name separator tail ∧ Cut tail params ∧
        (Arity name params.length ∧ (shapeOf text).HasParts params ∨
          iequals name "frozen".toList = true ∧
            ∃ param, params = [param] ∧ shapeOf text = .frozen param) := by
  obtain ⟨before, rest, rfl, blank, stops⟩ := exists_blanks text
  have whole : nameOf rest ++ rest.drop (nameLength rest) = rest := take_append_drop _ _
  have split : (ParserBase.mk (before ++ rest) 0).rest =
      before ++ (nameOf rest ++ rest.drop (nameLength rest)) := by
    rw [whole, ParserBase.rest, drop_zero]
  obtain ⟨after, names, behind⟩ := parseTypeName_of split blank (by rwa [whole]) (by rw [whole])
  have shape : shapeOf (before ++ rest) = shapeNamed (nameOf rest) (parseTypeParameters after) := by
    rw [shapeOf, names]
  have opens (found : parseTypeParameters after ≠ []) : ∃ separator tail,
      Opens (before ++ rest) (nameOf rest) separator tail ∧ Cut tail (parseTypeParameters after) := by
    obtain ⟨separator, tail, isRest, separates, cut⟩ := exists_cut_of_parameters found
    rw [behind] at isRest
    rw [isRest] at whole
    exact ⟨separator, tail, ⟨before, blank, by rw [whole], by rw [whole], separates⟩, cut⟩
  by_cases arity : Arity (nameOf rest) (parseTypeParameters after).length
  · obtain ⟨separator, tail, opens, cut⟩ := opens (length_pos_iff.mp arity.pos)
    exact .inr (.inr ⟨_, _, _, _, opens, cut, .inl ⟨arity, shape ▸ shapeNamed_arity arity⟩⟩)
  by_cases frozen : iequals (nameOf rest) "frozen".toList = true ∧
      ∃ param, parseTypeParameters after = [param]
  · obtain ⟨isFrozen, param, isParam⟩ := frozen
    obtain ⟨separator, tail, opens, cut⟩ := opens (by simp [isParam])
    rw [isParam] at shape cut
    exact .inr (.inr ⟨_, _, _, _, opens, cut, .inr ⟨isFrozen, param, rfl,
      shape.trans (shapeNamed_frozen isFrozen param)⟩⟩)
  by_cases plain : nameOf rest ≠ [] ∧ ¬ IsKeyword (nameOf rest)
  · exact .inr (.inl ⟨shape ▸ shapeNamed_plain plain.1 plain.2 _,
      before, rest, blank, rfl, plain.1, plain.2⟩)
  · exact .inl (shape.trans (shapeNamed_rejected arity frozen plain))

/-! ## Accepted texts -/

/-- A text starts like a type iff its shape is that of one. -/
theorem lax_iff (text : List Char) :
    Lax text ↔ (shapeOf text).IsLeaf ∨ (∃ params, (shapeOf text).HasParts params) ∨
      ∃ param, shapeOf text = .frozen param ∧ Lax param := by
  constructor
  · intro lax
    cases lax with
    | name blank named plain =>
      obtain ⟨after, -, shape⟩ := exists_shapeOf blank named
      exact .inl (shape ▸ shapeNamed_plain named plain _)
    | composite opens cut arity =>
      exact .inr (.inl ⟨_, opens.shapeOf arity.isKeyword cut ▸ shapeNamed_arity arity⟩)
    | frozen opens cut isFrozen inner =>
      have keyword := IsKeyword.of_frozen isFrozen
      exact .inr (.inr ⟨_, (opens.shapeOf keyword cut).trans (shapeNamed_frozen isFrozen _), inner⟩)
  · intro accepted
    rcases shapeOf_cases text with shape | ⟨-, before, rest, blank, rfl, named, plain⟩ |
      ⟨name, separator, tail, params, opens, cut, ⟨arity, -⟩ | ⟨isFrozen, param, rfl, shape⟩⟩
    · simp [shape, Shape.IsLeaf, Shape.HasParts] at accepted
    · exact .name blank named plain
    · exact .composite opens cut arity
    · simp only [shape, Shape.IsLeaf, Shape.HasParts, false_or, exists_false, Shape.frozen.injEq,
        exists_eq_left'] at accepted
      exact .frozen opens cut isFrozen accepted

/-- `parse` returns a type iff the text starts like one. -/
theorem parseWithin_isNil_iff {limit : Nat} {type : List Char} (enough : type.length < limit)
    (isFrozen : Bool) (keyspace : KeyspaceTypes) :
    ((parseWithin limit type isFrozen).run keyspace).1.isNil = false ↔ Lax type := by
  induction limit generalizing type isFrozen with
  | zero => omega
  | succ limit ih =>
    rw [parseWithin, lax_iff]
    cases shape : shapeOf type with
    | frozen param =>
      have shorter := length_lt_of_mem_texts (by rw [shape]; exact mem_singleton_self param)
      rw [ih (by omega) true]
      simp [Shape.IsLeaf, Shape.HasParts]
    | rejected =>
      simp only [Shape.IsLeaf, Shape.HasParts, exists_false, or_self, reduceCtorEq, false_and,
        iff_false]
      exact Bool.true_eq_false.mp
    | collection kind params => exact iff_of_true rfl (.inr (.inl ⟨params, rfl⟩))
    | tuple params => exact iff_of_true rfl (.inr (.inl ⟨params, rfl⟩))
    | userType typeName =>
      have complete := TypeRef.isComplete_ofDataType
        ((userTypeNamed typeName isFrozen).run keyspace).1
      exact iff_of_true (TypeRef.isComplete_ne_nil complete) (.inl trivial)
    | _ => exact iff_of_true rfl (.inl trivial)

/-! ## Texts that are accepted and are no types -/

end DseDriver.Cql.DataTypeCqlNameParser
