import DseDriver.Cql.CqlNameParser

/-!
# How deep the parser of CQL types nests

`DataTypeCqlNameParser::parse` calls itself for the parameters that it has cut out of a text, which
are shorter than the text.
-/

namespace DseDriver.Cql.DataTypeCqlNameParser

open Lib List

/-- The texts of the parts of a type. -/
def Shape.parts : Shape → List (List Char)
  | collection _ params | tuple params => params
  | _ => []

/-! ## The lengths of what is read -/

theorem rest_advance (parser : ParserBase) (count : Nat) :
    (parser.advance count).rest = parser.rest.drop count := by
  simp [ParserBase.rest, ParserBase.advance, Nat.add_comm]

/-- A part of the text that is taken leaves the rest behind it. -/
theorem length_take_advance (parser : ParserBase) (count : Nat) :
    (parser.rest.take count).length + (parser.advance count).rest.length ≤ parser.rest.length := by
  rw [rest_advance, length_take, length_drop]
  omega

theorem length_rest_advance (parser : ParserBase) (count : Nat) :
    (parser.advance count).rest.length ≤ parser.rest.length := by
  have taken := length_take_advance parser count
  omega

theorem length_skipBlankAndComma (parser : ParserBase) :
    parser.skipBlankAndComma.2.rest.length ≤ parser.rest.length :=
  length_rest_advance ..

theorem length_parseTypeName (parser : ParserBase) :
    (parseTypeName parser).1.length + (parseTypeName parser).2.rest.length ≤
      parser.rest.length := by
  have skipped := length_rest_advance parser (parser.rest.takeWhile isBlank).length
  exact Nat.le_trans (length_take_advance parser.skipBlank _) skipped

theorem length_readRawTypeParameters {parser after : ParserBase} {args : List Char}
    (read : readRawTypeParameters parser = some (args, after)) :
    args.length + after.rest.length ≤ parser.rest.length := by
  have skipped := length_rest_advance parser (parser.rest.takeWhile isBlank).length
  rw [readRawTypeParameters] at read
  split at read
  · cases read
    exact Nat.le_trans (Nat.le_of_eq (Nat.zero_add _)) skipped
  · split at read
    · cases read
    · obtain ⟨length, -, same⟩ := Option.map_eq_some_iff.mp read
      cases same
      exact Nat.le_trans (length_take_advance parser.skipBlank _) skipped

theorem length_le_of_mem_typeParameters {limit : Nat} {parser : ParserBase} {text : List Char}
    (member : text ∈ typeParameters limit parser) : text.length ≤ parser.rest.length := by
  induction limit generalizing parser with
  | zero => cases member
  | succ limit ih =>
    have skipped := length_skipBlankAndComma parser
    rw [typeParameters] at member
    rcases moves : parser.skipBlankAndComma with ⟨found, moved⟩
    rw [moves] at skipped member
    have named := length_parseTypeName moved
    rcases names : parseTypeName moved with ⟨name, after⟩
    rw [names] at named
    cases found with
    | false => cases member
    | true =>
      simp only [names] at member
      split at member
      next => cases member
      next =>
        rcases reads : readRawTypeParameters after with _ | ⟨args, last⟩
        · simp [reads] at member
        · have read := length_readRawTypeParameters reads
          rw [reads, mem_cons] at member
          rcases member with rfl | later
          · rw [length_append]
            dsimp only at named skipped
            omega
          · have := ih later
            dsimp only at named skipped
            omega

theorem length_lt_of_mem_parameters {parser : ParserBase} {text : List Char}
    (member : text ∈ parseTypeParameters parser) : text.length < parser.rest.length := by
  rw [parseTypeParameters] at member
  have skipped := length_skipBlankAndComma parser
  rcases moves : parser.skipBlankAndComma with ⟨found, moved⟩
  simp only [moves] at skipped member
  split at member
  next => cases member
  next =>
    split at member
    next => cases member
    next opens =>
      have within := length_le_of_mem_typeParameters member
      have nonempty : moved.rest ≠ [] := by
        intro empty
        have ended := drop_eq_nil_iff.mp empty
        simp [ParserBase.current, getD_eq_getElem?_getD, getElem?_eq_none ended] at opens
      have positive := length_pos_iff.mpr nonempty
      rw [ParserBase.skip, rest_advance, length_drop] at within
      omega

/-- The texts that are parsed for a type. -/
def Shape.texts : Shape → List (List Char)
  | frozen param => [param]
  | shape => shape.parts

theorem texts_subset (type : List Char) : (shapeOf type).texts ⊆
    parseTypeParameters (parseTypeName { str := type, index := 0 }).2 := by
  rw [shapeOf]
  rcases parseTypeName { str := type, index := 0 } with ⟨typeName, parser⟩
  dsimp only
  unfold shapeNamed
  cases SimpleDataTypeCache.byCql typeName with
  | some simpleType => exact nil_subset _
  | none =>
    repeat' split
    all_goals first | exact nil_subset _ | exact List.Subset.refl _ | simp_all [Shape.texts]

/-- They are shorter than the text of the type. -/
theorem length_lt_of_mem_texts {type text : List Char} (member : text ∈ (shapeOf type).texts) :
    text.length < type.length := by
  have less := length_lt_of_mem_parameters (texts_subset type member)
  have named := length_parseTypeName { str := type, index := 0 }
  simp only [ParserBase.rest, drop_zero] at less named
  omega

/-! ## The limit on the nesting -/

end DseDriver.Cql.DataTypeCqlNameParser
