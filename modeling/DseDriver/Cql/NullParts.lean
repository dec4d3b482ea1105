import DseDriver.Cql.TypeGrammar

/-!
# Null parts of parsed types

`DataTypeCqlNameParser::parse` puts the types of the parameters into a collection or a tuple
without a look at them, so that a parameter that is no type is a null pointer in a type that is
none itself.
-/

namespace DseDriver.Cql.DataTypeCqlNameParser

open List

/-- A parameter of a collection or a tuple in the text, at some depth, does not start like a type. -/
inductive BadPart : List Char → Prop where
  | here {text name separator tail param : List Char} {params : List (List Char)}
      (opens : Opens text name separator tail) (cut : Cut tail params)
      (arity : Arity name params.length) (member : param ∈ params) (bad : ¬ Lax param) :
      BadPart text
  | inside {text name separator tail param : List Char} {params : List (List Char)}
      (opens : Opens text name separator tail) (cut : Cut tail params)
      (arity : Arity name params.length) (member : param ∈ params) (bad : BadPart param) :
      BadPart text
  | frozen {text name separator tail param : List Char} (opens : Opens text name separator tail)
      (cut : Cut tail [param]) (isFrozen : iequals name "frozen".toList) (bad : BadPart param) :
      BadPart text

theorem badPart_iff (text : List Char) :
    BadPart text ↔ (∃ params, (shapeOf text).HasParts params ∧
        ∃ param ∈ params, ¬ Lax param ∨ BadPart param) ∨
      ∃ param, shapeOf text = .frozen param ∧ BadPart param := by
  constructor
  · intro bad
    cases bad with
    | here opens cut arity member bad =>
      exact .inl ⟨_, opens.shapeOf arity.isKeyword cut ▸ shapeNamed_arity arity, _, member, .inl bad⟩
    | inside opens cut arity member bad =>
      exact .inl ⟨_, opens.shapeOf arity.isKeyword cut ▸ shapeNamed_arity arity, _, member, .inr bad⟩
    | frozen opens cut isFrozen bad =>
      have shape := opens.shapeOf (.of_frozen isFrozen) cut
      exact .inr ⟨_, shape.trans (shapeNamed_frozen isFrozen _), bad⟩
  · intro bad
    rcases shapeOf_cases text with shape | ⟨shape, -⟩ |
      ⟨name, separator, tail, params, opens, cut, ⟨arity, shape⟩ | ⟨isFrozen, param, rfl, shape⟩⟩
    · simp [shape, Shape.HasParts] at bad
    · cases isShape : shapeOf text <;> simp [isShape, Shape.HasParts, Shape.IsLeaf] at bad shape
    · cases isShape : shapeOf text with
      | collection | tuple =>
        simp only [isShape, Shape.HasParts, exists_eq_left', reduceCtorEq, false_and,
          exists_false, or_false] at bad shape
        subst shape
        obtain ⟨param, member, bad | bad⟩ := bad
        · exact .here opens cut arity member bad
        · exact .inside opens cut arity member bad
      | _ => simp [isShape, Shape.HasParts] at shape
    · simp only [shape, Shape.HasParts, false_and, exists_false, Shape.frozen.injEq,
        exists_eq_left', false_or] at bad
      exact .frozen opens cut isFrozen bad

section Results

variable {α β σ : Type}

/-- What each call gives, whatever the state, holds of the results of a list of calls. -/
theorem forall₂_mapM {call : α → StateM σ β} {relation : α → β → Prop} {items : List α}
    (each : ∀ item ∈ items, ∀ state, relation item ((call item).run state).1) (state : σ) :
    List.Forall₂ relation items ((items.mapM call).run state).1 := by
  induction items generalizing state with
  | nil => exact .nil
  | cons item items ih =>
    obtain ⟨first, others⟩ := forall_mem_cons.mp each
    rw [mapM_cons]
    exact .cons (first state) (ih others _)

theorem forall_iff_of_forall₂ {good : α → Prop} {good' : β → Prop} {items : List α}
    {results : List β}
    (related : List.Forall₂ (fun item result => good' result ↔ good item) items results) :
    (∀ result ∈ results, good' result) ↔ ∀ item ∈ items, good item := by
  induction related with
  | nil => simp
  | cons head _ ih => rw [forall_mem_cons, forall_mem_cons, head, ih]

end Results

theorem BadPart.lax {text : List Char} (bad : BadPart text) : Lax text := by
  induction bad with
  | here opens cut arity | inside opens cut arity => exact .composite opens cut arity
  | frozen opens cut isFrozen _ inner => exact .frozen opens cut isFrozen inner

/-- A type has no null pointer iff the text and all parts, at any depth, start like types. -/
theorem parseWithin_isComplete_iff {limit : Nat} {type : List Char} (enough : type.length < limit)
    (isFrozen : Bool) (keyspace : KeyspaceTypes) :
    ((parseWithin limit type isFrozen).run keyspace).1.IsComplete ↔ Lax type ∧ ¬ BadPart type := by
  induction limit generalizing type isFrozen keyspace with
  | zero => omega
  | succ limit ih =>
    have shorter : ∀ text ∈ (shapeOf type).texts, text.length < limit := by
      intro text member
      have less := length_lt_of_mem_texts member
      omega
    have each {params : List (List Char)} (within : ∀ param ∈ params, param.length < limit) :=
      forall_iff_of_forall₂ (forall₂_mapM
        (fun param member keyspace => ih (within param member) false keyspace) keyspace)
    rw [parseWithin, lax_iff, badPart_iff]
    cases shape : shapeOf type with
    | frozen param =>
      rw [shape] at shorter
      rw [ih (shorter param (mem_singleton_self param)) true keyspace]
      simp [Shape.IsLeaf, Shape.HasParts]
    | rejected =>
      exact iff_of_false TypeRef.not_isComplete_nil (by simp [Shape.IsLeaf, Shape.HasParts])
    | collection kind params =>
      rw [shape] at shorter
      refine (TypeRef.isComplete_collection ..).trans ((each shorter).trans ?_)
      simp [Shape.IsLeaf, Shape.HasParts, Shape.texts, Shape.parts]
    | tuple params =>
      rw [shape] at shorter
      refine (TypeRef.isComplete_tuple ..).trans ((each shorter).trans ?_)
      simp [Shape.IsLeaf, Shape.HasParts, Shape.texts, Shape.parts]
    | userType typeName =>
      have complete := TypeRef.isComplete_ofDataType
        ((userTypeNamed typeName isFrozen).run keyspace).1
      exact iff_of_true complete ⟨.inl trivial, by simp [Shape.HasParts]⟩
    | simple simpleType =>
      exact iff_of_true (TypeRef.isComplete_simple _) ⟨.inl trivial, by simp [Shape.HasParts]⟩
    | custom className =>
      exact iff_of_true (TypeRef.isComplete_custom _) ⟨.inl trivial, by simp [Shape.HasParts]⟩

/-- For every text and every keyspace: a type that is not null has no null part iff every parameter
of a collection or a tuple in the text, at any depth, starts like a type. -/
theorem parse_isComplete_iff (type : List Char) (keyspace : KeyspaceTypes) :
    (((parse type).run keyspace).1.isNil = false → ((parse type).run keyspace).1.IsComplete) ↔
      ¬ BadPart type := by
  have enough := Nat.lt_succ_self type.length
  rw [parse, parseWithin_isNil_iff enough, parseWithin_isComplete_iff enough]
  constructor
  · exact fun holds bad => (holds bad.lax).2 bad
  · exact fun noBad lax => ⟨lax, noBad⟩

/-- The parameter of the list has one parameter too few. -/
theorem parse_list_of_map :
    ¬ (((parse "list<map<int>>".toList).run ⟨"ks", ∅⟩).1.isNil = false →
      ((parse "list<map<int>>".toList).run ⟨"ks", ∅⟩).1.IsComplete) := by
  decide +kernel

end DseDriver.Cql.DataTypeCqlNameParser
