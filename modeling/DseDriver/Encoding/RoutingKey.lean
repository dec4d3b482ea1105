import DseDriver.Encoding.Layout

/-!
# Routing keys

`Statement::calculate_routing_key` joins the values of the partition key.  They are encoded with
the highest supported protocol version and put into the encoding cache of the request.
-/

namespace DseDriver.Cql

/-- `Element::is_null`. -/
def Element.isNull : Element → Bool
  | nul => true
  | _ => false

end DseDriver.Cql

namespace DseDriver.Encoding

open Lib Cql List Option

/-- What `get_routing_key` returns and leaves. -/
structure RoutingKeyResult where
  found : Bool
  routingKey : List UInt8
  cache : EncodingCache

/-- The bytes of a buffer behind its length; there are none in a shorter buffer. -/
def Buffer.content (buf : Buffer) : Option (List UInt8) :=
  if 4 ≤ buf.length then some (buf.drop 4) else none

/-- The first loop over the key indices: whether no component is null or unset.  The length that
it computes is only used to reserve memory. -/
def checkComponents (elements : List BoundElement) : List Nat → Option Bool
  | [] => some true
  | index :: keyIndices => do
    let bound ← elements[index]?
    if bound.element.isUnset || bound.element.isNull then
      return false
    checkComponents elements keyIndices

/-- The second loop over the key indices. -/
def appendComponents (elements : List BoundElement) :
    List Nat → List UInt8 → EncodingCache → Option (List UInt8 × EncodingCache)
  | [], routingKey, cache => some (routingKey, cache)
  | index :: keyIndices, routingKey, cache => do
    let bound ← elements[index]?
    let (buf, cache) ← bound.getBufferCached highestSupportedProtocolVersion cache true
    let content ← Buffer.content buf
    let size := encodeUint16 (UInt16.ofNat content.length)
    appendComponents elements keyIndices (routingKey ++ size ++ content ++ [0]) cache

/-- `Statement::calculate_routing_key`. -/
def calculateRoutingKey (elements : List BoundElement) (keyIndices : List Nat)
    (routingKey : List UInt8) (cache : EncodingCache) : Option RoutingKeyResult :=
  match keyIndices with
  | [] => some { found := false, routingKey, cache }
  | [index] => do
    let bound ← elements[index]?
    if bound.element.isUnset || bound.element.isNull then
      return { found := false, routingKey, cache }
    let (buf, cache) ← bound.getBufferCached highestSupportedProtocolVersion cache true
    return { found := true, routingKey := ← Buffer.content buf, cache }
  | _ => do
    if !(← checkComponents elements keyIndices) then
      return { found := false, routingKey, cache }
    let (routingKey, cache) ← appendComponents elements keyIndices [] cache
    return { found := true, routingKey, cache }

/-! ## Parameters and components -/

/-- The element of a parameter; one that was never bound is unset. -/
def slotElement : Option BoundValue → BoundElement
  | none => ⟨.unset, 0⟩
  | some value => value.element

/-- The bytes of a parameter, if it is neither null nor unset. -/
def slotContent : Option BoundValue → Option (List UInt8)
  | none => none
  | some value => if value.tree matches .null then none else some value.tree.item

/-- The parameters of a statement and the indices of its partition key.  An address is that of one
collection. -/
structure Parameters where
  slots : List (Option BoundValue)
  keyIndices : List Nat
  oneCollection : ∀ first second : BoundValue, some first ∈ slots → some second ∈ slots →
    first.address = second.address → ∀ one other, first.tree.element = .collection one →
      second.tree.element = .collection other → one = other

namespace Parameters

variable (parameters : Parameters)

def elements : List BoundElement :=
  parameters.slots.map slotElement

/-- A statement with a query. -/
def new (count : Nat) : Parameters where
  slots := List.replicate count none
  keyIndices := []
  oneCollection := by simp

/-- `cass_statement_add_key_index`, for a statement with a query. -/
def addKeyIndex (index : Nat) : CassError × Parameters :=
  if parameters.slots.length ≤ index then
    (.libBadParams, parameters)
  else
    (.ok, { parameters with keyIndices := parameters.keyIndices ++ [index] })

/-- `cass_statement_reset_parameters`, which leaves the key indices. -/
def reset (count : Nat) : Parameters :=
  { new count with keyIndices := parameters.keyIndices }

/-- `get_routing_key`. -/
def getRoutingKey (routingKey : List UInt8) (cache : EncodingCache) : Option RoutingKeyResult :=
  calculateRoutingKey parameters.elements parameters.keyIndices routingKey cache

/-- The value of the partition key at an index. -/
def component (index : Nat) : Option (List UInt8) :=
  parameters.slots[index]?.bind slotContent

def components : List (Option (List UInt8)) :=
  parameters.keyIndices.map parameters.component

/-- The parameter at an index is null or unset. -/
def Missing (index : Nat) : Prop :=
  ∃ slot, parameters.slots[index]? = some slot ∧ slotContent slot = none

/-- A key index is that of a parameter, unless it comes behind that of one that is null or unset. -/
def InRange : Prop :=
  ∀ before index after, parameters.keyIndices = before ++ index :: after →
    (∀ earlier ∈ before, ¬ parameters.Missing earlier) → index < parameters.slots.length

/-- What a cache holds for the collections of the statement are their encodings for the highest
supported protocol version. -/
def Agrees (cache : EncodingCache) : Prop :=
  ∀ value : BoundValue, some value ∈ parameters.slots → ∀ collection buf,
    value.tree.element = .collection collection → cache value.address = some buf →
      buf = collection.encodeWithLength highestSupportedProtocolVersion

/-! ## What the loops do -/

theorem elements_getElem? (index : Nat) :
    parameters.elements[index]? = parameters.slots[index]?.map slotElement := by
  rw [elements, getElem?_map]

/-- The code's test for a component that is missing. -/
theorem isUnset_or_isNull (slot : Option BoundValue) :
    ((slotElement slot).element.isUnset || (slotElement slot).element.isNull) =
      (slotContent slot).isNone := by
  cases slot with
  | none => rfl
  | some value =>
    have set : (slotElement (some value)).element.isUnset = false :=
      Tree.element_isUnset value.tree
    rw [set, Bool.false_or, slotElement, BoundValue.element, slotContent]
    cases value.tree <;> rfl

/-- What the first loop finds at an index that it reaches. -/
theorem checkComponents_cons (index : Nat) (keyIndices : List Nat) :
    checkComponents parameters.elements (index :: keyIndices) =
      parameters.slots[index]?.bind fun slot =>
        if (slotContent slot).isNone then some false
        else checkComponents parameters.elements keyIndices := by
  rw [checkComponents, elements_getElem?]
  cases parameters.slots[index]? with
  | none => rfl
  | some slot =>
    simp only [map_some, bind_eq_bind, bind_some, isUnset_or_isNull]
    rfl

theorem checkComponents_append {before : List Nat}
    (present : ∀ index ∈ before, (parameters.component index).isSome) (keyIndices : List Nat) :
    checkComponents parameters.elements (before ++ keyIndices) =
      checkComponents parameters.elements keyIndices := by
  induction before with
  | nil => rfl
  | cons index before ih =>
    obtain ⟨here, rest⟩ := forall_mem_cons.mp present
    rw [cons_append, checkComponents_cons, ih rest]
    rw [component] at here
    cases found : parameters.slots[index]? with
    | none =>
      rw [found] at here
      cases here
    | some slot =>
      rw [found, bind_some] at here
      rw [bind_some, if_neg (by simpa using isSome_iff_ne_none.mp here)]

/-- Without a first index at which there is no component, there are all. -/
theorem exists_gap (keyIndices : List Nat) :
    (∃ contents : List (List UInt8), keyIndices.map parameters.component = contents.map some) ∨
      ∃ before index after, keyIndices = before ++ index :: after ∧
        (∀ earlier ∈ before, (parameters.component earlier).isSome) ∧
        parameters.component index = none := by
  induction keyIndices with
  | nil => exact .inl ⟨[], rfl⟩
  | cons index keyIndices ih =>
    cases here : parameters.component index with
    | none => exact .inr ⟨[], index, keyIndices, rfl, nofun, here⟩
    | some content =>
      rcases ih with ⟨contents, all⟩ | ⟨before, gap, after, rfl, present, missing⟩
      · exact .inl ⟨content :: contents, by rw [map_cons, here, all, map_cons]⟩
      · refine .inr ⟨index :: before, gap, after, rfl, ?_, missing⟩
        exact forall_mem_cons.mpr ⟨by rw [here]; rfl, present⟩

variable {parameters}

theorem isSome_of_map_eq {keyIndices : List Nat} {contents : List (List UInt8)}
    (components : keyIndices.map parameters.component = contents.map some) :
    ∀ index ∈ keyIndices, (parameters.component index).isSome := by
  intro index member
  have there : parameters.component index ∈ contents.map some :=
    components ▸ List.mem_map_of_mem member
  obtain ⟨content, -, component⟩ := List.mem_map.mp there
  rw [← component]
  rfl

/-- The cache still agrees once the encoding of one of the collections is put into it. -/
theorem Agrees.update {cache : EncodingCache} (agrees : parameters.Agrees cache)
    {value : BoundValue} (member : some value ∈ parameters.slots) {collection : Collection}
    (element : value.tree.element = .collection collection) :
    parameters.Agrees (Function.update cache value.address
      (some (collection.encodeWithLength highestSupportedProtocolVersion))) := by
  intro other otherMember otherCollection buf otherElement cached
  by_cases same : other.address = value.address
  · rw [same, Function.update_self] at cached
    obtain rfl := parameters.oneCollection other value otherMember member same _ _ otherElement
      element
    exact (Option.some.inj cached).symm
  · rw [Function.update_of_ne same] at cached
    exact agrees other otherMember otherCollection buf otherElement cached

/-- A component is fetched as its encoding for the highest version, and the cache still agrees. -/
theorem Agrees.getBufferCached {cache : EncodingCache} (agrees : parameters.Agrees cache)
    {value : BoundValue} (member : some value ∈ parameters.slots) :
    ∃ after, value.element.getBufferCached highestSupportedProtocolVersion cache true =
      some (value.tree.field, after) ∧ parameters.Agrees after := by
  have fetched := Tree.copyBuffer_element value.tree
  unfold BoundElement.getBufferCached
  rw [BoundValue.element]
  cases element : value.tree.element with
  | unset =>
    have set := Tree.element_isUnset value.tree
    rw [element] at set
    cases set
  | nul =>
    rw [← fetched, element]
    exact ⟨cache, rfl, agrees⟩
  | buffer bytes =>
    rw [← fetched, element]
    exact ⟨cache, rfl, agrees⟩
  | collection collection =>
    rw [← fetched, element]
    dsimp only
    cases cached : cache value.address with
    | some buf =>
      rw [agrees value member collection buf element cached]
      exact ⟨cache, rfl, agrees⟩
    | none => exact ⟨_, rfl, agrees.update member element⟩

/-- The bytes behind the length of a component. -/
theorem content_field {value : BoundValue} {content : List UInt8}
    (component : slotContent (some value) = some content) :
    Buffer.content value.tree.field = some content := by
  rcases value with ⟨tree, address⟩
  cases tree with
  | null => cases component
  | _ =>
    obtain rfl := Option.some.inj component
    rw [Tree.field_eq]
    simp [Buffer.content, Cql.encodeWithLength]

/-- A component of a composite key: its size, its bytes and a zero. -/
def framed (content : List UInt8) : List UInt8 :=
  Grammar.printString content ++ [0]

/-- One component that is there, as the loops fetch it. -/
theorem Agrees.fetch {cache : EncodingCache} (agrees : parameters.Agrees cache) {index : Nat}
    {content : List UInt8} (component : parameters.component index = some content) :
    ∃ bound after buf, parameters.elements[index]? = some bound ∧
      (bound.element.isUnset || bound.element.isNull) = false ∧
      bound.getBufferCached highestSupportedProtocolVersion cache true = some (buf, after) ∧
      Buffer.content buf = some content ∧ parameters.Agrees after := by
  obtain ⟨slot, found, isContent⟩ := bind_eq_some_iff.mp component
  have element : parameters.elements[index]? = some (slotElement slot) := by
    rw [elements_getElem?, found, map_some]
  cases slot with
  | none => cases isContent
  | some value =>
    obtain ⟨after, fetched, agreesAfter⟩ := agrees.getBufferCached (mem_of_getElem? found)
    refine ⟨_, after, _, element, ?_, fetched, content_field isContent, agreesAfter⟩
    rw [isUnset_or_isNull, isContent]
    rfl

/-- The second loop appends the components one after the other. -/
theorem Agrees.appendComponents {cache : EncodingCache} (agrees : parameters.Agrees cache)
    {keyIndices : List Nat} {contents : List (List UInt8)}
    (components : keyIndices.map parameters.component = contents.map some)
    (routingKey : List UInt8) :
    ∃ after, Encoding.appendComponents parameters.elements keyIndices routingKey cache =
      some (routingKey ++ contents.flatMap framed, after) ∧ parameters.Agrees after := by
  induction keyIndices generalizing contents routingKey cache with
  | nil =>
    obtain rfl : contents = [] := map_eq_nil_iff.mp components.symm
    exact ⟨cache, by simp [Encoding.appendComponents], agrees⟩
  | cons index keyIndices ih =>
    cases contents with
    | nil => cases components
    | cons content contents =>
      obtain ⟨component, rest⟩ := List.cons.inj components
      obtain ⟨bound, after, buf, element, -, fetched, bytes, agreesAfter⟩ :=
        agrees.fetch component
      obtain ⟨last, appended, agreesLast⟩ := ih agreesAfter rest
        (routingKey ++ encodeUint16 (UInt16.ofNat content.length) ++ content ++ [0])
      refine ⟨last, ?_, agreesLast⟩
      rw [Encoding.appendComponents, element]
      simp only [bind_eq_bind, bind_some, fetched, bytes, appended]
      simp [framed, Grammar.printString]

/-! ## The routing key -/

/-- The routing key of components that are there. -/
def keyOf : List (List UInt8) → List UInt8
  | [content] => content
  | contents => contents.flatMap framed

/-- All components are there: the key is made of them. -/
theorem Agrees.calculateRoutingKey {cache : EncodingCache} (agrees : parameters.Agrees cache)
    {keyIndices : List Nat} {contents : List (List UInt8)}
    (components : keyIndices.map parameters.component = contents.map some)
    (nonempty : keyIndices ≠ []) (routingKey : List UInt8) :
    ∃ after, Encoding.calculateRoutingKey parameters.elements keyIndices routingKey cache =
      some { found := true, routingKey := keyOf contents, cache := after } ∧
      parameters.Agrees after := by
  match keyIndices, contents with
  | [], _ => exact absurd rfl nonempty
  | [_], _ :: _ :: _ | _ :: _ :: _, [_] => cases (List.cons.inj components).2
  | [index], [content] =>
    obtain ⟨bound, after, buf, element, present, fetched, bytes, agreesAfter⟩ :=
      agrees.fetch (List.cons.inj components).1
    refine ⟨after, ?_, agreesAfter⟩
    simp only [Encoding.calculateRoutingKey, element, bind_eq_bind, bind_some,
      present, fetched, bytes]
    rfl
  | first :: second :: keyIndices, one :: two :: contents =>
    have check := parameters.checkComponents_append (isSome_of_map_eq components) []
    rw [append_nil, checkComponents] at check
    obtain ⟨after, appended, agreesAfter⟩ := agrees.appendComponents components []
    refine ⟨after, ?_, agreesAfter⟩
    simp only [Encoding.calculateRoutingKey, check, bind_eq_bind, bind_some,
      appended]
    rfl

/-- Unless all components are there, the result is that of the first loop, and nothing changes. -/
theorem calculateRoutingKey_of_check {keyIndices : List Nat} (nonempty : keyIndices ≠ [])
    (check : checkComponents parameters.elements keyIndices ≠ some true) (routingKey : List UInt8)
    (cache : EncodingCache) :
    Encoding.calculateRoutingKey parameters.elements keyIndices routingKey cache =
      (checkComponents parameters.elements keyIndices).map fun _ =>
        { found := false, routingKey, cache } := by
  match keyIndices with
  | [] => exact absurd rfl nonempty
  | [index] =>
    rw [checkComponents_cons] at check ⊢
    rw [Encoding.calculateRoutingKey, elements_getElem?]
    cases found : parameters.slots[index]? with
    | none => rfl
    | some slot =>
      rw [found, bind_some] at check
      split at check
      next missing =>
        simp only [map_some, bind_eq_bind, bind_some, isUnset_or_isNull,
          missing]
        rfl
      next => exact absurd rfl check
  | first :: second :: keyIndices =>
    have unfolded : Encoding.calculateRoutingKey parameters.elements
        (first :: second :: keyIndices) routingKey cache =
        (checkComponents parameters.elements (first :: second :: keyIndices)).bind _ := rfl
    rw [unfolded]
    cases result : checkComponents parameters.elements (first :: second :: keyIndices) with
    | none => rfl
    | some present =>
      cases present with
      | false => rfl
      | true => exact absurd result check

/-- Two bytes of size, the content and a zero are read back. -/
theorem parses_framed {content : List UInt8} (short : content.length ≤ 65535) :
    Parses (do
      let content ← Grammar.string
      let _ ← Grammar.byte
      return content) (framed content) content := by
  refine (Grammar.parses_string (by omega)).bind ?_
  exact (Grammar.parses_byte 0).bind (Parses.pure content)

/-- Components of at most 65535 bytes can be read back from a composite key. -/
theorem flatMap_framed_injective {first second : List (List UInt8)}
    (sameLength : first.length = second.length)
    (firstShort : ∀ content ∈ first, content.length ≤ 65535)
    (secondShort : ∀ content ∈ second, content.length ≤ 65535)
    (same : first.flatMap framed = second.flatMap framed) : first = second := by
  have one := (Parses.many framed id fun content member =>
    parses_framed (firstShort content member)).parseAll
  have other := (Parses.many framed id fun content member =>
    parses_framed (secondShort content member)).parseAll
  rw [sameLength, same, other, List.map_id, List.map_id] at one
  exact (Option.some.inj one).symm

/-- Every component is there and has at most 65535 bytes. -/
def ShortComponents (parameters : Parameters) : Prop :=
  ∀ component ∈ parameters.components, ∃ content : List UInt8,
    component = some content ∧ content.length ≤ 65535

theorem ShortComponents.contents (short : parameters.ShortComponents) :
    ∃ contents : List (List UInt8), parameters.components = contents.map some ∧
      ∀ content ∈ contents, content.length ≤ 65535 := by
  rcases parameters.exists_gap parameters.keyIndices with
    ⟨contents, eq⟩ | ⟨before, index, after, split, -, missing⟩
  · refine ⟨contents, eq, fun content member => ?_⟩
    have there : some content ∈ parameters.components := by
      rw [components, eq]
      exact List.mem_map_of_mem member
    obtain ⟨same, equal, bound⟩ := short (some content) there
    rwa [Option.some.inj equal]
  · have member : none ∈ parameters.components := by
      rw [components, split, ← missing]
      exact List.mem_map_of_mem (mem_append_right _ mem_cons_self)
    obtain ⟨content, impossible, -⟩ := short none member
    cases impossible

theorem lt_of_isSome {index : Nat} (present : (parameters.component index).isSome) :
    index < parameters.slots.length := by
  obtain ⟨content, component⟩ := isSome_iff_exists.mp present
  obtain ⟨slot, found, -⟩ := bind_eq_some_iff.mp component
  exact (List.getElem?_eq_some_iff.mp found).1

theorem not_missing_of_isSome {index : Nat} (present : (parameters.component index).isSome) :
    ¬ parameters.Missing index := by
  rintro ⟨slot, found, missing⟩
  rw [component, found, bind_some, missing] at present
  cases present

/-- `get_routing_key` says that there is no key iff there are no key indices or a component is null
or unset, provided that the key indices it reaches are those of parameters. -/
theorem Agrees.found_eq_false_iff {cache : EncodingCache} (agrees : parameters.Agrees cache)
    (routingKey : List UInt8) :
    (∃ result, parameters.getRoutingKey routingKey cache = some result ∧
      (result.found = false ↔
        parameters.keyIndices = [] ∨ ∃ index ∈ parameters.keyIndices, parameters.Missing index)) ↔
      parameters.InRange := by
  rcases parameters.exists_gap parameters.keyIndices with
    ⟨contents, components⟩ | ⟨before, index, after, split, present, gap⟩
  · have all := isSome_of_map_eq components
    apply iff_of_true
    · by_cases empty : parameters.keyIndices = []
      · refine ⟨{ found := false, routingKey, cache }, ?_, iff_of_true rfl (.inl empty)⟩
        rw [getRoutingKey, empty, Encoding.calculateRoutingKey]
      · obtain ⟨after, found, -⟩ := agrees.calculateRoutingKey components empty routingKey
        refine ⟨_, found, iff_of_false nofun ?_⟩
        rintro (none | ⟨index, member, missing⟩)
        · exact empty none
        · exact not_missing_of_isSome (all index member) missing
    · intro before index after split _
      exact lt_of_isSome (all index (split ▸ mem_append_right before mem_cons_self))
  · have nonempty : parameters.keyIndices ≠ [] := by simp [split]
    have check := parameters.checkComponents_append present (index :: after)
    rw [← split, checkComponents_cons] at check
    have earlier : ∀ earlier ∈ before, ¬ parameters.Missing earlier :=
      fun earlier member => not_missing_of_isSome (present earlier member)
    cases found : parameters.slots[index]? with
    | none =>
      -- the index is that of no parameter: the assertion fails
      rw [found, bind_none] at check
      apply iff_of_false
      · rintro ⟨result, returned, -⟩
        rw [getRoutingKey, calculateRoutingKey_of_check nonempty (by simp [check]), check] at returned
        cases returned
      · intro inRange
        exact absurd (inRange before index after split earlier)
          (Nat.not_lt.mpr (List.getElem?_eq_none_iff.mp found))
    | some slot =>
      rw [component, found, bind_some] at gap
      rw [found, bind_some, gap] at check
      have missing : parameters.Missing index := ⟨slot, found, gap⟩
      apply iff_of_true
      · refine ⟨{ found := false, routingKey, cache }, ?_, iff_of_true rfl (.inr ⟨index, ?_, missing⟩)⟩
        · rw [getRoutingKey, calculateRoutingKey_of_check nonempty (by simp [check]), check]
          rfl
        · exact split ▸ mem_append_right before mem_cons_self
      · intro early late rest splitLate notMissing
        have inside : index < parameters.slots.length := (List.getElem?_eq_some_iff.mp found).1
        rcases append_eq_append_iff.mp (split.symm.trans splitLate) with
          ⟨between, rfl, same⟩ | ⟨between, rfl, same⟩
        · cases between with
          | nil => exact (List.cons.inj same).1 ▸ inside
          | cons next between =>
            obtain rfl := (List.cons.inj same).1
            exact absurd missing (notMissing _ (mem_append_right _ mem_cons_self))
        · cases between with
          | nil => exact (List.cons.inj same).1 ▸ inside
          | cons next between =>
            obtain rfl := (List.cons.inj same).1
            exact lt_of_isSome (present _ (mem_append_right _ mem_cons_self))

/-- Routing keys are unambiguous.  Composite keys with the same number of components, all of at most
65535 bytes, are found, and are equal only if the components are; a single component is the key.  A
key is missing iff there are no key indices or a component is null or unset, exactly when each key
index that is reached is that of a parameter. -/
theorem routingKey_unambiguous (first second : Parameters) (firstCache secondCache : EncodingCache)
    (firstAgrees : first.Agrees firstCache) (secondAgrees : second.Agrees secondCache)
    (firstText secondText : List UInt8) :
    (first.keyIndices.length = second.keyIndices.length → 2 ≤ first.keyIndices.length →
      first.ShortComponents → second.ShortComponents →
        ∃ one other, first.getRoutingKey firstText firstCache = some one ∧
          second.getRoutingKey secondText secondCache = some other ∧
          one.found = true ∧ other.found = true ∧
          (one.routingKey = other.routingKey → first.components = second.components)) ∧
    (∀ content, first.components = [some content] →
      ∃ result, first.getRoutingKey firstText firstCache = some result ∧
        result.found = true ∧ result.routingKey = content) ∧
    ((∃ result, first.getRoutingKey firstText firstCache = some result ∧
      (result.found = false ↔
        first.keyIndices = [] ∨ ∃ index ∈ first.keyIndices, first.Missing index)) ↔
      first.InRange) := by
  refine ⟨fun sameLength composite firstShort secondShort => ?_, fun content components => ?_,
    firstAgrees.found_eq_false_iff firstText⟩
  · obtain ⟨one, oneEq, oneShort⟩ := firstShort.contents
    obtain ⟨other, otherEq, otherShort⟩ := secondShort.contents
    have oneLength : first.keyIndices.length = one.length := by
      simpa [components] using congrArg List.length oneEq
    have otherLength : second.keyIndices.length = other.length := by
      simpa [components] using congrArg List.length otherEq
    have compositeKey {contents : List (List UInt8)} (two : 2 ≤ contents.length) :
        keyOf contents = contents.flatMap framed := by
      match contents with
      | _ :: _ :: _ => rfl
    obtain ⟨_, firstFound, -⟩ := firstAgrees.calculateRoutingKey oneEq
      (ne_nil_of_length_pos (by omega)) firstText
    obtain ⟨_, secondFound, -⟩ := secondAgrees.calculateRoutingKey otherEq
      (ne_nil_of_length_pos (by omega)) secondText
    refine ⟨_, _, firstFound, secondFound, rfl, rfl, fun same => ?_⟩
    rw [compositeKey (by omega), compositeKey (by omega)] at same
    rw [oneEq, otherEq, flatMap_framed_injective (by omega) oneShort otherShort same]
  · have nonempty : first.keyIndices ≠ [] := by
      intro empty
      simp [Parameters.components, empty] at components
    obtain ⟨_, found, -⟩ := @Agrees.calculateRoutingKey first firstCache firstAgrees
      first.keyIndices [content] components nonempty firstText
    exact ⟨_, found, rfl, rfl⟩

theorem agrees_empty (parameters : Parameters) : parameters.Agrees fun _ => none :=
  fun _ _ _ _ _ cached => nomatch cached

/-- A statement with a partition key of two scalars. -/
def twoScalars (one other : List UInt8) : Parameters where
  slots := [some ⟨.scalar one, 0⟩, some ⟨.scalar other, 0⟩]
  keyIndices := [0, 1]
  oneCollection first _ member _ _ _ _ collection _ := by
    have scalar : first.tree = .scalar one ∨ first.tree = .scalar other := by
      rcases member with _ | ⟨_, _ | ⟨_, ⟨⟩⟩⟩
      · exact .inl rfl
      · exact .inr rfl
    rcases scalar with scalar | scalar <;> · rw [scalar] at collection; cases collection

/-- One parameter is named as the key, and then the statement gets none. -/
theorem routingKey_stale :
    ((new 1).addKeyIndex 0).1 = .ok ∧
      (((new 1).addKeyIndex 0).2.reset 0).getRoutingKey [] (fun _ => none) = none := by
  decide

/-- The boundary between the components is part of the key: `1, 2 3` is not `1 2, 3`. -/
theorem routingKey_unambiguous_scalars :
    ∃ one other, (twoScalars [1] [2, 3]).getRoutingKey [] (fun _ => none) = some one ∧
      (twoScalars [1, 2] [3]).getRoutingKey [] (fun _ => none) = some other ∧
      one.routingKey ≠ other.routingKey := by
  obtain ⟨one, other, first, second, -, -, unambiguous⟩ :=
    (routingKey_unambiguous (twoScalars [1] [2, 3]) (twoScalars [1, 2] [3]) _ _
      (agrees_empty _) (agrees_empty _) [] []).1 rfl (by decide)
      (by
        rintro _ (_ | ⟨_, _ | ⟨_, ⟨⟩⟩⟩)
        · exact ⟨[1], rfl, by decide⟩
        · exact ⟨[2, 3], rfl, by decide⟩)
      (by
        rintro _ (_ | ⟨_, _ | ⟨_, ⟨⟩⟩⟩)
        · exact ⟨[1, 2], rfl, by decide⟩
        · exact ⟨[3], rfl, by decide⟩)
  exact ⟨one, other, first, second, fun same => absurd (unambiguous same) (by decide)⟩

end Parameters

end DseDriver.Encoding
