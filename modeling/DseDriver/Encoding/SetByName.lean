import DseDriver.CassError
import DseDriver.Cql.Containers
import DseDriver.HashTable.Table

/-!
# Setting values by name

`AbstractData::set` with a name sets the elements at all indices the name stands for, one after the
other, and stops at the first index that refuses the value.
-/

namespace DseDriver.Encoding

open Cql HashTable

/-- An argument of `set`: the element that is stored, and `IsValidDataType` of its C++ type. -/
structure Argument where
  element : Element
  isValidType : DataType → Bool

/-- `AbstractData` with its virtual functions.  There is no result of `get_indices` when an
assertion of the lookup fails. -/
structure NamedData where
  elements : List Element
  getType : Nat → Option DataType
  getIndices : List UInt8 → Option (List Nat)

namespace NamedData

/-- The checks of `set` with an index. -/
def check (data : NamedData) (index : Nat) (value : Argument) : CassError :=
  if index ≥ data.elements.length then
    .libIndexOutOfBounds
  else if (data.getType index).any fun dataType => !value.isValidType dataType then
    .libInvalidValueType
  else
    match value.element with
    | .collection collection =>
      if collection.kind = .map ∧ collection.items.length % 2 ≠ 0 then .libInvalidItemCount
      else .ok
    | _ => .ok

/-- `set` with an index. -/
def setIndex (data : NamedData) (index : Nat) (value : Argument) : CassError × NamedData :=
  let rc := data.check index value
  if rc ≠ .ok then (rc, data)
  else (.ok, { data with elements := data.elements.set index value.element })

/-- The loop of `set` with a name. -/
def setIndices (value : Argument) : List Nat → NamedData → CassError × NamedData
  | [], data => (.ok, data)
  | index :: indices, data =>
    let (rc, data) := data.setIndex index value
    if rc ≠ .ok then (rc, data) else setIndices value indices data

/-- `set` with a name. -/
def set (data : NamedData) (name : List UInt8) (value : Argument) :
    Option (CassError × NamedData) := do
  let indices ← data.getIndices name
  if indices.length = 0 then
    return (.libNameDoesNotExist, data)
  return setIndices value indices data

/-- A user type value or a statement for these columns, which all are unset. -/
def ofColumns (columns : List (List UInt8 × DataType)) : Option NamedData := do
  let (heap, table) ← fill ⟨[]⟩ columns.length (columns.map Prod.fst)
  return {
    elements := columns.map fun _ => .unset
    getType := fun index => columns[index]?.map Prod.snd
    getIndices := fun name => (table.getIndices heap (some name)).map Prod.snd }

/-! ## Which elements are set -/

/-- The indices before the first one that refuses the value. -/
def accepted (data : NamedData) (value : Argument) (indices : List Nat) : List Nat :=
  indices.takeWhile fun index => data.check index value = .ok

theorem check_set (data : NamedData) (index other : Nat) (value : Argument) (element : Element) :
    { data with elements := data.elements.set index element }.check other value =
      data.check other value := by
  simp only [check, List.length_set]

/-- The loop stores the value at the accepted indices, and succeeds iff these are all. -/
theorem setIndices_spec (value : Argument) (indices : List Nat) (data : NamedData) :
    ((setIndices value indices data).1 = .ok ↔ data.accepted value indices = indices) ∧
      ∀ i : Nat, (setIndices value indices data).2.elements[i]? =
        if i ∈ data.accepted value indices then some value.element else data.elements[i]? := by
  induction indices generalizing data with
  | nil => simp [setIndices, accepted]
  | cons index indices ih =>
    by_cases passes : data.check index value = .ok
    · have stored : data.setIndex index value =
          (.ok, { data with elements := data.elements.set index value.element }) := by
        simp [setIndex, passes]
      have rest : { data with elements := data.elements.set index value.element }.accepted value
          indices = data.accepted value indices := by
        simp only [accepted, check_set]
      have first : data.accepted value (index :: indices) =
          index :: data.accepted value indices := by
        simp [accepted, passes]
      have inside : index < data.elements.length := by
        by_contra outside
        rw [check, if_pos (Nat.not_lt.mp outside)] at passes
        cases passes
      obtain ⟨succeeds, sets⟩ := ih { data with elements := data.elements.set index value.element }
      simp only [setIndices, stored, ne_eq, not_true_eq_false, if_false]
      refine ⟨by rw [succeeds, rest, first, List.cons.injEq, eq_self, true_and], fun i => ?_⟩
      rw [sets, rest, first, List.getElem?_set]
      by_cases same : index = i
      · subst same
        simp [inside]
      · simp [same, Ne.symm same]
    · have none : data.accepted value (index :: indices) = [] := by
        simp [accepted, passes]
      simp [setIndices, setIndex, passes, none]

/-- After a call the elements at the indices before the first one that refuses the value hold the
value and all others are as before; the call succeeds iff there are indices and none refuses. -/
theorem set_stores_accepted (data : NamedData) (name : List UInt8) (value : Argument)
    {indices : List Nat} (found : data.getIndices name = some indices) :
    ∃ rc after, data.set name value = some (rc, after) ∧
      (rc = .ok ↔ indices ≠ [] ∧ data.accepted value indices = indices) ∧
      ∀ i : Nat, after.elements[i]? =
        if i ∈ data.accepted value indices then some value.element else data.elements[i]? := by
  obtain ⟨succeeds, sets⟩ := setIndices_spec value indices data
  by_cases empty : indices = []
  · subst empty
    exact ⟨.libNameDoesNotExist, data, by simp [set, found], by simp, by simp [accepted]⟩
  · exact ⟨(setIndices value indices data).1, _, by simp [set, found, empty],
      by simp [succeeds, empty], sets⟩

/-- The column `a` is a number and the column `A` a text. -/
def numberAndText : List (List UInt8 × DataType) :=
  [([97], .simple .int), ([65], .simple .text)]

/-- A number, as `cass_int32_t`. -/
def seven : Argument where
  element := .buffer (encodeWithLength (encodeInt32 7))
  isValidType := fun dataType => dataType.valueType = .int

/-- The name `a` stands for both columns.  The number is stored in the first and refused by the
second. -/
theorem set_seven_partial :
    ((ofColumns numberAndText).bind fun data => (data.set [97] seven).map fun result =>
        (result.1, result.2.elements)) =
      some (.libInvalidValueType, [seven.element, .unset]) := by
  decide +kernel

/-- Both columns for the name, of which the first accepts the number. -/
theorem set_stores_accepted_numberAndText :
    ∃ data, ofColumns numberAndText = some data ∧ data.getIndices [97] = some [0, 1] ∧
      ∃ rc after, data.set [97] seven = some (rc, after) ∧ rc ≠ .ok ∧
        after.elements[0]? = some seven.element ∧ after.elements[1]? = some .unset := by
  have facts : (ofColumns numberAndText).map (fun data =>
      (data.getIndices [97], data.accepted seven [0, 1], data.elements)) =
        some (some [0, 1], [0], [.unset, .unset]) := by decide +kernel
  obtain ⟨data, built, same⟩ := Option.map_eq_some_iff.1 facts
  simp only [Prod.mk.injEq] at same
  obtain ⟨found, accepts, elements⟩ := same
  obtain ⟨rc, after, done, succeeds, sets⟩ := set_stores_accepted data [97] seven found
  rw [accepts] at succeeds sets
  refine ⟨data, built, found, rc, after, done, ?_, (sets 0).trans rfl, ?_⟩
  · exact fun ok => absurd (succeeds.mp ok).2 (by decide)
  · rw [sets 1, elements]
    rfl

end NamedData

end DseDriver.Encoding
