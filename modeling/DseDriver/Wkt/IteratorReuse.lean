import DseDriver.Geometry.LineString
import DseDriver.Geometry.PolygonSafety
import DseDriver.Wkt.Grammar

/-!
# Re-use of geometry iterators

`LineStringIterator` and `PolygonIterator` as they are: a number, a binary and a text iterator, and
a pointer to the one that was assigned last.  A reset first reads its input, as it does on a fresh
iterator, and assigns all three only at its end; a text that says that the geometry is empty is
accepted before that.
-/

namespace DseDriver.Wkt

open Lib Geometry Cql Option

/-- What `iterator_` points to. -/
inductive Current where
  | null
  | binary
  | text
  deriving DecidableEq, Repr

/-- The two classes differ in their embedded iterators and in the calls these answer. -/
structure IteratorKind where
  Binary : Type
  Text : Type
  Call : Type
  Response : Type
  /-- `reset_binary` up to its assignments: its result, and what it assigns. -/
  readBinary : Value → Option (CassError × Option (UInt32 × Binary))
  /-- `reset_text` up to its assignments. -/
  readText : List UInt8 → Option (CassError × Option (UInt32 × Text))
  callBinary : Binary → Call → Option (Response × Binary)
  callText : Text → Call → Option (Response × Text)
  /-- The response of a null iterator. -/
  invalidState : Call → Response
  /-- The word that a text starts with. -/
  word : Lexeme

/-- A `LineStringIterator` or `PolygonIterator`, with `num_points_` or `num_rings_`; the embedded
iterators hold nothing before they are assigned. -/
structure GeometryIterator (kind : IteratorKind) where
  number : UInt32
  iterator : Current
  binaryIterator : Option kind.Binary
  textIterator : Option kind.Text

/-- The input of a reset. -/
inductive Reset where
  | text (chars : List UInt8)
  | binary (value : Value)

/-- A reset up to its assignments. -/
def IteratorKind.read (kind : IteratorKind) :
    Reset → Option (CassError × Option (UInt32 × (kind.Binary ⊕ kind.Text)))
  | .text chars => (kind.readText chars).map (Prod.map id (Option.map (Prod.map id .inr)))
  | .binary value => (kind.readBinary value).map (Prod.map id (Option.map (Prod.map id .inl)))

/-- Any call on a geometry iterator. -/
inductive IteratorCall (kind : IteratorKind) where
  | reset (reset : Reset)
  | next (call : kind.Call)

namespace GeometryIterator

variable {kind : IteratorKind} (iterator : GeometryIterator kind)

/-- The constructor. -/
def new : GeometryIterator kind :=
  { number := 0, iterator := .null, binaryIterator := none, textIterator := none }

/-- The assignments at the end of a reset. -/
def assign (number : UInt32) : kind.Binary ⊕ kind.Text → GeometryIterator kind
  | .inl binary => { iterator with number, binaryIterator := some binary, iterator := .binary }
  | .inr text => { iterator with number, textIterator := some text, iterator := .text }

/-- `reset_binary` and `reset_text`. -/
def reset (input : Reset) : Option (CassError × GeometryIterator kind) :=
  (kind.read input).map fun
    | (rc, none) => (rc, iterator)
    | (rc, some (number, embedded)) => (rc, iterator.assign number embedded)

/-- `next_num_points` and `next_point`, through `iterator_`. -/
def next (call : kind.Call) : Option (kind.Response × GeometryIterator kind) :=
  match iterator.iterator with
  | .null => some (kind.invalidState call, iterator)
  | .binary => do
    let (response, binary) ← kind.callBinary (← iterator.binaryIterator) call
    return (response, { iterator with binaryIterator := some binary })
  | .text => do
    let (response, text) ← kind.callText (← iterator.textIterator) call
    return (response, { iterator with textIterator := some text })

/-- The iterator that a call leaves. -/
def step : IteratorCall kind → Option (GeometryIterator kind)
  | .reset input => (iterator.reset input).map Prod.snd
  | .next call => (iterator.next call).map Prod.snd

end GeometryIterator

/-! ## The two classes -/

/-- The parts of `LineStringIterator`. -/
@[reducible] def lineStringKind (native : ByteOrder) (atof : List UInt8 → Double) : IteratorKind where
  Binary := LineStringBinaryIterator
  Text := LineStringTextIterator
  Call := Unit
  Response := Except CassError (Double × Double)
  readBinary value :=
    (Geometry.LineStringIterator.new.resetBinary native value).map fun (rc, iterator) =>
      (rc, iterator.iterator.map (iterator.numPoints, ·))
  readText chars :=
    (LineStringIterator.new.resetText atof chars).map fun (rc, iterator) =>
      (rc, iterator.iterator.map (iterator.numPoints, ·))
  callBinary iterator _ := iterator.nextPoint native
  callText iterator _ := iterator.nextPoint atof
  invalidState _ := .error .libInvalidState
  word := .typeLinestring

/-- Answer one of the two calls on a polygon iterator. -/
def answer {σ : Type} (nextNumPoints : σ → Option (Except CassError UInt32 × σ))
    (nextPoint : σ → Option (Except CassError (Double × Double) × σ)) (iterator : σ) :
    PolygonCall → Option (Except CassError (UInt32 ⊕ Double × Double) × σ)
  | .nextNumPoints => (nextNumPoints iterator).map (Prod.map (Except.map .inl) id)
  | .nextPoint => (nextPoint iterator).map (Prod.map (Except.map .inr) id)

/-- The parts of `PolygonIterator`. -/
@[reducible] def polygonKind (native : ByteOrder) (atof : List UInt8 → Double) : IteratorKind where
  Binary := BinaryIterator
  Text := PolygonTextIterator
  Call := PolygonCall
  Response := Except CassError (UInt32 ⊕ Double × Double)
  readBinary value :=
    (Geometry.PolygonIterator.new.resetBinary native value).map fun (rc, iterator) =>
      (rc, iterator.iterator.map (iterator.numRings, ·))
  readText chars :=
    (PolygonIterator.new.resetText atof chars).map fun (rc, iterator) =>
      (rc, iterator.iterator.map (iterator.numRings, ·))
  callBinary := answer (BinaryIterator.nextNumPoints native) (BinaryIterator.nextPoint native)
  callText := answer (PolygonTextIterator.nextNumPoints atof) (PolygonTextIterator.nextPoint atof)
  invalidState _ := .error .libInvalidState
  word := .typePolygon

/-- The two classes. -/
inductive GeometryClass where
  | lineString
  | polygon
  deriving DecidableEq, Repr

@[reducible] def GeometryClass.kind (native : ByteOrder) (atof : List UInt8 → Double) :
    GeometryClass → IteratorKind
  | lineString => lineStringKind native atof
  | polygon => polygonKind native atof

/-! ## Clean resets -/

section Clean

variable {kind : IteratorKind}

/-- The text says that the geometry is empty. -/
def Reset.SaysEmpty (kind : IteratorKind) : Reset → Prop
  | .text chars => ∃ rest, lexemes chars = kind.word :: .empty :: rest
  | .binary _ => False

/-- A reset that is accepted leaves what it leaves on a fresh iterator, for every client; one that
fails leaves the iterator as it was. -/
def ResetsCleanly (iterator : GeometryIterator kind) (input : Reset) : Prop :=
  ∀ rc after, iterator.reset input = some (rc, after) →
    (rc = .ok → ∃ fresh, GeometryIterator.new.reset input = some (.ok, fresh) ∧
      after.number = fresh.number ∧ Alike GeometryIterator.next after fresh) ∧
    (rc ≠ .ok → after.number = iterator.number ∧ Alike GeometryIterator.next after iterator)

/-- A failed reset assigns nothing, and one that is accepted does, unless the text says that the
geometry is empty. -/
structure Lawful (kind : IteratorKind) : Prop where
  fails : ∀ input rc accepted, kind.read input = some (rc, accepted) → rc ≠ .ok → accepted = none
  empty : ∀ input, kind.read input = some (.ok, none) → input.SaysEmpty kind

/-- Iterators that a client cannot tell apart: they point to equal embedded iterators. -/
structure SameView (first second : GeometryIterator kind) : Prop where
  iterator : first.iterator = second.iterator
  binary : first.iterator = .binary → first.binaryIterator = second.binaryIterator
  text : first.iterator = .text → first.textIterator = second.textIterator

theorem SameView.alike {first second : GeometryIterator kind} (same : SameView first second) :
    Alike GeometryIterator.next first second := by
  refine alike_of_bisimulation ?_ same
  rintro ⟨number, current, binary, text⟩ ⟨number', current', binary', text'⟩ call
    ⟨sameCurrent, sameBinary, sameText⟩
  cases sameCurrent
  cases current with
  | null => exact .inr ⟨_, _, _, rfl, rfl, ⟨rfl, nofun, nofun⟩⟩
  | binary =>
    cases sameBinary rfl
    cases binary with
    | none => exact .inl ⟨rfl, rfl⟩
    | some binary =>
      simp only [GeometryIterator.next, bind_eq_bind, bind_some]
      cases kind.callBinary binary call with
      | none => exact .inl ⟨rfl, rfl⟩
      | some answer => exact .inr ⟨_, _, _, rfl, rfl, ⟨rfl, fun _ => rfl, nofun⟩⟩
  | text =>
    cases sameText rfl
    cases text with
    | none => exact .inl ⟨rfl, rfl⟩
    | some text =>
      simp only [GeometryIterator.next, bind_eq_bind, bind_some]
      cases kind.callText text call with
      | none => exact .inl ⟨rfl, rfl⟩
      | some answer => exact .inr ⟨_, _, _, rfl, rfl, ⟨rfl, nofun, fun _ => rfl⟩⟩

/-- The only iterators with a null pointer are those that have announced nothing. -/
def NullIsFresh (iterator : GeometryIterator kind) : Prop :=
  iterator.iterator = .null → iterator.number = 0

/-- A call through the pointer changes neither the number nor the pointer. -/
theorem next_keeps {iterator after : GeometryIterator kind} {call : kind.Call}
    {response : kind.Response} (result : iterator.next call = some (response, after)) :
    after.number = iterator.number ∧ after.iterator = iterator.iterator := by
  obtain ⟨number, current, embedded, embeddedText⟩ := iterator
  cases current with
  | null =>
    cases result
    exact ⟨rfl, rfl⟩
  | binary =>
    simp only [GeometryIterator.next, bind_eq_bind, bind_eq_some_iff] at result
    obtain ⟨binary, -, answer, -, result⟩ := result
    cases result
    exact ⟨rfl, rfl⟩
  | text =>
    simp only [GeometryIterator.next, bind_eq_bind, bind_eq_some_iff] at result
    obtain ⟨text, -, answer, -, result⟩ := result
    cases result
    exact ⟨rfl, rfl⟩

/-- What a reset does: nothing, or it assigns what it has read. -/
theorem reset_cases {iterator after : GeometryIterator kind} {input : Reset} {rc : CassError}
    (result : iterator.reset input = some (rc, after)) :
    kind.read input = some (rc, none) ∧ after = iterator ∨
      ∃ number embedded, kind.read input = some (rc, some (number, embedded)) ∧
        after = iterator.assign number embedded := by
  obtain ⟨⟨rc', accepted⟩, read, result⟩ := map_eq_some_iff.mp result
  cases accepted with
  | none =>
    cases result
    exact .inl ⟨read, rfl⟩
  | some accepted =>
    cases result
    exact .inr ⟨_, _, read, rfl⟩

theorem assign_iterator_ne_null (iterator : GeometryIterator kind) (number : UInt32)
    (embedded : kind.Binary ⊕ kind.Text) : (iterator.assign number embedded).iterator ≠ .null := by
  cases embedded <;> exact nofun

/-- What is assigned does not depend on what was there. -/
theorem assign_sameView (first second : GeometryIterator kind) (number : UInt32)
    (embedded : kind.Binary ⊕ kind.Text) :
    (first.assign number embedded).number = (second.assign number embedded).number ∧
      SameView (first.assign number embedded) (second.assign number embedded) := by
  cases embedded with
  | inl binary => exact ⟨rfl, rfl, fun _ => rfl, nofun⟩
  | inr text => exact ⟨rfl, rfl, nofun, fun _ => rfl⟩

theorem NullIsFresh.step {iterator after : GeometryIterator kind} {call : IteratorCall kind}
    (fresh : NullIsFresh iterator) (result : iterator.step call = some after) :
    NullIsFresh after := by
  cases call with
  | reset input =>
    obtain ⟨⟨rc, left⟩, reset, rfl⟩ := map_eq_some_iff.mp result
    rcases reset_cases reset with ⟨-, same⟩ | ⟨number, embedded, -, assigned⟩
    · exact same ▸ fresh
    · intro null
      rw [assigned] at null
      exact absurd null (assign_iterator_ne_null iterator number embedded)
  | next call =>
    obtain ⟨⟨response, left⟩, next, rfl⟩ := map_eq_some_iff.mp result
    obtain ⟨number, current⟩ := next_keeps next
    intro null
    rw [number]
    exact fresh (current.symm.trans null)

theorem nullIsFresh_of_history {calls : List (IteratorCall kind)}
    {start iterator : GeometryIterator kind} (fresh : NullIsFresh start)
    (reached : calls.foldlM GeometryIterator.step start = some iterator) :
    NullIsFresh iterator := by
  induction calls generalizing start with
  | nil =>
    cases reached
    exact fresh
  | cons call calls ih =>
    rw [List.foldlM_cons, bind_eq_bind, bind_eq_some_iff] at reached
    obtain ⟨middle, first, later⟩ := reached
    exact ih (fresh.step first) later

/-- A reset is clean if a text that says empty comes only while the pointer is null. -/
theorem Lawful.resetsCleanly (lawful : Lawful kind) {iterator : GeometryIterator kind}
    (fresh : NullIsFresh iterator) {input : Reset}
    (whileNull : input.SaysEmpty kind → iterator.iterator = .null) :
    ResetsCleanly iterator input := by
  intro rc after result
  rcases reset_cases result with ⟨read, rfl⟩ | ⟨number, embedded, read, rfl⟩
  · refine ⟨?_, fun _ => ⟨rfl, fun _ => rfl⟩⟩
    rintro rfl
    have null := whileNull (lawful.empty input read)
    refine ⟨.new, by simp [GeometryIterator.reset, read], fresh null, SameView.alike ?_⟩
    exact ⟨null, fun isBinary => by simp [null] at isBinary, fun isText => by simp [null] at isText⟩
  · obtain ⟨sameNumber, sameView⟩ := assign_sameView iterator .new number embedded
    refine ⟨?_, fun failed => absurd (lawful.fails input rc _ read failed) (by simp)⟩
    rintro rfl
    exact ⟨_, by simp [GeometryIterator.reset, read], sameNumber, sameView.alike⟩

end Clean

/-! ## The resets of the two classes -/

/-- The result of a reset on a fresh iterator, and whether an iterator is assigned. -/
def Outcome {α : Type} (iterator : α → Bool) (result : Option (CassError × α)) : Prop :=
  ∀ rc after, result = some (rc, after) → (rc = .ok ↔ iterator after = true)

section Classes

variable (native : ByteOrder) (atof : List UInt8 → Double)

theorem resetBinary_lineString_outcome (value : Value) :
    Outcome (fun iterator => iterator.iterator.isSome)
      (Geometry.LineStringIterator.new.resetBinary native value) := by
  intro rc after result
  rcases Geometry.resetBinary_lineString_cases native result with ⟨failed, rfl⟩ | ⟨rfl, read⟩
  · simp [failed, Geometry.LineStringIterator.new]
  · obtain ⟨_, _, _, -, -, -, rfl⟩ := read
    exact iff_of_true rfl rfl

theorem resetBinary_polygon_outcome (value : Value) :
    Outcome (fun iterator => iterator.iterator.isSome)
      (Geometry.PolygonIterator.new.resetBinary native value) := by
  intro rc after result
  rcases Geometry.resetBinary_polygon_cases native result with ⟨failed, rfl⟩ | ⟨rfl, read⟩
  · simp [failed, Geometry.PolygonIterator.new]
  · obtain ⟨_, _, _, -, -, rfl⟩ := read
    exact iff_of_true rfl rfl

/-- A text that is accepted without an iterator says that it is empty. -/
theorem text_outcome {α β : Type} {fresh after : α} {iterator : α → Option β} {rc : CassError}
    {saysEmpty read : Prop} (unassigned : iterator fresh = none)
    (cases : (rc = .libBadParams ∧ after = fresh) ∨ (rc = .ok ∧ after = fresh ∧ saysEmpty) ∨
      rc = .ok ∧ (iterator after).isSome = true ∧ read) :
    (rc ≠ .ok → iterator after = none) ∧ (rc = .ok → iterator after = none → saysEmpty) := by
  rcases cases with ⟨rfl, rfl⟩ | ⟨rfl, rfl, empty⟩ | ⟨rfl, assigned, -⟩
  · simp [unassigned]
  · exact ⟨fun failed => absurd rfl failed, fun _ _ => empty⟩
  · refine ⟨fun failed => absurd rfl failed, fun _ unassigned => ?_⟩
    rw [unassigned] at assigned
    cases assigned

/-- What each of the two resets assigns is enough. -/
theorem lawful_of_outcomes {kind : IteratorKind}
    (binary : ∀ value rc accepted, kind.readBinary value = some (rc, accepted) →
      (rc = .ok ↔ accepted.isSome = true))
    (text : ∀ chars rc accepted, kind.readText chars = some (rc, accepted) →
      (rc ≠ .ok → accepted = none) ∧
        (rc = .ok → accepted = none → (Reset.text chars).SaysEmpty kind)) :
    Lawful kind := by
  constructor
  · intro input rc accepted read failed
    cases input with
    | text chars =>
      obtain ⟨⟨rc', assigned⟩, result, same⟩ := map_eq_some_iff.mp read
      cases same
      rw [(text chars _ _ result).1 failed]
      rfl
    | binary value =>
      obtain ⟨⟨rc', assigned⟩, result, same⟩ := map_eq_some_iff.mp read
      cases same
      cases assigned with
      | none => rfl
      | some assigned => exact absurd ((binary value _ _ result).mpr rfl) failed
  · intro input read
    cases input with
    | text chars =>
      obtain ⟨⟨rc', assigned⟩, result, same⟩ := map_eq_some_iff.mp read
      obtain ⟨rfl, unassigned⟩ := Prod.mk.injEq .. ▸ same
      exact (text chars _ _ result).2 rfl (map_eq_none_iff.mp unassigned)
    | binary value =>
      obtain ⟨⟨rc', assigned⟩, result, same⟩ := map_eq_some_iff.mp read
      obtain ⟨rfl, unassigned⟩ := Prod.mk.injEq .. ▸ same
      have some := (binary value _ _ result).mp rfl
      rw [map_eq_none_iff.mp unassigned] at some
      cases some

theorem GeometryClass.lawful (geometry : GeometryClass) : Lawful (geometry.kind native atof) := by
  cases geometry with
  | lineString =>
    apply lawful_of_outcomes
    · intro value rc accepted read
      obtain ⟨⟨rc', after⟩, reset, same⟩ := map_eq_some_iff.mp read
      cases same
      rw [isSome_map]
      exact resetBinary_lineString_outcome native value _ _ reset
    · intro chars rc accepted read
      obtain ⟨⟨rc', after⟩, reset, same⟩ := map_eq_some_iff.mp read
      cases same
      rw [map_eq_none_iff]
      exact text_outcome rfl (resetText_lineString_cases atof reset)
  | polygon =>
    apply lawful_of_outcomes
    · intro value rc accepted read
      obtain ⟨⟨rc', after⟩, reset, same⟩ := map_eq_some_iff.mp read
      cases same
      rw [isSome_map]
      exact resetBinary_polygon_outcome native value _ _ reset
    · intro chars rc accepted read
      obtain ⟨⟨rc', after⟩, reset, same⟩ := map_eq_some_iff.mp read
      cases same
      rw [map_eq_none_iff]
      exact text_outcome rfl (resetText_polygon_cases atof reset)

/-- After any calls on one iterator, a reset is clean, except that a text that says empty must
come while the pointer is null. -/
theorem resetsCleanly_of_whileNull (geometry : GeometryClass)
    (calls : List (IteratorCall (geometry.kind native atof)))
    (iterator : GeometryIterator (geometry.kind native atof))
    (reached : calls.foldlM GeometryIterator.step .new = some iterator) (input : Reset)
    (whileNull : input.SaysEmpty (geometry.kind native atof) → iterator.iterator = .null) :
    ResetsCleanly iterator input :=
  (geometry.lawful native atof).resetsCleanly
    (nullIsFresh_of_history (fun _ => rfl) reached) whileNull

end Classes

/-- A triangle, of which a ring is announced, and then another text. -/
theorem resetsCleanly_triangle :
    ∃ iterator, [IteratorCall.reset (.binary (polygonValue
          (wkbPolygon .little [[(0, 0), (1, 0), (1, 1)]]))), .next PolygonCall.nextNumPoints].foldlM
        GeometryIterator.step (.new : GeometryIterator (GeometryClass.polygon.kind .little
          fun _ => 0)) = some iterator ∧
      ResetsCleanly iterator (.text ("POLYGON ((1 2))".toList.map code)) := by
  obtain ⟨iterator, reached⟩ := isSome_iff_exists.mp (by decide +kernel :
    ([IteratorCall.reset (.binary (polygonValue (wkbPolygon .little [[(0, 0), (1, 0), (1, 1)]]))),
      .next PolygonCall.nextNumPoints].foldlM GeometryIterator.step
        (.new : GeometryIterator (GeometryClass.polygon.kind .little fun _ => 0))).isSome = true)
  refine ⟨iterator, reached, ?_⟩
  refine resetsCleanly_of_whileNull .little (fun _ => 0) .polygon _ iterator reached _ ?_
  rintro ⟨rest, empty⟩
  have second : (lexemes ("POLYGON ((1 2))".toList.map code))[1]? = some .openParen := by
    decide +kernel
  rw [empty] at second
  cases second

/-- An iterator over a triangle accepts the empty polygon and still announces one ring, where a
fresh iterator announces none. -/
theorem reset_empty_keepsTriangle :
    ∃ iterator : GeometryIterator (polygonKind .little fun _ => 0),
      GeometryIterator.new.reset (.binary (polygonValue
        (wkbPolygon .little [[(0, 0), (1, 0), (1, 1)]]))) = some (.ok, iterator) ∧
      iterator.number = 1 ∧
      iterator.reset (.text ("POLYGON EMPTY".toList.map code)) = some (.ok, iterator) ∧
      GeometryIterator.new.reset (.text ("POLYGON EMPTY".toList.map code)) =
        some (.ok, (.new : GeometryIterator (polygonKind .little fun _ => 0))) ∧
      ¬ ResetsCleanly iterator (.text ("POLYGON EMPTY".toList.map code)) := by
  have stream : lexemes ("POLYGON EMPTY".toList.map code) = .typePolygon :: .empty :: [] := by
    decide +kernel
  have accepted (iterator : GeometryIterator (polygonKind .little fun _ => 0)) :
      iterator.reset (.text ("POLYGON EMPTY".toList.map code)) = some (.ok, iterator) := by
    have fresh := resetText_polygon_empty (fun _ => 0) stream
    simp only [GeometryIterator.reset, IteratorKind.read, polygonKind, fresh]
    rfl
  have triangle : ((GeometryIterator.new : GeometryIterator (polygonKind .little fun _ => 0)).reset
      (.binary (polygonValue (wkbPolygon .little [[(0, 0), (1, 0), (1, 1)]])))).map
        (Prod.map id GeometryIterator.number) = some (.ok, 1) := by decide +kernel
  obtain ⟨⟨rc, iterator⟩, reset, same⟩ := map_eq_some_iff.mp triangle
  obtain ⟨rfl, one⟩ := Prod.mk.injEq .. ▸ same
  refine ⟨iterator, reset, one, accepted iterator, accepted .new, ?_⟩
  intro cleanly
  obtain ⟨fresh, same, number, -⟩ := (cleanly _ _ (accepted iterator)).1 rfl
  rw [accepted] at same
  cases same
  cases one.symm.trans number

end DseDriver.Wkt
