import DseDriver.Lib.Iterators
import DseDriver.Geometry.PolygonRoundTrip
import DseDriver.Wkt.Grammar

/-!
# Reading an accepted text

A client of a text iterator knows how many rings or points there are and makes that many
calls.  The text iterators are stricter than the resets: they insist on the commas between
points and rings, leave a ring only behind a point, and a line string does not know where it
ends.  The texts for which both agree are described over their tokens.
-/

namespace DseDriver.Wkt

open Lib Geometry List Option

variable (atof : List UInt8 → Double)

/-! ## The client -/

/-- The values of the numbers of a point. -/
def pointValue (point : Item PointText) : Double × Double :=
  (atof point.value.1, atof point.value.2)

/-- The next point of a line string, if the call returns `CASS_OK`. -/
def readLinePoint (iterator : LineStringIterator) :
    Option ((Double × Double) × LineStringIterator) :=
  expectOk (iterator.nextPoint atof)

/-- The text is accepted, the announced number of calls gives its points, and the next one
the invalid state. -/
def LineStringAgrees (text : List UInt8) : Prop :=
  ∃ after points last, LineStringIterator.new.resetText atof text = some (.ok, after) ∧
    LineStringText (lexemes text) points ∧
    takeItems (readLinePoint atof) after.numPoints.toNat after =
      some (points.map (pointValue atof), last) ∧
    (last.nextPoint atof).map Prod.fst = some (.error .libInvalidState)

/-- The next point of a ring, if the call returns `CASS_OK`. -/
def readPoint (iterator : PolygonIterator) : Option ((Double × Double) × PolygonIterator) :=
  expectOk (iterator.nextPoint atof)

/-- The size of a ring and that many points, if all calls return `CASS_OK`. -/
def readRing (iterator : PolygonIterator) : Option (List (Double × Double) × PolygonIterator) := do
  let (numPoints, iterator) ← expectOk (iterator.nextNumPoints atof)
  takeItems (readPoint atof) numPoints.toNat iterator

/-- Both calls give the invalid state. -/
def PolygonEnds (iterator : PolygonIterator) : Prop :=
  (iterator.nextNumPoints atof).map Prod.fst = some (.error .libInvalidState) ∧
    (iterator.nextPoint atof).map Prod.fst = some (.error .libInvalidState)

/-- The text is accepted, the announced numbers of calls give its rings, and the next call
the invalid state. -/
def PolygonAgrees (text : List UInt8) : Prop :=
  ∃ after rings last, PolygonIterator.new.resetText atof text = some (.ok, after) ∧
    PolygonText (lexemes text) rings ∧
    takeItems (readRing atof) after.numRings.toNat after =
      some (rings.map fun ring => ring.value.map (pointValue atof), last) ∧
    PolygonEnds atof last

/-- A line string that its text iterator reads as the reset does. -/
inductive IterableLineString : List Lexeme → Prop where
  | empty (rest : List Lexeme) : IterableLineString (.typeLinestring :: .empty :: rest)
  | list {points : List (Item PointText)} {rest : List Lexeme} (separated : CommaSeparated points)
      (few : points.length < 2 ^ 32)
      (ends : points ≠ [] → ∀ digits tail, rest ≠ .number digits :: tail) :
      IterableLineString (.typeLinestring :: .openParen ::
        (listLexemes pointLexemes points ++ .closeParen :: rest))

/-- A ring that its text iterator can leave. -/
structure IterableRing (ring : RingText) : Prop where
  nonempty : ring ≠ []
  separated : CommaSeparated ring
  few : ring.length < 2 ^ 32

/-- A polygon that its text iterator reads as the reset does. -/
inductive IterablePolygon : List Lexeme → Prop where
  | empty (rest : List Lexeme) : IterablePolygon (.typePolygon :: .empty :: rest)
  | list {rings : List (Item RingText)} (rest : List Lexeme) (separated : CommaSeparated rings)
      (few : rings.length < 2 ^ 32) (inside : ∀ ring ∈ rings, IterableRing ring.value) :
      IterablePolygon (.typePolygon :: .openParen ::
        (listLexemes ringLexemes rings ++ .closeParen :: rest))

/-! ## Line strings -/

section LineString

variable {atof} {numPoints : UInt32} {lexer : WktLexer} {x y : List UInt8} {rest : List Lexeme}

variable {behind : Lexeme}

/-- A lexer reads a point and the token behind it. -/
theorem nextToken_point
    (stream : lexemes lexer.position = .number x :: .number y :: behind :: rest)
    (reads : lexer.skipNumber = false) :
    let first := lexer.nextToken atof
    let second := first.2.nextToken atof
    let third := second.2.nextToken atof
    first.1 = .number ∧ first.2.number = some (atof x) ∧ second.1 = .number ∧
      second.2.number = some (atof y) ∧ third.1 = behind.token ∧
      lexemes third.2.position = rest ∧ third.2.skipNumber = false := by
  obtain ⟨first, afterX, readsY, -⟩ := @WktLexer.nextToken_cons atof _ _ _ stream
  have readsY' := readsY.trans reads
  obtain ⟨second, afterY, readsBehind, -⟩ := @WktLexer.nextToken_cons atof _ _ _ afterX
  have readsBehind' := readsBehind.trans readsY'
  obtain ⟨third, afterBehind, still, -⟩ := @WktLexer.nextToken_cons atof _ _ _ afterY
  exact ⟨first, WktLexer.nextToken_number stream reads, second,
    WktLexer.nextToken_number afterX readsY', third, afterBehind, still.trans readsBehind'⟩

/-- A point is handed out if a comma or the closing parenthesis is behind it. -/
theorem nextPoint_line_point
    (stream : lexemes lexer.position = .number x :: .number y :: behind :: rest)
    (reads : lexer.skipNumber = false) :
    ∃ next, lexemes next.position = rest ∧ next.skipNumber = false ∧
      (LineStringIterator.mk numPoints (some ⟨lexer⟩)).nextPoint atof =
        if behind = .comma ∨ behind = .closeParen then
          some (.ok (atof x, atof y), ⟨numPoints, some ⟨next⟩⟩)
        else
          none := by
  obtain ⟨first, valueX, second, valueY, third, after, still⟩ :=
    @nextToken_point atof _ _ _ _ _ stream reads
  refine ⟨_, after, still, ?_⟩
  simp only [LineStringIterator.nextPoint, LineStringTextIterator.nextPoint, first, valueX, second,
    valueY, third]
  cases behind <;> simp [Lexeme.token]

theorem readLinePoint_point
    (stream : lexemes lexer.position = .number x :: .number y :: behind :: rest)
    (reads : lexer.skipNumber = false) :
    ∃ next, lexemes next.position = rest ∧ next.skipNumber = false ∧
      readLinePoint atof ⟨numPoints, some ⟨lexer⟩⟩ =
        if behind = .comma ∨ behind = .closeParen then
          some ((atof x, atof y), ⟨numPoints, some ⟨next⟩⟩)
        else
          none := by
  obtain ⟨next, after, still, result⟩ := @nextPoint_line_point atof numPoints _ _ _ _ _ stream reads
  refine ⟨next, after, still, ?_⟩
  rw [readLinePoint, result]
  split <;> rfl

/-- A call that does not find a number gives the invalid state. -/
theorem nextPoint_line_ends (ends : ∀ digits tail, lexemes lexer.position ≠ .number digits :: tail) :
    ((LineStringIterator.mk numPoints (some ⟨lexer⟩)).nextPoint atof).map Prod.fst =
      some (.error .libInvalidState) := by
  have token : (lexer.nextToken atof).1 ≠ .number := by
    intro isNumber
    obtain ⟨digits, stream⟩ := stream_of_number atof isNumber
    exact ends digits _ stream
  simp [LineStringIterator.nextPoint, LineStringTextIterator.nextPoint, token]

/-- A call that finds a number does not give the invalid state. -/
theorem nextPoint_line_reads (stream : lexemes lexer.position = .number x :: rest) :
    ((LineStringIterator.mk numPoints (some ⟨lexer⟩)).nextPoint atof).map Prod.fst ≠
      some (.error .libInvalidState) := by
  have token := nextToken_token atof stream
  simp only [LineStringIterator.nextPoint, LineStringTextIterator.nextPoint, token, Lexeme.token,
    ne_eq, not_true_eq_false, if_false]
  cases (lexer.nextToken atof).2.number with
  | none => simp
  | some x =>
    simp only [bind_eq_bind, bind_some]
    split
    · simp
    · cases ((lexer.nextToken atof).2.nextToken atof).2.number with
      | none => simp
      | some y =>
        simp only [bind_some]
        split <;> simp

variable {points : List (Item PointText)}

/-- Points between commas are handed out.  Then the iterator is behind the parenthesis, or
still before it if there was no point. -/
theorem takeItems_line (separated : CommaSeparated points)
    (stream : lexemes lexer.position = listLexemes pointLexemes points ++ .closeParen :: rest)
    (reads : lexer.skipNumber = false) :
    ∃ next : WktLexer, lexemes next.position = (if points = [] then .closeParen :: rest else rest) ∧
      takeItems (readLinePoint atof) points.length ⟨numPoints, some ⟨lexer⟩⟩ =
        some (points.map (pointValue atof), ⟨numPoints, some ⟨next⟩⟩) := by
  induction points generalizing lexer with
  | nil => exact ⟨lexer, stream, rfl⟩
  | cons point points ih =>
    obtain ⟨⟨x, y⟩, comma⟩ := point
    cases points with
    | nil =>
      cases separated
      obtain ⟨next, after, -, read⟩ := @readLinePoint_point atof numPoints _ _ _ _ _ stream reads
      exact ⟨next, after, takeItems_succ.mpr ⟨_, _, [], read.trans (if_pos (.inr rfl)), rfl, rfl⟩⟩
    | cons second points =>
      obtain ⟨rfl, others⟩ := separated
      rw [listLexemes_comma] at stream
      obtain ⟨middle, after, still, read⟩ :=
        @readLinePoint_point atof numPoints _ _ _ _ _ stream reads
      obtain ⟨next, behind, taken⟩ := ih others after still
      exact ⟨next, behind,
        takeItems_succ.mpr ⟨_, _, _, read.trans (if_pos (.inl rfl)), taken, rfl⟩⟩

/-- If all points are handed out, commas separate them. -/
theorem separated_of_takeItems_line (noTrailing : NoTrailingComma points)
    (stream : lexemes lexer.position = listLexemes pointLexemes points ++ .closeParen :: rest)
    (reads : lexer.skipNumber = false) {taken : List (Double × Double) × LineStringIterator}
    (result : takeItems (readLinePoint atof) points.length ⟨numPoints, some ⟨lexer⟩⟩ = some taken) :
    CommaSeparated points := by
  induction points generalizing lexer taken with
  | nil => trivial
  | cons point points ih =>
    obtain ⟨⟨x, y⟩, comma⟩ := point
    cases points with
    | nil => exact noTrailing
    | cons second points =>
      obtain ⟨items, last⟩ := taken
      obtain ⟨item, middle, others, first, later, -⟩ := takeItems_succ.mp result
      cases comma with
      | true =>
        rw [listLexemes_comma] at stream
        obtain ⟨next, after, still, read⟩ :=
          @readLinePoint_point atof numPoints _ _ _ _ _ stream reads
        rw [read, if_pos (.inl rfl)] at first
        cases first
        exact ⟨rfl, ih noTrailing after still later⟩
      | false =>
        rw [listLexemes_plain] at stream
        obtain ⟨next, after, still, read⟩ :=
          @readLinePoint_point atof numPoints _ _ _ _ _ stream reads
        rw [read] at first
        cases first

/-- The number of points that a client knows is the number of points there are. -/
theorem count_of_takeItems {σ : Type} {next : σ → Option ((Double × Double) × σ)} {state last : σ}
    (taken : takeItems next (UInt32.ofNat points.length).toNat state =
      some (points.map (pointValue atof), last)) :
    (UInt32.ofNat points.length).toNat = points.length ∧ points.length < 2 ^ 32 := by
  have count : points.length = (UInt32.ofNat points.length).toNat := by
    rw [← takeItems_length taken, length_map]
  refine ⟨count.symm, ?_⟩
  rw [count]
  exact UInt32.toNat_lt _

/-- A text agrees with its iteration only if the line string is iterable. -/
theorem LineStringAgrees.iterable {text : List UInt8} (agrees : LineStringAgrees atof text) :
    IterableLineString (lexemes text) := by
  obtain ⟨after, points, last, accepted, form, taken, ends⟩ := agrees
  generalize stream : lexemes text = tokens at form
  cases form with
  | empty rest => exact .empty rest
  | @list points rest noTrailing =>
    obtain ⟨lexer, reset, start, reads⟩ := resetText_lineString atof noTrailing stream
    rw [reset] at accepted
    cases accepted
    obtain ⟨count, few⟩ := count_of_takeItems taken
    replace taken : takeItems (readLinePoint atof) points.length _ = _ := count ▸ taken
    have separated := separated_of_takeItems_line noTrailing start reads taken
    obtain ⟨next, behind, result⟩ :=
      @takeItems_line atof (UInt32.ofNat points.length) _ _ _ separated start reads
    rw [result] at taken
    cases taken
    refine .list separated few ?_
    rintro nonempty digits tail rfl
    rw [if_neg nonempty] at behind
    exact nextPoint_line_reads behind ends

/-- An iterable line string agrees with its iteration. -/
theorem IterableLineString.agrees {text : List UInt8} (iterable : IterableLineString (lexemes text)) :
    LineStringAgrees atof text := by
  generalize stream : lexemes text = tokens at iterable
  cases iterable with
  | empty rest =>
    refine ⟨_, [], .new, resetText_lineString_empty atof stream, ?_, rfl, rfl⟩
    rw [stream]
    exact .empty rest
  | @list points rest separated few ends =>
    have noTrailing := separated.noTrailingComma
    obtain ⟨lexer, reset, start, reads⟩ := resetText_lineString atof noTrailing stream
    obtain ⟨next, behind, taken⟩ :=
      @takeItems_line atof (UInt32.ofNat points.length) _ _ _ separated start reads
    have count : (UInt32.ofNat points.length).toNat = points.length := by
      rw [UInt32.toNat_ofNat', Nat.mod_eq_of_lt few]
    refine ⟨_, points, _, reset, ?_, (congrArg (takeItems _ · _) count).trans taken, ?_⟩
    · rw [stream]
      exact .list rest noTrailing
    · apply nextPoint_line_ends
      intro digits tail equal
      rw [behind] at equal
      split at equal
      · cases equal
      · next nonempty => exact ends nonempty digits tail equal

end LineString

/-! ## Points of a ring -/

section Polygon

variable {atof} {numRings : UInt32} {lexer : WktLexer} {rest : List Lexeme}

/-- A point with a comma behind it is handed out, and the ring goes on. -/
theorem readPoint_comma {x y : List UInt8}
    (stream : lexemes lexer.position = .number x :: .number y :: .comma :: rest)
    (reads : lexer.skipNumber = false) :
    ∃ next, lexemes next.position = rest ∧ next.skipNumber = false ∧
      readPoint atof ⟨numRings, some ⟨.points, lexer⟩⟩ =
        some ((atof x, atof y), ⟨numRings, some ⟨.points, next⟩⟩) := by
  obtain ⟨first, valueX, second, valueY, third, after, still⟩ :=
    @nextToken_point atof _ _ _ _ _ stream reads
  refine ⟨_, after, still, ?_⟩
  simp [readPoint, PolygonIterator.nextPoint, PolygonIterator.dispatch,
    PolygonTextIterator.nextPoint, first, valueX, second, valueY, third, Lexeme.token, expectOk]

/-- The last point of a ring is handed out if a parenthesis or a comma is behind the ring. -/
theorem readPoint_last {x y : List UInt8} {behind : Lexeme}
    (stream : lexemes lexer.position = .number x :: .number y :: .closeParen :: behind :: rest)
    (reads : lexer.skipNumber = false) :
    ∃ next, lexemes next.position = rest ∧ next.skipNumber = false ∧
      readPoint atof ⟨numRings, some ⟨.points, lexer⟩⟩ =
        if behind = .closeParen then
          some ((atof x, atof y), ⟨numRings, some ⟨.done, next⟩⟩)
        else if behind = .comma then
          some ((atof x, atof y), ⟨numRings, some ⟨.numPoints, next⟩⟩)
        else
          none := by
  obtain ⟨first, valueX, second, valueY, third, afterRing, still⟩ :=
    @nextToken_point atof _ _ _ _ _ stream reads
  obtain ⟨last, after, stillLast, -⟩ := @WktLexer.nextToken_cons atof _ _ _ afterRing
  refine ⟨_, after, stillLast.trans still, ?_⟩
  simp only [readPoint, PolygonIterator.nextPoint, PolygonIterator.dispatch,
    PolygonTextIterator.nextPoint, first, valueX, second, valueY, third, last]
  cases behind <;> simp [Lexeme.token, expectOk]

/-- A point that another number follows is not handed out. -/
theorem readPoint_number {x y z : List UInt8}
    (stream : lexemes lexer.position = .number x :: .number y :: .number z :: rest)
    (reads : lexer.skipNumber = false) :
    readPoint atof ⟨numRings, some ⟨.points, lexer⟩⟩ = none := by
  obtain ⟨first, valueX, second, valueY, third, -⟩ :=
    @nextToken_point atof _ _ _ _ _ stream reads
  simp [readPoint, PolygonIterator.nextPoint, PolygonIterator.dispatch,
    PolygonTextIterator.nextPoint, first, valueX, second, valueY, third, Lexeme.token, expectOk]

/-- The state behind a ring, by the token that is there. -/
def stateBehind : Lexeme → Option PolygonIteratorState
  | .closeParen => some .done
  | .comma => some .numPoints
  | _ => none

/-- The points of a ring are handed out exactly if commas separate them and a parenthesis or
a comma is behind the ring. -/
theorem takeItems_ring {points : List (Item PointText)} (separated : CommaSeparated points)
    (nonempty : points ≠ []) {behind : Lexeme} {state : PolygonIteratorState}
    (known : stateBehind behind = some state)
    (stream : lexemes lexer.position =
      listLexemes pointLexemes points ++ .closeParen :: behind :: rest)
    (reads : lexer.skipNumber = false) :
    ∃ next : WktLexer, lexemes next.position = rest ∧ next.skipNumber = false ∧
      takeItems (readPoint atof) points.length ⟨numRings, some ⟨.points, lexer⟩⟩ =
        some (points.map (pointValue atof), ⟨numRings, some ⟨state, next⟩⟩) := by
  induction points generalizing lexer with
  | nil => exact absurd rfl nonempty
  | cons point points ih =>
    obtain ⟨⟨x, y⟩, comma⟩ := point
    cases points with
    | nil =>
      cases separated
      obtain ⟨next, after, still, read⟩ := @readPoint_last atof numRings _ _ _ _ _ stream reads
      refine ⟨next, after, still, takeItems_succ.mpr ⟨_, _, [], read.trans ?_, rfl, rfl⟩⟩
      cases behind <;> cases known <;> rfl
    | cons second points =>
      obtain ⟨rfl, others⟩ := separated
      rw [listLexemes_comma] at stream
      obtain ⟨middle, after, still, read⟩ :=
        @readPoint_comma atof numRings _ _ _ _ stream reads
      obtain ⟨next, behindRing, stillRing, taken⟩ := ih others (by simp) after still
      exact ⟨next, behindRing, stillRing, takeItems_succ.mpr ⟨_, _, _, read, taken, rfl⟩⟩

theorem separated_of_takeItems_ring {points : List (Item PointText)}
    (noTrailing : NoTrailingComma points) (nonempty : points ≠ []) {behind : Lexeme}
    (stream : lexemes lexer.position =
      listLexemes pointLexemes points ++ .closeParen :: behind :: rest)
    (reads : lexer.skipNumber = false) {taken : List (Double × Double) × PolygonIterator}
    (result : takeItems (readPoint atof) points.length ⟨numRings, some ⟨.points, lexer⟩⟩ =
      some taken) :
    CommaSeparated points ∧ ∃ state, stateBehind behind = some state := by
  induction points generalizing lexer taken with
  | nil => exact absurd rfl nonempty
  | cons point points ih =>
    obtain ⟨⟨x, y⟩, comma⟩ := point
    obtain ⟨items, last⟩ := taken
    obtain ⟨item, middle, others, first, later, -⟩ := takeItems_succ.mp result
    cases points with
    | nil =>
      refine ⟨noTrailing, ?_⟩
      cases noTrailing
      obtain ⟨next, after, still, read⟩ := @readPoint_last atof numRings _ _ _ _ _ stream reads
      rw [read] at first
      cases behind <;> first | exact ⟨_, rfl⟩ | cases first
    | cons second points =>
      cases comma with
      | true =>
        rw [listLexemes_comma] at stream
        obtain ⟨next, after, still, read⟩ :=
          @readPoint_comma atof numRings _ _ _ _ stream reads
        rw [read] at first
        cases first
        obtain ⟨separated, state⟩ := ih noTrailing (by simp) after still later
        exact ⟨⟨rfl, separated⟩, state⟩
      | false =>
        rw [listLexemes_plain] at stream
        rw [readPoint_number stream reads] at first
        cases first

/-! ## Rings -/

/-- At a ring, its size is announced and its points are read. -/
theorem readRing_ring {points : RingText} (noTrailing : NoTrailingComma points)
    (stream : lexemes lexer.position =
      .openParen :: (listLexemes pointLexemes points ++ .closeParen :: rest))
    (reads : lexer.skipNumber = false) :
    ∃ next : WktLexer,
      lexemes next.position = listLexemes pointLexemes points ++ .closeParen :: rest ∧
      next.skipNumber = false ∧
      readRing atof ⟨numRings, some ⟨.numPoints, lexer⟩⟩ =
        takeItems (readPoint atof) (UInt32.ofNat points.length).toNat
          ⟨numRings, some ⟨.points, next⟩⟩ := by
  obtain ⟨opening, afterOpen, still, -⟩ := @WktLexer.nextToken_cons atof _ _ _ stream
  have ahead : lexemes ((lexer.nextToken atof).2.copy true).position =
      listLexemes pointLexemes points ++ .closeParen :: rest := afterOpen
  obtain ⟨_, scanned, -⟩ := scanPoints_complete atof noTrailing ahead 0
  refine ⟨_, afterOpen, still.trans reads, ?_⟩
  simp [readRing, PolygonIterator.nextNumPoints, PolygonIterator.dispatch,
    PolygonTextIterator.nextNumPoints, opening, scanned, Lexeme.token, expectOk]

/-- A ring is not announced inside of another one. -/
theorem readRing_inside : readRing atof ⟨numRings, some ⟨.points, lexer⟩⟩ = none := by
  simp [readRing, PolygonIterator.nextNumPoints, PolygonIterator.dispatch,
    PolygonTextIterator.nextNumPoints, expectOk]

theorem polygonEnds_done : PolygonEnds atof ⟨numRings, some ⟨.done, lexer⟩⟩ := by
  simp [PolygonEnds, PolygonIterator.nextNumPoints, PolygonIterator.nextPoint,
    PolygonIterator.dispatch, PolygonTextIterator.nextNumPoints, PolygonTextIterator.nextPoint]

theorem polygonEnds_closing (stream : lexemes lexer.position = .closeParen :: rest) :
    PolygonEnds atof ⟨numRings, some ⟨.numPoints, lexer⟩⟩ := by
  have token := nextToken_token atof stream
  simp [PolygonEnds, PolygonIterator.nextNumPoints, PolygonIterator.nextPoint,
    PolygonIterator.dispatch, PolygonTextIterator.nextNumPoints, PolygonTextIterator.nextPoint,
    token, Lexeme.token]

/-- An iterator that waits for a point does not end: it insists on one. -/
theorem not_polygonEnds_points : ¬ PolygonEnds atof ⟨numRings, some ⟨.points, lexer⟩⟩ := by
  rintro ⟨-, ends⟩
  simp only [PolygonIterator.nextPoint, PolygonIterator.dispatch, PolygonTextIterator.nextPoint,
    ne_eq, not_true_eq_false, if_false] at ends
  split at ends
  · cases ends
  · cases valueX : (lexer.nextToken atof).2.number with
    | none => simp [valueX] at ends
    | some x =>
      simp only [valueX, bind_eq_bind, bind_some] at ends
      split at ends
      · cases ends
      · cases valueY : ((lexer.nextToken atof).2.nextToken atof).2.number with
        | none => simp [valueY] at ends
        | some y =>
          simp only [valueY, bind_some] at ends
          repeat' split at ends
          all_goals cases ends

/-- The tokens of a ring and of what is behind it. -/
theorem rings_cons_lexemes (points : RingText) (comma : Bool) (rings : List (Item RingText)) :
    listLexemes ringLexemes (⟨points, comma⟩ :: rings) ++ rest =
      .openParen :: (listLexemes pointLexemes points ++ .closeParen ::
        ((if comma then [.comma] else []) ++ (listLexemes ringLexemes rings ++ rest))) := by
  simp [listLexemes, ringLexemes]

/-- Iterable rings between commas are read, and the iteration ends behind them. -/
theorem takeItems_rings {rings : List (Item RingText)} (separated : CommaSeparated rings)
    (iterable : ∀ ring ∈ rings, IterableRing ring.value)
    (stream : lexemes lexer.position = listLexemes ringLexemes rings ++ .closeParen :: rest)
    (reads : lexer.skipNumber = false) :
    ∃ last, takeItems (readRing atof) rings.length ⟨numRings, some ⟨.numPoints, lexer⟩⟩ =
        some (rings.map fun ring => ring.value.map (pointValue atof), last) ∧
      PolygonEnds atof last := by
  induction rings generalizing lexer with
  | nil => exact ⟨_, rfl, polygonEnds_closing stream⟩
  | cons ring rings ih =>
    obtain ⟨points, comma⟩ := ring
    have ring : IterableRing points := iterable _ mem_cons_self
    have others := fun other member => iterable other (mem_cons_of_mem _ member)
    have count : (UInt32.ofNat points.length).toNat = points.length := by
      rw [UInt32.toNat_ofNat', Nat.mod_eq_of_lt ring.few]
    rw [rings_cons_lexemes] at stream
    obtain ⟨next, start, still, announced⟩ :=
      @readRing_ring atof numRings _ _ _ ring.separated.noTrailingComma stream reads
    rw [count] at announced
    cases rings with
    | nil =>
      cases separated
      obtain ⟨last, -, -, taken⟩ :=
        @takeItems_ring atof numRings _ _ _ ring.separated ring.nonempty .closeParen _ rfl start
          still
      exact ⟨_, takeItems_succ.mpr ⟨_, _, [], announced.trans taken, rfl, rfl⟩, polygonEnds_done⟩
    | cons second rings =>
      obtain ⟨rfl, separatedOthers⟩ := separated
      obtain ⟨middle, after, stillMiddle, taken⟩ :=
        @takeItems_ring atof numRings _ _ _ ring.separated ring.nonempty .comma _ rfl start still
      obtain ⟨last, takenOthers, ends⟩ := ih separatedOthers others after stillMiddle
      exact ⟨last, takeItems_succ.mpr ⟨_, _, _, announced.trans taken, takenOthers, rfl⟩, ends⟩

/-- If all rings are read and the iteration ends, the rings are iterable and between commas. -/
theorem iterable_of_takeItems_rings {rings : List (Item RingText)}
    (noTrailing : NoTrailingComma rings) (inside : ∀ ring ∈ rings, NoTrailingComma ring.value)
    (stream : lexemes lexer.position = listLexemes ringLexemes rings ++ .closeParen :: rest)
    (reads : lexer.skipNumber = false) {last : PolygonIterator}
    (result : takeItems (readRing atof) rings.length ⟨numRings, some ⟨.numPoints, lexer⟩⟩ =
      some (rings.map fun ring => ring.value.map (pointValue atof), last))
    (ends : PolygonEnds atof last) :
    CommaSeparated rings ∧ ∀ ring ∈ rings, IterableRing ring.value := by
  induction rings generalizing lexer with
  | nil => exact ⟨trivial, by simp⟩
  | cons ring rings ih =>
    obtain ⟨points, comma⟩ := ring
    have inRing : NoTrailingComma points := inside _ mem_cons_self
    have others := fun other member => inside other (mem_cons_of_mem _ member)
    rw [rings_cons_lexemes] at stream
    obtain ⟨next, start, still, announced⟩ :=
      @readRing_ring atof numRings _ _ _ inRing stream reads
    obtain ⟨values, middle, otherValues, first, later, same⟩ := takeItems_succ.mp result
    rw [map_cons, List.cons.injEq] at same
    obtain ⟨rfl, rfl⟩ := same
    rw [announced] at first
    obtain ⟨count, few⟩ := count_of_takeItems first
    rw [count] at first
    -- A ring without points leaves the iterator waiting for one.
    have nonempty : points ≠ [] := by
      rintro rfl
      cases first
      cases rings with
      | nil =>
        cases later
        exact not_polygonEnds_points ends
      | cons second rings =>
        obtain ⟨_, _, _, impossible, -⟩ := takeItems_succ.mp later
        rw [readRing_inside] at impossible
        cases impossible
    cases rings with
    | nil =>
      cases noTrailing
      obtain ⟨separated, -⟩ := separated_of_takeItems_ring inRing nonempty start still first
      exact ⟨rfl, by simpa using ⟨nonempty, separated, few⟩⟩
    | cons second rings =>
      cases comma with
      | false =>
        obtain ⟨-, state, impossible⟩ :=
          separated_of_takeItems_ring inRing nonempty start still first
        cases impossible
      | true =>
        obtain ⟨separated, -⟩ := separated_of_takeItems_ring inRing nonempty start still first
        obtain ⟨after, behind, stillBehind, taken⟩ :=
          @takeItems_ring atof numRings _ _ _ separated nonempty .comma _ rfl start still
        rw [taken] at first
        cases first
        obtain ⟨separatedOthers, iterableOthers⟩ := ih noTrailing others behind stillBehind later
        exact ⟨⟨rfl, separatedOthers⟩,
          forall_mem_cons.mpr ⟨⟨nonempty, separated, few⟩, iterableOthers⟩⟩

/-- A text agrees with its iteration only if the polygon is iterable. -/
theorem PolygonAgrees.iterable {text : List UInt8} (agrees : PolygonAgrees atof text) :
    IterablePolygon (lexemes text) := by
  obtain ⟨after, rings, last, accepted, form, taken, ends⟩ := agrees
  generalize stream : lexemes text = tokens at form
  cases form with
  | empty rest => exact .empty rest
  | @list rings rest noTrailing inside =>
    obtain ⟨lexer, reset, start, reads⟩ := resetText_polygon atof noTrailing inside stream
    rw [reset] at accepted
    cases accepted
    have count : rings.length = (UInt32.ofNat rings.length).toNat := by
      have length := takeItems_length taken
      rwa [length_map] at length
    have few : rings.length < 2 ^ 32 := by
      rw [count]
      exact UInt32.toNat_lt _
    obtain ⟨separated, iterable⟩ := iterable_of_takeItems_rings noTrailing inside start reads
      ((congrArg (takeItems _ · _) count).trans taken) ends
    exact .list rest separated few iterable

/-- An iterable polygon agrees with its iteration. -/
theorem IterablePolygon.agrees {text : List UInt8} (iterable : IterablePolygon (lexemes text)) :
    PolygonAgrees atof text := by
  generalize stream : lexemes text = tokens at iterable
  cases iterable with
  | empty rest =>
    refine ⟨_, [], .new, resetText_polygon_empty atof stream, ?_, rfl, rfl, rfl⟩
    rw [stream]
    exact .empty rest
  | @list rings rest separated few iterable =>
    have noTrailing := separated.noTrailingComma
    have inside : ∀ ring ∈ rings, NoTrailingComma ring.value :=
      fun ring member => (iterable ring member).separated.noTrailingComma
    obtain ⟨lexer, reset, start, reads⟩ := resetText_polygon atof noTrailing inside stream
    obtain ⟨last, taken, ends⟩ :=
      @takeItems_rings atof (UInt32.ofNat rings.length) _ _ _ separated iterable start reads
    have count : (UInt32.ofNat rings.length).toNat = rings.length := by
      rw [UInt32.toNat_ofNat', Nat.mod_eq_of_lt few]
    refine ⟨_, rings, last, reset, ?_, (congrArg (takeItems _ · _) count).trans taken, ends⟩
    rw [stream]
    exact .list rest noTrailing inside

end Polygon

/-- An accepted text is iterated as it was validated exactly if commas separate its points
and rings, no ring is empty, no count overflows, and no number follows a line string. -/
theorem wkt_agrees_iff (text : List UInt8) :
    (∀ after, LineStringIterator.new.resetText atof text = some (.ok, after) →
        (LineStringAgrees atof text ↔ IterableLineString (lexemes text))) ∧
      ∀ after, PolygonIterator.new.resetText atof text = some (.ok, after) →
        (PolygonAgrees atof text ↔ IterablePolygon (lexemes text)) :=
  ⟨fun _ _ => ⟨LineStringAgrees.iterable, IterableLineString.agrees⟩,
    fun _ _ => ⟨PolygonAgrees.iterable, IterablePolygon.agrees⟩⟩

theorem wkt_agrees_sample :
    LineStringAgrees (fun _ => 0) ("LINESTRING (1 2, 3 4)".toList.map code) ∧
      PolygonAgrees (fun _ => 0) ("POLYGON ((1 2))".toList.map code) := by
  have line : lexemes ("LINESTRING (1 2, 3 4)".toList.map code) =
      .typeLinestring :: .openParen :: (listLexemes pointLexemes
        [⟨([code '1'], [code '2']), true⟩, ⟨([code '3'], [code '4']), false⟩] ++
          .closeParen :: []) := by decide +kernel
  have rings : lexemes ("POLYGON ((1 2))".toList.map code) = .typePolygon :: .openParen ::
      (listLexemes ringLexemes [⟨[⟨([code '1'], [code '2']), false⟩], false⟩] ++
        .closeParen :: []) := by decide +kernel
  have pointsSeparated : CommaSeparated (α := PointText)
      [⟨([code '1'], [code '2']), true⟩, ⟨([code '3'], [code '4']), false⟩] := ⟨rfl, rfl⟩
  have ringSeparated : CommaSeparated (α := RingText)
      [⟨[⟨([code '1'], [code '2']), false⟩], false⟩] := rfl
  have inside : ∀ ring ∈ ([⟨[⟨([code '1'], [code '2']), false⟩], false⟩] : List (Item RingText)),
      IterableRing ring.value := by
    simp only [mem_singleton, forall_eq]
    exact ⟨by simp, rfl, by simp⟩
  obtain ⟨_, lineAccepted, -⟩ :=
    resetText_lineString (fun _ => 0) pointsSeparated.noTrailingComma line
  obtain ⟨_, ringsAccepted, -⟩ := resetText_polygon (fun _ => 0) ringSeparated.noTrailingComma
    (fun ring member => (inside ring member).separated.noTrailingComma) rings
  constructor
  · apply ((wkt_agrees_iff _ _).1 _ lineAccepted).mpr
    rw [line]
    exact .list pointsSeparated (by simp) (by simp)
  · apply ((wkt_agrees_iff _ _).2 _ ringsAccepted).mpr
    rw [rings]
    exact .list [] ringSeparated (by simp) inside

/-- Two points without a comma between them are accepted, and the first call of the iterator
fails an assertion. -/
theorem wkt_missingComma_fails :
    (∃ after, LineStringIterator.new.resetText (fun _ => 0)
          ("LINESTRING (1 2 3 4)".toList.map code) = some (.ok, after) ∧
        after.numPoints = 2 ∧ after.nextPoint (fun _ => 0) = none) ∧
      ¬ LineStringAgrees (fun _ => 0) ("LINESTRING (1 2 3 4)".toList.map code) := by
  have line : lexemes ("LINESTRING (1 2 3 4)".toList.map code) =
      .typeLinestring :: .openParen :: (listLexemes pointLexemes
        [⟨([code '1'], [code '2']), false⟩, ⟨([code '3'], [code '4']), false⟩] ++
          .closeParen :: []) := by decide +kernel
  have separated : NoTrailingComma (α := PointText)
      [⟨([code '1'], [code '2']), false⟩, ⟨([code '3'], [code '4']), false⟩] := rfl
  obtain ⟨lexer, accepted, start, reads⟩ := resetText_lineString (fun _ => 0) separated line
  obtain ⟨_, _, _, result⟩ := nextPoint_line_point start reads
  refine ⟨⟨_, accepted, rfl, result⟩, ?_⟩
  rintro ⟨after, points, last, accepted', -, taken, -⟩
  rw [accepted] at accepted'
  cases accepted'
  obtain ⟨_, _, _, first, -⟩ := takeItems_succ.mp taken
  rw [readLinePoint, result] at first
  cases first

end DseDriver.Wkt
