import DseDriver.Wkt.Iterators

/-!
# What the text resets accept

The grammar of the texts is stated over the stream of tokens: lists of points and of rings in
parentheses, possibly empty, in which a comma may stand between two parts.  The loops of the
resets accept exactly the texts that start with such a geometry and count its parts.
-/

namespace DseDriver.Wkt

open Lib Geometry List

/-! ## Grammar -/

/-- A part of a list, and whether a comma stands behind it. -/
structure Item (α : Type) where
  value : α
  comma : Bool
  deriving DecidableEq, Repr

variable {α : Type}

/-- A list of parts, one after the other. -/
def listLexemes (part : α → List Lexeme) (items : List (Item α)) : List Lexeme :=
  items.flatMap fun item => part item.value ++ if item.comma then [.comma] else []

/-- There is a part behind every comma. -/
def NoTrailingComma : List (Item α) → Prop
  | [] => True
  | [item] => item.comma = false
  | _ :: next :: items => NoTrailingComma (next :: items)

/-- There is a comma between any two parts, and none behind the last. -/
def CommaSeparated : List (Item α) → Prop
  | [] => True
  | [item] => item.comma = false
  | item :: next :: items => item.comma = true ∧ CommaSeparated (next :: items)

/-- The characters of the two numbers of a point. -/
abbrev PointText := List UInt8 × List UInt8

def pointLexemes (point : PointText) : List Lexeme :=
  [.number point.1, .number point.2]

abbrev RingText := List (Item PointText)

def ringLexemes (ring : RingText) : List Lexeme :=
  .openParen :: (listLexemes pointLexemes ring ++ [.closeParen])

/-- The stream starts with a line string of the given points. -/
inductive LineStringText : List Lexeme → List (Item PointText) → Prop where
  | empty (rest : List Lexeme) : LineStringText (.typeLinestring :: .empty :: rest) []
  | list {points : List (Item PointText)} (rest : List Lexeme)
      (separated : NoTrailingComma points) :
      LineStringText (.typeLinestring :: .openParen ::
        (listLexemes pointLexemes points ++ .closeParen :: rest)) points

/-- The stream starts with a polygon of the given rings. -/
inductive PolygonText : List Lexeme → List (Item RingText) → Prop where
  | empty (rest : List Lexeme) : PolygonText (.typePolygon :: .empty :: rest) []
  | list {rings : List (Item RingText)} (rest : List Lexeme) (separated : NoTrailingComma rings)
      (inside : ∀ ring ∈ rings, NoTrailingComma ring.value) :
      PolygonText (.typePolygon :: .openParen ::
        (listLexemes ringLexemes rings ++ .closeParen :: rest)) rings

theorem listLexemes_comma (part : α → List Lexeme) (value : α) (items : List (Item α)) :
    listLexemes part (⟨value, true⟩ :: items) =
      part value ++ .comma :: listLexemes part items := by
  simp [listLexemes]

theorem listLexemes_plain (part : α → List Lexeme) (value : α) (items : List (Item α)) :
    listLexemes part (⟨value, false⟩ :: items) = part value ++ listLexemes part items := by
  simp [listLexemes]

variable {items : List (Item α)}

theorem NoTrailingComma.tail {item : Item α} (separated : NoTrailingComma (item :: items)) :
    NoTrailingComma items := by
  cases items with
  | nil => trivial
  | cons next items => exact separated

/-- A part is behind a comma. -/
theorem NoTrailingComma.next {value : α} (separated : NoTrailingComma (⟨value, true⟩ :: items)) :
    ∃ next others, items = next :: others := by
  cases items with
  | nil => cases separated
  | cons next others => exact ⟨next, others, rfl⟩

theorem NoTrailingComma.plain {value : α} (separated : NoTrailingComma items) :
    NoTrailingComma (⟨value, false⟩ :: items) := by
  cases items with
  | nil => rfl
  | cons next items => exact separated

theorem CommaSeparated.noTrailingComma (separated : CommaSeparated items) :
    NoTrailingComma items := by
  induction items with
  | nil => trivial
  | cons item items ih =>
    cases items with
    | nil => exact separated
    | cons next items => exact ih separated.2

namespace Lexeme

variable {lexeme : Lexeme}

theorem token_ne_eof : lexeme.token ≠ .eof := by
  cases lexeme <;> simp [token]

theorem token_eq_number : lexeme.token = .number ↔ ∃ digits, lexeme = .number digits := by
  cases lexeme <;> simp [token]

/-- Only numbers carry more than their token. -/
theorem eq_of_token {expected : Lexeme} (notNumber : expected.token ≠ .number)
    (same : lexeme.token = expected.token) : lexeme = expected := by
  cases lexeme <;> cases expected <;> simp_all [token]

end Lexeme

variable (atof : List UInt8 → Double) {lexer : WktLexer}

/-- The token of a call, if the stream is known. -/
theorem nextToken_token {lexeme : Lexeme} {rest : List Lexeme}
    (stream : lexemes lexer.position = lexeme :: rest) :
    (lexer.nextToken atof).1 = lexeme.token :=
  (WktLexer.nextToken_cons stream).1

/-- The stream behind the token of a call. -/
theorem nextToken_stream {lexeme : Lexeme} {rest : List Lexeme}
    (stream : lexemes lexer.position = lexeme :: rest) :
    lexemes (lexer.nextToken atof).2.position = rest :=
  (WktLexer.nextToken_cons stream).2.1

/-- A number that is read was the next token of the stream. -/
theorem stream_of_number (token : (lexer.nextToken atof).1 = .number) :
    ∃ digits, lexemes lexer.position =
      .number digits :: lexemes (lexer.nextToken atof).2.position := by
  obtain ⟨lexeme, same, stream⟩ := WktLexer.lexemes_of_nextToken
    (fun ends => by simp [token] at ends : (lexer.nextToken atof).1 ≠ .eof)
  obtain ⟨digits, rfl⟩ := Lexeme.token_eq_number.mp (same.trans token)
  exact ⟨digits, stream⟩

/-- Every other token that is read was the next one of the stream. -/
theorem stream_of_token (expected : Lexeme) (notNumber : expected.token ≠ .number)
    (token : (lexer.nextToken atof).1 = expected.token) :
    lexemes lexer.position = expected :: lexemes (lexer.nextToken atof).2.position := by
  obtain ⟨lexeme, same, stream⟩ := WktLexer.lexemes_of_nextToken
    (fun ends => Lexeme.token_ne_eof (token.symm.trans ends) : (lexer.nextToken atof).1 ≠ .eof)
  rw [stream, Lexeme.eq_of_token notNumber (same.trans token)]

/-! ## Points -/

/-- The first token of a list of points and what closes it. -/
theorem points_head {points : List (Item PointText)} {rest : List Lexeme} :
    ∃ head tail, listLexemes pointLexemes points ++ .closeParen :: rest = head :: tail ∧
      head ≠ .comma := by
  cases points with
  | nil => exact ⟨.closeParen, rest, rfl, by simp⟩
  | cons point points => exact ⟨.number point.value.1, _, rfl, by simp⟩

/-- The loop over one point: how it goes on behind the point. -/
theorem scanPoints_point {y : List UInt8} {tail : List Lexeme}
    (stream : lexemes lexer.position = .number y :: tail) (numPoints : UInt32) :
    scanPoints atof lexer .number numPoints =
      let third := (lexer.nextToken atof).2.nextToken atof
      if third.1 = .comma then
        let first := third.2.nextToken atof
        if first.1 ≠ .number then none else scanPoints atof first.2 first.1 (numPoints + 1)
      else
        scanPoints atof third.2 third.1 (numPoints + 1) := by
  have second := nextToken_token atof stream
  rw [scanPoints]
  simp [second, Lexeme.token]

/-- One more item is counted. -/
theorem add_length_cons {α : Type} (count : UInt32) (item : α) (items : List α) :
    count + UInt32.ofNat (item :: items).length = count + 1 + UInt32.ofNat items.length := by
  rw [length_cons, UInt32.ofNat_add, UInt32.add_comm (UInt32.ofNat _), ← UInt32.add_assoc]
  rfl

/-- A list of points is read up to the parenthesis behind it. -/
theorem scanPoints_complete {points : List (Item PointText)} (separated : NoTrailingComma points)
    {rest : List Lexeme}
    (stream : lexemes lexer.position = listLexemes pointLexemes points ++ .closeParen :: rest)
    (numPoints : UInt32) :
    ∃ next, scanPoints atof (lexer.nextToken atof).2 (lexer.nextToken atof).1 numPoints =
        some (.closeParen, numPoints + UInt32.ofNat points.length, next) ∧
      lexemes next.position = rest := by
  induction points generalizing lexer numPoints with
  | nil =>
    refine ⟨_, ?_, nextToken_stream atof stream⟩
    rw [nextToken_token atof stream, scanPoints]
    simp [Lexeme.token]
  | cons point points ih =>
    obtain ⟨⟨x, y⟩, comma⟩ := point
    rw [add_length_cons]
    cases comma with
    | true =>
      rw [listLexemes_comma] at stream
      have first := nextToken_token atof stream
      have afterX := nextToken_stream atof stream
      have afterY := nextToken_stream atof afterX
      have third := nextToken_token atof afterY
      have afterComma := nextToken_stream atof afterY
      obtain ⟨next, others, rfl⟩ := separated.next
      have again := nextToken_token atof afterComma
      rw [first, Lexeme.token, scanPoints_point atof afterX]
      simp only [third, again, Lexeme.token]
      simpa [again, Lexeme.token] using ih separated.tail afterComma (numPoints + 1)
    | false =>
      rw [listLexemes_plain] at stream
      have first := nextToken_token atof stream
      have afterX := nextToken_stream atof stream
      have afterY := nextToken_stream atof afterX
      obtain ⟨head, tail, split, notComma⟩ := @points_head points rest
      have third : (((lexer.nextToken atof).2.nextToken atof).2.nextToken atof).1 ≠ .comma := by
        rw [nextToken_token atof (afterY.trans split)]
        exact fun equal => notComma (Lexeme.eq_of_token (by decide) equal)
      rw [first, Lexeme.token, scanPoints_point atof afterX]
      simp only [third, if_false]
      exact ih separated.tail afterY (numPoints + 1)

/-- What is read up to a closing parenthesis is a list of points. -/
theorem scanPoints_sound {lexer next : WktLexer} {token : Token} {numPoints count : UInt32}
    (scanned : scanPoints atof lexer token numPoints = some (.closeParen, count, next))
    {current : Lexeme} (isCurrent : current.token = token) :
    ∃ points : List (Item PointText), NoTrailingComma points ∧
      current :: lexemes lexer.position =
        listLexemes pointLexemes points ++ .closeParen :: lexemes next.position := by
  fun_induction scanPoints atof lexer token numPoints generalizing current with
  | case1 lexer token numPoints ends =>
    cases scanned
    have closing : current = .closeParen := Lexeme.eq_of_token (by decide) isCurrent
    exact ⟨[], trivial, by rw [closing]; rfl⟩
  | case2 => cases scanned
  | case3 => cases scanned
  | case4 => cases scanned
  | case5 lexer token numPoints _ isNumber second secondNumber third isComma first firstNumber =>
    rename_i ih
    obtain ⟨x, rfl⟩ := Lexeme.token_eq_number.mp (isCurrent.trans (not_not.mp isNumber))
    obtain ⟨y, afterX⟩ := stream_of_number atof (not_not.mp secondNumber)
    have afterY := stream_of_token atof .comma (by decide) isComma
    obtain ⟨x', afterComma⟩ := stream_of_number atof (not_not.mp firstNumber)
    have again : (Lexeme.number x').token = first.1 := (not_not.mp firstNumber).symm
    obtain ⟨points, separated, split⟩ := ih scanned again
    cases points with
    | nil => cases split
    | cons next points =>
      refine ⟨⟨(x, y), true⟩ :: next :: points, separated, ?_⟩
      rw [afterX, afterY, afterComma, split, listLexemes_comma]
      rfl
  | case6 lexer token numPoints _ isNumber second secondNumber third notComma =>
    rename_i ih
    obtain ⟨x, rfl⟩ := Lexeme.token_eq_number.mp (isCurrent.trans (not_not.mp isNumber))
    obtain ⟨y, afterX⟩ := stream_of_number atof (not_not.mp secondNumber)
    have more : third.1 ≠ .eof := by
      intro ends
      rw [ends, scanPoints, if_pos (.inl rfl)] at scanned
      cases scanned
    obtain ⟨lexeme, same, afterY⟩ := WktLexer.lexemes_of_nextToken more
    obtain ⟨points, separated, split⟩ := ih scanned same
    refine ⟨⟨(x, y), false⟩ :: points, separated.plain, ?_⟩
    rw [afterX, afterY, split, listLexemes_plain]
    rfl

/-- The same for a loop that also reads its first token. -/
theorem scanPoints_next_sound {lexer next : WktLexer} {count : UInt32}
    (scanned : scanPoints atof (lexer.nextToken atof).2 (lexer.nextToken atof).1 0 =
      some (.closeParen, count, next)) :
    ∃ points : List (Item PointText), NoTrailingComma points ∧
      lexemes lexer.position =
        listLexemes pointLexemes points ++ .closeParen :: lexemes next.position := by
  have more : (lexer.nextToken atof).1 ≠ .eof := by
    intro ends
    rw [ends, scanPoints, if_pos (.inl rfl)] at scanned
    cases scanned
  obtain ⟨lexeme, same, stream⟩ := WktLexer.lexemes_of_nextToken more
  obtain ⟨points, separated, split⟩ := scanPoints_sound atof scanned same
  exact ⟨points, separated, stream.trans split⟩

/-! ## Rings -/

/-- The loop over one ring: how it goes on behind the ring. -/
theorem scanRings_ring {lexer next : WktLexer} {count : UInt32}
    (ring : scanPoints atof (lexer.nextToken atof).2 (lexer.nextToken atof).1 0 =
      some (.closeParen, count, next)) (numRings : UInt32) :
    scanRings atof lexer .openParen numRings =
      let behind := next.nextToken atof
      if behind.1 = .comma then
        let opening := behind.2.nextToken atof
        if opening.1 ≠ .openParen then none else scanRings atof opening.2 opening.1 (numRings + 1)
      else
        scanRings atof behind.2 behind.1 (numRings + 1) := by
  rw [scanRings]
  simp only [reduceCtorEq, or_self, if_false, ne_eq, not_true_eq_false]
  split
  · next none => rw [ring] at none; cases none
  · next scanned =>
      rw [ring] at scanned
      cases scanned
      simp

/-- The first token of a list of rings and what closes it. -/
theorem rings_head {rings : List (Item RingText)} {rest : List Lexeme} :
    ∃ head tail, listLexemes ringLexemes rings ++ .closeParen :: rest = head :: tail ∧
      head ≠ .comma := by
  cases rings with
  | nil => exact ⟨.closeParen, rest, rfl, by simp⟩
  | cons ring rings => exact ⟨.openParen, _, rfl, by simp⟩

/-- A list of rings is read up to the parenthesis behind it. -/
theorem scanRings_complete {rings : List (Item RingText)} (separated : NoTrailingComma rings)
    (inside : ∀ ring ∈ rings, NoTrailingComma ring.value) {rest : List Lexeme}
    (stream : lexemes lexer.position = listLexemes ringLexemes rings ++ .closeParen :: rest)
    (numRings : UInt32) :
    scanRings atof (lexer.nextToken atof).2 (lexer.nextToken atof).1 numRings =
      some (.closeParen, numRings + UInt32.ofNat rings.length) := by
  induction rings generalizing lexer numRings with
  | nil =>
    rw [nextToken_token atof stream, scanRings]
    simp [Lexeme.token]
  | cons ring rings ih =>
    obtain ⟨points, comma⟩ := ring
    have points_separated : NoTrailingComma points := inside _ mem_cons_self
    have others := fun other member => inside other (mem_cons_of_mem _ member)
    rw [add_length_cons]
    cases comma with
    | true =>
      rw [listLexemes_comma, ringLexemes, cons_append, cons_append, append_assoc,
        append_assoc] at stream
      have opening := nextToken_token atof stream
      have afterOpen := nextToken_stream atof stream
      obtain ⟨next, ring, afterRing⟩ := scanPoints_complete atof points_separated afterOpen 0
      have behind := nextToken_token atof afterRing
      have afterComma := nextToken_stream atof afterRing
      obtain ⟨second, more, rfl⟩ := separated.next
      have again := nextToken_token atof afterComma
      rw [opening, Lexeme.token, scanRings_ring atof ring]
      simp only [behind, again, Lexeme.token]
      simpa [again, Lexeme.token] using ih separated.tail others afterComma (numRings + 1)
    | false =>
      rw [listLexemes_plain, ringLexemes, cons_append, cons_append, append_assoc,
        append_assoc] at stream
      have opening := nextToken_token atof stream
      have afterOpen := nextToken_stream atof stream
      obtain ⟨next, ring, afterRing⟩ := scanPoints_complete atof points_separated afterOpen 0
      obtain ⟨head, tail, split, notComma⟩ := @rings_head rings rest
      have behind : (next.nextToken atof).1 ≠ .comma := by
        rw [nextToken_token atof (afterRing.trans split)]
        exact fun equal => notComma (Lexeme.eq_of_token (by decide) equal)
      rw [opening, Lexeme.token, scanRings_ring atof ring]
      simp only [behind, if_false]
      exact ih separated.tail others afterRing (numRings + 1)

/-- What is read up to a closing parenthesis is a list of rings. -/
theorem scanRings_sound {token : Token} {numRings count : UInt32}
    (scanned : scanRings atof lexer token numRings = some (.closeParen, count)) {current : Lexeme}
    (isCurrent : current.token = token) :
    ∃ (rings : List (Item RingText)) (rest : List Lexeme), NoTrailingComma rings ∧
      (∀ ring ∈ rings, NoTrailingComma ring.value) ∧
      current :: lexemes lexer.position = listLexemes ringLexemes rings ++ .closeParen :: rest := by
  fun_induction scanRings atof lexer token numRings generalizing current with
  | case1 lexer token numRings ends =>
    cases scanned
    have closing : current = .closeParen := Lexeme.eq_of_token (by decide) isCurrent
    exact ⟨[], _, trivial, by simp, by rw [closing]; rfl⟩
  | case2 => cases scanned
  | case3 => cases scanned
  | case4 => cases scanned
  | case5 => cases scanned
  | case6 lexer token numRings _ isOpen first closing _ next ring closed behind isComma opening
      isOpening =>
      rename_i ih
      have paren : current = .openParen :=
        Lexeme.eq_of_token (by decide) (isCurrent.trans (not_not.mp isOpen))
      rw [not_not.mp closed] at ring
      obtain ⟨points, inRing, afterOpen⟩ := scanPoints_next_sound atof ring
      have afterRing := stream_of_token atof .comma (by decide) isComma
      have afterComma := stream_of_token atof .openParen (by decide) (not_not.mp isOpening)
      have again : Lexeme.openParen.token = opening.1 := (not_not.mp isOpening).symm
      obtain ⟨rings, rest, separated, inside, split⟩ := ih scanned again
      match rings, separated, inside, split with
      | [], _, _, split => cases split
      | second :: rings, separated, inside, split =>
        refine ⟨⟨points, true⟩ :: second :: rings, rest, separated,
          forall_mem_cons.mpr ⟨inRing, inside⟩, ?_⟩
        rw [paren, afterOpen, afterRing, afterComma, split, listLexemes_comma]
        simp [ringLexemes]
  | case7 lexer token numRings _ isOpen first closing _ next ring closed behind notComma =>
    rename_i ih
    have paren : current = .openParen :=
      Lexeme.eq_of_token (by decide) (isCurrent.trans (not_not.mp isOpen))
    rw [not_not.mp closed] at ring
    obtain ⟨points, inRing, afterOpen⟩ := scanPoints_next_sound atof ring
    have more : behind.1 ≠ .eof := by
      intro ends
      rw [ends, scanRings, if_pos (.inl rfl)] at scanned
      cases scanned
    obtain ⟨lexeme, same, afterRing⟩ := WktLexer.lexemes_of_nextToken more
    obtain ⟨rings, rest, separated, inside, split⟩ := ih scanned same
    refine ⟨⟨points, false⟩ :: rings, rest, separated.plain,
      forall_mem_cons.mpr ⟨inRing, inside⟩, ?_⟩
    rw [paren, afterOpen, afterRing, split, listLexemes_plain]
    simp [ringLexemes]

/-- The same for a loop that also reads its first token. -/
theorem scanRings_next_sound {count : UInt32}
    (scanned : scanRings atof (lexer.nextToken atof).2 (lexer.nextToken atof).1 0 =
      some (.closeParen, count)) :
    ∃ (rings : List (Item RingText)) (rest : List Lexeme), NoTrailingComma rings ∧
      (∀ ring ∈ rings, NoTrailingComma ring.value) ∧
      lexemes lexer.position = listLexemes ringLexemes rings ++ .closeParen :: rest := by
  have more : (lexer.nextToken atof).1 ≠ .eof := by
    intro ends
    rw [ends, scanRings, if_pos (.inl rfl)] at scanned
    cases scanned
  obtain ⟨lexeme, same, stream⟩ := WktLexer.lexemes_of_nextToken more
  obtain ⟨rings, rest, separated, inside, split⟩ := scanRings_sound atof scanned same
  exact ⟨rings, rest, separated, inside, stream.trans split⟩

/-! ## The resets -/

variable {text : List UInt8}

/-- A fresh lexer reads the first two tokens of its text. -/
theorem nextToken_header {first second : Lexeme} {rest : List Lexeme}
    (stream : lexemes text = first :: second :: rest) (skipNumber : Bool) :
    let type := (WktLexer.new text skipNumber).nextToken atof
    type.1 = first.token ∧ (type.2.nextToken atof).1 = second.token ∧
      lexemes (type.2.nextToken atof).2.position = rest ∧
      (type.2.nextToken atof).2.skipNumber = skipNumber := by
  have start : lexemes (WktLexer.new text skipNumber).position = first :: second :: rest := stream
  obtain ⟨type, afterType, typeSkips, -⟩ := @WktLexer.nextToken_cons atof _ _ _ start
  obtain ⟨opening, afterOpening, openingSkips, -⟩ := @WktLexer.nextToken_cons atof _ _ _ afterType
  exact ⟨type, opening, afterOpening, openingSkips.trans typeSkips⟩

/-- The reset of a fresh iterator on a line string, and where its text iterator starts. -/
theorem resetText_lineString {points : List (Item PointText)}
    {rest : List Lexeme} (separated : NoTrailingComma points)
    (stream : lexemes text = .typeLinestring :: .openParen ::
      (listLexemes pointLexemes points ++ .closeParen :: rest)) :
    ∃ lexer, LineStringIterator.new.resetText atof text =
        some (.ok, ⟨UInt32.ofNat points.length, some ⟨lexer⟩⟩) ∧
      lexemes lexer.position = listLexemes pointLexemes points ++ .closeParen :: rest ∧
      lexer.skipNumber = false := by
  obtain ⟨type, opening, afterOpening, -⟩ := nextToken_header atof stream true
  obtain ⟨type', opening', afterOpening', reads⟩ := nextToken_header atof stream false
  obtain ⟨next, scanned, -⟩ := scanPoints_complete atof separated afterOpening 0
  refine ⟨_, ?_, afterOpening', reads⟩
  simp [LineStringIterator.resetText, LineStringTextIterator.new, type, opening, type', opening',
    Lexeme.token, scanned]

theorem resetText_polygon {rings : List (Item RingText)} {rest : List Lexeme}
    (separated : NoTrailingComma rings) (inside : ∀ ring ∈ rings, NoTrailingComma ring.value)
    (stream : lexemes text = .typePolygon :: .openParen ::
      (listLexemes ringLexemes rings ++ .closeParen :: rest)) :
    ∃ lexer, PolygonIterator.new.resetText atof text =
        some (.ok, ⟨UInt32.ofNat rings.length, some ⟨.numPoints, lexer⟩⟩) ∧
      lexemes lexer.position = listLexemes ringLexemes rings ++ .closeParen :: rest ∧
      lexer.skipNumber = false := by
  obtain ⟨type, opening, afterOpening, -⟩ := nextToken_header atof stream true
  obtain ⟨type', opening', afterOpening', reads⟩ := nextToken_header atof stream false
  have scanned := scanRings_complete atof separated inside afterOpening 0
  refine ⟨_, ?_, afterOpening', reads⟩
  simp [PolygonIterator.resetText, PolygonTextIterator.new, type, opening, type', opening',
    Lexeme.token, scanned]

/-- An empty geometry leaves a fresh iterator as it is. -/
theorem resetText_lineString_empty {rest : List Lexeme}
    (stream : lexemes text = .typeLinestring :: .empty :: rest) :
    LineStringIterator.new.resetText atof text = some (.ok, .new) := by
  obtain ⟨type, opening, -⟩ := nextToken_header atof stream true
  simp [LineStringIterator.resetText, type, opening, Lexeme.token]

theorem resetText_polygon_empty {rest : List Lexeme}
    (stream : lexemes text = .typePolygon :: .empty :: rest) :
    PolygonIterator.new.resetText atof text = some (.ok, .new) := by
  obtain ⟨type, opening, -⟩ := nextToken_header atof stream true
  simp [PolygonIterator.resetText, type, opening, Lexeme.token]

/-- What a reset of a line string iterator does: it fails, is told that there is nothing, or has read
the text. -/
theorem resetText_lineString_cases {iterator after : LineStringIterator} {rc : CassError}
    (done : iterator.resetText atof text = some (rc, after)) :
    (rc = .libBadParams ∧ after = iterator) ∨
      (rc = .ok ∧ after = iterator ∧ ∃ rest, lexemes text = .typeLinestring :: .empty :: rest) ∨
      rc = .ok ∧ after.iterator.isSome = true ∧ ∃ points, LineStringText (lexemes text) points := by
  simp only [LineStringIterator.resetText] at done
  split at done
  · cases done
    exact .inl ⟨rfl, rfl⟩
  next isType =>
    have stream : lexemes text = _ := stream_of_token atof .typeLinestring (by decide)
      (not_not.mp isType)
    split at done
    · next isEmpty =>
        cases done
        rw [stream, stream_of_token atof .empty (by decide) isEmpty]
        exact .inr (.inl ⟨rfl, rfl, _, rfl⟩)
    split at done
    · cases done
      exact .inl ⟨rfl, rfl⟩
    next isOpening =>
      have afterType := stream_of_token atof .openParen (by decide) (not_not.mp isOpening)
      split at done
      · next scanned =>
          obtain ⟨textIterator, -, same⟩ := Option.map_eq_some_iff.mp done
          cases same
          obtain ⟨points, separated, afterOpening⟩ := scanPoints_next_sound atof scanned
          rw [stream, afterType, afterOpening]
          exact .inr (.inr ⟨rfl, rfl, points, .list _ separated⟩)
      · cases done
        exact .inl ⟨rfl, rfl⟩

/-- What a reset of a polygon iterator does. -/
theorem resetText_polygon_cases {iterator after : PolygonIterator} {rc : CassError}
    (done : iterator.resetText atof text = some (rc, after)) :
    (rc = .libBadParams ∧ after = iterator) ∨
      (rc = .ok ∧ after = iterator ∧ ∃ rest, lexemes text = .typePolygon :: .empty :: rest) ∨
      rc = .ok ∧ after.iterator.isSome = true ∧ ∃ rings, PolygonText (lexemes text) rings := by
  simp only [PolygonIterator.resetText] at done
  split at done
  · cases done
    exact .inl ⟨rfl, rfl⟩
  next isType =>
    have stream : lexemes text = _ := stream_of_token atof .typePolygon (by decide)
      (not_not.mp isType)
    split at done
    · next isEmpty =>
        cases done
        rw [stream, stream_of_token atof .empty (by decide) isEmpty]
        exact .inr (.inl ⟨rfl, rfl, _, rfl⟩)
    split at done
    · cases done
      exact .inl ⟨rfl, rfl⟩
    next isOpening =>
      have afterType := stream_of_token atof .openParen (by decide) (not_not.mp isOpening)
      split at done
      · next scanned =>
          obtain ⟨textIterator, -, same⟩ := Option.map_eq_some_iff.mp done
          cases same
          obtain ⟨rings, rest, separated, inside, afterOpening⟩ := scanRings_next_sound atof scanned
          rw [stream, afterType, afterOpening]
          exact .inr (.inr ⟨rfl, rfl, rings, .list _ separated inside⟩)
      · cases done
        exact .inl ⟨rfl, rfl⟩

/-- An accepted text is a line string. -/
theorem resetText_lineString_sound {iterator after : LineStringIterator}
    (accepted : iterator.resetText atof text = some (.ok, after)) :
    ∃ points, LineStringText (lexemes text) points := by
  rcases resetText_lineString_cases atof accepted with ⟨failed, -⟩ | ⟨-, -, rest, stream⟩ | read
  · cases failed
  · rw [stream]
    exact ⟨[], .empty rest⟩
  · exact read.2.2

/-- An accepted text is a polygon. -/
theorem resetText_polygon_sound {iterator after : PolygonIterator}
    (accepted : iterator.resetText atof text = some (.ok, after)) :
    ∃ rings, PolygonText (lexemes text) rings := by
  rcases resetText_polygon_cases atof accepted with ⟨failed, -⟩ | ⟨-, -, rest, stream⟩ | read
  · cases failed
  · rw [stream]
    exact ⟨[], .empty rest⟩
  · exact read.2.2

/-- The resets of fresh iterators accept all texts that start with a geometry, and count its points or
rings in 32 bits.  They accept only texts that start with one, in which commas may be missing. -/
theorem resetText_accepts (text : List UInt8) :
    (∀ points, LineStringText (lexemes text) points → CommaSeparated points →
        ∃ after, LineStringIterator.new.resetText atof text = some (.ok, after) ∧
          after.numPoints = UInt32.ofNat points.length) ∧
      (∀ after, LineStringIterator.new.resetText atof text = some (.ok, after) →
        ∃ points, LineStringText (lexemes text) points) ∧
      (∀ rings, PolygonText (lexemes text) rings → CommaSeparated rings →
        (∀ ring ∈ rings, CommaSeparated ring.value) →
        ∃ after, PolygonIterator.new.resetText atof text = some (.ok, after) ∧
          after.numRings = UInt32.ofNat rings.length) ∧
      ∀ after, PolygonIterator.new.resetText atof text = some (.ok, after) →
        ∃ rings, PolygonText (lexemes text) rings := by
  refine ⟨?_, fun _ => resetText_lineString_sound atof, ?_, fun _ => resetText_polygon_sound atof⟩
  · intro points form separated
    generalize stream : lexemes text = tokens at form
    cases form with
    | empty rest => exact ⟨_, resetText_lineString_empty atof stream, rfl⟩
    | list rest _ =>
      obtain ⟨lexer, result, -⟩ := resetText_lineString atof separated.noTrailingComma stream
      exact ⟨_, result, rfl⟩
  · intro rings form separated inside
    generalize stream : lexemes text = tokens at form
    cases form with
    | empty rest => exact ⟨_, resetText_polygon_empty atof stream, rfl⟩
    | list rest _ _ =>
      obtain ⟨lexer, result, -⟩ := resetText_polygon atof separated.noTrailingComma
        (fun ring member => (inside ring member).noTrailingComma) stream
      exact ⟨_, result, rfl⟩

/-- `POLYGON (())` is accepted, without a point in its ring. -/
theorem resetText_emptyRing :
    (∃ after, PolygonIterator.new.resetText (fun _ => 0) ("POLYGON (())".toList.map code) =
        some (.ok, after)) ∧
      (∀ rest, lexemes ("POLYGON (())".toList.map code) ≠ .typePolygon :: .empty :: rest) ∧
      ∀ rings rest, rings ≠ [] → (∀ ring ∈ rings, ring.value ≠ []) →
        lexemes ("POLYGON (())".toList.map code) ≠ .typePolygon :: .openParen ::
          (listLexemes ringLexemes rings ++ .closeParen :: rest) := by
  have rings : lexemes ("POLYGON (())".toList.map code) = .typePolygon :: .openParen ::
      (listLexemes ringLexemes [⟨[], false⟩] ++ .closeParen :: []) := by decide +kernel
  have separated : NoTrailingComma ([⟨[], false⟩] : List (Item RingText)) := rfl
  obtain ⟨_, accepted, -⟩ :=
    resetText_polygon (fun _ => 0) separated (by simp [NoTrailingComma]) rings
  rw [rings]
  refine ⟨⟨_, accepted⟩, nofun, ?_⟩
  intro rings rest nonempty inside equal
  match rings, nonempty, inside with
  | ⟨[], _⟩ :: _, _, inside => exact inside _ mem_cons_self rfl
  | ⟨_ :: _, _⟩ :: _, _, _ => simp [listLexemes, ringLexemes, pointLexemes] at equal

end DseDriver.Wkt
