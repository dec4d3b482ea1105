import DseDriver.Geometry.Polygon
import DseDriver.Wkt.Lexer

/-!
# Text iterators

`LineStringIterator` and `PolygonIterator` over well-known text.  The reset reads the whole
geometry with one lexer to validate it and to count; a text iterator then reads it again with
a second lexer while it is called.  A result `none` is an assertion that fails.
-/

namespace DseDriver.Wkt

open Lib Geometry

variable (atof : List UInt8 → Double)

/-! ## Loops over tokens -/

/-- The loop over points, which the resets and `next_num_points` have in common.  It starts
with the first token already read and ends with the token that is no point; `none` is where
the reset returns bad parameters and `next_num_points` has an assertion. -/
def scanPoints (lexer : WktLexer) (token : Token) (numPoints : UInt32) :
    Option (Token × UInt32 × WktLexer) :=
  if token = .eof ∨ token = .closeParen then
    some (token, numPoints, lexer)
  else if token ≠ .number then
    none
  else
    let second := lexer.nextToken atof
    if second.1 ≠ .number then
      none
    else
      let third := second.2.nextToken atof
      if third.1 = .comma then
        let first := third.2.nextToken atof
        if first.1 ≠ .number then
          none
        else
          scanPoints first.2 first.1 (numPoints + 1)
      else
        scanPoints third.2 third.1 (numPoints + 1)
termination_by lexer.position.length
decreasing_by
  all_goals
    have second := WktLexer.nextToken_length_lt_of_number ‹¬ (lexer.nextToken atof).1 ≠ .number›
    have third := WktLexer.nextToken_length_le atof (lexer.nextToken atof).2
  · have first := WktLexer.nextToken_length_le atof ((lexer.nextToken atof).2.nextToken atof).2
    omega
  · omega

/-- The loop leaves no more text than there was. -/
theorem scanPoints_length {lexer next : WktLexer} {token token' : Token} {numPoints count : UInt32}
    (scanned : scanPoints atof lexer token numPoints = some (token', count, next)) :
    next.position.length ≤ lexer.position.length := by
  fun_induction scanPoints atof lexer token numPoints with
  | case1 => cases scanned; rfl
  | case2 => cases scanned
  | case3 => cases scanned
  | case4 => cases scanned
  | case5 lexer token numPoints _ _ second isNumber third _ first _ ih =>
    have shorter := ih scanned
    have one := WktLexer.nextToken_length_le atof lexer
    have two := WktLexer.nextToken_length_le atof (lexer.nextToken atof).2
    have three := WktLexer.nextToken_length_le atof ((lexer.nextToken atof).2.nextToken atof).2
    exact shorter.trans (three.trans (two.trans one))
  | case6 lexer token numPoints _ _ second isNumber third _ ih =>
    have shorter := ih scanned
    have one := WktLexer.nextToken_length_le atof lexer
    have two := WktLexer.nextToken_length_le atof (lexer.nextToken atof).2
    exact shorter.trans (two.trans one)

/-- A loop over points that stops at a closing parenthesis leaves less text than there was
before its first token. -/
theorem scanPoints_closed_length {lexer next : WktLexer} {count : UInt32}
    (scanned : scanPoints atof (lexer.nextToken atof).2 (lexer.nextToken atof).1 0 =
      some (.closeParen, count, next)) :
    next.position.length < lexer.position.length := by
  have rest := scanPoints_length atof scanned
  have first : (lexer.nextToken atof).2.position.length < lexer.position.length := by
    apply WktLexer.nextToken_length_lt
    intro ends
    rw [ends, scanPoints, if_pos (.inl rfl)] at scanned
    cases scanned
  omega

/-- The loop of the polygon reset over rings. -/
def scanRings (lexer : WktLexer) (token : Token) (numRings : UInt32) : Option (Token × UInt32) :=
  if token = .eof ∨ token = .closeParen then
    some (token, numRings)
  else if token ≠ .openParen then
    none
  else
    let first := lexer.nextToken atof
    match scanned : scanPoints atof first.2 first.1 0 with
    | none => none
    | some (token, _, lexer') =>
      if ended : token ≠ .closeParen then
        none
      else
        let next := lexer'.nextToken atof
        if next.1 = .comma then
          let opening := next.2.nextToken atof
          if opening.1 ≠ .openParen then
            none
          else
            scanRings opening.2 opening.1 (numRings + 1)
        else
          scanRings next.2 next.1 (numRings + 1)
termination_by lexer.position.length
decreasing_by
  all_goals
    rw [not_not.mp ended] at scanned
    have ring := scanPoints_closed_length atof scanned
    have next := WktLexer.nextToken_length_le atof lexer'
  · have opening := WktLexer.nextToken_length_le atof (lexer'.nextToken atof).2
    omega
  · omega

/-! ## Line strings -/

/-- `LineStringIterator::TextIterator`. -/
structure LineStringTextIterator where
  lexer : WktLexer
  deriving DecidableEq, Repr

namespace LineStringTextIterator

/-- `TextIterator(text, size)`. -/
def new (text : List UInt8) : Option LineStringTextIterator :=
  let type := (WktLexer.new text false).nextToken atof
  if type.1 ≠ .typeLinestring then
    none
  else
    let opening := type.2.nextToken atof
    if opening.1 ≠ .openParen then none else some { lexer := opening.2 }

/-- `TextIterator::next_point`. -/
def nextPoint (iterator : LineStringTextIterator) :
    Option (Except CassError (Double × Double) × LineStringTextIterator) :=
  let first := iterator.lexer.nextToken atof
  if first.1 ≠ .number then
    some (.error .libInvalidState, { lexer := first.2 })
  else do
    let x ← first.2.number
    let second := first.2.nextToken atof
    if second.1 ≠ .number then
      none
    else
      let y ← second.2.number
      let third := second.2.nextToken atof
      if third.1 = .comma ∨ third.1 = .closeParen then
        some (.ok (x, y), { lexer := third.2 })
      else
        none

end LineStringTextIterator

/-- `LineStringIterator` over texts; `iterator` is null before a reset sets it. -/
structure LineStringIterator where
  numPoints : UInt32
  iterator : Option LineStringTextIterator
  deriving DecidableEq, Repr

namespace LineStringIterator

/-- `LineStringIterator()`. -/
def new : LineStringIterator :=
  { numPoints := 0, iterator := none }

/-- `LineStringIterator::reset_text`. -/
def resetText (iterator : LineStringIterator) (text : List UInt8) :
    Option (CassError × LineStringIterator) :=
  let type := (WktLexer.new text true).nextToken atof
  if type.1 ≠ .typeLinestring then
    some (.libBadParams, iterator)
  else
    let opening := type.2.nextToken atof
    if opening.1 = .empty then
      some (.ok, iterator)
    else if opening.1 ≠ .openParen then
      some (.libBadParams, iterator)
    else
      let first := opening.2.nextToken atof
      match scanPoints atof first.2 first.1 0 with
      | some (.closeParen, numPoints, _) =>
        (LineStringTextIterator.new atof text).map fun textIterator =>
          (.ok, { numPoints, iterator := some textIterator })
      | _ => some (.libBadParams, iterator)

/-- `LineStringIterator::next_point`. -/
def nextPoint (iterator : LineStringIterator) :
    Option (Except CassError (Double × Double) × LineStringIterator) :=
  match iterator.iterator with
  | none => some (.error .libInvalidState, iterator)
  | some textIterator =>
    (textIterator.nextPoint atof).map
      (Prod.map id fun textIterator => { iterator with iterator := some textIterator })

end LineStringIterator

/-! ## Polygons -/

/-- `PolygonIterator::TextIterator`. -/
structure PolygonTextIterator where
  state : PolygonIteratorState
  lexer : WktLexer
  deriving DecidableEq, Repr

namespace PolygonTextIterator

/-- `TextIterator(text, size)`. -/
def new (text : List UInt8) : Option PolygonTextIterator :=
  let type := (WktLexer.new text false).nextToken atof
  if type.1 ≠ .typePolygon then
    none
  else
    let opening := type.2.nextToken atof
    if opening.1 ≠ .openParen then none else some { state := .numPoints, lexer := opening.2 }

/-- `TextIterator::next_num_points`, which takes a token in every state and reads the ring
ahead with a copy of the lexer. -/
def nextNumPoints (iterator : PolygonTextIterator) :
    Option (Except CassError UInt32 × PolygonTextIterator) :=
  let opening := iterator.lexer.nextToken atof
  if iterator.state ≠ .numPoints ∨ opening.1 ≠ .openParen then
    some (.error .libInvalidState, { iterator with lexer := opening.2 })
  else
    let first := (opening.2.copy true).nextToken atof
    match scanPoints atof first.2 first.1 0 with
    | some (.closeParen, numPoints, _) =>
      some (.ok numPoints, { state := .points, lexer := opening.2 })
    | _ => none

/-- `TextIterator::next_point`. -/
def nextPoint (iterator : PolygonTextIterator) :
    Option (Except CassError (Double × Double) × PolygonTextIterator) :=
  if iterator.state ≠ .points then
    some (.error .libInvalidState, iterator)
  else
    let first := iterator.lexer.nextToken atof
    if first.1 ≠ .number then
      none
    else do
      let x ← first.2.number
      let second := first.2.nextToken atof
      if second.1 ≠ .number then
        none
      else
        let y ← second.2.number
        let third := second.2.nextToken atof
        if third.1 = .closeParen then
          let last := third.2.nextToken atof
          if last.1 = .closeParen then
            some (.ok (x, y), { state := .done, lexer := last.2 })
          else if last.1 = .comma then
            some (.ok (x, y), { state := .numPoints, lexer := last.2 })
          else
            none
        else if third.1 = .comma then
          some (.ok (x, y), { iterator with lexer := third.2 })
        else
          none

end PolygonTextIterator

/-- `PolygonIterator` over texts; `iterator` is null before a reset sets it. -/
structure PolygonIterator where
  numRings : UInt32
  iterator : Option PolygonTextIterator
  deriving DecidableEq, Repr

namespace PolygonIterator

/-- `PolygonIterator()`. -/
def new : PolygonIterator :=
  { numRings := 0, iterator := none }

/-- `PolygonIterator::reset_text`. -/
def resetText (iterator : PolygonIterator) (text : List UInt8) :
    Option (CassError × PolygonIterator) :=
  let type := (WktLexer.new text true).nextToken atof
  if type.1 ≠ .typePolygon then
    some (.libBadParams, iterator)
  else
    let opening := type.2.nextToken atof
    if opening.1 = .empty then
      some (.ok, iterator)
    else if opening.1 ≠ .openParen then
      some (.libBadParams, iterator)
    else
      let first := opening.2.nextToken atof
      match scanRings atof first.2 first.1 0 with
      | some (.closeParen, numRings) =>
        (PolygonTextIterator.new atof text).map fun textIterator =>
          (.ok, { numRings, iterator := some textIterator })
      | _ => some (.libBadParams, iterator)

/-- A call of the text iterator, or the error of a null one. -/
def dispatch {α : Type} (iterator : PolygonIterator)
    (next : PolygonTextIterator → Option (Except CassError α × PolygonTextIterator)) :
    Option (Except CassError α × PolygonIterator) :=
  match iterator.iterator with
  | none => some (.error .libInvalidState, iterator)
  | some textIterator =>
    (next textIterator).map
      (Prod.map id fun textIterator => { iterator with iterator := some textIterator })

/-- `PolygonIterator::next_num_points`. -/
def nextNumPoints (iterator : PolygonIterator) :
    Option (Except CassError UInt32 × PolygonIterator) :=
  iterator.dispatch (PolygonTextIterator.nextNumPoints atof)

/-- `PolygonIterator::next_point`. -/
def nextPoint (iterator : PolygonIterator) :
    Option (Except CassError (Double × Double) × PolygonIterator) :=
  iterator.dispatch (PolygonTextIterator.nextPoint atof)

end PolygonIterator

end DseDriver.Wkt
