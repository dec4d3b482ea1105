import Mathlib.Data.List.Basic

/-!
# Parsers of an input that starts with an encoding

A parser consumes a part of its input and may fail.  `Parses` says that a parser consumes
exactly some encoding, whatever follows it, and its rules build such facts for a grammar
from those of its parts.
-/

namespace DseDriver.Lib

open List

variable {Token α β : Type}

/-- A parser returns a value and the input it has not consumed. -/
abbrev Parser (Token α : Type) := StateT (List Token) Option α

namespace Parser

/-- The next `count` tokens. -/
def take (count : Nat) : Parser Token (List Token) := fun input =>
  if count ≤ input.length then some (input.take count, input.drop count) else none

/-- The same parser a number of times. -/
def many (parser : Parser Token α) : Nat → Parser Token (List α)
  | 0 => pure []
  | count + 1 => do
    let first ← parser
    let rest ← many parser count
    return first :: rest

/-- The parser must consume all of the input. -/
def parseAll (parser : Parser Token α) (input : List Token) : Option α :=
  match parser.run input with
  | some (value, []) => some value
  | _ => none

end Parser

/-- The parser consumes exactly the encoding and returns the value. -/
def Parses (parser : Parser Token α) (encoding : List Token) (value : α) : Prop :=
  ∀ rest, parser.run (encoding ++ rest) = some (value, rest)

namespace Parses

theorem pure (value : α) : Parses (Pure.pure value : Parser Token α) [] value :=
  fun _ => rfl

variable {parser : Parser Token α}

theorem bind {next : α → Parser Token β} {first second : List Token} {value : α} {result : β}
    (parses : Parses parser first value) (continues : Parses (next value) second result) :
    Parses (parser >>= next) (first ++ second) result := by
  intro rest
  rw [append_assoc, StateT.run_bind, parses (second ++ rest)]
  exact continues rest

theorem map {encoding : List Token} {value : α} (transform : α → β)
    (parses : Parses parser encoding value) :
    Parses (transform <$> parser) encoding (transform value) := by
  intro rest
  rw [StateT.run_map, parses rest]
  rfl

theorem take (encoding : List Token) : Parses (Parser.take encoding.length) encoding encoding := by
  intro rest
  have inside : encoding.length ≤ (encoding ++ rest).length := by simp
  show (if _ then _ else _) = _
  rw [if_pos inside, take_left, drop_left]

theorem many (encode : β → List Token) (value : β → α) {items : List β}
    (each : ∀ item ∈ items, Parses parser (encode item) (value item)) :
    Parses (parser.many items.length) (items.flatMap encode) (items.map value) := by
  induction items with
  | nil => exact pure []
  | cons item items ih =>
    have first := each item mem_cons_self
    have others := ih fun other member => each other (mem_cons_of_mem item member)
    exact first.bind (others.map (value item :: ·))

theorem parseAll {encoding : List Token} {value : α} (parses : Parses parser encoding value) :
    parser.parseAll encoding = some value := by
  have done := parses []
  rw [append_nil] at done
  rw [Parser.parseAll, done]

end Parses

end DseDriver.Lib
