import DseDriver.Encoding.Requests
import DseDriver.Lib.Parsing

/-!
# Strings and values of requests

The strings that the encoders write, with a parser that reads them, and the values that an
application binds.
-/

namespace DseDriver.Encoding

open Lib Cql DseDriver.Request

/-! ## Strings -/

namespace Grammar

/-- A word of the given width. -/
def word (width : Nat) : Parser UInt8 Nat :=
  ofBytes .big <$> Parser.take width

/-- `[byte]`. -/
def byte : Parser UInt8 UInt8 := UInt8.ofNat <$> word 1

/-- `[short]`. -/
def short : Parser UInt8 UInt16 := UInt16.ofNat <$> word 2

/-- `[string]` and `[short bytes]`. -/
def string : Parser UInt8 (List UInt8) := do
  let size ← short
  Parser.take size.toNat

def printString (value : List UInt8) : List UInt8 :=
  encodeUint16 (UInt16.ofNat value.length) ++ value

theorem parses_word (width : Nat) {bits : Nat} (fits : bits < 2 ^ (8 * width)) :
    Parses (word width) (encodeWord width bits) bits := by
  have taken := Parses.take (encodeWord width bits)
  rw [encodeWord_length] at taken
  have read : ofBytes .big (encodeWord width bits) = bits := by
    rw [encodeWord, ofBytes_toBytes, ← Nat.pow_mul 2 8 width, Nat.mod_eq_of_lt fits]
  have parsed := taken.map (ofBytes .big)
  rw [read] at parsed
  exact parsed

theorem parses_byte (value : UInt8) : Parses byte (encodeByte value) value := by
  have parsed := (parses_word 1 value.toNat_lt).map UInt8.ofNat
  rw [UInt8.ofNat_toNat] at parsed
  exact parsed

theorem parses_short (value : UInt16) : Parses short (encodeUint16 value) value := by
  have parsed := (parses_word 2 value.toNat_lt).map UInt16.ofNat
  rw [UInt16.ofNat_toNat] at parsed
  exact parsed

theorem parses_string {value : List UInt8} (short : value.length < 2 ^ 16) :
    Parses string (printString value) value := by
  refine (parses_short _).bind ?_
  have size : (UInt16.ofNat value.length).toNat = value.length := by
    rw [UInt16.toNat_ofNat', Nat.mod_eq_of_lt short]
  rw [size]
  exact Parses.take value

end Grammar

/-! ## Values -/

/-- A value that an application binds, with the address of its collection if it is one. -/
structure BoundValue where
  tree : Tree
  address : Nat

namespace BoundValue

/-- The element that `AbstractData::set` stores. -/
def element (value : BoundValue) : BoundElement :=
  ⟨value.tree.element, value.address⟩

end BoundValue

end DseDriver.Encoding
