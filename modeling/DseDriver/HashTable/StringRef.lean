import Mathlib.Data.List.Basic

/-!
# String references

Comparison and hashing of `StringRef`, a view of characters.  Characters are bytes, read
as signed where the source compares or widens them; the case mappings are those of the C
locale.
-/

namespace DseDriver.HashTable

/-- `std::tolower`. -/
def toLower (c : UInt8) : UInt8 :=
  if 65 ≤ c ∧ c ≤ 90 then c + 32 else c

/-- `std::toupper`. -/
def toUpper (c : UInt8) : UInt8 :=
  if 97 ≤ c ∧ c ≤ 122 then c - 32 else c

namespace StringRef

/-- `cass::compare` over equally many characters. -/
def compareChars (isEqual : UInt8 → UInt8 → Bool) : List UInt8 → List UInt8 → Int
  | a :: left, b :: right =>
    if !isEqual a b then (if a.toInt8 < b.toInt8 then -1 else 1)
    else compareChars isEqual left right
  | _, _ => 0

/-- The private `compare`: shorter strings come first. -/
def compareWith (isEqual : UInt8 → UInt8 → Bool) (left right : List UInt8) : Int :=
  if left.length < right.length then -1
  else if left.length > right.length then 1
  else compareChars isEqual left right

/-- `compare`. -/
def compare (left right : List UInt8) : Int :=
  compareWith (fun a b => a == b) left right

/-- `icompare`. -/
def icompare (left right : List UInt8) : Int :=
  compareWith (fun a b => toUpper a == toUpper b) left right

/-- `equals`. -/
def equals (left right : List UInt8) : Bool :=
  compare left right == 0

/-- `iequals`. -/
def iequals (left right : List UInt8) : Bool :=
  icompare left right == 0

end StringRef

/-- `hash::fnv1a` on a 64-bit platform.  A character is widened with its sign. -/
def fnv1a (data : List UInt8) (op : UInt8 → UInt8) : UInt64 :=
  data.foldl (fun h c => (h ^^^ (op c).toInt8.toInt64.toUInt64) * 0x100000001b3)
    0xcbf29ce484222325

end DseDriver.HashTable
