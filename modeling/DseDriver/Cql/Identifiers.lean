import DseDriver.HashTable.StringRef

/-!
# Escaped identifiers

`escape_id` puts an identifier in double quotes unless it is a plain lower-case word, and
`to_cql_id` brings an identifier of a query into the form the server stores.
-/

namespace DseDriver.Cql

open List

open HashTable (toLower)

namespace CqlId

def quote : UInt8 := 34

def isLowerWordChar (c : UInt8) : Bool :=
  97 ≤ c ∧ c ≤ 122 ∨ 48 ≤ c ∧ c ≤ 57 ∨ c = 95

def isWordChar (c : UInt8) : Bool :=
  97 ≤ c ∧ c ≤ 122 ∨ 65 ≤ c ∧ c ≤ 90 ∨ 48 ≤ c ∧ c ≤ 57 ∨ c = 95

/-- `is_valid_cql_id`. -/
def isValidCqlId (str : List UInt8) : Bool :=
  str.all isWordChar

/-- `is_valid_lower_cql_id`. -/
def isValidLowerCqlId : List UInt8 → Bool
  | [] => false
  | c :: str => isLowerWordChar c && str.all isLowerWordChar

/-- The loop of `quote_id`. -/
def doubleQuotes (str : List UInt8) : List UInt8 :=
  str.flatMap fun c => if c = quote then [quote, quote] else [c]

/-- `quote_id`. -/
def quoteId (str : List UInt8) : List UInt8 :=
  quote :: (doubleQuotes str ++ [quote])

/-- `escape_id`. -/
def escapeId (str : List UInt8) : List UInt8 :=
  if isValidLowerCqlId str then str else quoteId str

/-- `to_cql_id`.  Quotes inside of the identifier are left as they are. -/
def toCqlId (str : List UInt8) : List UInt8 :=
  if isValidCqlId str then
    str.map toLower
  else if str.length > 2 ∧ str.head? = some quote ∧ str.getLast? = some quote then
    str.dropLast.drop 1
  else
    str

/-! ## Escaping and back -/

theorem lowerWordChar_facts {c : UInt8} (lower : isLowerWordChar c = true) :
    isWordChar c = true ∧ toLower c = c ∧ c ≠ quote := by
  simp only [isLowerWordChar, isWordChar, toLower, quote, decide_eq_true_eq, ne_eq,
    UInt8.le_iff_toNat_le, ← UInt8.toNat_inj, UInt8.reduceToNat] at lower ⊢
  refine ⟨by omega, ?_, by omega⟩
  rw [if_neg (by omega)]

theorem all_of_isValidLowerCqlId {str : List UInt8} (valid : isValidLowerCqlId str = true) :
    ∀ c ∈ str, isLowerWordChar c = true := by
  cases str with
  | nil => cases valid
  | cons c str => simpa [isValidLowerCqlId] using valid

theorem toCqlId_of_lower {str : List UInt8} (valid : isValidLowerCqlId str = true) :
    toCqlId str = str := by
  have lower := all_of_isValidLowerCqlId valid
  have isValid : isValidCqlId str = true :=
    all_eq_true.mpr fun c member => (lowerWordChar_facts (lower c member)).1
  rw [toCqlId, if_pos isValid]
  exact (map_congr_left fun c member => (lowerWordChar_facts (lower c member)).2.1).trans
    (map_id str)

theorem length_doubleQuotes (str : List UInt8) :
    (doubleQuotes str).length = str.length + str.count quote := by
  induction str with
  | nil => rfl
  | cons c str ih =>
    rw [doubleQuotes, flatMap_cons, length_append, ← doubleQuotes, ih,
      length_cons, count_cons]
    by_cases isQuote : c = quote <;> simp [isQuote] <;> omega

theorem toCqlId_quoteId {str : List UInt8} (nonempty : str ≠ []) :
    toCqlId (quoteId str) = doubleQuotes str := by
  have invalid : isValidCqlId (quoteId str) = false := by
    simp [isValidCqlId, quoteId, show isWordChar quote = false from rfl]
  have long : (quoteId str).length > 2 := by
    have some := length_pos_of_ne_nil nonempty
    simp only [quoteId, length_cons, length_append, length_doubleQuotes]
    omega
  have last : (quoteId str).getLast? = some quote := by
    rw [quoteId, ← cons_append, getLast?_concat]
  rw [toCqlId, if_neg (by simp [invalid]), if_pos ⟨long, rfl, last⟩, quoteId, ← cons_append,
    dropLast_concat]
  rfl

/-- An identifier is what its escaped form is looked up as, iff it has no double quote. -/
theorem toCqlId_escapeId_iff (str : List UInt8) (nonempty : str ≠ []) :
    toCqlId (escapeId str) = str ↔ quote ∉ str := by
  rw [escapeId]
  split
  next valid =>
    refine iff_of_true (toCqlId_of_lower valid) fun member => ?_
    exact (lowerWordChar_facts (all_of_isValidLowerCqlId valid quote member)).2.2 rfl
  next =>
    rw [toCqlId_quoteId nonempty]
    constructor
    · intro same member
      have length := length_doubleQuotes str
      rw [same] at length
      exact absurd (count_pos_iff.mpr member) (by omega)
    · intro absent
      rw [doubleQuotes]
      refine (flatMap_congr fun c member => if_neg ?_).trans (flatMap_singleton' str)
      rintro rfl
      exact absent member

/-- `aBc` is escaped and read back. -/
theorem toCqlId_escapeId_aBc :
    toCqlId (escapeId [97, 66, 99]) = [97, 66, 99] :=
  (toCqlId_escapeId_iff [97, 66, 99] (by decide)).mpr (by decide)

/-- A double quote is escaped to four of them and comes back as two. -/
theorem toCqlId_escapeId_quote :
    escapeId [34] = [34, 34, 34, 34] ∧ toCqlId (escapeId [34]) = [34, 34] := by
  decide

end CqlId

end DseDriver.Cql
