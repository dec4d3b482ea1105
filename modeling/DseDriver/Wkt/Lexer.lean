import DseDriver.Geometry.Wkb
import DseDriver.Lib.Scanner

/-!
# The well-known text lexer

`WktLexer` with the scanner of `wkt.rl`: `next_token` skips blanks, takes the longest match of
its rules and stops behind it.  What a text is for its readers is the stream of the tokens
that the calls give, until the one that finds no text left.
-/

namespace DseDriver.Wkt

open Lib Geometry List

/-- `WktLexer::Token`. -/
inductive Token where
  | invalid
  | eof
  | typePoint
  | typeLinestring
  | typePolygon
  | number
  | comma
  | empty
  | openParen
  | closeParen
  deriving DecidableEq, Repr

/-- A token that is found in a text; a number comes with its characters. -/
inductive Lexeme where
  | invalid
  | typePoint
  | typeLinestring
  | typePolygon
  | number (digits : List UInt8)
  | comma
  | empty
  | openParen
  | closeParen
  deriving DecidableEq, Repr

def Lexeme.token : Lexeme → Token
  | invalid => .invalid
  | typePoint => .typePoint
  | typeLinestring => .typeLinestring
  | typePolygon => .typePolygon
  | number _ => .number
  | comma => .comma
  | empty => .empty
  | openParen => .openParen
  | closeParen => .closeParen

/-! ## The rules of the scanner -/

/-- A character as it lies in a text. -/
def code (char : Char) : UInt8 :=
  UInt8.ofNat char.toNat

def literal (chars : List Char) : RegularExpression UInt8 :=
  chars.foldr (fun char rest => .char (code char) * rest) 1

def oneOf (chars : List Char) : RegularExpression UInt8 :=
  chars.foldr (fun char others => .char (code char) + others) 0

def optionally (expression : RegularExpression UInt8) : RegularExpression UInt8 :=
  1 + expression

def sign : RegularExpression UInt8 := oneOf ['+', '-']

def digit : RegularExpression UInt8 := oneOf ['0', '1', '2', '3', '4', '5', '6', '7', '8', '9']

/-- `number` of the scanner. -/
def number : RegularExpression UInt8 :=
  optionally sign * (digit.star * (optionally (literal ['.']) * (digit * digit.star *
    optionally (oneOf ['e', 'E'] * (optionally sign * (digit * digit.star))))))

/-- The rules with what they give for the characters they match; blanks give no token.  The
last rule of the scanner, which matches any character, is what happens without a match. -/
def rules : List (RegularExpression UInt8 × (List UInt8 → Option Lexeme)) :=
  [(literal ['P', 'O', 'I', 'N', 'T'], fun _ => some .typePoint),
    (literal ['L', 'I', 'N', 'E', 'S', 'T', 'R', 'I', 'N', 'G'], fun _ => some .typeLinestring),
    (literal ['P', 'O', 'L', 'Y', 'G', 'O', 'N'], fun _ => some .typePolygon),
    (literal ['E', 'M', 'P', 'T', 'Y'], fun _ => some .empty),
    (literal ['('], fun _ => some .openParen),
    (literal [')'], fun _ => some .closeParen),
    (literal [','], fun _ => some .comma),
    (number, fun digits => some (.number digits)),
    (oneOf [' ', '\t'], fun _ => none)]

/-- One match of the scanner and the text behind it. -/
def scanOnce (text : List UInt8) : Option Lexeme × List UInt8 :=
  match scan rules text with
  | some (action, length) => (action (text.take length), text.drop length)
  | none => (some .invalid, text.drop 1)

/-- Match until there is a token, or no text left.  A blank is a match of one character. -/
def scanToken : List UInt8 → Lexeme × List UInt8
  | [] => (.invalid, [])
  | char :: text =>
    match scanOnce (char :: text) with
    | (some lexeme, rest) => (lexeme, rest)
    | (none, _) => scanToken text

/-- The first token of a text and the text behind it. -/
def lex (text : List UInt8) : Option (Lexeme × List UInt8) :=
  if text = [] then none else some (scanToken text)

theorem scanOnce_length (char : UInt8) (text : List UInt8) :
    (scanOnce (char :: text)).2.length ≤ text.length := by
  have nonempty : ∀ rule ∈ rules, rule.1.matchEpsilon = false := by
    simp [rules]
    decide
  rw [scanOnce]
  split
  · next found =>
      have bounds := scan_bounds nonempty found
      simp only [length_drop, length_cons]
      omega
  · simp

theorem scanToken_length (char : UInt8) (text : List UInt8) :
    (scanToken (char :: text)).2.length ≤ text.length := by
  induction text generalizing char with
  | nil =>
    rw [scanToken]
    split
    · next found => simpa [found] using scanOnce_length char []
    · simp [scanToken]
  | cons next text ih =>
    rw [scanToken]
    split
    · next found => simpa [found] using scanOnce_length char (next :: text)
    · have later := ih next
      simp only [length_cons]
      omega

/-- A token takes at least one character. -/
theorem lex_length {text rest : List UInt8} {lexeme : Lexeme} (found : lex text = some (lexeme, rest)) :
    rest.length < text.length := by
  rw [lex] at found
  split at found
  · cases found
  · match text, found with
    | char :: text, found =>
      have length : rest.length ≤ text.length := by
        have bound := scanToken_length char text
        rwa [Option.some.inj found] at bound
      simp only [length_cons]
      omega
    | [], _ => contradiction

/-! ## The stream of tokens -/

/-- At most a number of tokens of a text. -/
def lexemesWithin : Nat → List UInt8 → List Lexeme
  | 0, _ => []
  | limit + 1, text =>
    match lex text with
    | none => []
    | some (lexeme, rest) => lexeme :: lexemesWithin limit rest

/-- All tokens of a text. -/
def lexemes (text : List UInt8) : List Lexeme :=
  lexemesWithin text.length text

/-- A text has no more tokens than characters. -/
theorem lexemesWithin_enough {limit other : Nat} {text : List UInt8} (enough : text.length ≤ limit)
    (otherEnough : text.length ≤ other) : lexemesWithin limit text = lexemesWithin other text := by
  induction limit generalizing other text with
  | zero =>
    have empty : text = [] := eq_nil_of_length_eq_zero (by omega)
    subst empty
    cases other <;> rfl
  | succ limit ih =>
    cases other with
    | zero =>
      have empty : text = [] := eq_nil_of_length_eq_zero (by omega)
      subst empty
      rfl
    | succ other =>
      rw [lexemesWithin, lexemesWithin]
      cases found : lex text with
      | none => rfl
      | some result =>
        have shorter := lex_length found
        exact congrArg (result.1 :: ·) (ih (by omega) (by omega))

theorem lexemes_of_none {text : List UInt8} (found : lex text = none) : lexemes text = [] := by
  rw [lexemes]
  cases text <;> simp [lexemesWithin, found]

theorem lexemes_of_some {text rest : List UInt8} {lexeme : Lexeme}
    (found : lex text = some (lexeme, rest)) : lexemes text = lexeme :: lexemes rest := by
  have shorter := lex_length found
  obtain ⟨limit, length⟩ : ∃ limit, text.length = limit + 1 := ⟨text.length - 1, by omega⟩
  rw [lexemes, length, lexemesWithin, found]
  exact congrArg (lexeme :: ·) (lexemesWithin_enough (by omega) (by omega))

/-! ## The lexer -/

/-- `WktLexer`; the position is the text that is left. -/
structure WktLexer where
  number : Option Double
  position : List UInt8
  skipNumber : Bool
  deriving DecidableEq, Repr

namespace WktLexer

/-- `WktLexer(text, size, skip_number)`. -/
def new (text : List UInt8) (skipNumber : Bool) : WktLexer :=
  { number := none, position := text, skipNumber }

/-- `WktLexer(other, skip_number)`. -/
def copy (other : WktLexer) (skipNumber : Bool) : WktLexer :=
  { number := none, position := other.position, skipNumber }

variable (atof : List UInt8 → Double)

/-- `WktLexer::next_token`. -/
def nextToken (lexer : WktLexer) : Token × WktLexer :=
  match lex lexer.position with
  | none => (.eof, lexer)
  | some (.number digits, rest) =>
    (.number, { lexer with
      number := if lexer.skipNumber then lexer.number else some (atof digits)
      position := rest })
  | some (lexeme, rest) => (lexeme.token, { lexer with position := rest })

variable {atof} {lexer : WktLexer}

/-- Without tokens left, the lexer is at the end of its text. -/
theorem nextToken_nil (stream : lexemes lexer.position = []) :
    lexer.nextToken atof = (.eof, lexer) := by
  cases found : lex lexer.position with
  | none => simp [nextToken, found]
  | some result =>
    rw [lexemes_of_some found] at stream
    cases stream

/-- The next token is the first of the stream. -/
theorem nextToken_cons {lexeme : Lexeme} {rest : List Lexeme}
    (stream : lexemes lexer.position = lexeme :: rest) :
    (lexer.nextToken atof).1 = lexeme.token ∧
      lexemes (lexer.nextToken atof).2.position = rest ∧
      (lexer.nextToken atof).2.skipNumber = lexer.skipNumber ∧
      (lexer.nextToken atof).2.position.length < lexer.position.length := by
  cases found : lex lexer.position with
  | none =>
    rw [lexemes_of_none found] at stream
    cases stream
  | some result =>
    have shorter := lex_length found
    rw [lexemes_of_some found] at stream
    cases stream
    obtain ⟨lexeme, position⟩ := result
    cases lexeme <;> simp [nextToken, found, Lexeme.token, shorter]

/-- A number that is not skipped is available after its token. -/
theorem nextToken_number {digits : List UInt8} {rest : List Lexeme}
    (stream : lexemes lexer.position = .number digits :: rest) (reads : lexer.skipNumber = false) :
    (lexer.nextToken atof).2.number = some (atof digits) := by
  cases found : lex lexer.position with
  | none =>
    rw [lexemes_of_none found] at stream
    cases stream
  | some result =>
    rw [lexemes_of_some found] at stream
    obtain ⟨lexeme, position⟩ := result
    cases stream
    simp [nextToken, found, reads]

/-- A token other than the end is the first of the stream. -/
theorem lexemes_of_nextToken (more : (lexer.nextToken atof).1 ≠ .eof) :
    ∃ lexeme, lexeme.token = (lexer.nextToken atof).1 ∧
      lexemes lexer.position = lexeme :: lexemes (lexer.nextToken atof).2.position := by
  cases stream : lexemes lexer.position with
  | nil =>
    rw [nextToken_nil stream] at more
    exact absurd rfl more
  | cons lexeme rest =>
    obtain ⟨token, later, -⟩ := @nextToken_cons atof _ _ _ stream
    exact ⟨lexeme, token.symm, by rw [later]⟩

variable (atof) in
theorem nextToken_length_le (lexer : WktLexer) :
    (lexer.nextToken atof).2.position.length ≤ lexer.position.length := by
  cases stream : lexemes lexer.position with
  | nil => rw [nextToken_nil stream]
  | cons lexeme rest => exact (nextToken_cons stream).2.2.2.le

theorem nextToken_length_lt (more : (lexer.nextToken atof).1 ≠ .eof) :
    (lexer.nextToken atof).2.position.length < lexer.position.length := by
  obtain ⟨lexeme, -, stream⟩ := lexemes_of_nextToken more
  exact (nextToken_cons stream).2.2.2

/-- Behind a number, every further token leaves less text. -/
theorem nextToken_length_lt_of_number (isNumber : ¬ (lexer.nextToken atof).1 ≠ .number) :
    (lexer.nextToken atof).2.position.length < lexer.position.length := by
  apply nextToken_length_lt
  intro ends
  exact isNumber (by simp [ends])

end WktLexer

end DseDriver.Wkt
