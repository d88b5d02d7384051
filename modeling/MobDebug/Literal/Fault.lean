import MobDebug.Text.Utf8
/-!
Why a text is no literal, and where. Every fault has one wording.
-/
namespace MobDebug.Literal

inductive Fault where
  | trailingInput
  | endOfInput
  | expected (wanted found : UInt8)
  | expectedAtEnd (wanted : UInt8)
  | unexpected (found : UInt8)
  | openBracket
  | unterminatedBracket
  | loneMinus
  | notLiteral (name : String)
  | mathLibrary
  | functionBody
  | tooDeep (limit : Nat)
  | entryEnd (found : UInt8)
  | unterminatedTable
  | invalidKey
  | reservedWord (name : String)
  | invalidNumber (text : String)
  | malformedNumber
  | noHexDigits
  | hexExponent
  | unterminatedString
  | lineEndInString
  | invalidEscape (found : UInt8)
  | hexEscape
  | decimalEscape
  | codeBrace
  | codeTooLarge
  | codeEscape
  | codePoint
  deriving DecidableEq

/-- A byte shown as the character of its number. -/
def showByte (b : UInt8) : String :=
  (Char.ofNat b.toNat).toString

def Fault.message : Fault → String
  | .trailingInput => "unexpected trailing input"
  | .endOfInput => "unexpected end of input"
  | .expected wanted found =>
    "expected '" ++ showByte wanted ++ "', found '" ++ showByte found ++ "'"
  | .expectedAtEnd wanted => "expected '" ++ showByte wanted ++ "', found end of input"
  | .unexpected found => "unexpected character '" ++ showByte found ++ "'"
  | .openBracket => "unexpected '['"
  | .unterminatedBracket => "unterminated long bracket"
  | .loneMinus => "unary minus is only allowed before a number"
  | .notLiteral name =>
    "\x60" ++ name ++ "\x60 is not a literal; names, calls and expressions are rejected"
  | .mathLibrary => "only \x60math.huge\x60 is accepted from the math library"
  | .functionBody => "function bodies are not literals"
  | .tooDeep limit => "table nesting exceeds the maximum depth of " ++ toString limit
  | .entryEnd found => "expected ',' or '\x7d' in table, found '" ++ showByte found ++ "'"
  | .unterminatedTable => "unterminated table"
  | .invalidKey => "invalid table key"
  | .reservedWord name => "reserved word \x60" ++ name ++ "\x60 cannot be a field name"
  | .invalidNumber text => "invalid number \x60" ++ text ++ "\x60"
  | .malformedNumber => "malformed number"
  | .noHexDigits => "hexadecimal number without digits"
  | .hexExponent => "malformed hexadecimal exponent"
  | .unterminatedString => "unterminated string"
  | .lineEndInString => "unfinished string"
  | .invalidEscape found => "invalid escape sequence '\\" ++ showByte found ++ "'"
  | .hexEscape => "\\x must be followed by two hex digits"
  | .decimalEscape => "decimal escape too large"
  | .codeBrace => "missing '\x7b' in \\u\x7bXXXX\x7d"
  | .codeTooLarge => "UTF-8 value too large"
  | .codeEscape => "malformed \\u\x7bXXXX\x7d escape"
  | .codePoint => "invalid code point"

/-- A fault, and how many bytes were left where it was found. -/
structure Failure where
  fault : Fault
  left : Nat
  deriving DecidableEq

/-- A fault and its byte offset. -/
structure Error where
  fault : Fault
  offset : Nat
  deriving DecidableEq

/-- What was read from `s`, and a rest that is shorter. -/
structure Parsed (α : Type) (s : List UInt8) where
  value : α
  rest : List UInt8
  shorter : rest.length < s.length

/-- Reads a thing from the front of a text, and takes something off it. -/
abbrev Parser (α : Type) := (s : List UInt8) → Except Failure (Parsed α s)

/-- A rest of `s`, possibly all of it. -/
abbrev Rest (s : List UInt8) := { r : List UInt8 // r.length ≤ s.length }

/-- Fails in front of `s`. -/
def failAt {α : Type} (fault : Fault) (s : List UInt8) : Except Failure α :=
  .error ⟨fault, s.length⟩

namespace Rest
variable {s r : List UInt8}

/-- All of a text. -/
def all (s : List UInt8) : Rest s :=
  ⟨s, Nat.le_refl _⟩

/-- Nothing of a text. -/
def nothing : Rest s :=
  ⟨[], Nat.zero_le _⟩

/-- All but the first byte. -/
def tail (b : UInt8) (r : List UInt8) : Rest (b :: r) :=
  ⟨r, Nat.le_succ _⟩

/-- The same rest of a text with one more byte in front. -/
def behind (b : UInt8) (rest : Rest r) : Rest (b :: r) :=
  ⟨rest.1, Nat.le_succ_of_le rest.2⟩

end Rest

namespace Parsed
variable {α β : Type} {s t : List UInt8}

/-- A reading of one byte. -/
def ofByte (value : α) (b : UInt8) (t : List UInt8) : Parsed α (b :: t) :=
  ⟨value, t, Nat.lt_succ_self _⟩

/-- A reading of one byte and of what follows up to a rest. -/
def upTo (value : α) (b : UInt8) (rest : Rest t) : Parsed α (b :: t) :=
  ⟨value, rest.1, Nat.lt_succ_of_le rest.2⟩

/-- The same reading from a text with one more byte in front. -/
def behind (b : UInt8) (p : Parsed α t) : Parsed α (b :: t) :=
  ⟨p.value, p.rest, Nat.lt_succ_of_lt p.shorter⟩

/-- The same reading from a longer text. -/
def widen (p : Parsed α t) (h : t.length ≤ s.length) : Parsed α s :=
  ⟨p.value, p.rest, Nat.lt_of_lt_of_le p.shorter h⟩

def map (f : α → β) (p : Parsed α s) : Parsed β s :=
  ⟨f p.value, p.rest, p.shorter⟩

end Parsed
end MobDebug.Literal
