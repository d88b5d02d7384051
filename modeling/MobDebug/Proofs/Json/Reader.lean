import MobDebug.Json
import MobDebug.Double.Decimal

/-! Reading JSON. The readers take what they read from the front of a text and give the rest. Those
for strings and trees are bounded by a number that the length of the text exceeds. -/
namespace MobDebug.Json

/-- The characters that may stand between tokens. -/
def isSpace (c : Char) : Bool :=
  c == ' ' || c == '\t' || c == '\n' || c == '\r'

def skipSpace (cs : List Char) : List Char :=
  cs.dropWhile isSpace

/-- The number that four hexadecimal digits are for. -/
def readUnit? : List Char → Option (Nat × List Char)
  | a :: b :: c :: d :: rest => do
    let a ← Text.hexValue? a
    let b ← Text.hexValue? b
    let c ← Text.hexValue? c
    let d ← Text.hexValue? d
    some (((a * 16 + b) * 16 + c) * 16 + d, rest)
  | _ => none

/-- The character of one escaped code unit, or of a pair of surrogates. -/
def readUnits? (cs : List Char) : Option (Char × List Char) := do
  let (high, rest) ← readUnit? cs
  if high < 0xd800 || 0xdfff < high then some (Char.ofNat high, rest)
  else
    match rest with
    | '\\' :: 'u' :: rest =>
      let (low, rest) ← readUnit? rest
      if high ≤ 0xdbff && 0xdc00 ≤ low && low ≤ 0xdfff then
        some (Char.ofNat (0x10000 + (high - 0xd800) * 0x400 + (low - 0xdc00)), rest)
      else none
    | _ => none

/-- The character of an escape of two characters, by the second. -/
def ofEscape? : Char → Option Char
  | '"' => some '"'
  | '\\' => some '\\'
  | '/' => some '/'
  | 'b' => some '\x08'
  | 'f' => some '\x0c'
  | 'n' => some '\n'
  | 'r' => some '\r'
  | 't' => some '\t'
  | _ => none

/-- The character at the front of what stands between quotes. A quote is none, and so is what has to
be escaped. -/
def readChar? : List Char → Option (Char × List Char)
  | '\\' :: 'u' :: rest => readUnits? rest
  | '\\' :: c :: rest => (ofEscape? c).map (·, rest)
  | c :: rest => if c = '"' || c = '\\' || c.toNat < 0x20 then none else some (c, rest)
  | [] => none

def closeQuote? : List Char → Option (List Char)
  | '"' :: rest => some rest
  | _ => none

/-- The characters up to the closing quote. -/
def readChars? : Nat → List Char → Option (List Char × List Char)
  | 0, _ => none
  | n + 1, cs =>
    match readChar? cs with
    | some (c, rest) => (readChars? n rest).map fun (text, rest) => (c :: text, rest)
    | none => (closeQuote? cs).map fun rest => ([], rest)

/-- The digits of a number before its fraction. Only zero itself begins with a zero. -/
def readWhole? (cs : List Char) : Option (List Char × List Char) :=
  let digits := cs.takeWhile Char.isDigit
  if digits = [] || (digits.head? = some '0' && digits ≠ ['0']) then none
  else some (digits, cs.dropWhile Char.isDigit)

/-- The point and the digits behind it; nothing, if there is no point. -/
def readFraction? : List Char → Option (List Char × List Char)
  | '.' :: rest =>
    let digits := rest.takeWhile Char.isDigit
    if digits = [] then none else some ('.' :: digits, rest.dropWhile Char.isDigit)
  | rest => some ([], rest)

/-- The sign of an exponent. -/
def readSign : List Char → List Char × List Char
  | '-' :: rest => (['-'], rest)
  | '+' :: rest => (['+'], rest)
  | rest => ([], rest)

/-- The exponent; nothing, if there is none. -/
def readExponent? : List Char → Option (List Char × List Char)
  | [] => some ([], [])
  | e :: rest =>
    if e = 'e' || e = 'E' then
      let (sign, rest) := readSign rest
      let digits := rest.takeWhile Char.isDigit
      if digits = [] then none else some (e :: (sign ++ digits), rest.dropWhile Char.isDigit)
    else some ([], e :: rest)

/-- A number without its sign. One that has neither a fraction nor an exponent is an integer. -/
def readUnsigned? (negative : Bool) (cs : List Char) : Option (Json × List Char) := do
  let (whole, rest) ← readWhole? cs
  let (fraction, rest) ← readFraction? rest
  let (exponent, rest) ← readExponent? rest
  if fraction = [] && exponent = [] then
    let n : Int := Text.ofDigits whole
    some (.int (if negative then -n else n), rest)
  else
    let x ← Double.read? false (whole ++ (fraction ++ exponent))
    some (.float (if negative then x.negate else x), rest)

def readNumber? : List Char → Option (Json × List Char)
  | '-' :: rest => readUnsigned? true rest
  | cs => readUnsigned? false cs

/-- A tree that is no string, array or object. -/
def readScalar? : List Char → Option (Json × List Char)
  | 'n' :: 'u' :: 'l' :: 'l' :: rest => some (.null, rest)
  | 't' :: 'r' :: 'u' :: 'e' :: rest => some (.bool true, rest)
  | 'f' :: 'a' :: 'l' :: 's' :: 'e' :: rest => some (.bool false, rest)
  | cs => readNumber? cs

mutual

def readTree? : Nat → List Char → Option (Json × List Char)
  | 0, _ => none
  | n + 1, cs =>
    match skipSpace cs with
    | '"' :: rest => (readChars? n rest).map fun (text, rest) => (.str (String.ofList text), rest)
    | '[' :: rest =>
      match skipSpace rest with
      | ']' :: rest => some (.arr [], rest)
      | rest => (readElements? n rest).map fun (elements, rest) => (.arr elements, rest)
    | '\x7b' :: rest =>
      match skipSpace rest with
      | '\x7d' :: rest => some (.obj [], rest)
      | rest => (readMembers? n rest).map fun (members, rest) => (.obj members, rest)
    | cs => readScalar? cs

/-- The elements up to the closing bracket, of which there is at least one. -/
def readElements? : Nat → List Char → Option (List Json × List Char)
  | 0, _ => none
  | n + 1, cs => do
    let (j, rest) ← readTree? n cs
    match skipSpace rest with
    | ']' :: rest => some ([j], rest)
    | ',' :: rest =>
      let (elements, rest) ← readElements? n rest
      some (j :: elements, rest)
    | _ => none

/-- The members up to the closing brace, of which there is at least one. -/
def readMembers? : Nat → List Char → Option (List (String × Json) × List Char)
  | 0, _ => none
  | n + 1, cs =>
    match skipSpace cs with
    | '"' :: rest => do
      let (name, rest) ← readChars? n rest
      match skipSpace rest with
      | ':' :: rest =>
        let (j, rest) ← readTree? n rest
        match skipSpace rest with
        | '\x7d' :: rest => some ([(String.ofList name, j)], rest)
        | ',' :: rest =>
          let (members, rest) ← readMembers? n rest
          some ((String.ofList name, j) :: members, rest)
        | _ => none
      | _ => none
    | _ => none

end

/-- Reads a whole text as one tree. -/
def read? (text : String) : Option Json := do
  let (j, rest) ← readTree? (text.length + 1) text.toList
  if skipSpace rest = [] then some j else none

end MobDebug.Json
