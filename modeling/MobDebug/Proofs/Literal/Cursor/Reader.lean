import MobDebug.Proofs.Literal.Cursor.Machine
import MobDebug.Proofs.Literal.Grammar

/-!
The reader of literals as a program of the machine. What bytes stand for once they are gathered is
left to the definitions that the other reader uses.
-/
namespace MobDebug.Literal.Cursor

/-! ### Trivia -/

def skipWhile (p : UInt8 → Bool) : Scan Unit :=
  loop (fun _ => do
    if (← peek).any p then
      advance 1
      return .inl ()
    else return .inr ()) ()

/-- The byte behind the signs of a bracket, whose first byte is at the position. -/
def peekBehind (level : Nat) : Scan (Option UInt8) := do
  peekAt (← size (1 + level))

/-- Skips an opening or closing bracket. -/
def skipBracket (level : Nat) : Scan Unit := do
  advance (← size (level + 2))

/-- One more sign of an opening long bracket, of which `level` are counted. -/
def countSign (level : Nat) : Scan (Nat ⊕ Nat) := do
  if (← peekBehind level) = some (ascii '=') then return .inl (← size (level + 1))
  else return .inr level

/-- The level of the long bracket that opens at the position, if one does. -/
def bracketLevel : Scan Nat :=
  loopFrom id countSign 0

def skipLineBreak : Scan Unit := do
  if [0x0d, 0x0a].isPrefixOf (← rest) then advance 2
  else if (← peek).any isLineEnd then advance 1
  else return ()

/-- A closing bracket begins with the byte `b` at the position. -/
def closesAt (level : Nat) (b : UInt8) : Scan Bool := do
  if b = ascii ']' then
    let tail ← sliceFrom (← size ((← here) + 1))
    if (tail.take level).all (· == ascii '=') then
      return (← peekBehind level) == some (ascii ']')
    else return false
  else return false

/-- One more byte of a long bracket, or its end. -/
def contentByte (level start : Nat) : Scan (Unit ⊕ Option (List UInt8)) := do
  match ← peek with
  | none => return .inr none
  | some b =>
    if ← closesAt level b then
      let content ← slice start (← here)
      skipBracket level
      return .inr (some content)
    else
      advance 1
      return .inl ()

/-- What stands from `start` up to the closing bracket, which is skipped. -/
def bracketContent (level start : Nat) : Scan (Option (List UInt8)) :=
  loop (fun _ => contentByte level start) ()

/-- The content of the long bracket at the position, which must be an opening bracket byte. Stays
there where no long bracket opens. -/
def longBracket : Scan (Option (List UInt8)) := do
  let start ← here
  let level ← bracketLevel
  if (← peekBehind level) = some (ascii '[') then
    skipBracket level
    skipLineBreak
    match ← bracketContent level (← here) with
    | some content => return some content
    | none =>
      moveTo start
      fail .unterminatedBracket
  else return none

/-- Skips the long bracket behind the dashes of a comment, if there is one. -/
def bracketComment : Scan Bool := do
  if (← peek) = some (ascii '[') then return (← longBracket).isSome else return false

/-- Space, and one comment if there is one. -/
def skipComment : Scan (Unit ⊕ Unit) := do
  skipWhile isSpace
  if dashes.isPrefixOf (← rest) then
    advance 2
    if ← bracketComment then return .inl ()
    else
      skipWhile (· != ascii '\n')
      return .inl ()
  else return .inr ()

def skipTrivia : Scan Unit :=
  loop (fun _ => skipComment) ()

def expect (wanted : UInt8) : Scan Unit := do
  skipTrivia
  match ← peek with
  | some b => if b = wanted then advance 1 else fail (.expected wanted b)
  | none => fail (.expectedAtEnd wanted)

/-! ### Names -/

/-- The name at the position, which stays in front of it. -/
def peekName : Scan (Option String) := do
  let s ← rest
  if s.head?.any startsName then return some (← decode (s.takeWhile continuesName))
  else return none

def skipName (name : String) : Scan Unit :=
  advance (Text.bytes name).length

/-- A word stands at the position, and no name goes on behind it. -/
def standsAlone (word : List UInt8) : Scan Bool := do
  if word.isPrefixOf (← rest) then return !(← peekAt word.length).any continuesName
  else return false

def mathHuge : Scan Number := do
  if ← standsAlone (Text.bytes "math.huge") then
    advance 9
    return .float (.infinite false)
  else fail .mathLibrary

def nilOrReference : Scan Value := do
  let start ← here
  skipWhile isSpace
  if (dashes ++ [ascii '[']).isPrefixOf (← rest) then
    advance 2
    match ← longBracket with
    | some content =>
      return match referenceLabel? content with
        | some label => .reference label
        | none => .nil
    | none =>
      moveTo start
      return .nil
  else
    moveTo start
    return .nil

def functionPlaceholder : Scan Value := do
  expect (ascii '(')
  expect (ascii ')')
  skipTrivia
  if (← peekName) = some "end" then
    advance 3
    return .function
  else fail .functionBody

def named : Scan Value := do
  let start ← here
  match ← peekName with
  | none => breach .unreached
  | some name =>
    skipName name
    if name = "nil" then nilOrReference
    else if name = "true" then return .bool true
    else if name = "false" then return .bool false
    else if name = "math" then
      moveTo start
      return .number (← mathHuge)
    else if name = "function" then functionPlaceholder
    else
      moveTo start
      fail (.notLiteral name)

/-! ### Numerals -/

/-- What is known of a hexadecimal numeral in the middle of its digits. The integer wraps, and is
meant to. -/
structure HexState where
  int : UInt64
  mantissa : Double
  exponent : Int
  digits : Nat
  pointed : Bool

namespace HexState

/-- The exponent behind one more digit. -/
def lower (h : HexState) : Scan Int :=
  if h.pointed then keep .long (h.exponent - 4) else pure h.exponent

/-- The state behind one more digit. -/
def push (h : HexState) (d : Nat) (exponent : Int) (digits : Nat) : HexState :=
  ⟨h.int * 16 + UInt64.ofNat d, pushHexDigit h.mantissa d, exponent, digits, h.pointed⟩

end HexState

/-- One more digit, or the point. -/
def hexByte (h : HexState) : Scan (HexState ⊕ HexState) := do
  match ← peek with
  | none => return .inr h
  | some b =>
    match hexDigit? b with
    | some d =>
      let exponent ← h.lower
      let digits ← size (h.digits + 1)
      advance 1
      return .inl (h.push d exponent digits)
    | none =>
      if b == ascii '.' && !h.pointed then
        advance 1
        return .inl { h with pointed := true }
      else return .inr h

def hexDigits : Scan HexState :=
  loop hexByte ⟨0, .zero false, 0, 0, false⟩

/-- Skips the sign of an exponent, and says whether it is a minus. -/
def exponentSign : Scan Bool := do
  let sign ← peek
  if sign = some (ascii '-') then
    advance 1
    return true
  else if sign = some (ascii '+') then
    advance 1
    return false
  else return false

/-- There are no digits, or too many for 63 bits. -/
def malformed (digits : List Char) : Bool :=
  digits.isEmpty || Nat.pow 2 63 ≤ Text.ofDigits digits

/-- A number with its sign. -/
def signed (negative : Bool) (n : Nat) : Scan Int :=
  if negative then keep .long (-n) else pure (n : Int)

/-- An exponent of two with the one added that stands at the position. -/
def addExponent (exponent : Int) : Scan Int := do
  let negative ← exponentSign
  let start ← here
  skipWhile isDigit
  let digits := (← decode (← slice start (← here))).toList
  if malformed digits then fail .hexExponent
  else keep .long (exponent + (← signed negative (Text.ofDigits digits)))

/-- A number times a power of two, whose exponent is kept within 32 bits. -/
def scaled (mantissa : Double) (exponent : Int) : Scan Number := do
  let clamped ← keep .int (max Int32.minValue.toInt (min Int32.maxValue.toInt exponent))
  return .float (mantissa.mul (.powTwo clamped))

/-- A hexadecimal numeral from behind its `0x`, which stands at `start`. -/
def hexNumeral (start : Nat) : Scan Number := do
  let h ← hexDigits
  if h.digits = 0 then failFrom start .noHexDigits
  else if (← peek).any fun b => b == ascii 'p' || b == ascii 'P' then
    advance 1
    scaled h.mantissa (← addExponent h.exponent)
  else if h.pointed then scaled h.mantissa h.exponent
  else return .int h.int.toInt64

def isSign (b : UInt8) : Bool :=
  b == ascii '+' || b == ascii '-'

/-- A digit, a point, or an exponent mark with its sign. -/
def decimalByte : Scan (Unit ⊕ Unit) := do
  match ← peek with
  | none => return .inr ()
  | some b =>
    if isDigit b || b == ascii '.' then
      advance 1
      return .inl ()
    else if b == ascii 'e' || b == ascii 'E' then
      advance 1
      if (← peek).any isSign then
        advance 1
        return .inl ()
      else return .inl ()
    else return .inr ()

def skipDecimal : Scan Unit :=
  loop (fun _ => decimalByte) ()

def decimal (start : Nat) : Scan Number := do
  skipDecimal
  let text ← decode (← slice start (← here))
  match readDecimal? text.toList with
  | some n => return n
  | none => failFrom start (.invalidNumber text)

def isHex : List UInt8 → Bool
  | b :: x :: _ => b == ascii '0' && (x == ascii 'x' || x == ascii 'X')
  | _ => false

def numeral : Scan Number := do
  let start ← here
  if isHex (← rest) then
    advance 2
    unlessContinued (← hexNumeral start)
  else unlessContinued (← decimal start)
where
  /-- The number, where no name goes on behind it. -/
  unlessContinued (n : Number) : Scan Number := do
    if (← peek).any continuesName then fail .malformedNumber else return n

/-- A numeral begins with the byte `b` at the position. -/
def startsNumeral (b : UInt8) : Scan Bool := do
  let next ← peekAt 1
  return isDigit b || (b == ascii '.' && next.any isDigit)

def negated : Scan Value := do
  skipTrivia
  if (← peekName) = some "math" then return .number (← mathHuge).negate
  else
    match ← peek with
    | none => fail .loneMinus
    | some b =>
      if ← startsNumeral b then return .number (← numeral).negate else fail .loneMinus

/-! ### Strings -/

def hexEscape : Scan (List UInt8) := do
  let high := (← peek).bind hexDigit?
  let low := (← peekAt 1).bind hexDigit?
  match high, low with
  | some high, some low =>
    advance 2
    let value ← natural .word ((← natural .word (high * 16 : Nat)) + low : Nat)
    return [UInt8.ofNat (← natural .byte value)]
  | _, _ => fail .hexEscape

/-- The value of a decimal digit. -/
def digitValue (b : UInt8) : Scan Nat :=
  natural .byte (b.toNat - (ascii '0').toNat)

/-- A number with up to `count` further digits. -/
def moreDigits : Nat → Nat → Scan Nat
  | 0, n => return n
  | count + 1, n => do
    match ← peek with
    | none => return n
    | some b =>
      if isDigit b then
        let tens ← natural .word (n * 10 : Nat)
        let n ← natural .word (tens + (← digitValue b) : Nat)
        advance 1
        moreDigits count n
      else return n

def decimalEscape (b : UInt8) : Scan (List UInt8) := do
  let n ← moreDigits 2 (← digitValue b)
  if n < 256 then return [UInt8.ofNat n] else fail .decimalEscape

/-- One more digit of a code point, whose number has at most 32 bits. -/
def codeDigit (code digits : Nat) : Scan (Nat × Nat ⊕ Nat × Nat) := do
  match (← peek).bind hexDigit? with
  | none => return .inr (code, digits)
  | some d =>
    if code * 16 + d < UInt32.size then
      let digits ← size (digits + 1)
      advance 1
      return .inl (code * 16 + d, digits)
    else fail .codeTooLarge

/-- The number of a code point, and how many digits it has. -/
def codeDigits : Scan (Nat × Nat) :=
  loop (fun (code, digits) => codeDigit code digits) (0, 0)

def codeEscape : Scan (List UInt8) := do
  if (← peek) = some (ascii '\x7b') then
    advance 1
    let (code, digits) ← codeDigits
    if digits = 0 || (← peek) != some (ascii '\x7d') then fail .codeEscape
    else
      advance 1
      if code.isValidChar then return String.utf8EncodeChar (Char.ofNat code)
      else fail .codePoint
  else fail .codeBrace

/-- A line break behind a backslash, which began with the byte `b`. -/
def lineEscape (b : UInt8) : Scan (List UInt8) := do
  if (← peek).any fun c => isLineEnd c && c != b then
    advance 1
    return [0x0a]
  else return [0x0a]

def escape : Scan (List UInt8) := do
  match ← peek with
  | none => fail .unterminatedString
  | some b =>
    advance 1
    match namedEscape? b with
    | some byte => return [byte]
    | none =>
      if isLineEnd b then lineEscape b
      else if b == ascii 'z' then
        skipWhile isSpace
        return []
      else if b == ascii 'x' then hexEscape
      else if isDigit b then decimalEscape b
      else if b == ascii 'u' then codeEscape
      else fail (.invalidEscape b)

/-- One more byte of a string, one more escape, or the end. -/
def quotedByte (quote : UInt8) (content : List UInt8) : Scan (List UInt8 ⊕ List UInt8) := do
  match ← peek with
  | none => fail .unterminatedString
  | some b =>
    advance 1
    if b = quote then return .inr content
    else if isLineEnd b then fail .lineEndInString
    else if b = ascii '\\' then return .inl (content ++ (← escape))
    else return .inl (content ++ [b])

def quotation (quote : UInt8) : Scan (List UInt8) :=
  loop (quotedByte quote) []

/-! ### Tables -/

/-- A byte stands at the position, and behind it what is wanted there. -/
def standsBefore (b : UInt8) (p : Option UInt8 → Prop) [DecidablePred p] : Scan Bool := do
  if (← peek) = some b then return decide (p (← peekAt 1)) else return false

/-- An opening bracket that begins a key. -/
def opensKey : Scan Bool :=
  standsBefore (ascii '[') fun next => next ≠ some (ascii '[') ∧ next ≠ some (ascii '=')

/-- An equals sign, and no second one behind it. -/
def equalsSign : Scan Bool :=
  standsBefore (ascii '=') fun next => next ≠ some (ascii '=')

def bracketEntry (item : Scan Value) : Scan (Key × Value) := do
  advance 1
  let start ← here
  let key ← item
  expect (ascii ']')
  expect (ascii '=')
  let value ← item
  match Key.ofValue? key with
  | some key => return (key, value)
  | none => failFrom start .invalidKey

/-- An entry with its key. Stays at the position where the entry has none. -/
def keyedEntry (item : Scan Value) : Scan (Option (Key × Value)) := do
  let start ← here
  if ← opensKey then return some (← bracketEntry item)
  else
    match ← peekName with
    | none => return none
    | some name =>
      skipName name
      skipTrivia
      if ← equalsSign then
        if reservedWords.contains name then
          moveTo start
          fail (.reservedWord name)
        else
          advance 1
          return some (.str name, ← item)
      else
        moveTo start
        return none

/-- Assigns an entry, and counts it if it has no key. -/
def entry (item : Scan Value) (t : Table) (next : Int) : Scan (Table × Int) := do
  match ← keyedEntry item with
  | some (key, value) => return (t.insert key value, next)
  | none =>
    let value ← item
    return (t.insert (.int (Int64.ofInt next)) value, ← keep .long (next + 1))

/-- What follows an entry. -/
def separator (t : Table) (next : Int) : Scan (Table × Int ⊕ Table) := do
  match ← peek with
  | none => fail .unterminatedTable
  | some b =>
    if b = ascii ',' ∨ b = ascii ';' then
      advance 1
      return .inl (t, next)
    else if b = ascii '\x7d' then
      advance 1
      return .inr t
    else fail (.entryEnd b)

/-- One more entry of a table, or the closing brace. -/
def field (item : Scan Value) (t : Table) (next : Int) : Scan (Table × Int ⊕ Table) := do
  skipTrivia
  if (← peek) = some (ascii '\x7d') then
    advance 1
    return .inr t
  else
    let (t, next) ← entry item t next
    skipTrivia
    separator t next

def entries (item : Scan Value) : Scan Table :=
  loop (fun (t, next) => field item t next) ([], 1)

def table (item : Scan Value) : Scan Value := do
  if (← getLimit) ≤ (← getDepth) then fail (.tooDeep (← getLimit))
  else
    setDepth (← size ((← getDepth) + 1))
    advance 1
    let t ← entries item
    setDepth (← natural .size ((← getDepth) - 1))
    return .table t

/-! ### Literals -/

def zeroOverZero : List UInt8 := [ascii '0', ascii '/', ascii '0']

def number : Scan Number := do
  if ← standsAlone zeroOverZero then
    advance 3
    return .float .nan
  else numeral

/-- The literal that begins with the byte `b` at the position. -/
def literal (table : Scan Value) (b : UInt8) : Scan Value := do
  if b = ascii '\x7b' then table
  else if b = ascii '"' ∨ b = ascii '\'' then
    advance 1
    return .str (Text.decodeLossy (← quotation b))
  else if b = ascii '[' then
    match ← longBracket with
    | some content => return .str (Text.decodeLossy content)
    | none => fail .openBracket
  else if b = ascii '-' then
    advance 1
    negated
  else if ← startsNumeral b then return .number (← number)
  else if startsName b then named
  else fail (.unexpected b)

def literalAfterTrivia (table : Scan Value) : Scan Value := do
  skipTrivia
  match ← peek with
  | none => fail .endOfInput
  | some b => literal table b

/-- A literal, which moves the position on. The recursion is at most `levels` deep. -/
def value : Nat → Scan Value
  | 0 => breach .unreached
  | levels + 1 => advancing (literalAfterTrivia (table (value levels)))

/-- A literal and trivia up to the end of the text. -/
def parse : Scan Value := do
  let v ← value ((← getLimit) + 1)
  skipTrivia
  if (← here) = (← source).length then return v else fail .trailingInput

/-- Reads the text from its start. -/
def run (env : Setting) : Except Stop Value :=
  (parse env ⟨0, 0⟩).map Prod.fst

end MobDebug.Literal.Cursor
