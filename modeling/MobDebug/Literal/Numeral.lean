import MobDebug.Double.Decimal
import MobDebug.Literal.Number
import MobDebug.Literal.Trivia
/-!
Numerals: decimal integers and floats, and hexadecimal ones. A decimal integer beyond 64 bits is a
float; a hexadecimal integer wraps.
-/
namespace MobDebug.Literal

def isDigit (b : UInt8) : Bool :=
  ascii '0' ≤ b && b ≤ ascii '9'

/-- ASCII letters and the underscore. -/
def startsName (b : UInt8) : Bool :=
  b == ascii '_' || (ascii 'a' ≤ b && b ≤ ascii 'z') || (ascii 'A' ≤ b && b ≤ ascii 'Z')

def continuesName (b : UInt8) : Bool :=
  startsName b || isDigit b

/-- The character with the number of a byte. -/
def byteChar (b : UInt8) : Char :=
  Char.ofNat b.toNat

/-- The value of a hexadecimal digit. -/
def hexDigit? (b : UInt8) : Option Nat :=
  Text.hexValue? (byteChar b)

/-- A digit starts a numeral, and so does a point before a digit. -/
def startsNumeral : List UInt8 → Bool
  | [] => false
  | [b] => isDigit b
  | b :: c :: _ => isDigit b || (b == ascii '.' && isDigit c)

/-- How many bytes continue a decimal numeral: digits, points, and exponent marks with a sign. -/
def decimalLength : List UInt8 → Nat
  | [] => 0
  | [b] => if isDigit b || b == ascii '.' || b == ascii 'e' || b == ascii 'E' then 1 else 0
  | b :: c :: r =>
    if isDigit b || b == ascii '.' then decimalLength (c :: r) + 1
    else if b == ascii 'e' || b == ascii 'E' then
      if c == ascii '+' || c == ascii '-' then decimalLength r + 2 else decimalLength (c :: r) + 1
    else 0

/-- A decimal numeral: an integer of 64 bits if it has neither point nor exponent and fits. -/
def readDecimal? (text : List Char) : Option Number :=
  if text.all Char.isDigit && Text.ofDigits text < Nat.pow 2 63 then
    some (.int (Int64.ofNat (Text.ofDigits text)))
  else (Double.read? false text).map .float

/-- Hexadecimal digits in order, how many of them follow a point, whether there is one, and the
rest. -/
structure HexDigits where
  digits : List Nat
  fraction : Nat
  pointed : Bool
  rest : List UInt8

/-- Reads digits up to the first byte that is none, over at most one point. -/
def readHexDigits (pointed : Bool) : List UInt8 → HexDigits
  | [] => ⟨[], 0, pointed, []⟩
  | b :: r =>
    match hexDigit? b with
    | some d =>
      let more := readHexDigits pointed r
      { more with
        digits := d :: more.digits
        fraction := if pointed then more.fraction + 1 else more.fraction }
    | none =>
      if b == ascii '.' && !pointed then readHexDigits true r else ⟨[], 0, pointed, b :: r⟩

theorem length_readHexDigits_le (pointed : Bool) (s : List UInt8) :
    (readHexDigits pointed s).rest.length ≤ s.length := by
  fun_induction readHexDigits pointed s <;> simp_all +zetaDelta <;> omega

/-- Sixteen times a number plus a digit, rounded once. -/
def pushHexDigit (x : Double) (d : Nat) : Double :=
  match x with
  | .finite f =>
    let scale := Nat.pow 2 (-f.exponent).toNat
    .ofQuotient false (f.mantissa * 16 * Nat.pow 2 f.exponent.toNat + d * scale) scale
  | x => x

/-- The 64-bit integer of hexadecimal digits, modulo `2 ^ 64`. -/
def hexInteger (digits : List Nat) : Int64 :=
  (digits.foldl (fun n d => n * 16 + UInt64.ofNat d) 0).toInt64

/-- The exponent of two: four less for each digit of the fraction, and the written one, in 64 bits
that wrap. -/
def hexExponent (fraction : Nat) (negative : Bool) (written : Nat) : Int64 :=
  let scale := -(4 * Int64.ofNat fraction)
  if negative then scale - Int64.ofNat written else scale + Int64.ofNat written

/-- The digits times a power of two. The power is rounded before the product is, and its exponent
is kept within 32 bits. -/
def hexFloat (digits : List Nat) (exponent : Int64) : Double :=
  let clamped := max Int32.minValue.toInt (min Int32.maxValue.toInt exponent.toInt)
  (digits.foldl pushHexDigit (.zero false)).mul (.powTwo clamped)

/-- The exponent after a `p`: its sign, its value, and the rest. -/
def readHexExponent (s : List UInt8) : Except Failure (Bool × Nat × Rest s) :=
  let (negative, t) : Bool × Rest s := match s with
    | [] => (false, .nothing)
    | b :: r =>
      if b = ascii '-' then (true, .tail b r)
      else if b = ascii '+' then (false, .tail b r)
      else (false, .all (b :: r))
  let digits := (t.1.takeWhile isDigit).map byteChar
  let rest := t.1.dropWhile isDigit
  if digits.isEmpty || Nat.pow 2 63 ≤ Text.ofDigits digits then failAt .hexExponent rest
  else .ok (negative, Text.ofDigits digits,
    ⟨rest, Nat.le_trans (length_dropWhile_le isDigit t.1) t.2⟩)

/-- A hexadecimal numeral from behind its `0x`; `start` is the text that begins with it. -/
def hexNumeral (start s : List UInt8) : Except Failure (Number × Rest s) :=
  let scan := readHexDigits false s
  have hs : scan.rest.length ≤ s.length := length_readHexDigits_le false s
  if scan.digits.isEmpty then failAt .noHexDigits start
  else
    let finish (pointed : Bool) : Number :=
      if pointed then .float (hexFloat scan.digits (hexExponent scan.fraction false 0))
      else .int (hexInteger scan.digits)
    match hr : scan.rest with
    | [] => .ok (finish scan.pointed, .nothing)
    | b :: r =>
      if b = ascii 'p' ∨ b = ascii 'P' then
        match readHexExponent r with
        | .error e => .error e
        | .ok (negative, written, rest) =>
          .ok (.float (hexFloat scan.digits (hexExponent scan.fraction negative written)),
            ⟨rest.1, by have := rest.2; simp_all; omega⟩)
      else .ok (finish scan.pointed, ⟨b :: r, by simp_all⟩)

/-- The numeral that `b` and the text behind it begin with. No name may follow it directly. -/
def numeral (b : UInt8) (s : List UInt8) : Except Failure (Parsed Number (b :: s)) :=
  let read : Except Failure (Number × Rest s) := match s with
    | x :: t =>
      if b = ascii '0' ∧ (x = ascii 'x' ∨ x = ascii 'X') then
        (hexNumeral (b :: x :: t) t).map fun (n, rest) => (n, rest.behind x)
      else decimal b (x :: t)
    | [] => decimal b []
  match read with
  | .error e => .error e
  | .ok (n, rest) =>
    if rest.1.head?.any continuesName then failAt .malformedNumber rest.1
    else .ok (.upTo n b rest)
where
  decimal (b : UInt8) (s : List UInt8) : Except Failure (Number × Rest s) :=
    let length := decimalLength s
    let text := (b :: s.take length).map byteChar
    match readDecimal? text with
    | some n => .ok (n, ⟨s.drop length, by simp⟩)
    | none => failAt (.invalidNumber (String.ofList text)) (b :: s)

end MobDebug.Literal
