import MobDebug.Double.Decimal
import MobDebug.Toml.Node
/-!
Numbers, booleans and dates: values that are single words.
-/
namespace MobDebug.Toml

/-- The digits without the underscores between them. Each underscore stands between two digits. -/
def plainDigits? (isDigit : Char → Bool) (cs : List Char) : Option (List Char) :=
  match cs with
  | [] => none
  | [c] => if isDigit c then some [c] else none
  | c :: '_' :: rest => if isDigit c then (plainDigits? isDigit rest).map (c :: ·) else none
  | c :: rest => if isDigit c then (plainDigits? isDigit rest).map (c :: ·) else none

/-- A sign and what it stands before. -/
def splitSign : List Char → Bool × List Char
  | '-' :: rest => (true, rest)
  | '+' :: rest => (false, rest)
  | rest => (false, rest)

/-- A number without a superfluous zero in front. -/
def wholeDigits? (cs : List Char) : Option (List Char) :=
  match plainDigits? Char.isDigit cs with
  | some ('0' :: _ :: _) => none
  | digits => digits

/-- An integer of 64 bits. -/
def inRange? (i : Int) : Option Int :=
  if Int64.minValue.toInt ≤ i ∧ i ≤ Int64.maxValue.toInt then some i else none

/-- The number that digits of a base denote. -/
def ofBase (base : Nat) (digits : List Char) : Int :=
  digits.foldl (fun n c => n * base + (Text.hexValue? c).getD 0) 0

/-- An integer: decimal with a sign, or in base sixteen, eight or two without. -/
def integer? (word : List Char) : Option Int :=
  match word with
  | '0' :: 'x' :: rest =>
    (plainDigits? (fun c => (Text.hexValue? c).isSome) rest).bind fun ds => inRange? (ofBase 16 ds)
  | '0' :: 'o' :: rest =>
    (plainDigits? (fun c => '0' ≤ c && c ≤ '7') rest).bind fun ds => inRange? (ofBase 8 ds)
  | '0' :: 'b' :: rest =>
    (plainDigits? (fun c => c == '0' || c == '1') rest).bind fun ds => inRange? (ofBase 2 ds)
  | word =>
    let (negative, rest) := splitSign word
    (wholeDigits? rest).bind fun ds =>
      inRange? (if negative then -ofBase 10 ds else ofBase 10 ds)

/-- The parts of a float: before the point, behind it, and the exponent. -/
def floatParts (cs : List Char) : List Char × Option (List Char) × Option (List Char) :=
  let mantissa := cs.takeWhile fun c => c != 'e' && c != 'E'
  let exponent := match cs.dropWhile fun c => c != 'e' && c != 'E' with
    | _ :: rest => some rest
    | [] => none
  let whole := mantissa.takeWhile (· != '.')
  let fraction := match mantissa.dropWhile (· != '.') with
    | _ :: rest => some rest
    | [] => none
  (whole, fraction, exponent)

/-- A decimal float: it has a fraction or an exponent, and is not beyond the largest number. -/
def decimalFloat? (negative : Bool) (cs : List Char) : Option Double := do
  let (whole, fraction, exponent) := floatParts cs
  if fraction.isNone && exponent.isNone then none
  else
    let whole ← wholeDigits? whole
    let fraction ← match fraction with
      | some digits => plainDigits? Char.isDigit digits
      | none => some []
    let exponent ← match exponent with
      | some signed =>
        let (minus, digits) := splitSign signed
        (plainDigits? Char.isDigit digits).map fun ds =>
          let e : Int := Text.ofDigits ds
          if minus then -e else e
      | none => some 0
    let x := Double.ofDecimal negative (Text.ofDigits (whole ++ fraction))
      (exponent - fraction.length)
    if x = .infinite false then none else some x

/-- A float, with a sign. -/
def float? (word : List Char) : Option Double :=
  let (negative, rest) := splitSign word
  if rest = ['i', 'n', 'f'] then some (.infinite negative)
  else if rest = ['n', 'a', 'n'] then some .nan
  else decimalFloat? negative rest

/-- A number of exactly `count` digits, and the rest. -/
def fixedDigits? (count : Nat) (cs : List Char) : Option (Nat × List Char) :=
  let digits := cs.take count
  if digits.length = count ∧ digits.all Char.isDigit then
    some (Text.ofDigits digits, cs.drop count)
  else none

/-- The number of days of a month. -/
def daysIn (year month : Nat) : Nat :=
  if month = 2 then
    if year % 4 = 0 ∧ (year % 100 ≠ 0 ∨ year % 400 = 0) then 29 else 28
  else if month = 4 ∨ month = 6 ∨ month = 9 ∨ month = 11 then 30
  else 31

/-- The rest behind a date. -/
def afterDate? (cs : List Char) : Option (List Char) := do
  let (year, rest) ← fixedDigits? 4 cs
  let '-' :: rest := rest | none
  let (month, rest) ← fixedDigits? 2 rest
  let '-' :: rest := rest | none
  let (day, rest) ← fixedDigits? 2 rest
  if 1 ≤ month ∧ month ≤ 12 ∧ 1 ≤ day ∧ day ≤ daysIn year month then some rest else none

/-- The rest behind hours and minutes. -/
def afterMinutes? (cs : List Char) : Option (List Char) := do
  let (hour, rest) ← fixedDigits? 2 cs
  let ':' :: rest := rest | none
  let (minute, rest) ← fixedDigits? 2 rest
  if hour ≤ 23 ∧ minute ≤ 59 then some rest else none

/-- The rest behind a time of day, which may have a fraction of a second. -/
def afterTime? (cs : List Char) : Option (List Char) := do
  let rest ← afterMinutes? cs
  let ':' :: rest := rest | none
  let (second, rest) ← fixedDigits? 2 rest
  if 60 < second then none
  else
    match rest with
    | '.' :: c :: more => if c.isDigit then some (more.dropWhile Char.isDigit) else none
    | rest => some rest

/-- An offset from universal time, or none at all. -/
def isOffset (cs : List Char) : Bool :=
  match cs with
  | [] => true
  | ['Z'] => true
  | ['z'] => true
  | '+' :: rest => afterMinutes? rest == some []
  | '-' :: rest => afterMinutes? rest == some []
  | _ => false

/-- A time of day with an optional offset. -/
def isZonedTime (cs : List Char) : Bool :=
  (afterTime? cs).any isOffset

/-- A date, a time, or both. -/
def isDatetime (word : List Char) : Bool :=
  match afterDate? word with
  | some [] => true
  | some ('T' :: rest) => isZonedTime rest
  | some ('t' :: rest) => isZonedTime rest
  | some _ => false
  | none => afterTime? word == some []

/-- The value of a word that starts at a byte. -/
def scalar? (start : Nat) (word : List Char) : Option Node :=
  if word = "true".toList then some (.boolean start true)
  else if word = "false".toList then some (.boolean start false)
  else if isDatetime word then some (.datetime start)
  else
    match float? word with
    | some x => some (.float start x)
    | none => (integer? word).map (.integer start)

end MobDebug.Toml
