import MobDebug.Double.Basic
import MobDebug.Text.Digits
/-!
Decimal numerals with a fraction or an exponent, read as the nearest double.
-/
namespace MobDebug.Double

/-- The exponent that ends a numeral; none written means zero. -/
def readExponent? : List Char → Option Int
  | [] => some 0
  | e :: rest =>
    if e != 'e' && e != 'E' then none
    else
      let (negative, digits) := match rest with
        | '-' :: digits => (true, digits)
        | '+' :: digits => (false, digits)
        | digits => (false, digits)
      if digits.isEmpty || !digits.all Char.isDigit then none
      else
        let n : Int := Text.ofDigits digits
        some (if negative then -n else n)

/-- Reads an unsigned numeral: digits, which may have a point among them or at either end, and an
optional exponent. -/
def read? (negative : Bool) (cs : List Char) : Option Double :=
  let whole := cs.takeWhile Char.isDigit
  let afterWhole := cs.dropWhile Char.isDigit
  let (fraction, rest) := match afterWhole with
    | '.' :: rest => (rest.takeWhile Char.isDigit, rest.dropWhile Char.isDigit)
    | rest => ([], rest)
  let digits := whole ++ fraction
  if digits.isEmpty then none
  else
    (readExponent? rest).map fun e =>
      ofDecimal negative (Text.ofDigits digits) (e - fraction.length)

/-- Reads a numeral that may have a sign, or the name of what is no finite number in either case. -/
def readSigned? (cs : List Char) : Option Double :=
  let (negative, unsigned) := match cs with
    | '-' :: rest => (true, rest)
    | '+' :: rest => (false, rest)
    | cs => (false, cs)
  let name := String.ofList (unsigned.map Char.toLower)
  if name = "nan" then some .nan
  else if name = "inf" ∨ name = "infinity" then some (.infinite negative)
  else read? negative unsigned

end MobDebug.Double
