import MobDebug.Double.Basic
/-!
The shortest decimal text of a double: the fewest digits that read back as the same number, and
among those the nearest. Each printer chooses where positional notation ends and which way a tie
goes.
-/
namespace MobDebug.Double

/-- Which of two equally near texts is taken. -/
inductive Tie where
  | up
  | even
  deriving DecidableEq

/-- A printer of finite numbers: the decimal exponents it writes positionally, whether a positive
exponent shows its sign, and its choice in a tie. -/
structure Format where
  low : Int
  high : Int
  plus : Bool
  tie : Tie

/-- The greatest `e` with `10 ^ e ≤ n / d`, for positive `n` and `d`. -/
def floorLog10 (n d : Nat) : Int :=
  if d ≤ n then (Nat.toDigits 10 (n / d)).length - 1
  else -((Nat.toDigits 10 ((d - 1) / n)).length : Int)

/-- Of the two neighbours of `n / d` on the grid of multiples of `10 ^ p`, the nearer among those
that read back as `x`. -/
def onGrid (tie : Tie) (x : Double) (n d : Nat) (p : Int) : Option Nat :=
  let numerator := n * Nat.pow 10 (-p).toNat
  let denominator := d * Nat.pow 10 p.toNat
  let below := numerator / denominator
  let twice := 2 * (numerator % denominator)
  let nearer :=
    if twice < denominator ∨ (twice = denominator ∧ tie = .even ∧ below % 2 = 0) then below
    else below + 1
  let reads (c : Nat) : Bool := ofDecimal false c p == x
  if reads nearer then some nearer
  else if reads below then some below
  else if reads (below + 1) then some (below + 1)
  else none

/-- Moves trailing zeros of the digits into the exponent. -/
def stripZeros : Nat → Nat → Int → Nat × Int
  | 0, c, p => (c, p)
  | fuel + 1, c, p => if c ≠ 0 ∧ c % 10 = 0 then stripZeros fuel (c / 10) (p + 1) else (c, p)

/-- Digits `c` and exponent `p` of the shortest `c · 10 ^ p` that reads back as a positive number.
Seventeen digits always suffice. -/
def shortest (tie : Tie) (mantissa : Nat) (exponent : Int) : Nat × Int :=
  let n := mantissa * Nat.pow 2 exponent.toNat
  let d := Nat.pow 2 (-exponent).toNat
  let x := ofQuotient false n d
  let top := floorLog10 n d
  let found := (List.range 17).findSome? fun (count : Nat) =>
    let p := top - count
    (onGrid tie x n d p).map (·, p)
  match found with
  | some (c, p) => stripZeros 17 c p
  | none => (mantissa * Nat.pow 5 (-exponent).toNat * Nat.pow 2 exponent.toNat, min exponent 0)

/-- Zeros in a row. -/
def zeros (n : Nat) : String :=
  String.ofList (List.replicate n '0')

/-- Digits with the point after the first `point` of them, and at least one on either side. -/
def positional (digits : List Char) (point : Int) : String :=
  let count : Int := digits.length
  if point ≤ 0 then "0." ++ zeros (-point).toNat ++ String.ofList digits
  else if point < count then
    String.ofList (digits.take point.toNat) ++ "." ++ String.ofList (digits.drop point.toNat)
  else String.ofList digits ++ zeros (point - count).toNat ++ ".0"

/-- The first digit, the others after a point, and the exponent. -/
def scientific (plus : Bool) (digits : List Char) (exponent : Int) : String :=
  let fraction := if digits.length ≤ 1 then "" else "." ++ String.ofList (digits.drop 1)
  String.ofList (digits.take 1) ++ fraction ++ "e" ++
    (if plus && 0 ≤ exponent then "+" else "") ++ toString exponent

/-- The text of a finite number. -/
def Finite.render (format : Format) (f : Finite) : String :=
  let sign := if f.negative then "-" else ""
  if f.mantissa = 0 then sign ++ "0.0"
  else
    let (c, p) := shortest format.tie f.mantissa f.exponent
    let digits := Nat.toDigits 10 c
    let exponent := p + digits.length - 1
    sign ++
      if format.low ≤ exponent ∧ exponent < format.high then positional digits (exponent + 1)
      else scientific format.plus digits exponent

/-- The text of a finite number in positional notation throughout; a whole one has no point. -/
def Finite.plain (f : Finite) : String :=
  let sign := if f.negative then "-" else ""
  if f.mantissa = 0 then sign ++ "0"
  else
    let (c, p) := shortest .up f.mantissa f.exponent
    let digits := Nat.toDigits 10 c
    sign ++ if 0 ≤ p then String.ofList digits ++ zeros p.toNat
      else positional digits (p + digits.length)

/-- The text of a number in positional notation. -/
def plain : Double → String
  | .nan => "NaN"
  | .infinite negative => if negative then "-inf" else "inf"
  | .finite f => f.plain

end MobDebug.Double
