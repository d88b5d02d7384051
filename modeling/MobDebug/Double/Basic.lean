/-!
Double precision numbers, exactly: a finite one is an integer times a power of two, kept in the one
form that the format has for it. Every operation rounds its exact result once, ties to even.
-/
namespace MobDebug

/-- The quotient rounded to the nearest natural number, a tie to the even one. -/
def roundQuotient (n d : Nat) : Nat :=
  let quotient := n / d
  let twice := 2 * (n % d)
  if twice < d ∨ (twice = d ∧ quotient % 2 = 0) then quotient else quotient + 1

/-- The greatest `e` with `2 ^ e ≤ n / d`, for positive `n` and `d`. -/
def floorLog2 (n d : Nat) : Int :=
  let e : Int := (n.log2 : Int) - d.log2
  if n * Nat.pow 2 (-e).toNat < d * Nat.pow 2 e.toNat then e - 1 else e

namespace Double

/-- 53 bits, of which the first is set unless the exponent is the least one. -/
def Canonical (mantissa : Nat) (exponent : Int) : Prop :=
  mantissa < Nat.pow 2 53 ∧ -1074 ≤ exponent ∧ exponent ≤ 971 ∧
    (Nat.pow 2 52 ≤ mantissa ∨ exponent = -1074)

instance (m : Nat) (e : Int) : Decidable (Canonical m e) :=
  inferInstanceAs (Decidable (_ ∧ _))

/-- The number `± mantissa · 2 ^ exponent`. -/
structure Finite where
  negative : Bool
  mantissa : Nat
  exponent : Int
  canonical : Canonical mantissa exponent
  deriving DecidableEq

end Double

/-- A double precision number; all NaNs are one. -/
inductive Double where
  | nan
  | infinite (negative : Bool)
  | finite (f : Double.Finite)
  deriving DecidableEq

namespace Double

/-- Zero with a sign. -/
def zero (negative : Bool) : Double :=
  .finite ⟨negative, 0, -1074, by decide⟩

/-- `± m · 2 ^ e` for canonical parts, and an infinity beyond them. -/
def ofParts (negative : Bool) (m : Nat) (e : Int) : Double :=
  if h : Canonical m e then .finite ⟨negative, m, e, h⟩ else .infinite negative

/-- The double nearest to `± n / d`. -/
def ofQuotient (negative : Bool) (n d : Nat) : Double :=
  if n = 0 then zero negative
  else
    let e := max (-1074) (floorLog2 n d - 52)
    let m := roundQuotient (n * Nat.pow 2 (-e).toNat) (d * Nat.pow 2 e.toNat)
    if m = Nat.pow 2 53 then ofParts negative (Nat.pow 2 52) (e + 1) else ofParts negative m e

/-- The double nearest to `± m · 2 ^ e`. -/
def ofScaled (negative : Bool) (m : Nat) (e : Int) : Double :=
  ofQuotient negative (m * Nat.pow 2 e.toNat) (Nat.pow 2 (-e).toNat)

/-- The double nearest to an integer. -/
def ofInt (i : Int) : Double :=
  ofQuotient (i < 0) i.natAbs 1

/-- The double nearest to `± n · 10 ^ e`. What is out of range by its count of digits alone is
settled without the power. -/
def ofDecimal (negative : Bool) (n : Nat) (e : Int) : Double :=
  if n = 0 then zero negative
  else
    let magnitude := (Nat.toDigits 10 n).length + e
    if 310 < magnitude then .infinite negative
    else if magnitude < -330 then zero negative
    else ofQuotient negative (n * Nat.pow 10 e.toNat) (Nat.pow 10 (-e).toNat)

/-- Two to the power `e`; a negative power is a reciprocal, hence zero where the power itself is
infinite. -/
def powTwo (e : Int) : Double :=
  if e.natAbs < 1024 then ofScaled false 1 e
  else if e < 0 then zero false
  else .infinite false

/-- The number with the other sign. -/
def negate : Double → Double
  | .nan => .nan
  | .infinite negative => .infinite !negative
  | .finite f => .finite { f with negative := !f.negative }

def isZero : Double → Bool
  | .finite f => f.mantissa == 0
  | _ => false

def isNegative : Double → Bool
  | .nan => false
  | .infinite negative => negative
  | .finite f => f.negative

/-- The product, rounded once. -/
def mul : Double → Double → Double
  | .finite a, .finite b =>
    ofScaled (a.negative ^^ b.negative) (a.mantissa * b.mantissa) (a.exponent + b.exponent)
  | .nan, _ => .nan
  | _, .nan => .nan
  | a, b => if a.isZero || b.isZero then .nan else .infinite (a.isNegative ^^ b.isNegative)

/-- Equality of numbers: the zeros are equal, and NaN equals nothing. -/
def equal : Double → Double → Bool
  | .nan, _ => false
  | a, b => a == b || (a.isZero && b.isZero)

/-- The number in units of the least positive one. -/
def Finite.units (f : Finite) : Int :=
  let n : Int := (f.mantissa * Nat.pow 2 (f.exponent + 1074).toNat : Nat)
  if f.negative then -n else n

/-- Numbers in order, the zeros as one, with NaN behind all of them. -/
def order : Double → Double → Ordering
  | .nan, .nan => .eq
  | .nan, _ => .gt
  | _, .nan => .lt
  | .finite a, .finite b => compare a.units b.units
  | .infinite a, .infinite b => compare b a
  | .infinite negative, .finite _ => if negative then .lt else .gt
  | .finite _, .infinite negative => if negative then .gt else .lt

/-- The integer that the number is. -/
def toInt? : Double → Option Int
  | .finite f =>
    let scale := Nat.pow 2 (-f.exponent).toNat
    if f.mantissa % scale = 0 then
      let n : Int := (f.mantissa * Nat.pow 2 f.exponent.toNat / scale : Nat)
      some (if f.negative then -n else n)
    else none
  | _ => none

/-- The 64-bit integer that the number is. -/
def toInt64? (x : Double) : Option Int64 :=
  x.toInt?.bind fun i =>
    if Int64.minValue.toInt ≤ i ∧ i ≤ Int64.maxValue.toInt then some (Int64.ofInt i) else none

end Double
end MobDebug
