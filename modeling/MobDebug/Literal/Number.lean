import MobDebug.Double.Shortest
/-!
Numbers are 64-bit integers or doubles, and keep which they are. Equality is by value across both.
-/
namespace MobDebug.Literal

inductive Number where
  | int (i : Int64)
  | float (x : Double)
  deriving DecidableEq

namespace Number

/-- Positional from `1e-4` up to `1e16`; an exact tie goes up. -/
def format : Double.Format := ⟨-4, 16, false, .up⟩

/-- The text of a number, which reads back as a number of the same kind. -/
def render : Number → String
  | .int i => toString i.toInt
  | .float .nan => "0/0"
  | .float (.infinite negative) => if negative then "-math.huge" else "math.huge"
  | .float (.finite f) => f.render format

/-- The number as a double; an integer beyond 53 bits is rounded. -/
def toDouble : Number → Double
  | .int i => .ofInt i.toInt
  | .float x => x

/-- The integer that the number is, of either kind. -/
def toInt64? : Number → Option Int64
  | .int i => some i
  | .float x => x.toInt64?

/-- The number with the other sign; the least integer is its own. -/
def negate : Number → Number
  | .int i => .int (-i)
  | .float x => .float x.negate

/-- Equality by mathematical value. -/
def equal : Number → Number → Bool
  | .int a, .int b => a == b
  | .float a, .float b => a.equal b
  | .int i, .float x => x.toInt64? == some i
  | .float x, .int i => x.toInt64? == some i

end Number
end MobDebug.Literal
