import MobDebug.Double.Decimal
import MobDebug.Double.Shortest
import MobDebug.LogFilter.Pattern
/-!
The values that a filter asks of a field. A text is read as the first of these that it is: a truth
value, a number, a pattern.
-/
namespace MobDebug.LogFilter

/-- A natural number has 64 bits, and an integer has 64 bits with a sign. -/
inductive Value where
  | bool (b : Bool)
  | double (x : Double)
  | natural (n : Nat)
  | integer (i : Int)
  | pattern (text : String)
  deriving DecidableEq

namespace Value

/-- An integer of 64 bits behind a minus. -/
def readNegative? : List Char → Option Int
  | '-' :: digits =>
    if digits.isEmpty || !digits.all Char.isDigit || Nat.pow 2 63 < Text.ofDigits digits then none
    else some (-(Text.ofDigits digits : Int))
  | _ => none

/-- Reads a value. What is none of the others has to be a pattern. -/
def read? (cs : List Char) : Option Value :=
  let text := String.ofList cs
  if text = "true" then some (.bool true)
  else if text = "false" then some (.bool false)
  else
    ((Text.readNat? UInt64.size cs).map .natural) <|>
    ((readNegative? cs).map .integer) <|>
    ((Double.readSigned? cs).map .double) <|>
    (if Pattern.isPattern cs then some (.pattern text) else none)

/-- Numbers are written in one form, however they were. -/
def text : Value → String
  | .bool b => if b then "true" else "false"
  | .double x => x.plain
  | .natural n => toString n
  | .integer i => toString i
  | .pattern text => text

/-- The kinds of values in order. -/
def rank : Value → Nat
  | .bool _ => 0
  | .double _ => 1
  | .natural _ => 2
  | .integer _ => 3
  | .pattern _ => 4

/-- Values of one kind by what they are, and others by their kind. -/
def order : Value → Value → Ordering
  | .bool a, .bool b => compare a b
  | .double a, .double b => a.order b
  | .natural a, .natural b => compare a b
  | .integer a, .integer b => compare a b
  | .pattern a, .pattern b => compare a b
  | a, b => compare a.rank b.rank

end Value
end MobDebug.LogFilter
