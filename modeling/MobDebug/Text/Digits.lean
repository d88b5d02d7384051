/-!
Numerals: digits with the value they denote, and the bounded unsigned numbers that headers,
locations and commands carry.
-/
namespace MobDebug.Text

/-- The value of a decimal digit. -/
def digitValue (c : Char) : Nat :=
  c.toNat - '0'.toNat

/-- The value of a hexadecimal digit of either case. -/
def hexValue? (c : Char) : Option Nat :=
  if c.isDigit then some (c.toNat - 48)
  else if 'a' ≤ c && c ≤ 'f' then some (c.toNat - 87)
  else if 'A' ≤ c && c ≤ 'F' then some (c.toNat - 55)
  else none

/-- The number that a row of digits denotes. -/
def ofDigits (cs : List Char) : Nat :=
  cs.foldl (fun n c => n * 10 + digitValue c) 0

/-- Reads an unsigned number below `bound`: digits, after at most one plus sign. -/
def readNat? (bound : Nat) (cs : List Char) : Option Nat :=
  let digits := match cs with
    | '+' :: rest => rest
    | _ => cs
  if digits.isEmpty || !digits.all Char.isDigit then none
  else if ofDigits digits < bound then some (ofDigits digits)
  else none

/-- The digits of `n` in base sixteen, with lower case letters. -/
def hexDigits (n : Nat) : String :=
  String.ofList (Nat.toDigits 16 n)

end MobDebug.Text
