import MobDebug.Literal.Number
/-!
Values and tables. A table is the list of its entries in the order in which their keys came, and
assignment is the only way to change one: a new key goes to the end, a present one keeps its place,
and nil removes.
-/
namespace MobDebug.Literal

/-- A table key. An integral float within 64 bits never is one; it stands for the integer. -/
inductive Key where
  | int (i : Int64)
  | str (s : String)
  | bool (b : Bool)
  | float (x : Double)
  deriving DecidableEq

/-- A value as a program serializes it. A reference stands for a table met before, and a function
is a mere placeholder. -/
inductive Value where
  | nil
  | bool (b : Bool)
  | number (n : Number)
  | str (s : String)
  | table (entries : List (Key × Value))
  | reference (label : String)
  | function
  deriving Inhabited

/-- The entries of a table, in order. -/
abbrev Table := List (Key × Value)

namespace Value

def typeName : Value → String
  | .nil => "nil"
  | .bool _ => "boolean"
  | .number _ => "number"
  | .str _ => "string"
  | .table _ => "table"
  | .reference _ => "reference"
  | .function => "function"

def isNil : Value → Bool
  | .nil => true
  | _ => false

def toBool? : Value → Option Bool
  | .bool b => some b
  | _ => none

def toNumber? : Value → Option Number
  | .number n => some n
  | _ => none

def toInt64? (v : Value) : Option Int64 :=
  v.toNumber?.bind Number.toInt64?

def toStr? : Value → Option String
  | .str s => some s
  | _ => none

def toTable? : Value → Option Table
  | .table t => some t
  | _ => none

mutual

/-- Equality of values; tables are equal when they map equal keys to equal values, in any order. -/
def equal : Value → Value → Bool
  | .nil, .nil => true
  | .bool a, .bool b => a == b
  | .number a, .number b => a.equal b
  | .str a, .str b => a == b
  | .table a, .table b => a.length == b.length && entriesIn a b
  | .reference a, .reference b => a == b
  | .function, .function => true
  | _, _ => false

/-- Every entry of the first table has an equal one in the second. -/
def entriesIn : List (Key × Value) → List (Key × Value) → Bool
  | [], _ => true
  | (k, v) :: rest, t =>
    (match t.lookup k with
      | some w => v.equal w
      | none => false) && entriesIn rest t

end

end Value

namespace Key

/-- The key that a value stands for. Nil, NaN, tables and placeholders are no keys. -/
def ofValue? : Value → Option Key
  | .bool b => some (.bool b)
  | .str s => some (.str s)
  | .number (.int i) => some (.int i)
  | .number (.float .nan) => none
  | .number (.float x) => some (match x.toInt64? with
    | some i => .int i
    | none => .float x)
  | .nil | .table _ | .reference _ | .function => none

def toValue : Key → Value
  | .int i => .number (.int i)
  | .str s => .str s
  | .bool b => .bool b
  | .float x => .number (.float x)

def toStr? : Key → Option String
  | .str s => some s
  | _ => none

/-- The key without quotes or brackets. -/
def label : Key → String
  | .int i => toString i.toInt
  | .str s => s
  | .bool b => toString b
  | .float x => (Number.float x).render

/-- The `n`-th position of a table, counted from one. -/
def position (n : Nat) : Key :=
  .int (Int64.ofNat n)

end Key

namespace Table

/-- The value stored under a key. -/
def find? (t : Table) (k : Key) : Option Value :=
  t.lookup k

/-- Stores a value: in the place of the key's old one, or else at the end. -/
def store (k : Key) (v : Value) : Table → Table
  | [] => [(k, v)]
  | (l, w) :: rest => if l = k then (k, v) :: rest else (l, w) :: store k v rest

/-- Removes a key. -/
def remove (k : Key) : Table → Table
  | [] => []
  | (l, w) :: rest => if l = k then rest else (l, w) :: remove k rest

/-- Assigns a value to a key. -/
def insert (t : Table) (k : Key) (v : Value) : Table :=
  if v.isNil then t.remove k else t.store k v

/-- Assigns a value to a key, and hands back the value that the key had before. -/
def exchange (t : Table) (k : Key) (v : Value) : Option Value × Table :=
  match t with
  | [] => (none, if v.isNil then [] else [(k, v)])
  | (l, w) :: rest =>
    if l = k then (some w, if v.isNil then rest else (k, v) :: rest)
    else
      let (old, rest) := exchange rest k v
      (old, (l, w) :: rest)

/-- The table that assigns the entries one after the other. -/
def ofEntries (entries : List (Key × Value)) : Table :=
  entries.foldl (fun t (k, v) => insert t k v) []

/-- How many of the positions from `n + 1` on are keys before the first that is not, at most
`fuel`. -/
def countFrom (t : Table) : Nat → Nat → Nat
  | 0, _ => 0
  | fuel + 1, n => if (t.find? (.position (n + 1))).isSome then countFrom t fuel (n + 1) + 1 else 0

/-- How many positions from 1 on are keys, up to the first that is not. -/
def sequenceLength (t : Table) : Nat :=
  countFrom t t.length 0

/-- The values at these positions. -/
def sequence (t : Table) : List Value :=
  (List.range' 1 (sequenceLength t)).filterMap fun n => t.find? (.position n)

/-- The keys, in order, are the positions from `n` on. -/
def isSequenceFrom : Nat → Table → Bool
  | _, [] => true
  | n, (k, _) :: rest => k == .position n && isSequenceFrom (n + 1) rest

end Table

end MobDebug.Literal
