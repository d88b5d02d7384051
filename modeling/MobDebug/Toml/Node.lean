import MobDebug.Double.Basic
/-!
TOML documents as trees. A node remembers at which byte of the document it starts, unless it is a
table that the document only implies.
-/
namespace MobDebug.Toml

/-- A key and where it stands. -/
structure Key where
  name : String
  start : Nat
  deriving DecidableEq

/-- A table: where its header or brace stands, whether it is only implied by the path of another,
and whether that path was a dotted key. -/
structure TableOf (ν : Type) where
  start : Option Nat := none
  implicit : Bool := false
  dotted : Bool := false
  entries : List (Key × ν) := []

/-- Tables come from headers, records from braces, and the elements of `tables` from headers in
double brackets. -/
inductive Node where
  | string (start : Nat) (s : String)
  | integer (start : Nat) (i : Int)
  | float (start : Nat) (x : Double)
  | boolean (start : Nat) (b : Bool)
  | datetime (start : Nat)
  | array (start : Nat) (elements : List Node)
  | record (table : TableOf Node)
  | table (table : TableOf Node)
  | tables (elements : List (TableOf Node))

abbrev Table := TableOf Node

/-- Where the node starts. -/
def Node.start? : Node → Option Nat
  | .string start _ => some start
  | .integer start _ => some start
  | .float start _ => some start
  | .boolean start _ => some start
  | .datetime start => some start
  | .array start _ => some start
  | .record t => t.start
  | .table t => t.start
  | .tables elements => elements.head?.bind (·.start)

namespace TableOf

def find? (t : Table) (k : Key) : Option Node :=
  (t.entries.find? fun (other, _) => other.name == k.name).map (·.2)

/-- Replaces the node of a key, or adds it at the end. -/
def put (t : Table) (k : Key) (n : Node) : Table :=
  if (t.find? k).isSome then
    { t with
      entries := t.entries.map fun (other, old) =>
        if other.name == k.name then (other, n) else (other, old) }
  else { t with entries := t.entries ++ [(k, n)] }

def remove (t : Table) (k : Key) : Table :=
  { t with entries := t.entries.filter fun (other, _) => other.name != k.name }

/-- Changes the table at a path of headers or dotted keys. Missing tables on the way are implied; a
dotted key goes through no table that has a header, and nothing goes through a value. -/
def changeAt (dotted : Bool) : List Key → (Table → Option Table) → Table → Option Table
  | [], f, t => f t
  | k :: path, f, t =>
    match t.find? k with
    | none =>
      (changeAt dotted path f { implicit := true, dotted }).map fun new => t.put k (.table new)
    | some (.table inner) =>
      if dotted && !inner.implicit then none
      else (changeAt dotted path f inner).map fun new => t.put k (.table new)
    | some (.tables elements) =>
      match elements.getLast? with
      | none => none
      | some last =>
        (changeAt dotted path f last).map fun new =>
          t.put k (.tables (elements.dropLast ++ [new]))
    | some _ => none

/-- Adds a key that is not there. A dotted key adds only to a table of dotted keys, and a plain one
only to another. -/
def addNew (path : List Key) (k : Key) (n : Node) (t : Table) : Option Table :=
  if t.dotted == path.isEmpty || (t.find? k).isSome then none else some (t.put k n)

/-- Adds a value under a key that may be dotted. -/
def addAt (t : Table) (path : List Key) (k : Key) (n : Node) : Option Table :=
  changeAt true path (addNew path k n) t

/-- Changes the record at a path of dotted keys within braces. -/
def changeRecordAt : List Key → (Table → Option Table) → Table → Option Table
  | [], f, t => f t
  | k :: path, f, t =>
    match t.find? k with
    | none =>
      (changeRecordAt path f { implicit := true, dotted := true }).map fun new =>
        t.put k (.record new)
    | some (.record inner) =>
      if !inner.implicit then none
      else (changeRecordAt path f inner).map fun new => t.put k (.record new)
    | some _ => none

/-- Adds a value within braces. -/
def addRecordAt (t : Table) (path : List Key) (k : Key) (n : Node) : Option Table :=
  changeRecordAt path (addNew path k n) t

end TableOf
end MobDebug.Toml
