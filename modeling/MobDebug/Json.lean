import MobDebug.Double.Shortest
import MobDebug.Text.Digits
/-!
JSON trees and their compact text. An object is a list of members, so it keeps their order and may
repeat a name.
-/
namespace MobDebug

inductive Json where
  | null
  | bool (b : Bool)
  | int (i : Int)
  | float (x : Double)
  | str (s : String)
  | arr (elements : List Json)
  | obj (members : List (String × Json))
  deriving Inhabited

namespace Json

/-- Positional from `1e-5` up to `1e16`, with a sign on every exponent. -/
def format : Double.Format := ⟨-5, 16, true, .even⟩

/-- Two hexadecimal digits. -/
def twoHexDigits (n : Nat) : String :=
  String.ofList [Nat.digitChar (n / 16 % 16), Nat.digitChar (n % 16)]

/-- One character of a string. -/
def escapeChar (c : Char) : String :=
  match c with
  | '"' => "\\\""
  | '\\' => "\\\\"
  | '\x08' => "\\b"
  | '\x0c' => "\\f"
  | '\n' => "\\n"
  | '\r' => "\\r"
  | '\t' => "\\t"
  | c => if c.toNat < 0x20 then "\\u00" ++ twoHexDigits c.toNat else c.toString

/-- A string in quotes. -/
def renderString (s : String) : String :=
  "\"" ++ String.join (s.toList.map escapeChar) ++ "\""

/-- A number, or null for what JSON has no number for. -/
def renderFloat : Double → String
  | .finite f => f.render format
  | .nan => "null"
  | .infinite _ => "null"

mutual

/-- The text without any space. -/
def render : Json → String
  | .null => "null"
  | .bool b => toString b
  | .int i => toString i
  | .float x => renderFloat x
  | .str s => renderString s
  | .arr elements => "[" ++ renderElements elements ++ "]"
  | .obj members => "\x7b" ++ renderMembers members ++ "\x7d"

def renderElements : List Json → String
  | [] => ""
  | j :: rest => j.render ++ (if rest.isEmpty then "" else ",") ++ renderElements rest

def renderMembers : List (String × Json) → String
  | [] => ""
  | (name, j) :: rest =>
    renderString name ++ ":" ++ j.render ++ (if rest.isEmpty then "" else ",") ++
      renderMembers rest

end

/-- Puts a member in its place by name; one of the same name is replaced. -/
def insertMember (name : String) (j : Json) : List (String × Json) → List (String × Json)
  | [] => [(name, j)]
  | (other, k) :: rest =>
    if name < other then (name, j) :: (other, k) :: rest
    else if name = other then (name, j) :: rest
    else (other, k) :: insertMember name j rest

/-- An object with its members sorted by name; of one name the last member stays. -/
def ofMembers (members : List (String × Json)) : Json :=
  .obj (members.foldl (fun sorted (name, j) => insertMember name j sorted) [])

mutual

/-- The tree with every object in it sorted by name. -/
def sort : Json → Json
  | .arr elements => .arr (sortElements elements)
  | .obj members => ofMembers (sortMembers members)
  | j => j

def sortElements : List Json → List Json
  | [] => []
  | j :: rest => j.sort :: sortElements rest

def sortMembers : List (String × Json) → List (String × Json)
  | [] => []
  | (name, j) :: rest => (name, j.sort) :: sortMembers rest

end

/-- A string, or null. -/
def ofStr? : Option String → Json
  | some s => .str s
  | none => .null

end Json
end MobDebug
