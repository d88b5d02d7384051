import MobDebug.Literal.Value
import MobDebug.Json
/-!
Values as JSON trees. A table whose keys are its positions in order is an array, any other an object
with the labels of its keys.
-/
namespace MobDebug.Literal

mutual

def Value.toJson : Value → Json
  | .nil => .null
  | .bool b => .bool b
  | .number (.int i) => .int i.toInt
  | .number (.float x) => .float x
  | .str s => .str s
  | .table entries =>
    if !entries.isEmpty && Table.isSequenceFrom 1 entries then .arr (elementsToJson entries)
    else .obj (membersToJson entries)
  | .reference label => .obj [("$ref", .str label)]
  | .function => .str "function"

def Value.elementsToJson : List (Key × Value) → List Json
  | [] => []
  | (_, v) :: rest => v.toJson :: elementsToJson rest

def Value.membersToJson : List (Key × Value) → List (String × Json)
  | [] => []
  | (k, v) :: rest => (k.label, v.toJson) :: membersToJson rest

end

end MobDebug.Literal
