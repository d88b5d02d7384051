import MobDebug.Literal.Value
/-!
The text of values. A table names a key only where it differs from the next position.
-/
namespace MobDebug.Literal

/-- Words that cannot be names. -/
def reservedWords : List String :=
  ["and", "break", "do", "else", "elseif", "end", "false", "for", "function", "goto", "if", "in",
    "local", "nil", "not", "or", "repeat", "return", "then", "true", "until", "while"]

def isNameStart (c : Char) : Bool :=
  c == '_' || c.isAlpha

def isNameChar (c : Char) : Bool :=
  c == '_' || c.isAlphanum

/-- A name that needs no quotes as a key. -/
def isPlainName (s : String) : Bool :=
  match s.toList with
  | [] => false
  | c :: cs => isNameStart c && cs.all isNameChar && !reservedWords.contains s

/-- Three digits, so that a digit after them is not taken for a fourth. -/
def threeDigits (n : Nat) : String :=
  String.ofList [Nat.digitChar (n / 100 % 10), Nat.digitChar (n / 10 % 10), Nat.digitChar (n % 10)]

/-- One character of a quoted string. -/
def escapeChar (c : Char) : String :=
  match c with
  | '"' => "\\\""
  | '\\' => "\\\\"
  | '\n' => "\\n"
  | '\r' => "\\r"
  | '\t' => "\\t"
  | c => if c.toNat < 0x20 || c.toNat == 0x7f then "\\" ++ threeDigits c.toNat else c.toString

/-- A string in double quotes. -/
def quoteString (s : String) : String :=
  "\"" ++ String.join (s.toList.map escapeChar) ++ "\""

/-- A key and the sign after it. -/
def Key.render : Key → String
  | .str s => if isPlainName s then s ++ " = " else "[" ++ quoteString s ++ "] = "
  | .bool b => "[" ++ toString b ++ "] = "
  | .int i => "[" ++ (Number.int i).render ++ "] = "
  | .float x => "[" ++ (Number.float x).render ++ "] = "

mutual

/-- The literal for a value. -/
def Value.render : Value → String
  | .nil => "nil"
  | .bool b => toString b
  | .number n => n.render
  | .str s => quoteString s
  | .table entries => "\x7b" ++ renderEntries 1 entries ++ "\x7d"
  | .reference label => if label.isEmpty then "nil --[[ref]]" else "nil --[[ref " ++ label ++ "]]"
  | .function => "function() --[[..skipped..]] end"

/-- The entries of a table whose next position is `n`. -/
def Value.renderEntries (n : Nat) : List (Key × Value) → String
  | [] => ""
  | (k, v) :: rest =>
    let positional := k == .position n
    (if positional then "" else k.render) ++ v.render ++ (if rest.isEmpty then "" else ", ") ++
      renderEntries (if positional then n + 1 else n) rest

end

end MobDebug.Literal
