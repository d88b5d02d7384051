import MobDebug.Text.Unprintable
import MobDebug.Text.Combining
import MobDebug.Text.Digits
/-!
Text as messages quote it: between double quotes, with short escapes for the quote, the backslash,
NUL, tab and line ends, and `\u{…}` for what would not show.
-/
namespace MobDebug.Text

/-- One character inside quotes. -/
def quoteChar (c : Char) : String :=
  match c with
  | '"' => "\\\""
  | '\\' => "\\\\"
  | '\x00' => "\\0"
  | '\t' => "\\t"
  | '\n' => "\\n"
  | '\r' => "\\r"
  | c =>
    if isUnprintable c || isCombining c then "\\u\x7b" ++ hexDigits c.toNat ++ "\x7d"
    else c.toString

/-- The text between quotes. -/
def quote (s : String) : String :=
  "\"" ++ String.join (s.toList.map quoteChar) ++ "\""

end MobDebug.Text
