import MobDebug.Error
import MobDebug.Text.Blank
/-!
Where a program stopped, written as the file, a blank and the line. The line is the last word, so
the file may hold blanks.
-/
namespace MobDebug.Wire

structure Location where
  file : String
  line : Nat
  deriving DecidableEq

namespace Location

def text (l : Location) : String :=
  l.file ++ " " ++ toString l.line

/-- Reads a location; the line is below `2 ^ 32`. -/
def read (body : String) : Except ProtocolFault Location :=
  let trimmed := Text.trim body.toList
  match Text.splitLast trimmed with
  | none => .error (.pauseLocation (String.ofList trimmed))
  | some (file, line) =>
    match Text.readNat? UInt32.size line with
    | none => .error (.pauseLine (String.ofList trimmed))
    | some line => .ok ⟨String.ofList (Text.trimEnd file), line⟩

end Location
end MobDebug.Wire
