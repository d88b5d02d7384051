import MobDebug.Error
import MobDebug.Text.Blank
import MobDebug.Wire.Status
/-!
The header of a response: a status, any words, and the length of the body in bytes.
-/
namespace MobDebug.Wire

structure Header where
  status : Status
  length : Nat
  deriving DecidableEq

namespace Header

/-- The text without the line ends at its end. -/
def dropLineEnd (cs : List Char) : List Char :=
  (cs.reverse.dropWhile isLineEnd).reverse

/-- Reads a header line, whose line end may be missing. -/
def read (line : List UInt8) : Except ProtocolFault Header :=
  match Text.decode? line with
  | none => .error .headerEncoding
  | some text =>
    let line := dropLineEnd text.toList
    match Text.words line with
    | [] => .error .emptyHeader
    | [_] => .error (.noBodyLength (String.ofList line))
    | first :: second :: rest =>
      let first := String.ofList first
      let last := (second :: rest).getLastD []
      match Status.ofToken? first with
      | none => .error (.unknownStatus first)
      | some status =>
        match Text.readNat? UInt64.size last with
        | none => .error (.bodyLength (String.ofList last))
        | some length => .ok ⟨status, length⟩

end Header

/-- A status and the text that came with it. -/
structure Response where
  status : Status
  body : String
  deriving DecidableEq

namespace Response

def headerLine (r : Response) : String :=
  toString r.status.code ++ " " ++ r.status.reason ++ " " ++ toString (Text.bytes r.body).length ++
    "\n"

/-- The frame that carries a response. -/
def frame (r : Response) : List UInt8 :=
  Text.bytes r.headerLine ++ Text.bytes r.body

end Response
end MobDebug.Wire
