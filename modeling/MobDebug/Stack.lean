import MobDebug.Literal.Reader
import MobDebug.Error
/-!
The call stack of a paused program, innermost frame first. In the reply a frame is a table of its
info, its locals and its upvalues, and a variable maps its name to its value and its display text.
-/
namespace MobDebug.Stack
open Literal

structure Variable where
  name : String
  value : Value
  display : String

structure Frame where
  index : Nat
  name : Option String
  source : String
  shortSource : String
  lineDefined : Int64
  currentLine : Int64
  what : String
  nameWhat : String
  locals : List Variable
  upvalues : List Variable

/-- The command that asks for the stack. -/
def command (maxDepth : Nat) : Wire.Command :=
  { name := .stack, options := ["maxlevel=" ++ toString maxDepth] }

/-- The levels of tables around each variable's value. -/
def envelopeDepth : Nat := 4

def expectTable (part : StackPart) : Value → Except ProtocolFault Table
  | .table t => .ok t
  | v => .error (.notStackTable part v.typeName)

/-- A variable, by its entry in a scope. Without a display text its value is shown. -/
def readVariable (entry : Key × Value) : Except ProtocolFault Variable := do
  let pair ← expectTable .variable entry.2
  let value := (Table.find? pair (.position 1)).getD .nil
  let display := ((Table.find? pair (.position 2)).bind Value.toStr?).getD value.render
  .ok ⟨entry.1.label, value, display⟩

def readScope : Option Value → Except ProtocolFault (List Variable)
  | none => .ok []
  | some scope => do (← expectTable .scope scope).mapM readVariable

/-- A frame; what its info lacks is empty, and a line that it lacks is -1. -/
def readFrame (index : Nat) (frame : Table) : Except ProtocolFault Frame := do
  let info ← match Table.find? frame (.position 1) with
    | some v => expectTable .info v
    | none => .error .noFrameInfo
  let text (n : Nat) : Option String := (Table.find? info (.position n)).bind Value.toStr?
  let line (n : Nat) : Int64 := ((Table.find? info (.position n)).bind Value.toInt64?).getD (-1)
  let locals ← readScope (Table.find? frame (.position 2))
  let upvalues ← readScope (Table.find? frame (.position 3))
  .ok { index, name := text 1, source := (text 2).getD "", shortSource := (text 7).getD "",
        lineDefined := line 3, currentLine := line 4, what := (text 5).getD "",
        nameWhat := (text 6).getD "", locals, upvalues }

/-- The frames from `index` on. -/
def readFrames (index : Nat) : List Value → Except ProtocolFault (List Frame)
  | [] => .ok []
  | v :: rest => do
    let frame ← readFrame index (← expectTable .frame v)
    let frames ← readFrames (index + 1) rest
    .ok (frame :: frames)

/-- The frames in a reply, where the value of a variable may nest tables `maxDepth` deep. -/
def read (maxDepth : Nat) (body : String) : Except Error (List Frame) := do
  let limit := min (maxDepth + envelopeDepth) (UInt64.size - 1)
  let stack ← (Literal.read limit body).mapError .literal
  let frames ← (expectTable .stack stack).mapError .protocol
  (readFrames 0 (Table.sequence frames)).mapError .protocol

end MobDebug.Stack
