import MobDebug.Text.Utf8
/-!
Commands are single lines: a name, arguments, and options in a comment at the end.
-/
namespace MobDebug.Wire

inductive CommandName where
  | run
  | step
  | over
  | out
  | suspend
  | setBreakpoint
  | deleteBreakpoint
  | exec
  | stack
  | baseDir
  | output
  | done
  | exit
  deriving DecidableEq

namespace CommandName

def all : List CommandName :=
  [.run, .step, .over, .out, .suspend, .setBreakpoint, .deleteBreakpoint, .exec, .stack, .baseDir,
    .output, .done, .exit]

/-- The spelling on the wire. -/
def token : CommandName → String
  | .run => "RUN"
  | .step => "STEP"
  | .over => "OVER"
  | .out => "OUT"
  | .suspend => "SUSPEND"
  | .setBreakpoint => "SETB"
  | .deleteBreakpoint => "DELB"
  | .exec => "EXEC"
  | .stack => "STACK"
  | .baseDir => "BASEDIR"
  | .output => "OUTPUT"
  | .done => "DONE"
  | .exit => "EXIT"

def ofToken? (s : String) : Option CommandName :=
  all.find? (·.token == s)

theorem ofToken?_token (name : CommandName) : ofToken? name.token = some name := by
  cases name <;> decide

/-- A pause frame is the reply to this command. -/
def isAnsweredByPause : CommandName → Bool
  | .suspend => true
  | _ => false

end CommandName

/-- A command; `frame` is the stack frame it is for, the innermost being 0. -/
structure Command where
  name : CommandName
  args : String := ""
  frame : Option Nat := none
  options : List String := []
  deriving DecidableEq

def isLineEnd (c : Char) : Bool :=
  c == '\n' || c == '\r'

namespace Command

def setBreakpoint (file : String) (line : Nat) : Command :=
  { name := .setBreakpoint, args := file ++ " " ++ toString line }

def deleteBreakpoint (file : String) (line : Nat) : Command :=
  { name := .deleteBreakpoint, args := file ++ " " ++ toString line }

/-- The frame and the other options, in the order they are written. -/
def allOptions (c : Command) : List String :=
  (c.frame.map fun n => "stack=" ++ toString n).toList ++ c.options

/-- The text of the command, which may hold line ends of its arguments. -/
def text (c : Command) : String :=
  let args := if c.args.isEmpty then "" else " " ++ c.args
  let options :=
    if c.allOptions.isEmpty then ""
    else " --\x7b" ++ "; ".intercalate c.allOptions ++ "\x7d"
  c.name.token ++ args ++ options

/-- The line that is written; nothing, if the text is not a single line. -/
def line? (c : Command) : Option String :=
  if c.text.toList.any isLineEnd then none else some (c.text ++ "\n")

end Command
end MobDebug.Wire
