import MobDebug.Wire.Location
/-!
What a session knows: its state, where the program is paused, the selected frame and the
breakpoints. Breakpoints are kept in order of file and line.
-/
namespace MobDebug.Session
open Wire (Location)

structure Breakpoint where
  file : String
  line : Nat
  deriving DecidableEq

def Breakpoint.text (b : Breakpoint) : String :=
  b.file ++ ":" ++ toString b.line

/-- By file first, then by line. -/
def Breakpoint.before (a b : Breakpoint) : Bool :=
  a.file < b.file || (a.file == b.file && a.line < b.line)

/-- Adds a breakpoint in its place, unless it is there. -/
def insertBreakpoint (b : Breakpoint) : List Breakpoint → List Breakpoint
  | [] => [b]
  | c :: rest =>
    if b.before c then b :: c :: rest
    else if b = c then c :: rest
    else c :: insertBreakpoint b rest

/-- A view of a session at one moment. -/
structure Snapshot where
  state : State
  frame : Nat
  location : Option Location
  breakpoints : List Breakpoint
  deriving DecidableEq

/-- What a session tells its subscribers. -/
inductive Event where
  | stateChanged (snapshot : Snapshot)
  | output (text : String)
  | debuggeeError (message : String)
  deriving DecidableEq

/-- The state of a session. `resumedAt` is the id of the latest command that resumed the program;
an ended session has given up its one connection. -/
structure Core where
  state : State := .disconnected
  frame : Nat := 0
  location : Option Location := none
  breakpoints : List Breakpoint := []
  resumedAt : Nat := 0
  ended : Bool := false
  deriving DecidableEq

def Core.snapshot (c : Core) : Snapshot :=
  ⟨c.state, c.frame, c.location, c.breakpoints⟩

end MobDebug.Session
