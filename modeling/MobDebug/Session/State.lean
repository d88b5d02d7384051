/-!
The states of a session and the operations that only some of them allow.
-/
namespace MobDebug.Session

inductive State where
  | disconnected
  | running
  | paused
  | stepping
  | terminated
  deriving DecidableEq

def State.name : State → String
  | .disconnected => "disconnected"
  | .running => "running"
  | .paused => "paused"
  | .stepping => "stepping"
  | .terminated => "terminated"

/-- Neither attached nor to be attached to. -/
def State.isOver : State → Bool
  | .terminated => true
  | .disconnected => true
  | _ => false

/-- An attached session is in one of these until it ends. -/
def State.isLive : State → Bool
  | .running => true
  | .paused => true
  | .stepping => true
  | _ => false

inductive StepKind where
  | into
  | over
  | out
  deriving DecidableEq

/-- What the debuggee does with the output of the program: keep and forward it, only forward it, or
only keep it. -/
inductive OutputMode where
  | copy
  | redirect
  | default
  deriving DecidableEq

def OutputMode.letter : OutputMode → String
  | .copy => "c"
  | .redirect => "r"
  | .default => "d"

/-- What an error in the wrong state names. -/
inductive Operation where
  | attach
  | run
  | step (kind : StepKind)
  | pause
  | setBreakpoint
  | clearBreakpoint
  | selectFrame
  | evaluate
  | stack
  | output
  | detach
  | exit
  deriving DecidableEq

def Operation.description : Operation → String
  | .attach => "attach"
  | .run => "run"
  | .step .into => "step into"
  | .step .over => "step over"
  | .step .out => "step out"
  | .pause => "pause"
  | .setBreakpoint => "set a breakpoint"
  | .clearBreakpoint => "clear a breakpoint"
  | .selectFrame => "select a frame"
  | .evaluate => "evaluate"
  | .stack => "inspect the stack"
  | .output => "redirect output"
  | .detach => "detach"
  | .exit => "exit"

end MobDebug.Session
