import MobDebug.Console.Command
import MobDebug.Console.Display
import MobDebug.Session.Call
/-!
Running a console command: most are calls of the session, whose answers have a text.
-/
namespace MobDebug.Console
open Session (Answer Awaiting Call Progress)

/-- The call that a command makes; none for those that only print. -/
def Command.call? : Command → Option Call
  | .run => some .run
  | .step kind => some (.step kind)
  | .pause => some .pause
  | .setBreakpoint file line => some (.setBreakpoint ⟨file, line⟩)
  | .clearBreakpoint file line => some (.clearBreakpoint ⟨file, line⟩)
  | .eval expression => some (.evaluateAll none expression)
  | .frame n => some (.selectFrame n)
  | .stack => some .stack
  | .output mode => some (.setOutput mode)
  | .state => none
  | .detach => some .detach
  | .exit => some .exit
  | .help => none

/-- What a command prints when its call has ended well. -/
def Command.show (json : Bool) : Command → Answer → Option String
  | .pause, .location l => some ("paused at " ++ l.file ++ ":" ++ toString l.line)
  | .setBreakpoint file line, .flag added =>
    some ((if added then "breakpoint set at " else "breakpoint already set at ") ++ file ++ ":" ++
      toString line)
  | .clearBreakpoint file line, .flag removed =>
    some ((if removed then "breakpoint cleared at " else "no breakpoint at ") ++ file ++ ":" ++
      toString line)
  | .eval _, .values vs => some (showValues json vs)
  | .frame n, _ => some ("frame " ++ toString n ++ " selected")
  | .stack, .frames fs => some (showStack json fs)
  | .detach, _ => some "detached"
  | .exit, _ => some "debuggee asked to exit"
  | _, _ => none

/-- A command under way: it waits for the reply to a command of the wire, or has ended. -/
inductive Execution where
  | waiting (id : Nat) (awaiting : Awaiting)
  | finished (result : Except Error (Option String))

/-- The state of a command, by that of its call. -/
def Execution.ofProgress (json : Bool) (c : Command) : Progress → Execution
  | .waiting id awaiting => .waiting id awaiting
  | .finished result => .finished (result.map (c.show json))

/-- Begins a command. -/
def execute (s : Session) (json : Bool) (c : Command) : Session × Execution :=
  match c.call? with
  | some call =>
    let (s, progress) := s.start call
    (s, .ofProgress json c progress)
  | none =>
    match c with
    | .state => (s, .finished (.ok (some (showSnapshot json s.core.snapshot))))
    | _ => (s, .finished (.ok (some help)))

/-- Goes on with a command when its reply is in. -/
def continueExecution (s : Session) (json : Bool) (c : Command) (id : Nat) (awaiting : Awaiting)
    (outcome : Channel.Outcome) : Session × Execution :=
  let (s, progress) := s.continueWith id awaiting outcome
  (s, .ofProgress json c progress)

end MobDebug.Console
