import MobDebug.Broadcast
import MobDebug.Channel.Link
import MobDebug.Evaluation
import MobDebug.Session.Core
import MobDebug.Stack
/-!
The calls of a session. A call does its first part at once, under the lock of the session, and ends
there or waits for the reply to a command it has submitted; when the reply is in, it does its next
part. So a call is a sequence of steps, and calls may be interleaved between any two of them.
-/
namespace MobDebug.Session
open Wire (Command CommandName Location)

/-- `maxDepth` is the nesting of tables asked for and accepted, and `baseDir` is told to the
debuggee when the session attaches. -/
structure Config where
  replyTimeout : Nat := 10000
  maxDepth : Nat := 8
  bodyLimit : Nat := 16777216
  baseDir : Option String := none
  eventSize : Nat := 256

/-- A call. To connect is to attach to a stream that may not be had. Evaluation takes place in the
selected frame if it names none, and gives all results or the first. -/
inductive Call where
  | attach (stream : Stream)
  | connect (connection : Except Error Stream)
  | run
  | step (kind : StepKind)
  | pause
  | setBreakpoint (b : Breakpoint)
  | clearBreakpoint (b : Breakpoint)
  | selectFrame (n : Nat)
  | evaluate (frame : Option Nat) (expression : String)
  | evaluateAll (frame : Option Nat) (expression : String)
  | stack
  | setOutput (mode : OutputMode)
  | detach
  | exit

/-- What a call ends with if all is well. -/
inductive Answer where
  | unit
  | location (l : Location)
  | flag (b : Bool)
  | value (v : Literal.Value)
  | values (vs : List Literal.Value)
  | frames (fs : List Stack.Frame)

/-- What a call does with the reply it waits for. While attaching, the breakpoint is the one the
reply is about, and the others are still to be told. A resuming call has left a location for a
state. -/
inductive Awaiting where
  | attach (current : Option Breakpoint) (rest : List Breakpoint)
  | resume (next : State) (previous : Option Location)
  | pause
  | setBreakpoint (b : Breakpoint)
  | clearBreakpoint (b : Breakpoint)
  | evaluate
  | evaluateAll
  | stack
  | setOutput
  | finish

/-- A call under way: it waits for the reply to a command, or has ended. -/
inductive Progress where
  | waiting (id : Nat) (awaiting : Awaiting)
  | finished (result : Except Error Answer)

end Session

/-- A session: what it knows, its one connection if it has attached, the connections it has refused,
and what it has told its subscribers. -/
structure Session where
  config : Session.Config := {}
  core : Session.Core := {}
  link : Option Link := none
  refused : List Link := []
  events : Broadcast Session.Event

namespace Session
open Wire (Command CommandName Location)

/-- A session that has not attached. -/
def new (config : Config) : Session :=
  { config, events := .ofSize config.eventSize }

def emit (s : Session) (e : Event) : Session :=
  { s with events := s.events.send e }

/-- Tells the subscribers the state of the session. -/
def publish (s : Session) : Session :=
  s.emit (.stateChanged s.core.snapshot)

def invalid (s : Session) (operation : Operation) : Error :=
  .invalidState operation s.core.state

/-- Submits a command on the connection. -/
def submit (s : Session) (operation : Operation) (command : Command) :
    Except Error (Nat × Session) :=
  match s.link with
  | none => .error (s.invalid operation)
  | some link =>
    (link.channel.submit command).map fun (id, channel) =>
      (id, { s with link := some { link with channel } })

/-- Submits a command where the state allows the operation. -/
def submitIn (s : Session) (operation : Operation) (allowed : State → Bool) (command : Command) :
    Except Error (Nat × Session) :=
  if allowed s.core.state then s.submit operation command else .error (s.invalid operation)

/-- What the command of this id ended with on the connection. -/
def outcome? (s : Session) (id : Nat) : Option Channel.Outcome :=
  s.link.bind fun link => link.channel.outcome? id

/-- Closes the connection. -/
def close (s : Session) : Session :=
  { s with link := s.link.map fun link => link.fail .channelClosed }

/-- The program is paused. A pause that was read before the latest resuming command went out is
stale, an ended session does not care, and the same pause is not told twice. -/
def enterPaused (s : Session) (location : Location) (after : Nat) : Session :=
  if after < s.core.resumedAt then s
  else if !s.core.state.isLive then s
  else if s.core.state = .paused ∧ s.core.location = some location then s
  else
    { s with
      core := { s.core with state := .paused, frame := 0, location := some location } }.publish

/-- The connection is lost, unless the session has given it up. -/
def connectionLost (s : Session) : Session :=
  if s.core.ended then s
  else
    { s with core := { s.core with state := .terminated, ended := true, location := none } }.publish

/-- Ends the session for good. -/
def terminate (s : Session) : Session :=
  { s with
    core := { s.core with state := .terminated, ended := true, location := none } }.publish.close

/-- What the event of a connection does to the session. -/
def receive (s : Session) : Channel.Event → Session
  | .paused location after => s.enterPaused location after
  | .output text => s.emit (.output text)
  | .debuggeeError message => s.emit (.debuggeeError message)
  | .closed _ => s.connectionLost

/-- Tells the debuggee the next breakpoint; with none left the session is attached. -/
def greet (s : Session) : List Breakpoint → Session × Progress
  | [] => (s, .finished (.ok .unit))
  | b :: rest =>
    match s.submit .attach (.setBreakpoint b.file b.line) with
    | .ok (id, s) => (s, .waiting id (.attach (some b) rest))
    | .error e => (s.terminate, .finished (.error e))

/-- Takes the session if it is free, and tells the debuggee the base directory first. -/
def attach (s : Session) (stream : Stream) : Session × Progress :=
  let link : Link :=
    { timeout := s.config.replyTimeout, bodyLimit := s.config.bodyLimit, stream }
  if s.core.ended || s.link.isSome then
    ({ s with refused := s.refused ++ [link.fail .channelClosed] },
      .finished (.error (s.invalid .attach)))
  else
    let s := { s with link := some link, core := { s.core with state := .running } }.publish
    match s.config.baseDir with
    | none => s.greet s.core.breakpoints
    | some dir =>
      match s.submit .attach { name := .baseDir, args := dir } with
      | .ok (id, s) => (s, .waiting id (.attach none s.core.breakpoints))
      | .error e => (s.terminate, .finished (.error e))

/-- Attaches to what an attempt to connect has given. One that fails leaves the session as it is, so
it may be tried again. -/
def connect (s : Session) (connection : Except Error Stream) : Session × Progress :=
  if s.core.ended || s.link.isSome then (s, .finished (.error (s.invalid .attach)))
  else
    match connection with
    | .error e => (s, .finished (.error e))
    | .ok stream => s.attach stream

/-- Leaves the pause. The new state is entered before the command is written, so a pause that comes
at once is not lost. -/
def resume (s : Session) (operation : Operation) (name : CommandName) (next : State) :
    Session × Progress :=
  match s.submitIn operation (· = .paused) { name } with
  | .error e => (s, .finished (.error e))
  | .ok (id, s) =>
    let previous := s.core.location
    let core := { s.core with resumedAt := id, state := next, frame := 0, location := none }
    ({ s with core }.publish,
      .waiting id (.resume next previous))

/-- Records a breakpoint and tells the debuggee if there is one. -/
def setBreakpoint (s : Session) (b : Breakpoint) : Session × Progress :=
  let recorded (s : Session) : Session :=
    { s with core := { s.core with breakpoints := insertBreakpoint b s.core.breakpoints } }
  if s.core.ended then (s, .finished (.error (s.invalid .setBreakpoint)))
  else if s.core.breakpoints.contains b then (s, .finished (.ok (.flag false)))
  else if s.link.isNone then ((recorded s).publish, .finished (.ok (.flag true)))
  else
    match s.submit .setBreakpoint (.setBreakpoint b.file b.line) with
    | .error e => (s, .finished (.error e))
    | .ok (id, s) => (recorded s, .waiting id (.setBreakpoint b))

/-- Forgets a breakpoint and tells the debuggee if there is one. -/
def clearBreakpoint (s : Session) (b : Breakpoint) : Session × Progress :=
  let forgotten (s : Session) : Session :=
    { s with core := { s.core with breakpoints := s.core.breakpoints.erase b } }
  if s.core.ended then (s, .finished (.error (s.invalid .clearBreakpoint)))
  else if !s.core.breakpoints.contains b then (s, .finished (.ok (.flag false)))
  else if s.link.isNone then ((forgotten s).publish, .finished (.ok (.flag true)))
  else
    match s.submit .clearBreakpoint (.deleteBreakpoint b.file b.line) with
    | .error e => (s, .finished (.error e))
    | .ok (id, s) => (forgotten s, .waiting id (.clearBreakpoint b))

/-- Chooses the frame in which expressions are evaluated. -/
def selectFrame (s : Session) (n : Nat) : Session × Progress :=
  if s.core.state ≠ .paused then (s, .finished (.error (s.invalid .selectFrame)))
  else if s.core.frame = n then (s, .finished (.ok .unit))
  else ({ s with core := { s.core with frame := n } }.publish, .finished (.ok .unit))

/-- Submits the command that evaluates an expression, while the program is paused. -/
def submitEvaluation (s : Session) (frame : Nat) (expression : String) :
    Except Error (Nat × Session) :=
  if s.core.state ≠ .paused ∨ s.link.isNone then .error (s.invalid .evaluate)
  else
    match Evaluation.command frame expression s.config.maxDepth with
    | .error fault => .error (.protocol fault)
    | .ok command => s.submit .evaluate command

/-- Asks for the value of an expression. -/
def evaluate (s : Session) (frame : Option Nat) (expression : String) (awaiting : Awaiting) :
    Session × Progress :=
  match s.submitEvaluation (frame.getD s.core.frame) expression with
  | .error e => (s, .finished (.error e))
  | .ok (id, s) => (s, .waiting id awaiting)

/-- Submits a command that leaves the session as it is. -/
def ask (s : Session) (operation : Operation) (allowed : State → Bool) (command : Command)
    (awaiting : Awaiting) : Session × Progress :=
  match s.submitIn operation allowed command with
  | .error e => (s, .finished (.error e))
  | .ok (id, s) => (s, .waiting id awaiting)

/-- Gives the connection up. The session has ended before the debuggee hangs up, so the loss of the
connection is not told as one. -/
def finish (s : Session) (operation : Operation) (name : CommandName) (last : State) :
    Session × Progress :=
  if !s.core.state.isLive || s.link.isNone then (s, .finished (.error (s.invalid operation)))
  else
    let ended (s : Session) : Session :=
      { s with core := { s.core with state := last, ended := true, location := none } }.publish
    match s.submit operation { name } with
    | .error e => ((ended s).close, .finished (.error e))
    | .ok (id, s) => (ended s, .waiting id .finish)

/-- The first part of a call. -/
def start (s : Session) : Call → Session × Progress
  | .attach stream => s.attach stream
  | .connect connection => s.connect connection
  | .run => s.resume .run .run .running
  | .step .into => s.resume (.step .into) .step .stepping
  | .step .over => s.resume (.step .over) .over .stepping
  | .step .out => s.resume (.step .out) .out .stepping
  | .pause =>
    s.ask .pause (fun state => state = .running || state = .stepping) { name := .suspend } .pause
  | .setBreakpoint b => s.setBreakpoint b
  | .clearBreakpoint b => s.clearBreakpoint b
  | .selectFrame n => s.selectFrame n
  | .evaluate frame expression => s.evaluate frame expression .evaluate
  | .evaluateAll frame expression => s.evaluate frame expression .evaluateAll
  | .stack => s.ask .stack (· = .paused) (Stack.command s.config.maxDepth) .stack
  | .setOutput mode =>
    s.ask .output (· = .paused) { name := .output, args := "stdout " ++ mode.letter } .setOutput
  | .detach => s.finish .detach .done .disconnected
  | .exit => s.finish .exit .exit .terminated

/-- A reply while attaching: a rejected command is told and dropped, with its breakpoint; any other
error ends the session. -/
def continueAttach (s : Session) (current : Option Breakpoint) (rest : List Breakpoint) :
    Channel.Outcome → Session × Progress
  | .ok _ => s.greet rest
  | .error (.debuggee _ message) =>
    let kept := match current with
      | some b => s.core.breakpoints.erase b
      | none => s.core.breakpoints
    let s := { s with core := { s.core with breakpoints := kept } }.publish
    (s.emit (.debuggeeError message)).greet rest
  | .error e => (s.terminate, .finished (.error e))

/-- The next part of a call, with the reply to its command of this id. -/
def continueWith (s : Session) (id : Nat) (awaiting : Awaiting) (outcome : Channel.Outcome) :
    Session × Progress :=
  match awaiting, outcome with
  | .attach current rest, outcome => s.continueAttach current rest outcome
  | .resume _ _, .ok _ => (s, .finished (.ok .unit))
  | .resume next previous, .error e =>
    let s :=
      match e.kind with
      | .debuggee =>
        if s.core.state = next then
          { s with core := { s.core with state := .paused, location := previous } }.publish
        else s
      | .network => s.connectionLost
      | .protocol => s
    (s, .finished (.error e))
  | .pause, .ok body =>
    match Location.read body with
    | .error fault => (s, .finished (.error (.protocol fault)))
    | .ok location => (s.enterPaused location id, .finished (.ok (.location location)))
  | .setBreakpoint _, .ok _ => (s.publish, .finished (.ok (.flag true)))
  | .setBreakpoint b, .error e =>
    let s := if e.kind = .debuggee
      then { s with core := { s.core with breakpoints := s.core.breakpoints.erase b } } else s
    (s, .finished (.error e))
  | .clearBreakpoint _, .ok _ => (s.publish, .finished (.ok (.flag true)))
  | .clearBreakpoint b, .error e =>
    let s := if e.kind = .debuggee
      then { s with core := { s.core with breakpoints := insertBreakpoint b s.core.breakpoints } }
      else s
    (s, .finished (.error e))
  | .evaluate, .ok body =>
    (s, .finished ((Evaluation.results s.config.maxDepth body).map fun vs =>
      .value (Evaluation.first vs)))
  | .evaluateAll, .ok body =>
    (s, .finished ((Evaluation.results s.config.maxDepth body).map .values))
  | .stack, .ok body => (s, .finished ((Stack.read s.config.maxDepth body).map .frames))
  | .setOutput, .ok _ => (s, .finished (.ok .unit))
  | .finish, .ok _ => (s.close, .finished (.ok .unit))
  | .finish, .error e =>
    (s.close, .finished (if e.kind = .network then .ok .unit else .error e))
  | _, .error e => (s, .finished (.error e))

end Session
end MobDebug
