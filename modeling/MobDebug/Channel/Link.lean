import MobDebug.Channel.Basic
import MobDebug.Channel.Stream
import MobDebug.Schedule
/-!
A channel at work on a stream. Three kinds of tasks move it: the reader cuts frames off and hands
them on, the writer writes one command after the other, and a watchdog for each written command
sees to it that the reply comes in time. Any order of their steps is a run.
-/
namespace MobDebug.Channel

/-- What the writer is at. -/
inductive Writer where
  | idle
  | writing (id : Nat) (rest : List UInt8) (deadline : Nat)
  | stopped
  deriving DecidableEq

/-- Waits for the reply to a command, until a moment of the clock. -/
structure Watchdog where
  id : Nat
  deadline : Nat
  deriving DecidableEq

end Channel

/-- `timeout` bounds the writing of a command and the wait for its reply, and `bodyLimit` the body
of a response. `received` are the bytes that the reader has taken and not cut into frames. -/
structure Link where
  timeout : Nat
  bodyLimit : Nat
  now : Nat := 0
  channel : Channel := {}
  stream : Stream := {}
  reading : Bool := true
  received : List UInt8 := []
  writer : Channel.Writer := .idle
  watchdogs : List Channel.Watchdog := []

namespace Link
open Channel (Watchdog)

inductive Task where
  | reader
  | writer
  | watchdog (id : Nat)
  | debuggee
  deriving DecidableEq

/-- Closes the channel. -/
def fail (l : Link) (error : Error) : Link :=
  { l with channel := l.channel.fail error }

/-- Takes what has come on the stream. -/
def takeArriving (l : Link) : Link :=
  { l with
    received := l.received ++ l.stream.arriving
    stream := { l.stream with arriving := [] } }

/-- Takes what has come, hands the next frame on, or ends with the stream. -/
def readerStep? (l : Link) : Option Link :=
  if !l.reading then none
  else if l.channel.closed then some { l with reading := false }
  else if !l.stream.arriving.isEmpty then some l.takeArriving
  else
    match Wire.readFrame l.bodyLimit l.received with
    | .frame response rest _ =>
      match l.channel.dispatch response with
      | .ok channel => some { l with channel, received := rest }
      | .error fault => some { l.fail (.protocol fault) with reading := false }
    | .fault fault => some { l.fail (.protocol fault) with reading := false }
    | .short part =>
      if l.stream.debuggeeGone then some { l.fail part.atEnd with reading := false } else none

/-- Begins to write the next command, if one may be sent. -/
def beginWriting (l : Link) : Link :=
  match l.channel.sendNext? with
  | none => { l with writer := .idle }
  | some (request, channel) =>
    { l with channel, writer := .writing request.id (Text.bytes request.line) (l.now + l.timeout) }

/-- Stops the writer and leaves the stream. -/
def stopWriting (l : Link) : Link :=
  { l with writer := .stopped, stream := { l.stream with clientGone := true } }

/-- Starts the wait for the reply to a command. -/
def watch (l : Link) (id : Nat) : Link :=
  { l with watchdogs := l.watchdogs ++ [⟨id, l.now + l.timeout⟩] }

/-- Writes as much of a command as there is room for, or looks for the next one. A command that
finds no room until its deadline ends the channel. -/
def writerStep? (l : Link) : Option Link :=
  match l.writer with
  | .stopped => none
  | .idle =>
    if l.channel.closed then some l.stopWriting
    else if l.channel.signalled then
      some { l with channel := { l.channel with signalled := false } }.beginWriting
    else none
  | .writing id rest deadline =>
    if l.channel.closed then some l.stopWriting
    else if l.stream.debuggeeGone then some (l.fail (.stream .brokenPipe)).stopWriting
    else if l.stream.room = 0 then
      if deadline ≤ l.now then some (l.fail .timeout).stopWriting else none
    else
      let written := { l with stream := l.stream.write (rest.take l.stream.room) }
      match rest.drop l.stream.room with
      | [] => some (written.watch id).beginWriting
      | rest => some { written with writer := .writing id rest deadline }

/-- Ends with the channel, or closes it if its command is still unanswered at the deadline. -/
def watchdogStep? (l : Link) (id : Nat) : Option Link :=
  (l.watchdogs.find? (·.id == id)).bind fun watchdog =>
    let rest := { l with watchdogs := l.watchdogs.filter (·.id != id) }
    if l.channel.closed then some rest
    else if watchdog.deadline ≤ l.now then
      if l.channel.inFlight.any (·.id == id) then some (rest.fail .timeout) else some rest
    else none

/-- One step of a task; nothing, while it waits. -/
def step? (l : Link) : Task → Option Link
  | .reader => l.readerStep?
  | .writer => l.writerStep?
  | .watchdog id => l.watchdogStep? id
  | .debuggee => l.stream.debuggeeStep?.map fun stream => { l with stream }

/-- The watchdogs that have begun or may have ended between two moments. -/
def changedWatchdogs (before after : Link) : List Task :=
  let changed := if before.channel.closed = after.channel.closed
    then after.watchdogs.drop before.watchdogs.length else after.watchdogs
  changed.map fun w => .watchdog w.id

/-- The tasks that a step may have woken, in the order in which they are. -/
def woken (before after : Link) : List Task :=
  [.reader, .writer] ++ changedWatchdogs before after ++ [.debuggee]

/-- Whether a change has begun a task. -/
def begun (before after : Link) : Task → Bool
  | .watchdog id =>
    after.watchdogs.any (·.id == id) && !before.watchdogs.any (·.id == id)
  | _ => false

/-- The tasks that wait for the clock. -/
def timers (l : Link) : List Task :=
  .writer :: l.watchdogs.map fun w => .watchdog w.id

/-- More turns than the bytes and commands in transit can take. -/
def turns (l : Link) : Nat :=
  let lines := l.channel.waiting.foldl (fun n r => n + r.line.utf8ByteSize + 8) 0
  let bytes := l.received.length + l.stream.arriving.length + l.stream.leaving.length
  64 + 16 * (bytes + lines + l.watchdogs.length +
    match l.writer with
    | .writing _ rest _ => rest.length
    | _ => 0)

/-- The tasks of a link. They wait for bytes and for the clock, not for messages. -/
def machine : Machine Link Task :=
  ⟨step?, fun _ _ => false, woken, begun, turns⟩

/-- A link at its start. Its reader and its writer are ready, the reader first: what arrives before
anything was written answers no command. -/
def start (l : Link) : Machine.Running Link Task :=
  ⟨l, [.reader, .writer]⟩

/-- The link after the clock has moved: what was ready goes on first, then the timers fire. -/
def advance (r : Machine.Running Link Task) (ms : Nat) : Machine.Running Link Task :=
  let r := machine.settle { r with state := { r.state with now := r.state.now + ms } }
  machine.settle ⟨r.state, Machine.enqueue r.ready (machine.able r.state r.state.timers)⟩

end Link
end MobDebug
