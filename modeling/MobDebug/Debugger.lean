import MobDebug.Console.Loop
import MobDebug.Session.Delivery
/-!
A session at work: the tasks of its connection, the pump that brings the events of the connection
to the session, and the jobs of its users. Every step of the debugger is a step of one task, and any
order of them is a run.
-/
namespace MobDebug
open Session (Call Callback Delivery Progress Event)

/-- How a job of a user ends. -/
inductive JobResult where
  | answer (result : Except Error Session.Answer)
  | text (result : Except Error (Option String))
  | misuse (m : Console.Misuse)
  | callbacks (ran : List Callback)
  | done

/-- What a user does with a session. A call keeps the session alive until it ends, except where only
its reply is awaited. The callbacks of an evaluation that have run are kept in order. -/
inductive Job where
  | call (call : Call) (keeps : Bool)
  | waiting (id : Nat) (awaiting : Session.Awaiting) (keeps : Bool)
  | delivery (d : Delivery) (ran : List Callback)
  | command (json : Bool) (line : String)
  | executing (json : Bool) (command : Console.Command) (id : Nat) (awaiting : Session.Awaiting)
  | console (loop : Console.Loop)
  | printer (json : Bool) (taken : Nat) (last : Console.LastShown)
  | ended (result : JobResult)

/-- A job keeps the session alive. -/
def Job.keepsSession : Job → Bool
  | .call _ _ => true
  | .waiting _ _ keeps => keeps
  | .delivery (.asking _ _) _ => true
  | .delivery _ _ => false
  | .command _ _ => true
  | .executing _ _ _ _ => true
  | .console loop => !loop.ended
  | .printer _ _ _ => false
  | .ended _ => false

/-- The reply that a job waits for. -/
def Job.awaited? : Job → Option Nat
  | .waiting id _ _ => some id
  | .delivery (.waiting id _) _ => some id
  | .executing _ _ id _ => some id
  | .console loop => loop.current.map fun (_, id, _) => id
  | _ => none

/-- A job waits for the events of the session. -/
def Job.listens : Job → Bool
  | .console loop => loop.current.isNone
  | .printer _ _ _ => true
  | _ => false

/-- How the job ended, if it has. -/
def Job.result? : Job → Option JobResult
  | .console loop => if loop.ended then some .done else none
  | .ended result => some result
  | _ => none

/-- `pumped` counts the events that the pump has brought, `held` tells whether the owner holds the
session besides the jobs, `gone` that nobody does any more, and `out` is what was printed. -/
structure Debugger where
  session : Session
  held : Bool := true
  gone : Bool := false
  pumped : Nat := 0
  pumping : Bool := true
  jobs : List (Nat × Job) := []
  out : String := ""

namespace Debugger

inductive Task where
  | link (task : Link.Task)
  | refused (index : Nat) (task : Link.Task)
  | pump
  | job (id : Nat)
  deriving DecidableEq

/-- The debugger of a session that is new. -/
def new (config : Session.Config) : Debugger :=
  { session := .new config }

/-- Changes the state of one job. -/
def setJob (s : Debugger) (id : Nat) (job : Job) : Debugger :=
  { s with jobs := s.jobs.map fun (other, old) => if other = id then (id, job) else (other, old) }

def callJob (keeps : Bool) : Progress → Job
  | .waiting id awaiting => .waiting id awaiting keeps
  | .finished result => .ended (.answer result)

def commandJob (json : Bool) (c : Console.Command) : Console.Execution → Job
  | .waiting id awaiting => .executing json c id awaiting
  | .finished result => .ended (.text result)

def deliveryJob (ran : List Callback) : Delivery → Job
  | .finished => .ended (.callbacks ran)
  | d => .delivery d ran

/-- The next step of a job, with what it prints. -/
def jobStep? (s : Debugger) : Job → Option (Session × Job × String)
  | .call call keeps =>
    let (session, progress) := s.session.start call
    some (session, callJob keeps progress, "")
  | .waiting id awaiting keeps =>
    (s.session.outcome? id).map fun outcome =>
      let (session, progress) := s.session.continueWith id awaiting outcome
      (session, callJob keeps progress, "")
  | .delivery d ran =>
    (s.session.deliver? d).map fun (session, d, now) => (session, deliveryJob (ran ++ now) d, "")
  | .command json line =>
    match Console.Command.read line with
    | .error misuse => some (s.session, .ended (.misuse misuse), "")
    | .ok c =>
      let (session, execution) := Console.execute s.session json c
      some (session, commandJob json c execution, "")
  | .executing json c id awaiting =>
    (s.session.outcome? id).map fun outcome =>
      let (session, execution) := Console.continueExecution s.session json c id awaiting outcome
      (session, commandJob json c execution, "")
  | .console loop =>
    (loop.step? s.session).map fun (session, loop, text) => (session, .console loop, text)
  | .printer json taken last =>
    match s.session.events.receive taken with
    | some (.lagged _, taken) => some (s.session, .printer json taken last, "")
    | some (.message e, taken) =>
      let (last, text) := Console.showEvent json last e
      some (s.session, .printer json taken last, text)
    | none => if s.gone then some (s.session, .ended .done, "") else none
  | .ended _ => none

/-- The next event of the connection reaches the session, if anybody still has it. -/
def pumpStep? (s : Debugger) : Option Debugger :=
  if !s.pumping then none
  else
    s.session.link.bind fun link =>
      link.channel.events[s.pumped]?.map fun e =>
        if s.gone then { s with pumping := false }
        else
          { s with
            session := s.session.receive e
            pumped := s.pumped + 1
            pumping := !e matches .closed _ }

/-- A session that nobody has any more closes its connection. -/
def release (s : Debugger) : Debugger :=
  if s.gone || s.held || s.jobs.any (·.2.keepsSession) then s
  else { s with gone := true, session := s.session.close }

/-- One step of a task; nothing, while it waits. -/
def step? (s : Debugger) : Task → Option Debugger
  | .link task =>
    s.session.link.bind fun link =>
      (link.step? task).map fun link =>
        { s with session := { s.session with link := some link } }
  | .refused index task =>
    s.session.refused[index]?.bind fun link =>
      (link.step? task).map fun link =>
        { s with session := { s.session with refused := s.session.refused.set index link } }
  | .pump => s.pumpStep?
  | .job id =>
    (s.jobs.lookup id).bind fun job =>
      (s.jobStep? job).map fun (session, job, text) =>
        ({ s with session, out := s.out ++ text }.setJob id job).release

/-- Whether the next step of a task takes an event or a reply. -/
def takesMessage (s : Debugger) : Task → Bool
  | .link _ => false
  | .refused _ _ => false
  | .pump => true
  | .job id =>
    match s.jobs.lookup id with
    | some (.waiting _ _ _) => true
    | some (.delivery (.waiting _ _) _) => true
    | some (.executing _ _ _ _) => true
    | some (.console loop) => loop.takesMessage s.session
    | some (.printer _ _ _) => true
    | _ => false

/-- The tasks that wait for a journal entry. -/
def wokenBy (s : Debugger) : Channel.Entry → List Task
  | .event _ => [.pump]
  | .answered id _ =>
    (s.jobs.filter fun (_, job) => job.awaited? == some id).map fun (n, _) => .job n
  | _ => []

/-- Whether a change has begun a task: those of a connection begin with it, and so does the pump. -/
def begun (before after : Debugger) : Task → Bool
  | .link (.watchdog id) =>
    match before.session.link, after.session.link with
    | some l, some m => Link.begun l m (.watchdog id)
    | _, _ => false
  | .link .debuggee => false
  | .link _ => before.session.link.isNone && after.session.link.isSome
  | .pump => before.session.link.isNone && after.session.link.isSome
  | .refused _ _ => false
  | .job id => (after.jobs.lookup id).isSome && (before.jobs.lookup id).isNone

/-- Whether the connection is closed. -/
def isClosed (s : Debugger) : Bool :=
  s.session.link.any (·.channel.closed)

/-- The tasks that a change may have woken, in the order in which they are: those that wait for
what the connection has brought, those of the connection itself, those that wait for events, and
those that it has begun. A connection that closes wakes its own tasks first, after the subscribers
if they are told in the same step. -/
def woken (before after : Debugger) : List Task :=
  let journal (s : Debugger) : List Channel.Entry :=
    (s.session.link.map (·.channel.journal)).getD []
  let brought := ((journal after).drop (journal before).length).flatMap after.wokenBy
  let linkTasks := match before.session.link, after.session.link with
    | some l, some m => (Link.woken l m).map Task.link
    | none, some m => (Link.woken m m).map Task.link
    | _, none => []
  let refused := (List.range after.session.refused.length).flatMap fun i =>
    [Link.Task.reader, .writer].map (Task.refused i)
  let listening := (after.jobs.filter fun (_, job) => job.listens).map fun (n, _) => Task.job n
  let jobs := (after.jobs.drop before.jobs.length).map fun (n, _) => Task.job n
  let closing := after.isClosed && !before.isClosed
  let told := before.session.events.sent.length < after.session.events.sent.length
  let connection := if closing then linkTasks ++ brought else brought ++ linkTasks
  let first := if closing && told then listening ++ connection else connection ++ listening
  first ++ refused ++ .pump :: jobs

/-- More turns than what is under way can take. -/
def turns (s : Debugger) : Nat :=
  let jobTurns : Nat × Job → Nat
    | (_, .console loop) => 8 * (loop.typed.length + loop.input.length) + 64
    | _ => 64
  let linkTurns := match s.session.link with
    | some link => link.turns + 16 * link.channel.journal.length
    | none => 64
  let perEvent := s.jobs.length + 1
  (linkTurns + s.jobs.foldl (fun n job => n + jobTurns job) 0 +
    16 * s.session.core.breakpoints.length + s.session.events.sent.length) * perEvent

/-- The tasks of a debugger. -/
def machine : Machine Debugger Task :=
  ⟨step?, takesMessage, woken, begun, turns⟩

/-- The debugger after the clock has moved: what was ready goes on first, then the timers fire. -/
def advance (r : Machine.Running Debugger Task) (ms : Nat) : Machine.Running Debugger Task :=
  match r.state.session.link with
  | none => machine.settle r
  | some link =>
    let later := some { link with now := link.now + ms }
    let s := { r.state with session := { r.state.session with link := later } }
    let r := machine.settle { r with state := s }
    let timers := ((r.state.session.link.map Link.timers).getD []).map Task.link
    machine.settle ⟨r.state, Machine.enqueue r.ready (machine.able r.state timers)⟩

/-- Changes the stream of the connection, or that of the first call that is about to attach. -/
def onStream (s : Debugger) (f : Stream → Stream) : Debugger :=
  match s.session.link with
  | some link =>
    { s with session := { s.session with link := some { link with stream := f link.stream } } }
  | none => { s with jobs := onFirst s.jobs }
where
  onFirst : List (Nat × Job) → List (Nat × Job)
    | [] => []
    | (n, .call (.attach stream) keeps) :: rest => (n, .call (.attach (f stream)) keeps) :: rest
    | other :: rest => other :: onFirst rest

/-- The stream of the connection, or of the first call that is about to attach. -/
def stream? (s : Debugger) : Option Stream :=
  match s.session.link with
  | some link => some link.stream
  | none => s.jobs.findSome? fun
    | (_, .call (.attach stream) _) => some stream
    | _ => none

/-- Starts a job. -/
def begin (s : Debugger) (id : Nat) (job : Job) : Debugger :=
  { s with jobs := s.jobs ++ [(id, job)] }

/-- Changes the console that was started last. -/
def onConsole (s : Debugger) (f : Console.Loop → Console.Loop) : Debugger :=
  { s with jobs := (onFirst s.jobs.reverse).reverse }
where
  onFirst : List (Nat × Job) → List (Nat × Job)
    | [] => []
    | (n, .console loop) :: rest => (n, .console (f loop)) :: rest
    | other :: rest => other :: onFirst rest

/-- The owner lets go of the session. -/
def drop (s : Debugger) : Debugger :=
  { s with held := false }.release

end Debugger
end MobDebug
