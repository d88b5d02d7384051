import MobDebug.Wire.Frame
import MobDebug.Wire.Location
/-!
The command channel. Commands wait in a queue and go onto the wire one at a time; a frame answers
the one in flight or becomes an event. The journal keeps all that ever happened, in order.
-/
namespace MobDebug.Channel
open Wire (Command CommandName Location Response)

/-- A frame that answers no command, or the end of the channel. `after` is the id of the command
last put on the wire before the pause was read. -/
inductive Event where
  | paused (location : Location) (after : Nat)
  | output (text : String)
  | debuggeeError (message : String)
  | closed (error : Error)

/-- A command that was accepted, with the line that will be written. -/
structure Request where
  id : Nat
  name : CommandName
  line : String
  deriving DecidableEq

/-- What a command ends with: the body of its reply, or an error. -/
abbrev Outcome := Except Error String

/-- One step in the life of the channel. -/
inductive Entry where
  | submitted (request : Request)
  | withdrawn (id : Nat)
  | sent (id : Nat)
  | answered (id : Nat) (outcome : Outcome)
  | event (e : Event)

end Channel

/-- The state of a command channel. `signalled` means that the writer has been told to look for a
command and has not looked yet. -/
structure Channel where
  waiting : List Channel.Request := []
  inFlight : Option Channel.Request := none
  lastSent : Nat := 0
  nextId : Nat := 1
  closed : Bool := false
  signalled : Bool := false
  journal : List Channel.Entry := []

namespace Channel
open Wire (Command CommandName Location Response)

def record (c : Channel) (e : Entry) : Channel :=
  { c with journal := c.journal ++ [e] }

/-- How many commands have been accepted and not been answered. -/
def pending (c : Channel) : Nat :=
  c.waiting.length + if c.inFlight.isSome then 1 else 0

/-- What the command of this id ended with. -/
def outcome? (c : Channel) (id : Nat) : Option Outcome :=
  c.journal.findSome? fun
    | .answered other outcome => if other = id then some outcome else none
    | _ => none

/-- The events so far. -/
def events (c : Channel) : List Event :=
  c.journal.filterMap fun
    | .event e => some e
    | _ => none

/-- Queues a command and gives it the next id. -/
def submit (c : Channel) (command : Command) : Except Error (Nat × Channel) :=
  match command.encode with
  | .error fault => .error (.protocol fault)
  | .ok line =>
    if c.closed then .error .channelClosed
    else
      let request : Request := ⟨c.nextId, command.name, line⟩
      .ok (c.nextId,
        { c with
          waiting := c.waiting ++ [request], nextId := c.nextId + 1, signalled := true
          journal := c.journal ++ [.submitted request] })

/-- Takes a command back that still waits. -/
def withdraw? (c : Channel) (id : Nat) : Option Channel :=
  if c.waiting.any (·.id == id) then
    some { c with
      waiting := c.waiting.filter (·.id != id), journal := c.journal ++ [.withdrawn id] }
  else none

/-- Puts the first waiting command in flight, if nothing is. -/
def sendNext? (c : Channel) : Option (Request × Channel) :=
  match c.closed, c.inFlight, c.waiting with
  | false, none, request :: rest =>
    some (request,
      { c with
        waiting := rest, inFlight := some request, lastSent := request.id
        journal := c.journal ++ [.sent request.id] })
  | _, _, _ => none

/-- Ends the command in flight, provided that its name is accepted. -/
def answer? (c : Channel) (accepts : CommandName → Bool) (outcome : Outcome) : Option Channel :=
  c.inFlight.bind fun request =>
    if accepts request.name then
      some { c with
        inFlight := none, signalled := true
        journal := c.journal ++ [.answered request.id outcome] }
    else none

/-- What a response does: it answers the command in flight, becomes an event, or both. A reply that
nothing waits for is dropped. -/
def dispatch (c : Channel) (r : Response) : Except ProtocolFault Channel :=
  match r.status with
  | .output => .ok (c.record (.event (.output r.body)))
  | .paused =>
    match Location.read r.body with
    | .error fault => .error fault
    | .ok location =>
      let c := c.record (.event (.paused location c.lastSent))
      .ok ((c.answer? CommandName.isAnsweredByPause (.ok r.body)).getD c)
  | .ok | .running => .ok ((c.answer? (fun _ => true) (.ok r.body)).getD c)
  | .badRequest | .error =>
    let message := String.ofList (Text.trimEnd r.body.toList)
    .ok ((c.answer? (fun _ => true) (.error (.debuggee r.status.code message))).getD
      (c.record (.event (.debuggeeError message))))

/-- Closes the channel: whatever is outstanding ends with the error, in order, and then the event is
told. A closed channel stays as it is. -/
def fail (c : Channel) (error : Error) : Channel :=
  if c.closed then c
  else
    { c with
      waiting := [], inFlight := none, closed := true
      journal := c.journal ++
        (c.inFlight.toList ++ c.waiting).map (fun r => .answered r.id (.error error)) ++
        [.event (.closed error)] }

end Channel
end MobDebug
