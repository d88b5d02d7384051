import MobDebug.Broadcast
import MobDebug.Literal.Tree
import MobDebug.Session.Core
import MobDebug.Stack
/-!
What the console prints, as text or as JSON lines.
-/
namespace MobDebug.Console
open Session (State Snapshot Event Breakpoint)
open Wire (Location)

def help : String :=
  "commands:\n" ++
  "  run                     continue until the next breakpoint\n" ++
  "  step | over | out       step into, over or out of the current line\n" ++
  "  pause                   interrupt a running program\n" ++
  "  break <file> <line>     set a breakpoint\n" ++
  "  clear <file> <line>     remove a breakpoint\n" ++
  "  eval <expr>             evaluate in the selected frame\n" ++
  "  frame <n>               select a stack frame\n" ++
  "  stack                   show the call stack\n" ++
  "  output <c|r|d>          copy, redirect or stop forwarding program output\n" ++
  "  state                   show the session state\n" ++
  "  detach                  let the program continue without the debugger\n" ++
  "  exit                    stop the program"

def snapshotTree (s : Snapshot) : Json :=
  Json.ofMembers
    [("event", .str "state"), ("state", .str s.state.name), ("frame", .int s.frame),
      ("file", Json.ofStr? (s.location.map (·.file))),
      ("line", (s.location.map fun l => Json.int l.line).getD .null),
      ("breakpoints", .arr (s.breakpoints.map fun b => .str b.text))]

/-- A snapshot on one line. -/
def showSnapshot (json : Bool) (s : Snapshot) : String :=
  if json then (snapshotTree s).render
  else
    match s.location with
    | some l =>
      "[" ++ s.state.name ++ "] " ++ l.file ++ ":" ++ toString l.line ++ " (frame " ++
        toString s.frame ++ ")"
    | none => "[" ++ s.state.name ++ "]"

/-- The results of an evaluation; none show as nil. -/
def showValues (json : Bool) (values : List Literal.Value) : String :=
  if json then (Json.arr (values.map Literal.Value.toJson)).render
  else if values.isEmpty then "nil"
  else ", ".intercalate (values.map Literal.Value.render)

def variableTree (v : Stack.Variable) : Json :=
  Json.ofMembers
    [("name", .str v.name), ("value", v.value.toJson.sort), ("display", .str v.display)]

def frameTree (f : Stack.Frame) : Json :=
  Json.ofMembers
    [("index", .int f.index), ("name", Json.ofStr? f.name), ("source", .str f.shortSource),
      ("line", .int f.currentLine.toInt), ("what", .str f.what),
      ("locals", .arr (f.locals.map variableTree))]

def showFrame (f : Stack.Frame) : String :=
  "#" ++ toString f.index ++ " " ++ f.name.getD "?" ++ " at " ++ f.shortSource ++ ":" ++
    toString f.currentLine.toInt ++ "\n" ++
    String.join (f.locals.map fun v => "    " ++ v.name ++ " = " ++ v.display ++ "\n")

/-- The frames of a stack with their locals. -/
def showStack (json : Bool) (frames : List Stack.Frame) : String :=
  if json then (Json.arr (frames.map frameTree)).render
  else String.ofList (Text.trimEnd (String.join (frames.map showFrame)).toList)

/-- The state and place of the last state line, if there was one. -/
abbrev LastShown := Option (State × Option Location)

/-- What one event prints. A state that was shown last, at the same place, prints nothing. -/
def showEvent (json : Bool) (last : LastShown) : Event → LastShown × String
  | .stateChanged s =>
    if last = some (s.state, s.location) then (last, "")
    else (some (s.state, s.location), showSnapshot json s ++ "\n")
  | .output text =>
    if json then
      (last, (Json.ofMembers [("event", .str "output"), ("text", .str text)]).render ++ "\n")
    else (last, text)
  | .debuggeeError message =>
    if json then
      (last, (Json.ofMembers [("event", .str "error"), ("message", .str message)]).render ++ "\n")
    else (last, "[debuggee error] " ++ message ++ "\n")

/-- What a printer prints that has taken `next` events and shown `last`, until none is left. -/
def showEvents (json : Bool) (events : Broadcast Event) : Nat → Nat → LastShown → String
  | 0, _, _ => ""
  | fuel + 1, next, last =>
    match events.receive next with
    | none => ""
    | some (.lagged _, next) => showEvents json events fuel next last
    | some (.message e, next) =>
      let (last, text) := showEvent json last e
      text ++ showEvents json events fuel next last

/-- All that is printed for events that were sent before the printer began. -/
def showAll (json : Bool) (events : Broadcast Event) : String :=
  showEvents json events (events.sent.length + 1) 0 none

end MobDebug.Console
