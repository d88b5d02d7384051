import MobDebug.Console.Display
import MobDebug.Proofs.Json.Plain

/-! The lines that a console prints in JSON for the events of a session. A line is for one event and
tells all of it. -/
namespace MobDebug.Console
open Session (Event Snapshot State)
open Wire (Location SingleLine)

/-- What there is to tell of an event. -/
inductive Told where
  | state (state : State) (frame : Nat) (location : Option Location) (breakpoints : List String)
  | output (text : String)
  | error (message : String)
  deriving DecidableEq

namespace Told

def ofEvent : Event → Told
  | .stateChanged s => .state s.state s.frame s.location (s.breakpoints.map (·.text))
  | .output text => .output text
  | .debuggeeError message => .error message

def stateOfName? (name : String) : Option State :=
  [.disconnected, .running, .paused, .stepping, .terminated].find? (·.name = name)

def member? (name : String) : Json → Option Json
  | .obj members => members.lookup name
  | _ => none

def text? : Json → Option String
  | .str s => some s
  | _ => none

def nat? : Json → Option Nat
  | .int i => i.toNat?
  | _ => none

def texts? : Json → Option (List String)
  | .arr elements => elements.mapM text?
  | _ => none

/-- A file and a line, or null for either. -/
def location? : Json → Json → Option (Option Location)
  | .null, .null => some none
  | file, line => do
    let file ← text? file
    let line ← nat? line
    some (some ⟨file, line⟩)

/-- What an object tells, by the kind of event that it names. -/
def ofJson? (j : Json) : Option Told := do
  match ← (member? "event" j).bind text? with
  | "output" => ((member? "text" j).bind text?).map .output
  | "error" => ((member? "message" j).bind text?).map .error
  | "state" =>
    let state ← ((member? "state" j).bind text?).bind stateOfName?
    let frame ← (member? "frame" j).bind nat?
    let location ← location? (← member? "file" j) (← member? "line" j)
    let breakpoints ← (member? "breakpoints" j).bind texts?
    some (.state state frame location breakpoints)
  | _ => none

/-- Reads a line. -/
def read? (line : String) : Option Told :=
  (Json.read? line).bind ofJson?

end Told

/-- The tree that is printed of an event. -/
def eventTree : Event → Json
  | .stateChanged s => snapshotTree s
  | .output text => Json.ofMembers [("event", .str "output"), ("text", .str text)]
  | .debuggeeError message => Json.ofMembers [("event", .str "error"), ("message", .str message)]

theorem snapshotTree_eq (s : Snapshot) : snapshotTree s = .obj
    [("breakpoints", .arr (s.breakpoints.map fun b => .str b.text)), ("event", .str "state"),
      ("file", Json.ofStr? (s.location.map (·.file))), ("frame", .int s.frame),
      ("line", (s.location.map fun l => Json.int l.line).getD .null),
      ("state", .str s.state.name)] := by
  rfl

theorem stateOfName?_name (state : State) : Told.stateOfName? state.name = some state := by
  cases state <;> decide

theorem texts?_map {α : Type} (f : α → String) (xs : List α) :
    Told.texts? (.arr (xs.map fun a => .str (f a))) = some (xs.map f) := by
  rw [Told.texts?]
  induction xs with
  | nil => rfl
  | cons a xs ih =>
    rw [List.map_cons, List.mapM_cons, ih]
    rfl

theorem location?_of (l : Option Location) :
    Told.location? (Json.ofStr? (l.map (·.file)))
      ((l.map fun l => Json.int l.line).getD .null) = some l := by
  cases l <;> rfl

/-- The tree of an event tells the event. -/
theorem ofJson?_eventTree (e : Event) : Told.ofJson? (eventTree e) = some (.ofEvent e) := by
  cases e with
  | stateChanged s =>
    have hstate := stateOfName?_name s.state
    have htexts := texts?_map (·.text) s.breakpoints
    have hlocation := location?_of s.location
    obtain ⟨j, hj⟩ : ∃ j, snapshotTree s = j := ⟨_, rfl⟩
    have hkind : Told.member? "event" j = some (.str "state") := by
      rw [← hj]
      rfl
    have hname : Told.member? "state" j = some (.str s.state.name) := by
      rw [← hj]
      rfl
    have hframe : Told.member? "frame" j = some (.int s.frame) := by
      rw [← hj]
      rfl
    have hfile : Told.member? "file" j = some (Json.ofStr? (s.location.map (·.file))) := by
      rw [← hj]
      rfl
    have hline : Told.member? "line" j =
        some ((s.location.map fun l => Json.int l.line).getD .null) := by
      rw [← hj]
      rfl
    have hbreakpoints : Told.member? "breakpoints" j =
        some (.arr (s.breakpoints.map fun b => .str b.text)) := by
      rw [← hj]
      rfl
    rw [eventTree, hj]
    have hnat : Told.nat? (.int s.frame) = some s.frame := rfl
    simp [Told.ofJson?, hkind, hname, hframe, hfile, hline, hbreakpoints, Told.text?, hnat, hstate,
      htexts, hlocation, Told.ofEvent]
  | output text => rfl
  | debuggeeError message => rfl

/-- The tree of an event has no numbers that cannot be written. -/
theorem written_eventTree (e : Event) : (eventTree e).written = eventTree e := by
  have hbreakpoints (bs : List Session.Breakpoint) :
      Json.writtenElements (bs.map fun b => .str b.text) = bs.map fun b => .str b.text := by
    induction bs with
    | nil => rfl
    | cons b bs ih => simp only [List.map_cons, Json.writtenElements, Json.written, ih]
  cases e with
  | stateChanged s =>
    rw [eventTree, snapshotTree_eq]
    cases s.location <;>
      simp [Json.written, Json.writtenMembers, Json.ofStr?, hbreakpoints]
  | output text | debuggeeError message => rfl

theorem read?_event (e : Event) : Told.read? (eventTree e).render = some (.ofEvent e) := by
  rw [Told.read?, Json.read?_render, written_eventTree, Option.bind_some, ofJson?_eventTree]

end MobDebug.Console
