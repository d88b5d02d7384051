import MobDebug.Debugger
import MobDebug.Network
import MobDebug.Settings.Source
/-!
The command line of the debugger: its arguments, and how a session begins with them.
-/
namespace MobDebug

/-- Whether the debugger connects to a debuggee or waits for one. What is left out is in the
settings. -/
inductive Approach where
  | attach (host : Option String) (port : Option Nat)
  | listen (port : Option Nat)
  deriving DecidableEq

/-- The options that every approach takes. -/
structure CommandLine.Options where
  settings : Option String := none
  json : Bool := false
  deriving DecidableEq

structure CommandLine where
  options : CommandLine.Options := {}
  approach : Approach
  deriving DecidableEq

namespace CommandLine

/-- Why arguments cannot be followed. -/
inductive Misuse where
  | noApproach
  | unknownApproach (word : String)
  | unexpected (argument : String)
  | noValue (option : String)
  | notInteger (text : String)
  | notPort (text : String)
  deriving DecidableEq

def Misuse.message : Misuse → String
  | .noApproach => "attach or listen has to be given"
  | .unknownApproach word => "unrecognized subcommand '" ++ word ++ "'"
  | .unexpected argument => "unexpected argument '" ++ argument ++ "' found"
  | .noValue option => "a value is required for '" ++ option ++ "' but none was supplied"
  | .notInteger text =>
    "invalid value '" ++ text ++ "' for '--port <PORT>': invalid digit found in string"
  | .notPort text =>
    "invalid value '" ++ text ++ "' for '--port <PORT>': " ++ text ++ " is not in 0..=65535"

/-- What is printed about them. -/
def Misuse.text (m : Misuse) : String :=
  "error: " ++ m.message ++ "\n\nFor more information, try '--help'.\n"

/-- A port: an integer of 16 bits without a sign. -/
def readPort (text : String) : Except Misuse Nat :=
  let (negative, digits) := match text.toList with
    | '-' :: digits => (true, digits)
    | digits => (false, digits)
  match Text.readNat? (Nat.pow 2 63) digits with
  | none => .error (.notInteger text)
  | some n => if n < UInt16.size ∧ (negative = false ∨ n = 0) then .ok n else .error (.notPort text)

/-- The value in an argument of the form `name=value`. -/
def valueIn? (name argument : String) : Option String :=
  let start := (name ++ "=").toList
  if start.isPrefixOf argument.toList then
    some (String.ofList (argument.toList.drop start.length))
  else none

/-- Sets a value of an approach, if it has the option. -/
def setValue (a : Approach) (option value : String) : Except Misuse Approach :=
  match a, option with
  | .attach _ port, "--host" => .ok (.attach (some value) port)
  | .attach host _, "--port" => (readPort value).map fun port => .attach host (some port)
  | .listen _, "--port" => (readPort value).map fun port => .listen (some port)
  | _, option => .error (.unexpected option)

/-- An option that takes a value, with its value if it holds one. -/
def withValue? (argument : String) : Option (String × Option String) :=
  ["--config", "--host", "--port"].findSome? fun name =>
    if argument = name then some (name, none)
    else (valueIn? name argument).map fun value => (name, some value)

/-- The parts of a command line that have been read. -/
structure Draft where
  options : Options := {}
  approach : Option Approach := none

/-- Takes an option with its value. -/
def Draft.setOption (d : Draft) (option value : String) : Except Misuse Draft :=
  if option = "--config" then .ok { d with options := { d.options with settings := some value } }
  else
    match d.approach with
    | none => .error (.unexpected option)
    | some a => (setValue a option value).map fun a => { d with approach := some a }

/-- Takes an argument that is no option with a value. -/
def Draft.setWord (d : Draft) (argument : String) : Except Misuse Draft :=
  match argument, d.approach with
  | "--json", _ => .ok { d with options := { d.options with json := true } }
  | "attach", none => .ok { d with approach := some (.attach none none) }
  | "listen", none => .ok { d with approach := some (.listen none) }
  | argument, none =>
    .error (if argument.startsWith "-" then .unexpected argument else .unknownApproach argument)
  | argument, some _ => .error (.unexpected argument)

/-- Reads the arguments from the first on. -/
def readFrom (d : Draft) : List String → Except Misuse CommandLine
  | [] =>
    match d.approach with
    | some approach => .ok { options := d.options, approach }
    | none => .error .noApproach
  | argument :: rest =>
    match withValue? argument with
    | none => (d.setWord argument).bind fun d => readFrom d rest
    | some (option, some value) => (d.setOption option value).bind fun d => readFrom d rest
    | some (option, none) =>
      match rest with
      | [] => .error (.noValue option)
      | value :: rest => (d.setOption option value).bind fun d => readFrom d rest

/-- Reads the arguments. -/
def read (arguments : List String) : Except Misuse CommandLine :=
  readFrom {} arguments

/-- The settings to work with, and what is printed if those that were asked for cannot be had. -/
def settingsOrDefault (loaded : Except Settings.Fault Settings) : Settings × String :=
  match loaded with
  | .ok s => (s, "")
  | .error fault =>
    ({}, "lunar: failed to load config: " ++ fault.message ++ "; continuing with defaults\n")

/-- What a session takes from the settings. -/
def sessionConfig (s : DebuggerSettings) : Session.Config :=
  { replyTimeout := s.replyTimeout, maxDepth := s.maxDepth, bodyLimit := s.bodyLimit
    baseDir := s.baseDir }

/-- What is printed when there will be no session: what failed, and why. -/
def failure (what : String) (e : Error) : String :=
  "Error: " ++ what ++ "\n\nCaused by:\n    " ++ e.message ++ "\n"

/-- The beginning of a debugger: what is printed on the way, and the session that has attached, or
what ended the attempt. -/
structure Beginning where
  text : String
  outcome : Except String (Machine.Running Debugger Debugger.Task)

/-- The debugger after its first call, which is to attach. -/
def attached (config : Session.Config) (connection : Except Error Stream) :
    Except Error (Machine.Running Debugger Debugger.Task) :=
  let r : Machine.Running Debugger Debugger.Task := ⟨Debugger.new config, []⟩
  let begun := Debugger.machine.act r (r.state.begin 0 (.call (.connect connection) true))
  let r := Debugger.machine.settle begun
  match (r.state.jobs.lookup 0).bind Job.result? with
  | some (.answer (.error e)) => .error e
  | _ => .ok r

/-- Begins a session as the arguments say. -/
def begin (c : CommandLine) (loaded : Except Settings.Fault Settings) : Beginning :=
  let (settings, warning) := settingsOrDefault loaded
  let config := sessionConfig settings.debugger
  match c.approach with
  | .attach host port =>
    let host := host.getD settings.debugger.host
    let port := port.getD settings.debugger.port
    ⟨warning, (attached config (Network.connect host)).mapError
      (failure ("failed to attach to " ++ host ++ ":" ++ toString port))⟩
  | .listen port =>
    let port := port.getD settings.debugger.port
    ⟨warning ++ "lunar: waiting for a debuggee on port " ++ toString port ++ "\n",
      (attached config Network.accept).mapError (failure "debuggee failed to connect")⟩

end CommandLine
end MobDebug
