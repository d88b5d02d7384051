import MobDebug.Text.Blank
/-!
The settings of the debugger and the values they may have.
-/
namespace MobDebug

/-- Where the debuggee is, how long it is waited for, and how much of it is taken. Times are in
milliseconds, and `baseDir` is the project root that the debuggee is told. -/
structure DebuggerSettings where
  host : String := "127.0.0.1"
  port : Nat := 8172
  connectTimeout : Nat := 5000
  replyTimeout : Nat := 10000
  maxDepth : Nat := 8
  bodyLimit : Nat := 16777216
  baseDir : Option String := none
  deriving DecidableEq

/-- How much is logged, and where to. -/
structure LoggingSettings where
  level : String := "info"
  json : Bool := false
  stderr : Bool := true
  file : Option String := none
  deriving DecidableEq

structure Settings where
  debugger : DebuggerSettings := {}
  logging : LoggingSettings := {}
  deriving DecidableEq

namespace Settings

/-- A value that no debugger can work with. -/
inductive Invalid where
  | host
  | connectTimeout
  | replyTimeout
  | maxDepth
  | bodyLimit
  deriving DecidableEq

def Invalid.message : Invalid → String
  | .host => "debugger.host must not be empty"
  | .connectTimeout => "debugger.connect_timeout_ms must be greater than zero"
  | .replyTimeout => "debugger.reply_timeout_ms must be greater than zero"
  | .maxDepth => "debugger.max_depth must be at least 1"
  | .bodyLimit => "debugger.max_body_bytes must be greater than zero"

/-- The first value that is of no use. A host that is blank names none. -/
def invalid? (s : Settings) : Option Invalid :=
  if (Text.trim s.debugger.host.toList).isEmpty then some .host
  else if s.debugger.connectTimeout = 0 then some .connectTimeout
  else if s.debugger.replyTimeout = 0 then some .replyTimeout
  else if s.debugger.maxDepth = 0 then some .maxDepth
  else if s.debugger.bodyLimit = 0 then some .bodyLimit
  else none

/-- The settings that hold where nothing is set are of use. -/
theorem invalid?_default : invalid? {} = none := by
  decide

end Settings
end MobDebug
