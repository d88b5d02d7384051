/-!
The statuses of a response. Each has a code, a reason that is written with it, and one or more
tokens by which it is read.
-/
namespace MobDebug.Wire

inductive Status where
  | ok
  | running
  | paused
  | output
  | badRequest
  | error
  deriving DecidableEq

namespace Status

def code : Status → Nat
  | .ok => 200
  | .running => 201
  | .paused => 202
  | .output => 204
  | .badRequest => 400
  | .error => 401

def reason : Status → String
  | .ok => "OK"
  | .running => "Running"
  | .paused => "Paused"
  | .output => "Output"
  | .badRequest => "Bad Request"
  | .error => "Error"

/-- The tokens that mean the status. -/
def tokens : Status → List String
  | .ok => ["200", "OK"]
  | .running => ["201", "RUNNING"]
  | .paused => ["202", "PAUSED"]
  | .output => ["204", "OUTPUT"]
  | .badRequest => ["400", "BAD"]
  | .error => ["401", "ERR", "ERROR"]

def all : List Status :=
  [.ok, .running, .paused, .output, .badRequest, .error]

def ofToken? (s : String) : Option Status :=
  all.find? (·.tokens.contains s)

def isError : Status → Bool
  | .badRequest => true
  | .error => true
  | _ => false

end Status
end MobDebug.Wire
