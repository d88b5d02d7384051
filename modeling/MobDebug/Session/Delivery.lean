import MobDebug.Session.Call
/-!
Evaluation for callbacks. The caller gives one for the value and one for an error, and goes on at
once. What forbids to ask is told to the caller's callback before that, and what the reply brings is
told by a task of its own, which does not keep the session.
-/
namespace MobDebug.Session

/-- A callback that has run, with what it was told. -/
inductive Callback where
  | result (v : Literal.Value)
  | error (e : Error)

/-- An evaluation for callbacks: it is about to ask, it waits for the reply, which may nest tables
`maxDepth` deep, or it has finished. -/
inductive Delivery where
  | asking (frame : Nat) (expression : String)
  | waiting (id maxDepth : Nat)
  | finished

/-- The callback for what became of the command. -/
def callbackOf (maxDepth : Nat) (outcome : Channel.Outcome) : Callback :=
  match outcome.bind (Evaluation.results maxDepth) with
  | .ok values => .result (values.head?.getD .nil)
  | .error e => .error e

/-- Asks for the value of an expression, and runs a callback if that is refused. -/
def evaluateWith (s : Session) (frame : Nat) (expression : String) :
    Session × Delivery × List Callback :=
  match s.submitEvaluation frame expression with
  | .error e => (s, .finished, [.error e])
  | .ok (id, s) => (s, .waiting id s.config.maxDepth, [])

/-- The next part of an evaluation for callbacks, with the callbacks that it runs; nothing, while
the reply is not in. -/
def deliver? (s : Session) : Delivery → Option (Session × Delivery × List Callback)
  | .asking frame expression => some (s.evaluateWith frame expression)
  | .waiting id maxDepth =>
    (s.outcome? id).map fun outcome => (s, .finished, [callbackOf maxDepth outcome])
  | .finished => none

end MobDebug.Session
