import MobDebug.Console.Execution
/-!
The console reads commands line by line and runs each to its end before it takes the next. Events
of the session only make it look whether the session is over.
-/
namespace MobDebug.Console
open Session (Awaiting Event)

/-- A console: the bytes that were typed and that it has not heard, those that it has heard and not
taken as lines, whether more may come, how many events it has taken once it has begun, the command
under way, and whether it has ended. -/
structure Loop where
  json : Bool
  typed : List UInt8 := []
  input : List UInt8 := []
  closed : Bool := false
  taken : Option Nat := none
  current : Option (Command × Nat × Awaiting) := none
  ended : Bool := false

/-- A line without its line end. -/
def dropReturn (line : List UInt8) : List UInt8 :=
  if line.getLast? = some 0x0d then line.dropLast else line

/-- The next whole line and the bytes after it. What is left at the end of the input is a line. -/
def takeLine? (input : List UInt8) (closed : Bool) : Option (List UInt8 × List UInt8) :=
  match input.dropWhile (· != 0x0a) with
  | _ :: rest => some (dropReturn (input.takeWhile (· != 0x0a)), rest)
  | [] => if closed && !input.isEmpty then some (input, []) else none

/-- What is printed when a command has ended. -/
def resultText : Except Error (Option String) → String
  | .ok (some text) => text ++ "\n"
  | .ok none => ""
  | .error e => "error: " ++ e.message ++ "\n"

namespace Loop

/-- The console after its command has come to a new state, and what it prints. -/
def afterExecution (l : Loop) (s : Session) (c : Command) : Execution → Loop × String
  | .waiting id awaiting => ({ l with current := some (c, id, awaiting) }, "")
  | .finished result =>
    ({ l with current := none, ended := c.endsSession && s.core.state.isOver }, resultText result)

/-- Runs a line. A blank one does nothing, and one that is no command is told. -/
def runLine (l : Loop) (s : Session) (line : String) : Session × Loop × String :=
  if line.toList.all Text.isBlank then (s, l, "")
  else
    match Command.read line with
    | .error misuse => (s, l, "error: " ++ misuse.message ++ "\n")
    | .ok c =>
      let (s, execution) := execute s l.json c
      (s, l.afterExecution s c execution)

/-- The next step of the console and what it prints; nothing, while it waits. -/
def step? (l : Loop) (s : Session) : Option (Session × Loop × String) :=
  if l.ended then none
  else
    match l.taken with
    | none => some (s, { l with taken := some s.events.sent.length }, "")
    | some taken =>
      match l.current with
      | some (c, id, awaiting) =>
        (s.outcome? id).map fun outcome =>
          let (s, execution) := continueExecution s l.json c id awaiting outcome
          (s, l.afterExecution s c execution)
      | none =>
        if s.core.state.isOver then some (s, { l with ended := true }, "")
        else
          match s.events.receive taken with
          | some (_, taken) => some (s, { l with taken := some taken }, "")
          | none =>
            if !l.typed.isEmpty then
              some (s, { l with typed := [], input := l.input ++ l.typed }, "")
            else
              match takeLine? l.input l.closed with
              | some (line, rest) =>
                some ({ l with input := rest }.runLine s (Text.decodeLossy line))
              | none => if l.closed then some (s, { l with ended := true }, "") else none

/-- Whether the next step takes a reply or an event. -/
def takesMessage (l : Loop) (s : Session) : Bool :=
  match l.taken with
  | none => false
  | some taken =>
    l.current.isSome || (!s.core.state.isOver && (s.events.receive taken).isSome)

end Loop
end MobDebug.Console
