import MobDebug.Wire.Frame
import MobDebug.Wire.Location
/-!
A debuggee that follows a script: it answers every command from canned results and knows of its
program only the line at which that is paused.
-/
namespace MobDebug
open Wire (CommandName Location Response)

/-- What a scripted debuggee answers. It may pause as soon as a debugger connects and again after
`RUN`, end the program at a step, leave commands without an answer, and refuse breakpoints.
Expressions that are not among the evaluations fail. -/
structure Script where
  start : Location := ⟨"main.lua", 1⟩
  pausesOnConnect : Bool := false
  runPausesAt : Option Location := none
  stepsTerminate : Bool := false
  evaluations : List (String × Except String String) := []
  stack : String := "\x7b\x7d"
  silent : List CommandName := []
  rejectsBreakpoints : Option String := none

/-- What crosses the wire of a debuggee. -/
inductive Exchange where
  | received (line : String)
  | replied (r : Response)
  | pushed (r : Response)
  deriving DecidableEq

/-- A debuggee at work: where its program is, all that crossed its wire, and whether it still
listens. -/
structure Debuggee where
  script : Script
  location : Location := script.start
  log : List Exchange := []
  connected : Bool := true

namespace Debuggee

def record (d : Debuggee) (e : Exchange) : Debuggee :=
  { d with log := d.log ++ [e] }

def reply (d : Debuggee) (status : Wire.Status) (body : String) : Debuggee :=
  d.record (.replied ⟨status, body⟩)

/-- Tells where the program is paused, without having been asked. -/
def pushPaused (d : Debuggee) (location : Location) : Debuggee :=
  { d with location }.record (.pushed ⟨.paused, location.text⟩)

/-- A debuggee to which a debugger has just connected. -/
def ofScript (script : Script) : Debuggee :=
  let d : Debuggee := { script }
  if script.pausesOnConnect then d.pushPaused script.start else d

/-- The text without a prefix that it may have. -/
def dropStart (start cs : List Char) : List Char :=
  if start.isPrefixOf cs then cs.drop start.length else cs

/-- The part before the last occurrence of a text, which must not be empty. -/
def beforeLast? (mark : List Char) : List Char → Option (List Char)
  | [] => none
  | c :: cs =>
    match beforeLast? mark cs with
    | some before => some (c :: before)
    | none => if mark.isPrefixOf (c :: cs) then some [] else none

/-- The code that an `EXEC` command runs: its arguments without the options in the comment at their
end. -/
def chunk (args : List Char) : List Char :=
  (beforeLast? " --\x7b".toList args).getD args

/-- The expression whose value a piece of code returns. -/
def expression (chunk : List Char) : List Char :=
  dropStart "return ".toList chunk

/-- Answers `EXEC`. -/
def evaluate (d : Debuggee) (args : List Char) : Debuggee :=
  let code := chunk args
  match d.script.evaluations.lookup (String.ofList (expression code)) with
  | some (.ok body) => d.reply .ok body
  | some (.error message) => d.reply .error message
  | none =>
    d.reply .error
      ("[string \"" ++ String.ofList code ++ "\"]:1: attempt to call a nil value")

/-- Goes to the next line. Lines are numbers of 32 bits. -/
def nextLine (l : Location) : Location :=
  { l with line := (l.line + 1) % UInt32.size }

/-- Answers a command with these arguments. -/
def obey (d : Debuggee) (args : List Char) : CommandName → Debuggee
  | .run =>
    match d.script.runPausesAt with
    | some location => (d.reply .ok "").pushPaused location
    | none => d.reply .ok ""
  | .step | .over | .out =>
    if d.script.stepsTerminate then { d.reply .ok "" with connected := false }
    else (d.reply .ok "").pushPaused (nextLine d.location)
  | .suspend => d.reply .paused d.location.text
  | .setBreakpoint =>
    match d.script.rejectsBreakpoints with
    | some message => d.reply .badRequest message
    | none => d.reply .ok ""
  | .exec => d.evaluate args
  | .stack => d.reply .ok d.script.stack
  | .deleteBreakpoint | .baseDir | .output => d.reply .ok ""
  | .done | .exit => { d.reply .ok "" with connected := false }

/-- The name and the arguments of a command line. -/
def splitLine (line : List Char) : List Char × List Char :=
  (line.takeWhile (· != ' '), (line.dropWhile (· != ' ')).drop 1)

/-- Takes a command line. -/
def take (d : Debuggee) (line : String) : Debuggee :=
  let cs := (line.toList.reverse.dropWhile (· == '\r')).reverse
  let d := d.record (.received (String.ofList cs))
  let (name, args) := splitLine cs
  match CommandName.ofToken? (String.ofList name) with
  | none => d.reply .badRequest "Bad Request"
  | some name => if d.script.silent.contains name then d else d.obey args name

end Debuggee
end MobDebug
