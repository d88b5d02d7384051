import MobDebug.Session.Core
/-!
The commands of the console: one line each, a word and what follows it.
-/
namespace MobDebug.Console
open Session (StepKind OutputMode)

inductive Command where
  | run
  | step (kind : StepKind)
  | pause
  | setBreakpoint (file : String) (line : Nat)
  | clearBreakpoint (file : String) (line : Nat)
  | eval (expression : String)
  | frame (n : Nat)
  | stack
  | output (mode : OutputMode)
  | state
  | detach
  | exit
  | help
  deriving DecidableEq

/-- Why a line is no command. -/
inductive Misuse where
  | unknownCommand (word : String)
  | fileAndLine
  | noExpression
  | frameNumber (text : String)
  | outputMode
  deriving DecidableEq

def Misuse.message : Misuse → String
  | .unknownCommand word => "unknown command " ++ Text.quote word ++ "; try \x60help\x60"
  | .fileAndLine => "expected <file> <line>"
  | .noExpression => "usage: eval <expr>"
  | .frameNumber text => "invalid frame number " ++ Text.quote text
  | .outputMode => "usage: output <c|r|d>"

/-- A file and a line; the line is the last word, so the file may hold blanks. -/
def fileAndLine (cs : List Char) : Except Misuse (String × Nat) :=
  match Text.splitLast cs with
  | none => .error .fileAndLine
  | some (file, line) =>
    let file := Text.trim file
    match Text.readNat? UInt32.size line with
    | none => .error .fileAndLine
    | some line => if file.isEmpty then .error .fileAndLine else .ok (String.ofList file, line)

/-- The meaning of a word and the text after it. -/
def ofWord (word : String) (rest : List Char) : Except Misuse Command :=
  match word with
  | "run" | "r" => .ok .run
  | "step" | "s" => .ok (.step .into)
  | "over" | "n" => .ok (.step .over)
  | "out" => .ok (.step .out)
  | "pause" => .ok .pause
  | "break" | "b" => (fileAndLine rest).map fun (file, line) => .setBreakpoint file line
  | "clear" => (fileAndLine rest).map fun (file, line) => .clearBreakpoint file line
  | "eval" | "e" | "p" =>
    if rest.isEmpty then .error .noExpression else .ok (.eval (String.ofList rest))
  | "frame" | "f" =>
    match Text.readNat? UInt64.size rest with
    | some n => .ok (.frame n)
    | none => .error (.frameNumber (String.ofList rest))
  | "stack" | "bt" => .ok .stack
  | "output" =>
    match String.ofList rest with
    | "c" | "copy" => .ok (.output .copy)
    | "r" | "redirect" => .ok (.output .redirect)
    | "d" | "default" => .ok (.output .default)
    | _ => .error .outputMode
  | "state" => .ok .state
  | "detach" => .ok .detach
  | "exit" | "quit" | "q" => .ok .exit
  | "help" | "?" => .ok .help
  | _ => .error (.unknownCommand word)

/-- Reads a line. -/
def Command.read (line : String) : Except Misuse Command :=
  let trimmed := Text.trim line.toList
  match Text.splitFirst trimmed with
  | none => ofWord (String.ofList trimmed) []
  | some (word, rest) => ofWord (String.ofList word) (Text.trim rest)

def Command.endsSession : Command → Bool
  | .detach => true
  | .exit => true
  | _ => false

end MobDebug.Console
