import MobDebug.CommandLine
/-!
The program. It reads the arguments and the settings, attaches, and then is a console.
-/
namespace MobDebug

/-- Why a file could not be read. -/
def faultOfRead : IO.Error → Settings.FileFault
  | .noFileOrDirectory _ _ _ => .notFound
  | .inappropriateType _ _ _ => .isDirectory
  | e => .other (toString e)

/-- A file with its contents. -/
def loadFile (path : String) : IO Settings.File := do
  try
    let content ← IO.FS.readBinFile path
    return ⟨path, .ok content.toList⟩
  catch e =>
    return ⟨path, .error (faultOfRead e)⟩

/-- The settings from the file that was asked for, or else from the one in the environment. -/
def loadSettings (explicit : Option String) : IO (Except Settings.Fault Settings) := do
  let explicit ← explicit.mapM loadFile
  let environment ← (← IO.getEnv Settings.environmentVariable).mapM loadFile
  return Settings.resolve explicit environment

/-- Runs the console on what is typed, until it ends. -/
partial def converse (input : IO.FS.Stream) (r : Machine.Running Debugger Debugger.Task)
    (printed : Nat) : IO Unit := do
  let line ← input.getLine
  let s := r.state.onConsole fun l =>
    if line.isEmpty then { l with closed := true }
    else { l with typed := l.typed ++ Text.bytes line }
  let r := Debugger.machine.settle (Debugger.machine.act r s)
  IO.print (String.ofList (r.state.out.toList.drop printed))
  let ended := r.state.jobs.any fun (_, job) => job matches .console { ended := true, .. }
  if !ended && !line.isEmpty then converse input r r.state.out.length

end MobDebug

open MobDebug in
/-- Runs the debugger and tells by the exit code whether it attached. -/
def main (arguments : List String) : IO UInt32 := do
  match CommandLine.read arguments with
  | .error misuse =>
    IO.eprint misuse.text
    return 2
  | .ok c =>
    let beginning := c.begin (← loadSettings c.options.settings)
    IO.eprint beginning.text
    match beginning.outcome with
    | .error text =>
      IO.eprint text
      return 1
    | .ok r =>
      let s := r.state.begin 1 (.printer c.options.json 0 none)
      let s := s.begin 2 (.console { json := c.options.json })
      let r := Debugger.machine.act r s
      converse (← IO.getStdin) r 0
      return 0
