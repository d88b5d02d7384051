import MobDebug.Settings.Reader
/-!
Where settings come from: a file named on the command line, or else one named in the environment,
or else nowhere.
-/
namespace MobDebug.Settings

/-- Why the text of a file cannot be had. -/
inductive FileFault where
  | notFound
  | isDirectory
  | nameTooLong
  | notUtf8
  | other (description : String)
  deriving DecidableEq

def FileFault.message : FileFault → String
  | .notFound => "No such file or directory (os error 2)"
  | .isDirectory => "Is a directory (os error 21)"
  | .nameTooLong => "File name too long (os error 36)"
  | .notUtf8 => "stream did not contain valid UTF-8"
  | .other description => description

/-- Why there are no settings. -/
inductive Fault where
  | file (path : String) (cause : FileFault)
  | malformed
  | misfit (m : Misfit)
  | invalid (cause : Invalid)
  deriving DecidableEq

def Fault.message : Fault → String
  | .file path cause => "failed to read config file " ++ path ++ ": " ++ cause.message
  | .malformed => "failed to parse toml config: malformed document"
  | .misfit m =>
    "failed to parse toml config: " ++ m.cause.message ++ " (at byte " ++ toString m.start ++ ")"
  | .invalid cause => "invalid config: " ++ cause.message

/-- Settings that are of use. -/
def check (s : Settings) : Except Fault Settings :=
  match s.invalid? with
  | some cause => .error (.invalid cause)
  | none => .ok s

/-- Settings from the text of a document. -/
def read (text : String) : Except Fault Settings :=
  match Toml.read? text with
  | none => .error .malformed
  | some t => ((ofTable t).mapError .misfit).bind check

/-- A file, with what reading it gives. -/
structure File where
  path : String
  content : Except FileFault (List UInt8)

/-- The text of a file. -/
def File.text (f : File) : Except FileFault String :=
  f.content.bind fun bytes =>
    match Text.decode? bytes with
    | some text => .ok text
    | none => .error .notUtf8

def ofFile (f : File) : Except Fault Settings :=
  (f.text.mapError (.file f.path)).bind read

/-- The variable of the environment that names a file. -/
def environmentVariable : String := "LUNAR_CONFIG"

/-- Settings from the file that was asked for, or else from the one that the environment names; an
empty name names none. -/
def resolve (explicit environment : Option File) : Except Fault Settings :=
  match explicit, environment with
  | some f, _ => ofFile f
  | none, some f => if f.path.isEmpty then .ok {} else ofFile f
  | none, none => .ok {}

end MobDebug.Settings
