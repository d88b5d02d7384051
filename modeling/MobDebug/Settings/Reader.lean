import MobDebug.Double.Shortest
import MobDebug.Settings.Basic
import MobDebug.Text.Quoted
import MobDebug.Toml.Reader
/-!
Settings from a TOML document. Each group of settings is a table; what it leaves out keeps its
value, and what it does not know is refused.
-/
namespace MobDebug.Settings
open Toml (Node Table)

/-- Why a node does not fit: it is of another type than the one expected, it is an integer beyond
the expected range, or it has a name that is not among the known ones. -/
inductive Mismatch where
  | wrongType (found expected : String)
  | outOfRange (i : Int) (expected : String)
  | unknownField (name : String) (known : List String)
  deriving DecidableEq

/-- Names as a message lists them. -/
def listed (names : List String) : String :=
  match names with
  | [a, b] => "\x60" ++ a ++ "\x60 or \x60" ++ b ++ "\x60"
  | names => "one of " ++ ", ".intercalate (names.map fun n => "\x60" ++ n ++ "\x60")

def Mismatch.message : Mismatch → String
  | .wrongType found expected => "invalid type: " ++ found ++ ", expected " ++ expected
  | .outOfRange i expected =>
    "invalid value: integer \x60" ++ toString i ++ "\x60, expected " ++ expected
  | .unknownField name known =>
    "unknown field \x60" ++ name ++ "\x60, expected " ++ listed known

/-- A mismatch and the byte at which it stands. -/
structure Misfit where
  cause : Mismatch
  start : Nat
  deriving DecidableEq

/-- Floats in messages are always positional; a tie between two shortest texts goes up. -/
def floatFormat : Double.Format :=
  ⟨-400, 400, false, .up⟩

def describeFloat : Double → String
  | .nan => "NaN"
  | .infinite negative => if negative then "-inf" else "inf"
  | .finite f => f.render floatFormat

/-- A node as a message about its type names it. A date is a table underneath. -/
def describe : Node → String
  | .string _ s => "string " ++ Text.quote s
  | .integer _ i => "integer \x60" ++ toString i ++ "\x60"
  | .float _ x => "floating point \x60" ++ describeFloat x ++ "\x60"
  | .boolean _ b => "boolean \x60" ++ toString b ++ "\x60"
  | .datetime _ => "map"
  | .array _ _ => "sequence"
  | .record _ => "map"
  | .table _ => "map"
  | .tables _ => "sequence"

/-- Takes a value out of a node. A node that stands nowhere itself is placed at the key before
it. -/
abbrev Reading (α : Type) := (place : Nat) → Node → Except Misfit α

def wrongType (expected : String) (place : Nat) (n : Node) : Misfit :=
  ⟨.wrongType (describe n) expected, n.start?.getD place⟩

/-- An unsigned number below a bound. -/
def natural (expected : String) (bound : Nat) : Reading Nat
  | place, n =>
    match n with
    | .integer start i =>
      if 0 ≤ i ∧ i < bound then .ok i.toNat else .error ⟨.outOfRange i expected, start⟩
    | n => .error (wrongType expected place n)

def text (expected : String) : Reading String
  | place, n =>
    match n with
    | .string _ s => .ok s
    | n => .error (wrongType expected place n)

def boolean : Reading Bool
  | place, n =>
    match n with
    | .boolean _ b => .ok b
    | n => .error (wrongType "a boolean" place n)

/-- A setting of a group `σ`: its name, and the group with its value replaced. -/
structure Field (σ : Type) where
  name : String
  set : σ → Reading σ

/-- A field whose value is read and then put into the group. -/
def Field.of {α σ : Type} (name : String) (reading : Reading α) (put : σ → α → σ) : Field σ :=
  ⟨name, fun s place n => (reading place n).map (put s)⟩

/-- Sets the settings that a table names, in the order in which it does. -/
def readTable {σ : Type} (fields : List (Field σ)) (s : σ) (t : Table) : Except Misfit σ :=
  t.entries.foldlM
    (fun s (k, n) =>
      match fields.find? (·.name == k.name) with
      | some field => field.set s k.start n
      | none => .error ⟨.unknownField k.name (fields.map (·.name)), k.start⟩) s

/-- Sets settings by position. What is too much is ignored. -/
def readSequence {σ : Type} (fields : List (Field σ)) (s : σ) (place : Nat) (nodes : List Node) :
    Except Misfit σ :=
  (fields.zip nodes).foldlM (fun s (field, n) => field.set s place n) s

/-- The name of the one entry that a date has as a table. -/
def datetimeField : String := "$__toml_private_datetime"

/-- A group of settings, by name or by position. -/
def group {σ : Type} (expected : String) (fields : List (Field σ)) (s : σ) : Reading σ
  | place, n =>
    match n with
    | .table t => readTable fields s t
    | .record t => readTable fields s t
    | .array start nodes => readSequence fields s start nodes
    | .tables elements => readSequence fields s place (elements.map .table)
    | .datetime start => .error ⟨.unknownField datetimeField (fields.map (·.name)), start⟩
    | n => .error (wrongType expected place n)

def debuggerFields : List (Field DebuggerSettings) :=
  [.of "host" (text "a string") fun s host => { s with host },
    .of "port" (natural "u16" UInt16.size) fun s port => { s with port },
    .of "connect_timeout_ms" (natural "u64" UInt64.size)
      fun s ms => { s with connectTimeout := ms },
    .of "reply_timeout_ms" (natural "u64" UInt64.size) fun s ms => { s with replyTimeout := ms },
    .of "max_depth" (natural "usize" UInt64.size) fun s maxDepth => { s with maxDepth },
    .of "max_body_bytes" (natural "usize" UInt64.size) fun s limit => { s with bodyLimit := limit },
    .of "basedir" (text "a string") fun s dir => { s with baseDir := some dir }]

def loggingFields : List (Field LoggingSettings) :=
  [.of "level" (text "a string") fun s level => { s with level },
    .of "json" boolean fun s json => { s with json },
    .of "stderr" boolean fun s stderr => { s with stderr },
    .of "file" (text "path string") fun s file => { s with file := some file }]

def fields : List (Field Settings) :=
  [⟨"debugger", fun s place n =>
      (group "struct DebuggerConfig" debuggerFields s.debugger place n).map
        fun debugger => { s with debugger }⟩,
    ⟨"logging", fun s place n =>
      (group "struct LoggingConfig" loggingFields s.logging place n).map
        fun logging => { s with logging }⟩]

/-- The settings that the table of a whole document makes. -/
def ofTable (t : Table) : Except Misfit Settings :=
  readTable fields {} t

end MobDebug.Settings
