import MobDebug.LogFilter.Directive
/-!
Log filters: directives, of which the most specific one that applies decides. The filter in force
comes from the configured level and from the environment, which overrides it.
-/
namespace MobDebug

/-- The directives about targets, and those about spans; each list has the most specific first. -/
structure LogFilter where
  statics : List LogFilter.Directive := []
  dynamics : List LogFilter.Directive := []
  deriving DecidableEq

namespace LogFilter

/-- Puts a directive before those that are less specific, in the place of one that is about the
same. -/
def insert (d : Directive) : List Directive → List Directive
  | [] => [d]
  | other :: rest =>
    match d.order other with
    | .gt => d :: other :: rest
    | .eq => d :: rest
    | .lt => other :: insert d rest

/-- Directives in order, a later one in the place of an earlier one about the same. -/
def collect (ds : List Directive) : List Directive :=
  ds.foldl (fun ds d => insert d ds) []

def ofDirectives (ds : List Directive) : LogFilter :=
  let dynamics := ds.filter (·.isDynamic)
  let statics := ds.filter (!·.isDynamic)
  ⟨collect (statics ++ dynamics.filterMap (·.toStatic?)), collect dynamics⟩

/-- The pieces of a text between its commas. -/
def pieces (text : String) : List (List Char) :=
  (text.toList.splitOn ',').filter (!·.isEmpty)

/-- The directives of a text, every piece of which has to be one. -/
def directives (text : String) : Except Directive.Fault (List Directive) :=
  (pieces text).mapM Directive.read

/-- The filter of a text. No directive at all means the level of errors. -/
def read (text : String) : Except Directive.Fault LogFilter :=
  (directives text).map fun ds => ofDirectives (if ds.isEmpty then [{ level := .error }] else ds)

def text (f : LogFilter) : String :=
  ",".intercalate ((f.statics ++ f.dynamics).map (·.text))

/-- Logs all that is at least informative. -/
def info : LogFilter :=
  ofDirectives [{ level := .info }]

/-- A configured level as directives. None at all means the informative level, and some levels have
a second name. -/
def normalise (level : String) : String :=
  let trimmed := Text.trim level.toList
  let lower := String.ofList (trimmed.map Char.toLower)
  if trimmed.isEmpty then "info"
  else if lower = "warning" then "warn"
  else if lower = "none" then "off"
  else if Level.all.any (·.name == lower) then lower
  else String.ofList trimmed

/-- A filter, or another one where it is malformed. -/
def orElse (f : Except Directive.Fault LogFilter)
    (other : Except Directive.Fault LogFilter) : Except Directive.Fault LogFilter :=
  match f with
  | .error .malformed => other
  | f => f

/-- The filter of a configured level alone. -/
def ofLevel (level : String) : Except Directive.Fault LogFilter :=
  orElse (read (normalise level)) (.ok info)

/-- The filter in force: the configured level with the directives of the environment on top. What
is malformed on one side does not keep the other from its effect. -/
def effective (level : String) (environment : Option String) :
    Except Directive.Fault LogFilter :=
  match (environment.map fun e => Text.trim e.toList).filter (!·.isEmpty) with
  | none => ofLevel level
  | some trimmed =>
    let own := String.ofList trimmed
    orElse (read (normalise level ++ "," ++ own)) (orElse (read own) (ofLevel level))

end LogFilter
end MobDebug
