import MobDebug.LogFilter.Value
/-!
The directives of a log filter. One directive says down to which level a target, or a span in it, is
logged; one that names neither is about everything.
-/
namespace MobDebug.LogFilter

inductive Level where
  | off
  | error
  | warn
  | info
  | debug
  | trace
  deriving DecidableEq

def Level.name : Level → String
  | .off => "off"
  | .error => "error"
  | .warn => "warn"
  | .info => "info"
  | .debug => "debug"
  | .trace => "trace"

/-- All levels, each at its number. -/
def Level.all : List Level :=
  [.off, .error, .warn, .info, .debug, .trace]

/-- A level by its number or by its name in either case. -/
def Level.read? (cs : List Char) : Option Level :=
  match Text.readNat? UInt64.size cs with
  | some n => all[n]?
  | none => all.find? fun level => level.name.toList == cs.map Char.toLower

/-- A field of a span, and the value that it has to have. -/
structure Field where
  name : String
  value : Option Value
  deriving DecidableEq

def Field.text (f : Field) : String :=
  match f.value with
  | none => f.name
  | some v => f.name ++ "=" ++ v.text

/-- Reads a field. Behind a second equals sign nothing counts. -/
def Field.read? (cs : List Char) : Option Field :=
  let isOther := (· != '=')
  let name := String.ofList (cs.takeWhile isOther)
  match cs.dropWhile isOther with
  | [] => some ⟨name, none⟩
  | _ :: value => (Value.read? (value.takeWhile isOther)).map fun v => ⟨name, some v⟩

/-- Fields with a value come behind those without; then names decide, and then values. -/
def Field.order (a b : Field) : Ordering :=
  match a.value, b.value with
  | none, none => compare a.name b.name
  | none, some _ => .lt
  | some _, none => .gt
  | some v, some w => (compare a.name b.name).then (v.order w)

structure Directive where
  target : Option String := none
  span : Option String := none
  fields : List Field := []
  level : Level := .trace
  deriving DecidableEq

namespace Directive

/-- Speaks of a span or of its fields. -/
def isDynamic (d : Directive) : Bool :=
  d.span.isSome || !d.fields.isEmpty

/-- The part of a directive that needs no span at hand, if there is one. -/
def toStatic? (d : Directive) : Option Directive :=
  if d.span.isNone && d.fields.all (·.value.isNone) then some d else none

def text (d : Directive) : String :=
  let fields :=
    if d.fields.isEmpty then ""
    else "\x7b" ++ ",".intercalate (d.fields.map (·.text)) ++ "\x7d"
  let place :=
    d.target.getD "" ++ if d.isDynamic then "[" ++ d.span.getD "" ++ fields ++ "]" else ""
  if d.target.isNone && !d.isDynamic then d.level.name else place ++ "=" ++ d.level.name

/-- How specific a directive is: by the length of its target, by its having a span, and by the
number of its fields. All else only makes the order total. -/
def order (a b : Directive) : Ordering :=
  let length (d : Directive) : Option Nat := d.target.map String.utf8ByteSize
  ((compare (length a) (length b)).then <|
    (compare a.span.isSome b.span.isSome).then <|
    (compare a.fields.length b.fields.length).then <|
    (compare a.target b.target).then <|
    (compare a.span b.span).then <|
    List.compareLex Field.order a.fields b.fields)

/-- Why a text is no directive: it has not the form of one, or a part of it would begin or end
within a character. -/
inductive Fault where
  | malformed
  | torn
  deriving DecidableEq

/-- Where in a directive its reader is, and where the part that it reads begins. -/
inductive Place where
  | start
  | name (first : Nat)
  | span (first : Nat)
  | field (first : Nat)
  | afterFields
  | afterSpan
  | level (first : Nat)

/-- The first `n` bytes of a text, and the rest. -/
def splitAtByte : Nat → List Char → Except Fault (List Char × List Char)
  | 0, cs => .ok ([], cs)
  | _, [] => .error .torn
  | n, c :: cs =>
    if c.utf8Size ≤ n then
      (splitAtByte (n - c.utf8Size) cs).map fun (before, after) => (c :: before, after)
    else .error .torn

/-- The text from a byte on. -/
def fromByte (text : List Char) (first : Nat) : Except Fault (List Char) :=
  (splitAtByte first text).map (·.2)

/-- The text from a byte on and before another. -/
def betweenBytes (text : List Char) (first last : Nat) : Except Fault (List Char) := do
  let rest ← fromByte text first
  let (part, _) ← splitAtByte (last - first) rest
  return part

/-- A level that may be left out, for all of them. -/
def levelOrAll? (cs : List Char) : Option Level :=
  if cs.isEmpty then some .trace else Level.read? cs

/-- A thing that has been read, or the fault that it is none. -/
def required {α : Type} : Option α → Except Fault α
  | some a => .ok a
  | none => .error .malformed

/-- Reads the character at a byte. -/
def step (piece : List Char) (i : Nat) (c : Char) (d : Directive) :
    Place → Except Fault (Directive × Place)
  | .start =>
    if c = '[' then .ok (d, .span (i + 1))
    else if c = '-' ∨ c = ':' ∨ c = '_' ∨ Text.isAlphanumeric c then .ok (d, .name i)
    else .error .malformed
  | .name first =>
    if c = '=' ∨ c = '[' then do
      let target ← betweenBytes piece first i
      let named := { d with target := some (String.ofList target) }
      return (named, if c = '=' then .level (i + 1) else .span (i + 1))
    else .ok (d, .name first)
  | .span first =>
    if c = ']' then do
      let span ← betweenBytes piece first i
      return ({ d with span := some (String.ofList span) }, .afterSpan)
    else if c = '\x7b' then do
      let span ← betweenBytes piece first i
      let named := if span.isEmpty then none else some (String.ofList span)
      return ({ d with span := named }, .field (i + 1))
    else .ok (d, .span first)
  | .field first =>
    if c = '\x7d' then do
      let part ← betweenBytes piece first i
      let field ← if part.isEmpty then .error .malformed else required (Field.read? part)
      return ({ d with fields := d.fields ++ [field] }, .afterFields)
    else .ok (d, .field first)
  | .afterFields => if c = ']' then .ok (d, .afterSpan) else .error .malformed
  | .afterSpan => if c = '=' then .ok (d, .level (i + 1)) else .error .malformed
  | .level first => .ok (d, .level first)

/-- What a piece means when it ends at a place. A word alone is a level if there is one of that
name, and else a target. -/
def finish (piece : List Char) (d : Directive) : Place → Except Fault Directive
  | .name first => do
    let word ← fromByte piece first
    match levelOrAll? word with
    | some level => return { d with level }
    | none => return { d with target := some (String.ofList word) }
  | .level first => do
    let word ← fromByte piece first
    let level ← required (levelOrAll? word)
    return { d with level }
  | .afterSpan => .ok d
  | _ => .error .malformed

/-- Reads on from a place. -/
def readFrom (piece : List Char) (i : Nat) (d : Directive) (place : Place) :
    List Char → Except Fault Directive
  | [] => finish piece d place
  | c :: rest => do
    let (d, place) ← step piece i c d place
    readFrom piece (i + c.utf8Size) d place rest

/-- Reads one piece of a filter. Bytes count from its first character that is not blank, while its
parts are cut from the piece with its blanks. -/
def read (piece : List Char) : Except Fault Directive :=
  readFrom piece 0 {} .start (Text.trim piece)

end Directive
end MobDebug.LogFilter
