import MobDebug.Text.Alphanumeric
import MobDebug.Text.Blank
import MobDebug.Text.Digits
/-!
Patterns for the values of fields: regular expressions, of which a filter has to know whether they
are well formed. A pattern stands between braces, so none in it is ever closed. Characters are
compared by their number alone: what would need the case, the class or the word of a character
beyond ASCII is no pattern.
-/
namespace MobDebug.LogFilter.Pattern

/-- What a pattern switches within itself: whether letters stand for either case, whether it speaks
of characters and not of bytes, and whether blanks and comments in it count for nothing. -/
structure Switches where
  caseless : Bool := false
  unicode : Bool := true
  spaced : Bool := false
  deriving DecidableEq

/-- A part of a sequence: a change of switches, or an expression with the depth of its nesting. -/
inductive Part where
  | switch
  | expression (depth : Nat)
  deriving DecidableEq

def Part.depth : Part → Nat
  | .switch => 0
  | .expression depth => depth

/-- The depth of parts that stand side by side; a single one needs no level of its own. -/
def depthBeside : List Nat → Nat
  | [] => 0
  | [d] => d
  | ds => ds.foldl max 0 + 1

/-- The alternatives on one level of groups: the depths of those that are complete, and the parts of
the one that is read, last first. -/
structure Alternatives where
  complete : List Nat := []
  parts : List Part := []
  deriving DecidableEq

def Alternatives.depth (a : Alternatives) : Nat :=
  depthBeside (depthBeside (a.parts.map (·.depth)) :: a.complete)

/-- A group that is open: the level around it, and the switches that hold there. -/
structure Group where
  outer : Alternatives
  switches : Switches
  deriving DecidableEq

/-- A bracket that is open: the depth of what stands before its last operator, those of the members
behind it, and whether nothing but dashes has been read. -/
structure Bracket where
  left : Option Nat := none
  members : List Nat := []
  fresh : Bool := true
  deriving DecidableEq

def Bracket.depth (b : Bracket) : Nat :=
  match b.left with
  | none => depthBeside b.members
  | some left => max left (depthBeside b.members) + 1

/-- What has been read of a pattern; what is open has the innermost first. -/
structure Reading where
  switches : Switches := {}
  names : List (List Char) := []
  level : Alternatives := {}
  groups : List Group := []
  brackets : List Bracket := []
  deriving DecidableEq

/-- The rest behind blanks and comments, of which one may have begun. -/
def dropSpace (inComment : Bool) : List Char → List Char
  | [] => []
  | c :: r =>
    if inComment then dropSpace (c != '\n') r
    else if Text.isBlank c then dropSpace false r
    else if c = '#' then dropSpace true r
    else c :: r

/-- The rest behind what the switches say counts for nothing. -/
def Switches.skip (w : Switches) (r : List Char) : List Char :=
  if w.spaced then dropSpace false r else r

/-- What an escape, or a character by itself, stands for: a character, which may be written as the
number of a byte; a class of ASCII characters or its complement; an edge of the text, or of a word
in it. -/
inductive Atom where
  | character (c : Char) (byte : Bool)
  | asciiClass (complement : Bool)
  | edge (word : Bool)
  deriving DecidableEq

/-- A character by a count of hexadecimal digits. -/
def readCode? (w : Switches) : Nat → Nat → List Char → Option (Char × List Char)
  | 0, code, r => if code.isValidChar then some (Char.ofNat code, w.skip r) else none
  | count + 1, code, r =>
    match w.skip r with
    | [] => none
    | c :: r => (Text.hexValue? c).bind fun d => readCode? w count (code * 16 + d) r

/-- The character of a one-letter escape. -/
def namedCharacter? (c : Char) : Option Char :=
  if c = 'a' then some '\x07'
  else if c = 'f' then some '\x0c'
  else if c = 'n' then some '\n'
  else if c = 'r' then some '\r'
  else if c = 't' then some '\t'
  else if c = 'v' then some '\x0b'
  else none

/-- Reads an escape from behind its backslash. -/
def readEscape? (w : Switches) : List Char → Option (Atom × List Char)
  | [] => none
  | c :: r =>
    let code (count : Nat) : Option (Atom × List Char) :=
      (readCode? w count 0 r).map fun (character, r) => (.character character (count = 2), r)
    if c = 'x' then code 2
    else if c = 'u' then code 4
    else if c = 'U' then code 8
    else if c = 'd' ∨ c = 's' ∨ c = 'w' then some (.asciiClass false, r)
    else if c = 'D' ∨ c = 'S' ∨ c = 'W' then some (.asciiClass true, r)
    else if c = 'A' ∨ c = 'z' then some (.edge false, r)
    else if c = 'b' ∨ c = 'B' ∨ c = '<' ∨ c = '>' then some (.edge true, r)
    else if c.toNat < 0x80 ∧ !c.isAlphanum then some (.character c false, r)
    else (namedCharacter? c).map fun character => (.character character false, r)

/-- Reads an atom that begins with `c`. -/
def readAtom? (w : Switches) (c : Char) (r : List Char) : Option (Atom × List Char) :=
  if c = '\\' then readEscape? w r else some (.character c false, r)

/-- Whether an atom may stand by itself. Either case of a character is known in ASCII only, and a
byte beyond ASCII is no text. -/
def Atom.allowed (w : Switches) : Atom → Bool
  | .character c byte => if w.unicode then !w.caseless else !byte || c.toNat < 0x80
  | .asciiClass complement => !w.unicode && !complement
  | .edge word => !(word && w.unicode)

/-- Whether an atom may stand between brackets, where bytes have no room for other characters. -/
def Atom.allowedInBracket (w : Switches) : Atom → Bool
  | .character c _ => if w.unicode then !w.caseless else c.toNat < 0x80
  | .asciiClass complement => !w.unicode && !complement
  | .edge _ => false

namespace Reading
variable (s : Reading)

/-- One more part of the sequence. -/
def push (p : Part) : Reading :=
  { s with level := { s.level with parts := p :: s.level.parts } }

/-- The next alternative. -/
def nextAlternative : Reading :=
  { s with level := ⟨depthBeside (s.level.parts.map (·.depth)) :: s.level.complete, []⟩ }

/-- The last part repeated, if it is an expression. -/
def repeated? : Option Reading :=
  match s.level.parts with
  | .expression depth :: parts =>
    some { s with level := { s.level with parts := .expression (depth + 1) :: parts } }
  | _ => none

/-- Opens a group in which other switches hold. -/
def openGroup (switches : Switches) : Reading :=
  { s with groups := ⟨s.level, s.switches⟩ :: s.groups, level := {}, switches }

/-- Closes the innermost group, if one is open. -/
def closeGroup? : Option Reading :=
  match s.groups with
  | [] => none
  | g :: groups =>
    some ({ s with groups, level := g.outer, switches := g.switches }.push
      (.expression (s.level.depth + 1)))

/-- Opens a group with a name, read from the name on; no two groups share one. -/
def openNamed? (r : List Char) : Option (Reading × List Char) :=
  let name := r.takeWhile (· != '>')
  let continues (c : Char) : Bool :=
    c = '_' || c = '.' || c = '[' || c = ']' || Text.isAlphanumeric c
  let starts (c : Char) : Bool := c = '_' || Text.isAlphabetic c
  match r.dropWhile (· != '>') with
  | [] => none
  | _ :: rest =>
    if name.head?.any starts && (name.drop 1).all continues && !s.names.contains name then
      some ({ s with names := name :: s.names }.openGroup s.switches, rest)
    else none

end Reading

/-- The switches with one of them set by its letter; some letters switch what does not matter
here. -/
def Switches.set (w : Switches) (letter : Char) (value : Bool) : Switches :=
  if letter = 'i' then { w with caseless := value }
  else if letter = 'u' then { w with unicode := value }
  else if letter = 'x' then { w with spaced := value }
  else w

/-- The letters of the switches. -/
def switchLetters : List Char :=
  ['i', 'm', 's', 'U', 'u', 'R', 'x']

/-- Reads letters of switches up to a colon or the end of the group, each at most once; those behind
a dash are switched off. The letters are given back last first, with the character that ended
them. -/
def readSwitches? (w : Switches) (letters : List Char) :
    List Char → Option (Switches × List Char × Char × List Char)
  | [] => none
  | c :: r =>
    if c = ':' ∨ c = ')' then
      if letters.head? = some '-' then none else some (w, letters, c, r)
    else if letters.contains c then none
    else if c = '-' then readSwitches? w ('-' :: letters) r
    else if switchLetters.contains c then
      readSwitches? (w.set c !letters.contains '-') (c :: letters) r
    else none

namespace Reading
variable (s : Reading)

/-- Reads what opens a group, or changes the switches up to the end of the one around it. -/
def readGroup? (r : List Char) : Option (Reading × List Char) :=
  match s.switches.skip r with
  | '?' :: 'P' :: '<' :: r => s.openNamed? r
  | '?' :: '<' :: r => s.openNamed? r
  | '?' :: r =>
    match readSwitches? s.switches [] r with
    | none => none
    | some (switches, letters, last, r) =>
      if last = ':' then some (s.openGroup switches, r)
      else if letters.isEmpty then none
      else some ({ s with switches }.push .switch, r)
  | r => some (s.openGroup s.switches, r)

/-- Changes the innermost bracket. -/
def onBracket (f : Bracket → Bracket) : Reading :=
  match s.brackets with
  | [] => s
  | b :: rest => { s with brackets := f b :: rest }

/-- One more member of the innermost bracket. -/
def addMember (depth : Nat) : Reading :=
  s.onBracket fun b => { b with members := depth :: b.members, fresh := false }

/-- Opens a bracket, read from behind it. The complement of bytes is no text. -/
def openBracket? (r : List Char) : Option (Reading × List Char) :=
  let opened := { s with brackets := {} :: s.brackets }
  match s.switches.skip r with
  | '^' :: r => if s.switches.unicode then some (opened, r) else none
  | r => some (opened, r)

/-- Closes the innermost bracket, which is a member of the one around it, or else an expression. -/
def closeBracket : Reading :=
  match s.brackets with
  | [] => s
  | b :: rest =>
    let s := { s with brackets := rest }
    if rest.isEmpty then s.push (.expression (b.depth + 1)) else s.addMember (b.depth + 1)

/-- An operator between the members before it and those behind it. -/
def operator : Reading :=
  s.onBracket fun b => { left := some b.depth, fresh := false }

end Reading

/-- The names of classes of ASCII characters. -/
def classNames : List String :=
  ["alnum", "alpha", "ascii", "blank", "cntrl", "digit", "graph", "lower", "print", "punct",
    "space", "upper", "word", "xdigit"]

/-- A named class, read from behind its bracket: whether it is a complement, and the rest. -/
def readNamedClass? : List Char → Option (Bool × List Char)
  | ':' :: r =>
    let (complement, r) := match r with
      | '^' :: r => (true, r)
      | r => (false, r)
    match r.dropWhile (· != ':') with
    | ':' :: ']' :: rest =>
      if classNames.contains (String.ofList (r.takeWhile (· != ':'))) then some (complement, rest)
      else none
    | _ => none
  | _ => none

namespace Reading
variable (s : Reading)

/-- A single member that has been read. -/
def addAtom? (a : Atom) (r : List Char) : Option (Reading × List Char) :=
  if a.allowedInBracket s.switches then some (s.addMember 0, r) else none

/-- Reads the end of a range from behind its dash. -/
def readRangeEnd? (first : Char) (r : List Char) : Option (Reading × List Char) :=
  match s.switches.skip r with
  | [] => none
  | c :: r =>
    match readAtom? s.switches c r with
    | some (.character last byte, r) =>
      if first ≤ last ∧ Atom.allowedInBracket s.switches (.character first false) then
        s.addAtom? (.character last byte) r
      else none
    | _ => none

/-- Reads an atom between brackets, or a range that begins with one. A dash before the end of the
bracket or before another dash is no range. -/
def readMember? (c : Char) (r : List Char) : Option (Reading × List Char) :=
  (readAtom? s.switches c r).bind fun (atom, r) =>
    match s.switches.skip r with
    | '-' :: rest =>
      let next := (s.switches.skip rest).head?
      if next = some ']' ∨ next = some '-' then s.addAtom? atom ('-' :: rest)
      else
        match atom with
        | .character first _ => s.readRangeEnd? first rest
        | _ => none
    | r => s.addAtom? atom r

/-- Reads on between brackets. What is a dash or a closing bracket at their start stands for
itself. -/
def readInBracket? (b : Bracket) (c : Char) (r : List Char) : Option (Reading × List Char) :=
  let self : Atom := .character c false
  if b.fresh && c = '-' then
    (s.addAtom? self r).map fun (s, r) => (s.onBracket fun b => { b with fresh := true }, r)
  else if b.fresh && b.members.isEmpty && c = ']' then s.addAtom? self r
  else if c = ']' then some (s.closeBracket, r)
  else if c = '[' then
    match readNamedClass? r with
    | some (complement, r) =>
      if if s.switches.unicode then !s.switches.caseless else !complement then
        some (s.addMember 0, r)
      else none
    | none => (s.onBracket fun b => { b with fresh := false }).openBracket? r
  else if (c = '&' ∨ c = '-' ∨ c = '~') ∧ r.head? = some c then some (s.operator, r.drop 1)
  else s.readMember? c r

/-- Reads on outside of brackets. -/
def readInGroup? (c : Char) (r : List Char) : Option (Reading × List Char) :=
  if c = '(' then s.readGroup? r
  else if c = ')' then s.closeGroup?.map (·, r)
  else if c = '|' then some (s.nextAlternative, r)
  else if c = '[' then s.openBracket? r
  else if c = '?' ∨ c = '*' ∨ c = '+' then
    s.repeated?.map (·, if r.head? = some '?' then r.drop 1 else r)
  else if c = '\x7b' then none
  else if c = '.' then if s.switches.unicode then some (s.push (.expression 0), r) else none
  else if c = '^' ∨ c = '$' then some (s.push (.expression 0), r)
  else
    (readAtom? s.switches c r).bind fun (atom, r) =>
      if atom.allowed s.switches then some (s.push (.expression 0), r) else none

/-- Reads on with a character and what follows it. -/
def next? (c : Char) (r : List Char) : Option (Reading × List Char) :=
  if s.switches.spaced && (Text.isBlank c || c = '#') then some (s, dropSpace false (c :: r))
  else
    match s.brackets with
    | b :: _ => s.readInBracket? b c r
    | [] => s.readInGroup? c r

end Reading

/-- Reads a pattern to its end. The first `taken` characters have been read already. -/
def readFrom? (s : Reading) (taken : Nat) : List Char → Option Reading
  | [] => some s
  | c :: r =>
    match taken with
    | taken + 1 => readFrom? s taken r
    | 0 => (s.next? c r).bind fun (s, rest) => readFrom? s (r.length - rest.length) r

/-- How deep a pattern may nest. -/
def depthLimit : Nat := 250

/-- Whether a text is a pattern: all that it opens is closed, and it does not nest too deep. -/
def isPattern (text : List Char) : Bool :=
  match readFrom? {} 0 text with
  | some s => s.groups.isEmpty && s.brackets.isEmpty && decide (s.level.depth ≤ depthLimit)
  | none => false

end MobDebug.LogFilter.Pattern
