import MobDebug.Text.Utf8
import MobDebug.Toml.Scalar
/-!
Reading TOML. A document is a sequence of lines: keys with values, and headers that say into which
table the following keys go. Whether it is well-formed is all that is told of one that is not.
-/
namespace MobDebug.Toml

/-- Takes a thing off the front of a text, whose full length is given, or fails. -/
abbrev Reader (α : Type) := (s : List UInt8) → Option (α × List UInt8)

def ascii (c : Char) : UInt8 :=
  c.val.toUInt8

def isSpace (b : UInt8) : Bool :=
  b == 0x20 || b == 0x09

def skipSpace (s : List UInt8) : List UInt8 :=
  s.dropWhile isSpace

/-- May stand in a comment: a tab, and all but controls. -/
def isCommentByte (b : UInt8) : Bool :=
  b == 0x09 || (0x20 ≤ b && b != 0x7f)

/-- The rest behind a line end. -/
def lineEnd? : List UInt8 → Option (List UInt8)
  | 0x0a :: rest => some rest
  | 0x0d :: 0x0a :: rest => some rest
  | _ => none

/-- The rest behind a comment, if there is one. -/
def skipComment (s : List UInt8) : List UInt8 :=
  match s with
  | b :: rest => if b == ascii '#' then rest.dropWhile isCommentByte else s
  | [] => []

/-- The rest behind space, a comment and the end of the line or of the text. -/
def endLine? (s : List UInt8) : Option (List UInt8) :=
  match skipComment (skipSpace s) with
  | [] => some []
  | rest => lineEnd? rest

/-- The rest behind space, comments and line ends. -/
def skipLines : Nat → List UInt8 → List UInt8
  | 0, s => s
  | fuel + 1, s =>
    let rest := skipComment (skipSpace s)
    match lineEnd? rest with
    | some rest => skipLines fuel rest
    | none => rest

/-- The rest behind a given byte. -/
def byte? (b : UInt8) : List UInt8 → Option (List UInt8)
  | [] => none
  | c :: rest => if c = b then some rest else none

/-- Digits in base sixteen, as the character they number. -/
def codePoint? (count : Nat) (s : List UInt8) : Option (List UInt8 × List UInt8) :=
  let digits := (s.take count).map fun b => Text.hexValue? (Char.ofNat b.toNat)
  if digits.length = count ∧ digits.all Option.isSome then
    let code := digits.foldl (fun n d => n * 16 + d.getD 0) 0
    if code.isValidChar then some (String.utf8EncodeChar (Char.ofNat code), s.drop count) else none
  else none

/-- The bytes an escape stands for, read from behind its backslash. -/
def escape? (s : List UInt8) : Option (List UInt8 × List UInt8) :=
  match s with
  | [] => none
  | b :: rest =>
    if b = ascii 'b' then some ([0x08], rest)
    else if b = ascii 't' then some ([0x09], rest)
    else if b = ascii 'n' then some ([0x0a], rest)
    else if b = ascii 'f' then some ([0x0c], rest)
    else if b = ascii 'r' then some ([0x0d], rest)
    else if b = ascii '"' ∨ b = ascii '\\' then some ([b], rest)
    else if b = ascii 'u' then codePoint? 4 rest
    else if b = ascii 'U' then codePoint? 8 rest
    else none

/-- The bytes of a string on one line, from behind its opening quote. -/
def basicString? : Nat → Reader (List UInt8)
  | 0, _ => none
  | fuel + 1, s =>
    match s with
    | [] => none
    | b :: rest =>
      if b = ascii '"' then some ([], rest)
      else if b = ascii '\\' then do
        let (read, rest) ← escape? rest
        let (more, rest) ← basicString? fuel rest
        some (read ++ more, rest)
      else if isCommentByte b then do
        let (more, rest) ← basicString? fuel rest
        some (b :: more, rest)
      else none

/-- How many quotes in a row, up to five, a text starts with. -/
def quotesAt (quote : UInt8) (s : List UInt8) : Nat :=
  ((s.take 5).takeWhile (· == quote)).length

/-- The rest behind an escaped line end and the space and lines after it. -/
def continueLine? (s : List UInt8) : Option (List UInt8) :=
  (lineEnd? (skipSpace s)).map fun rest =>
    rest.dropWhile fun b => isSpace b || b == 0x0a || b == 0x0d

/-- The bytes of a string over several lines, from behind its opening quotes; escapes are read only
in one kind. Up to two quotes may stand before the closing ones. -/
def multiLine? (quote : UInt8) (escapes : Bool) : Nat → Reader (List UInt8)
  | 0, _ => none
  | fuel + 1, s =>
    let quotes := quotesAt quote s
    if 3 ≤ quotes then some (List.replicate (quotes - 3) quote, s.drop quotes)
    else
      match s with
      | [] => none
      | b :: rest =>
        if escapes && b == ascii '\\' then
          match continueLine? rest with
          | some rest => multiLine? quote escapes fuel rest
          | none => do
            let (read, rest) ← escape? rest
            let (more, rest) ← multiLine? quote escapes fuel rest
            some (read ++ more, rest)
        else
          match lineEnd? s with
          | some rest => do
            let (more, rest) ← multiLine? quote escapes fuel rest
            some (0x0a :: more, rest)
          | none =>
            if isCommentByte b then do
              let (more, rest) ← multiLine? quote escapes fuel rest
              some (b :: more, rest)
            else none

/-- A string without escapes on one line, from behind its opening quote. -/
def literalString? (s : List UInt8) : Option (List UInt8 × List UInt8) :=
  let content := s.takeWhile fun b => isCommentByte b && b != ascii '\''
  (byte? (ascii '\'') (s.drop content.length)).map fun rest => (content, rest)

/-- A string of any of the four kinds, with its quotes. -/
def string? (s : List UInt8) : Option (String × List UInt8) :=
  match s with
  | [] => none
  | quote :: rest =>
    let escapes := quote == ascii '"'
    let read :=
      if 3 ≤ quotesAt quote s then
        let body := s.drop 3
        multiLine? quote escapes (s.length + 1) ((lineEnd? body).getD body)
      else if escapes then basicString? (s.length + 1) rest
      else literalString? rest
    read.map fun (content, rest) => (Text.decodeLossy content, rest)

def isBareKeyByte (b : UInt8) : Bool :=
  (ascii 'a' ≤ b && b ≤ ascii 'z') || (ascii 'A' ≤ b && b ≤ ascii 'Z') ||
    (ascii '0' ≤ b && b ≤ ascii '9') || b == ascii '-' || b == ascii '_'

/-- A key without dots. `total` is the length of the whole document. -/
def simpleKey? (total : Nat) (s : List UInt8) : Option (Key × List UInt8) :=
  let start := total - s.length
  match s with
  | [] => none
  | b :: rest =>
    if b = ascii '"' then
      (basicString? (s.length + 1) rest).map fun (content, rest) =>
        (⟨Text.decodeLossy content, start⟩, rest)
    else if b = ascii '\'' then
      (literalString? rest).map fun (content, rest) => (⟨Text.decodeLossy content, start⟩, rest)
    else
      let content := s.takeWhile isBareKeyByte
      if content.isEmpty then none
      else some (⟨Text.decodeLossy content, start⟩, s.drop content.length)

/-- A nesting that is refused, of values as of keys. -/
def maxNesting : Nat := 80

/-- A key of parts with dots between them. -/
def key? (total : Nat) : Nat → Reader (List Key)
  | 0, _ => none
  | fuel + 1, s => do
    let (first, rest) ← simpleKey? total s
    match byte? (ascii '.') (skipSpace rest) with
    | some rest =>
      let (more, rest) ← key? total fuel (skipSpace rest)
      some (first :: more, rest)
    | none => some ([first], rest)

/-- A byte of a word that is a number, a boolean or a date. -/
def isWordByte (b : UInt8) : Bool :=
  isBareKeyByte b || b == ascii '+' || b == ascii '.' || b == ascii ':'

/-- A value that is a word. A blank may stand between a date and a time. -/
def word? (total : Nat) (s : List UInt8) : Option (Node × List UInt8) :=
  let text (bs : List UInt8) : List Char := bs.map fun b => Char.ofNat b.toNat
  let start := total - s.length
  let word := s.takeWhile isWordByte
  let rest := s.drop word.length
  let time := (rest.drop 1).takeWhile isWordByte
  if afterDate? (text word) == some [] && rest.head? == some 0x20 &&
      (time.head?.any fun b => ascii '0' ≤ b && b ≤ ascii '9') then
    if isZonedTime (text time) then some (.datetime start, rest.drop (time.length + 1)) else none
  else (scalar? start (text word)).map (·, rest)

/-- A key and its value, with the last part of the key apart. -/
def keyValue? (total : Nat) (value : Reader Node) (s : List UInt8) :
    Option ((List Key × Key × Node) × List UInt8) := do
  let (path, rest) ← key? total maxNesting s
  let last ← path.getLast?
  let rest ← byte? (ascii '=') (skipSpace rest)
  let (node, rest) ← value (skipSpace rest)
  some ((path.dropLast, last, node), rest)

/-- The elements of an array, from behind its bracket or a comma. -/
def elements? (value : Reader Node) : Nat → Reader (List Node)
  | 0, _ => none
  | fuel + 1, s =>
    let s := skipLines s.length s
    match byte? (ascii ']') s with
    | some rest => some ([], rest)
    | none => do
      let (first, rest) ← value s
      let rest := skipLines rest.length rest
      match byte? (ascii ',') rest with
      | some rest =>
        let (more, rest) ← elements? value fuel rest
        some (first :: more, rest)
      | none => (byte? (ascii ']') rest).map fun rest => ([first], rest)

/-- The keys of a record, from behind its brace or a comma, added to `t`. -/
def members? (total : Nat) (value : Reader Node) : Nat → Table → Reader Table
  | 0, _, _ => none
  | fuel + 1, t, s => do
    let ((path, k, node), rest) ← keyValue? total value (skipSpace s)
    let t ← t.addRecordAt path k node
    let rest := skipSpace rest
    match byte? (ascii ',') rest with
    | some rest => members? total value fuel t rest
    | none => (byte? (ascii '\x7d') rest).map fun rest => (t, rest)

/-- A value, in which arrays and records nest below a limit. -/
def value? (total : Nat) : Nat → Reader Node
  | depth, s =>
    let start := total - s.length
    match s with
    | [] => none
    | b :: rest =>
      if b = ascii '"' ∨ b = ascii '\'' then
        (string? s).map fun (text, rest) => (.string start text, rest)
      else if b = ascii '[' then
        match depth with
        | 0 => none
        | depth + 1 =>
          (elements? (fun s => value? total depth s) (rest.length + 1) rest).map
            fun (elements, rest) => (.array start elements, rest)
      else if b = ascii '\x7b' then
        match depth with
        | 0 => none
        | depth + 1 =>
          let empty : Table := { start := some start }
          match byte? (ascii '\x7d') (skipSpace rest) with
          | some rest => some (.record empty, rest)
          | none =>
            (members? total (fun s => value? total depth s) (rest.length + 1) empty rest).map
              fun (t, rest) => (.record t, rest)
      else word? total s

/-- A document being read: the tables that are complete, and the one that keys go into, with its
path and whether it is one of several. -/
structure Draft where
  root : Table := {}
  current : Table := {}
  path : List Key := []
  several : Bool := false

namespace Draft

/-- Puts the current table into its place. -/
def close (d : Draft) : Option Draft :=
  match d.path.getLast? with
  | none => some { root := d.current }
  | some k =>
    let place (parent : Table) : Option Table :=
      match parent.find? k, d.several with
      | none, true => some (parent.put k (.tables [d.current]))
      | some (.tables elements), true => some (parent.put k (.tables (elements ++ [d.current])))
      | none, false => some (parent.put k (.table d.current))
      | some (.table old), false =>
        if old.implicit then some (parent.put k (.table d.current)) else none
      | _, _ => none
    (d.root.changeAt false d.path.dropLast place).map fun root => { root }

/-- Opens the table of a header. One that was only implied keeps what it holds; no other table may
be opened again. -/
def openTable (d : Draft) (start : Nat) (path : List Key) : Option Draft := do
  let d ← d.close
  let k ← path.getLast?
  let reopened : Table → Table × Option Table := fun parent =>
    match parent.find? k with
    | none => (parent, some { start := some start })
    | some (.table t) =>
      if t.implicit && !t.dotted then
        (parent.remove k, some { t with start := some start, implicit := false })
      else (parent, none)
    | some _ => (parent, none)
  let parent ← tableAt d.root path.dropLast
  let current ← (reopened parent).2
  let root ← d.root.changeAt false path.dropLast fun parent => some (reopened parent).1
  some { root, current, path }
where
  /-- The table at a path of headers. -/
  tableAt (t : Table) : List Key → Option Table
    | [] => some t
    | k :: path =>
      match t.find? k with
      | none => some {}
      | some (.table inner) => tableAt inner path
      | some (.tables elements) => elements.getLast?.bind fun last => tableAt last path
      | some _ => none

/-- Opens one more of the tables of a header in double brackets. -/
def openElement (d : Draft) (start : Nat) (path : List Key) : Option Draft := do
  let d ← d.close
  let k ← path.getLast?
  let room (parent : Table) : Option Table :=
    match parent.find? k with
    | none => some (parent.put k (.tables []))
    | some (.tables _) => some parent
    | some _ => none
  let root ← d.root.changeAt false path.dropLast room
  some { root, current := { start := some start }, path, several := true }

end Draft

/-- A header, from behind its brackets, with as many closing ones. -/
def header? (total : Nat) (brackets : Nat) (s : List UInt8) : Option (List Key × List UInt8) := do
  let (path, rest) ← key? total maxNesting (skipSpace s)
  let rest := skipSpace rest
  let closing := List.replicate brackets (ascii ']')
  if closing.isPrefixOf rest then (endLine? (rest.drop brackets)).map (path, ·) else none

/-- One line of a document: nothing, a header, or a key with its value. -/
def line? (total : Nat) (d : Draft) (s : List UInt8) : Option (Draft × List UInt8) :=
  let s := skipSpace s
  match endLine? s with
  | some rest => some (d, rest)
  | none =>
    let start := total - s.length
    if [ascii '[', ascii '['].isPrefixOf s then do
      let (path, rest) ← header? total 2 (s.drop 2)
      (d.openElement start path).map (·, rest)
    else if [ascii '['].isPrefixOf s then do
      let (path, rest) ← header? total 1 (s.drop 1)
      (d.openTable start path).map (·, rest)
    else do
      let ((path, k, node), rest) ← keyValue? total (value? total (maxNesting - 1)) s
      let current ← d.current.addAt path k node
      let rest ← endLine? rest
      some ({ d with current }, rest)

/-- The lines of a document. -/
def lines? (total : Nat) : Nat → Draft → List UInt8 → Option Draft
  | 0, d, _ => some d
  | _, d, [] => some d
  | fuel + 1, d, s => (line? total d s).bind fun (d, rest) => lines? total fuel d rest

/-- Reads a document; a byte order mark in front is ignored. -/
def read? (text : String) : Option Table :=
  let source := Text.bytes text
  let body := if [0xef, 0xbb, 0xbf].isPrefixOf source then source.drop 3 else source
  (lines? source.length (source.length + 1) {} body).bind fun d => d.close.map (·.root)

end MobDebug.Toml
