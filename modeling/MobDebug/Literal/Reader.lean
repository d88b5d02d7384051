import MobDebug.Literal.Quotation
import MobDebug.Literal.Printer
import MobDebug.Text.Blank
/-!
Reading a literal. Tables may nest up to a limit, which is spent level by level: the reader for one
level uses that for the level below on the entries of its tables.
-/
namespace MobDebug.Literal

/-- The name that a text starts with, and the rest. -/
def name? (s : List UInt8) : Option (Parsed String s) :=
  match s with
  | [] => none
  | b :: r =>
    if startsName b then
      some (.upTo (String.ofList ((b :: r.takeWhile continuesName).map byteChar)) b
        ⟨r.dropWhile continuesName, length_dropWhile_le continuesName r⟩)
    else none

/-- One byte, after trivia. -/
def expect (wanted : UInt8) : Parser Unit := fun s =>
  match skipTrivia s with
  | .error e => .error e
  | .ok ⟨[], _⟩ => failAt (.expectedAtEnd wanted) []
  | .ok ⟨b :: r, h⟩ =>
    if b = wanted then .ok ⟨(), r, by simp at h; omega⟩
    else failAt (.expected wanted b) (b :: r)

/-- Positive infinity, by its name. -/
def mathHuge : Parser Number := fun s =>
  match h : strip? (Text.bytes "math.huge") s with
  | some r =>
    if r.head?.any continuesName then failAt .mathLibrary s
    else .ok ⟨.float (.infinite false), r, by
      have := length_of_strip? h
      have : 0 < (Text.bytes "math.huge").length := by decide
      omega⟩
  | none => failAt .mathLibrary s

/-- The label in a comment that marks a reference. -/
def referenceLabel? (content : List UInt8) : Option String :=
  match Text.trim (Text.decodeLossy content).toList with
  | 'r' :: 'e' :: 'f' :: label =>
    if label.head?.all Text.isBlank then some (String.ofList (Text.trim label)) else none
  | _ => none

/-- What `nil` means, read from behind it: a reference if a marking comment follows. -/
def nilOrReference (s : List UInt8) : Except Failure (Value × Rest s) :=
  let afterSpace := s.dropWhile isSpace
  have hs : afterSpace.length ≤ s.length := length_dropWhile_le isSpace s
  match ht : strip? [ascii '-', ascii '-'] afterSpace with
  | none => .ok (.nil, .all s)
  | some t =>
    match longBracket t with
    | .error e => .error e
    | .ok none => .ok (.nil, .all s)
    | .ok (some bracket) =>
      let value := match referenceLabel? bracket.value with
        | some label => .reference label
        | none => .nil
      .ok (value, ⟨bracket.rest, by
        have := bracket.shorter
        have := length_of_strip? ht
        omega⟩)

/-- The rest of a function without its body, read from behind its first word. -/
def functionPlaceholder : Parser Unit := fun s => do
  let opened ← expect (ascii '(') s
  let closed ← expect (ascii ')') opened.rest
  let ⟨t, ht⟩ ← skipTrivia closed.rest
  match name? t with
  | some name =>
    if name.value = "end" then
      .ok ⟨(), name.rest, by
        have := opened.shorter
        have := closed.shorter
        have := name.shorter
        omega⟩
    else failAt .functionBody t
  | none => failAt .functionBody t

/-- A literal that a name starts. -/
def named (s : List UInt8) (name : Parsed String s) : Except Failure (Parsed Value s) :=
  have := name.shorter
  if name.value = "nil" then
    (nilOrReference name.rest).map fun (v, rest) => ⟨v, rest.1, by have := rest.2; omega⟩
  else if name.value = "true" then .ok ⟨.bool true, name.rest, name.shorter⟩
  else if name.value = "false" then .ok ⟨.bool false, name.rest, name.shorter⟩
  else if name.value = "math" then (mathHuge s).map (·.map .number)
  else if name.value = "function" then
    (functionPlaceholder name.rest).map fun p => ⟨.function, p.rest, by have := p.shorter; omega⟩
  else failAt (.notLiteral name.value) s

/-- A number behind a minus. -/
def negated : Parser Value := fun s => do
  let ⟨t, ht⟩ ← skipTrivia s
  if (name? t).map (·.value) = some "math" then
    (mathHuge t).map fun p => (p.map fun n => .number n.negate).widen ht
  else
    match t, ht with
    | b :: r, ht =>
      if startsNumeral (b :: r) then
        (numeral b r).map fun p => (p.map fun n => .number n.negate).widen ht
      else failAt .loneMinus (b :: r)
    | [], _ => failAt .loneMinus []

/-- A literal that begins with the byte `b`, tables left to `table`. -/
def literal (table : Parser Value) (b : UInt8) (r : List UInt8) :
    Except Failure (Parsed Value (b :: r)) :=
  if b = ascii '\x7b' then table (b :: r)
  else if b = ascii '"' ∨ b = ascii '\'' then
    (quotation b r).map fun p => (p.map fun content => .str (Text.decodeLossy content)).behind b
  else if b = ascii '[' then
    match longBracket (b :: r) with
    | .error e => .error e
    | .ok (some bracket) => .ok (bracket.map fun content => .str (Text.decodeLossy content))
    | .ok none => failAt .openBracket (b :: r)
  else if b = ascii '-' then
    (negated r).map fun p => p.behind b
  else if startsNumeral (b :: r) then
    match r with
    | c :: d :: t =>
      if b = ascii '0' ∧ c = ascii '/' ∧ d = ascii '0' ∧ !t.head?.any continuesName then
        .ok (.behind b (.behind c (.ofByte (.number (.float .nan)) d t)))
      else (numeral b (c :: d :: t)).map (·.map .number)
    | r => (numeral b r).map (·.map .number)
  else
    match name? (b :: r) with
    | some name => named (b :: r) name
    | none => failAt (.unexpected b) (b :: r)

/-- A literal, after trivia. -/
def literalAfterTrivia (table : Parser Value) : Parser Value := fun s =>
  match skipTrivia s with
  | .error e => .error e
  | .ok ⟨[], _⟩ => failAt .endOfInput []
  | .ok ⟨b :: r, h⟩ => (literal table b r).map (·.widen h)

/-- An entry `[key] = value`, read from behind its bracket. -/
def bracketEntry (item : Parser Value) : Parser (Key × Value) := fun s => do
  let key ← item s
  let closed ← expect (ascii ']') key.rest
  let equals ← expect (ascii '=') closed.rest
  let value ← item equals.rest
  match Key.ofValue? key.value with
  | some k =>
    .ok ⟨(k, value.value), value.rest, by
      have := key.shorter
      have := closed.shorter
      have := equals.shorter
      have := value.shorter
      omega⟩
  | none => failAt .invalidKey s

/-- The rest behind the equals sign of a named entry, read from behind the name. A double equals
sign is none. -/
def equalsSign? (s : List UInt8) : Except Failure (Option (Parsed Unit s)) :=
  match skipTrivia s with
  | .error e => .error e
  | .ok ⟨[], _⟩ => .ok none
  | .ok ⟨b :: r, h⟩ =>
    if b = ascii '=' ∧ r.head? ≠ some (ascii '=') then
      .ok (some ⟨(), r, by simp at h; omega⟩)
    else .ok none

/-- An entry without a key. -/
def positionalEntry (item : Parser Value) : Parser (Option Key × Value) := fun s =>
  (item s).map (·.map fun v => (none, v))

/-- A table entry, with its key or positional. -/
def entry (item : Parser Value) : Parser (Option Key × Value)
  | [] => positionalEntry item []
  | b :: r =>
    if b = ascii '[' ∧ r.head? ≠ some (ascii '[') ∧ r.head? ≠ some (ascii '=') then
      (bracketEntry item r).map fun p => (p.map fun (k, v) => (some k, v)).behind b
    else
      match name? (b :: r) with
      | none => positionalEntry item (b :: r)
      | some name =>
        match equalsSign? name.rest with
        | .error e => .error e
        | .ok none => positionalEntry item (b :: r)
        | .ok (some equals) =>
          if reservedWords.contains name.value then failAt (.reservedWord name.value) (b :: r)
          else
            (item equals.rest).map fun p =>
              ⟨(some (.str name.value), p.value), p.rest, by
                have := p.shorter
                have := equals.shorter
                have := name.shorter
                omega⟩

/-- The entries up to the closing brace, assigned to `t` one after the other; the next positional
one goes to position `n`. -/
def entries (item : Parser Value) (t : Table) (n : Nat) (s : List UInt8) :
    Except Failure (Parsed Table s) :=
  match skipTrivia s with
  | .error e => .error e
  | .ok ⟨u, hu⟩ =>
    match hc : strip? [ascii '\x7d'] u with
    | some r => .ok ⟨t, r, by have := length_of_strip? hc; simp at this; omega⟩
    | none =>
      match entry item u with
      | .error e => .error e
      | .ok ⟨(key, value), afterEntry, he⟩ =>
        let t := t.insert (key.getD (.position n)) value
        let n := if key.isNone then n + 1 else n
        match skipTrivia afterEntry with
        | .error e => .error e
        | .ok ⟨[], _⟩ => failAt .unterminatedTable []
        | .ok ⟨b :: r, hr⟩ =>
          have hb : r.length < s.length := by simp at hr; omega
          if b = ascii ',' ∨ b = ascii ';' then
            (entries item t n r).map fun p => p.widen (Nat.le_of_lt hb)
          else if b = ascii '\x7d' then .ok ⟨t, r, hb⟩
          else failAt (.entryEnd b) (b :: r)
termination_by s.length

/-- A table, whose entries are left to `item`. -/
def tableOf (item : Parser Value) : Parser Value
  | [] => failAt .endOfInput []
  | b :: r =>
    (entries item [] 1 r).map fun p => (p.map .table).behind b

/-- A literal in which tables nest at most `depth` levels deep; `limit` is what a message names. -/
def value (limit : Nat) : Nat → Parser Value
  | 0 => literalAfterTrivia fun s => failAt (.tooDeep limit) s
  | depth + 1 => literalAfterTrivia (tableOf fun s => value limit depth s)

/-- Reads a text that is one literal and trivia. -/
def read (limit : Nat) (text : String) : Except Error Value :=
  let source := Text.bytes text
  let result : Except Failure Value := do
    let p ← value limit limit source
    let rest ← skipTrivia p.rest
    if rest.1.isEmpty then .ok p.value else failAt .trailingInput rest.1
  result.mapError fun e => ⟨e.fault, source.length - e.left⟩

/-- How deep tables may nest where nobody says. -/
def defaultLimit : Nat := 64

end MobDebug.Literal
