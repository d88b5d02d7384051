import MobDebug.Literal.Numeral
/-!
Quoted strings. Their content is a row of bytes, which escapes may spell in several ways; as text it
is decoded at the end, so bytes of one character may come from several escapes.
-/
namespace MobDebug.Literal

/-- The byte of a one-letter escape. -/
def namedEscape? (b : UInt8) : Option UInt8 :=
  if b == ascii 'a' then some 0x07
  else if b == ascii 'b' then some 0x08
  else if b == ascii 'f' then some 0x0c
  else if b == ascii 'n' then some 0x0a
  else if b == ascii 'r' then some 0x0d
  else if b == ascii 't' then some 0x09
  else if b == ascii 'v' then some 0x0b
  else if b == ascii '\\' || b == ascii '"' || b == ascii '\'' then some b
  else none

def isLineEnd (b : UInt8) : Bool :=
  b == 0x0a || b == 0x0d

/-- Up to `count` further digits of a decimal escape, and the rest. -/
def readDigits : Nat → Nat → (s : List UInt8) → Nat × Rest s
  | 0, n, s => (n, .all s)
  | _ + 1, n, [] => (n, .nothing)
  | count + 1, n, b :: r =>
    if isDigit b then
      let (m, rest) := readDigits count (n * 10 + (b.toNat - 48)) r
      (m, rest.behind b)
    else (n, .all (b :: r))

/-- The digits of a code point up to the first byte that is none, at most 32 bits of them; whether
there were any, their number, and the rest. -/
def readCode (any : Bool) (code : Nat) : (s : List UInt8) → Except Failure (Bool × Nat × Rest s)
  | [] => .ok (any, code, .nothing)
  | b :: r =>
    match hexDigit? b with
    | some d =>
      if code * 16 + d < UInt32.size then
        (readCode true (code * 16 + d) r).map fun (any, code, rest) => (any, code, rest.behind b)
      else failAt .codeTooLarge (b :: r)
    | none => .ok (any, code, .all (b :: r))

/-- A code point in braces, as its UTF-8 bytes. -/
def codeEscape (s : List UInt8) : Except Failure (List UInt8 × Rest s) :=
  match s with
  | [] => failAt .codeBrace []
  | b :: r =>
    if b != ascii '\x7b' then failAt .codeBrace (b :: r)
    else
      match readCode false 0 r with
      | .error e => .error e
      | .ok (any, code, ⟨rest, hrest⟩) =>
        match rest, hrest with
        | [], _ => failAt .codeEscape []
        | c :: t, ht =>
          if !any || c != ascii '\x7d' then failAt .codeEscape (c :: t)
          else if code.isValidChar then
            .ok (String.utf8EncodeChar (Char.ofNat code), .behind b ⟨t, Nat.le_of_succ_le ht⟩)
          else failAt .codePoint t

/-- The bytes an escape stands for, read from behind its backslash. -/
def escape (s : List UInt8) : Except Failure (List UInt8 × Rest s) :=
  match s with
  | [] => failAt .unterminatedString []
  | b :: r =>
    match namedEscape? b with
    | some byte => .ok ([byte], .tail b r)
    | none =>
      if isLineEnd b then
        match r with
        | c :: t =>
          if isLineEnd c && c != b then .ok ([0x0a], .behind b (.tail c t))
          else .ok ([0x0a], .tail b (c :: t))
        | [] => .ok ([0x0a], .nothing)
      else if b == ascii 'z' then
        .ok ([], .behind b ⟨r.dropWhile isSpace, length_dropWhile_le isSpace r⟩)
      else if b == ascii 'x' then
        match r with
        | hi :: lo :: t =>
          match hexDigit? hi, hexDigit? lo with
          | some h, some l => .ok ([UInt8.ofNat (h * 16 + l)], .behind b (.behind hi (.tail lo t)))
          | _, _ => failAt .hexEscape (hi :: lo :: t)
        | r => failAt .hexEscape r
      else if isDigit b then
        let (n, rest) := readDigits 2 (b.toNat - 48) r
        if n < 256 then .ok ([UInt8.ofNat n], rest.behind b)
        else failAt .decimalEscape rest.1
      else if b == ascii 'u' then
        (codeEscape r).map fun (code, rest) => (code, rest.behind b)
      else failAt (.invalidEscape b) r

/-- The bytes of a string up to its closing quote, read from behind the opening one. -/
def quotation (quote : UInt8) (s : List UInt8) : Except Failure (Parsed (List UInt8) s) :=
  match s with
  | [] => failAt .unterminatedString []
  | b :: r =>
    if b = quote then .ok (.ofByte [] b r)
    else if isLineEnd b then failAt .lineEndInString r
    else if b = ascii '\\' then
      match escape r with
      | .error e => .error e
      | .ok (read, rest) =>
        have shorter := rest.2
        (quotation quote rest.1).map fun p =>
          .behind b ((p.map (read ++ ·)).widen shorter)
    else
      (quotation quote r).map fun p => (p.map (b :: ·)).behind b
termination_by s.length
decreasing_by
  · exact Nat.lt_succ_of_le shorter
  · exact Nat.lt_succ_self _

end MobDebug.Literal
