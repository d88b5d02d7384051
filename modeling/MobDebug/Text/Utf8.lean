/-!
UTF-8. Reading is a machine fed one byte at a time, so how the bytes were cut into pieces cannot
matter. Ill-formed input gives one gap for each maximal piece that could have begun a character.
-/
namespace MobDebug.Text

/-- The bytes that encode a text. -/
def bytes (s : String) : List UInt8 :=
  s.toList.flatMap String.utf8EncodeChar

theorem bytes_append (s t : String) : bytes (s ++ t) = bytes s ++ bytes t := by
  simp [bytes]

/-- Between characters, or inside one: the range the next byte must lie in, how many bytes are
still missing, and the number read so far. -/
inductive Decoding where
  | between
  | inside (low high : UInt8) (missing : Nat) (code : Nat)
  deriving DecidableEq

/-- What may follow a first byte of several: the range of the second byte, how many more bytes
there are, and the bits the first one carries. -/
def leadByte (b : UInt8) : Option (UInt8 × UInt8 × Nat × Nat) :=
  if 0xc2 ≤ b && b ≤ 0xdf then some (0x80, 0xbf, 1, b.toNat % 0x20)
  else if b == 0xe0 then some (0xa0, 0xbf, 2, 0)
  else if b == 0xed then some (0x80, 0x9f, 2, 0xd)
  else if 0xe1 ≤ b && b ≤ 0xef then some (0x80, 0xbf, 2, b.toNat % 0x10)
  else if b == 0xf0 then some (0x90, 0xbf, 3, 0)
  else if 0xf1 ≤ b && b ≤ 0xf3 then some (0x80, 0xbf, 3, b.toNat % 8)
  else if b == 0xf4 then some (0x80, 0x8f, 3, 4)
  else none

/-- A byte between characters. -/
def Decoding.start (b : UInt8) : List (Option Char) × Decoding :=
  if b < 0x80 then ([some (Char.ofNat b.toNat)], .between)
  else
    match leadByte b with
    | none => ([none], .between)
    | some (low, high, missing, code) => ([], .inside low high missing code)

/-- The characters and gaps that one more byte completes. -/
def Decoding.feed (b : UInt8) : Decoding → List (Option Char) × Decoding
  | .between => Decoding.start b
  | .inside low high missing code =>
    if low ≤ b && b ≤ high then
      let code := code * 0x40 + b.toNat % 0x40
      if missing ≤ 1 then ([some (Char.ofNat code)], .between)
      else ([], .inside 0x80 0xbf (missing - 1) code)
    else
      let (read, state) := Decoding.start b
      (none :: read, state)

/-- The characters and gaps read from `state` on. -/
def Decoding.run (state : Decoding) : List UInt8 → List (Option Char)
  | [] => if state = .between then [] else [none]
  | b :: bs => (state.feed b).1 ++ run (state.feed b).2 bs

/-- The text the bytes encode, each gap shown as U+FFFD. -/
def decodeLossy (bs : List UInt8) : String :=
  String.ofList ((Decoding.between.run bs).map (·.getD '\ufffd'))

/-- The text the bytes encode, if they are well-formed. -/
def decode? (bs : List UInt8) : Option String :=
  ((Decoding.between.run bs).mapM id).map String.ofList

end MobDebug.Text
