import MobDebug.Wire.Header
/-!
Cutting a stream into frames. A frame is a header line of bounded length and as many bytes as it
announces; what is not a whole frame yet waits for more bytes or for the end of the stream.
-/
namespace MobDebug.Wire

/-- The longest header line, its line end included. -/
def maxHeader : Nat := 1024

/-- How far an unfinished frame has come. -/
inductive Unfinished where
  | nothing
  | header
  | body (length : Nat)
  deriving DecidableEq

/-- What the end of the stream means there. -/
def Unfinished.atEnd : Unfinished → Error
  | .nothing => .connectionClosed
  | .header => .stream .endInHeader
  | .body length => .stream (.endInBody length)

/-- The start of a stream: a whole frame, a fault, or less than a frame. -/
inductive Reading (s : List UInt8) where
  | frame (response : Response) (rest : List UInt8) (shorter : rest.length < s.length)
  | fault (fault : ProtocolFault)
  | short (part : Unfinished)

/-- Reads one frame, whose body may have `limit` bytes. -/
def readFrame (limit : Nat) (s : List UInt8) : Reading s :=
  let line := s.takeWhile (· != 0x0a)
  match hr : s.dropWhile (· != 0x0a) with
  | lineEnd :: rest =>
    if maxHeader ≤ line.length then .fault (.headerTooLong maxHeader)
    else
      match Header.read (line ++ [lineEnd]) with
      | .error e => .fault e
      | .ok ⟨status, length⟩ =>
        if limit < length then .fault (.bodyTooLong length limit)
        else if rest.length < length then .short (.body length)
        else
          .frame ⟨status, Text.decodeLossy (rest.take length)⟩ (rest.drop length) (by
            have := (List.dropWhile_suffix (· != 0x0a) (l := s)).length_le
            simp [hr] at this ⊢
            omega)
  | [] =>
    if maxHeader ≤ s.length then .fault (.headerTooLong maxHeader)
    else if s.isEmpty then .short .nothing
    else .short .header

/-- Why no frame follows: a fault, or an unfinished frame with the bytes it has. -/
inductive Stop where
  | fault (fault : ProtocolFault)
  | short (part : Unfinished) (rest : List UInt8)

/-- All whole frames at the start of a stream, and why there are no more. -/
def readFrames (limit : Nat) (s : List UInt8) : List Response × Stop :=
  match readFrame limit s with
  | .frame response rest _ =>
    let (responses, stop) := readFrames limit rest
    (response :: responses, stop)
  | .fault fault => ([], .fault fault)
  | .short part => ([], .short part s)
termination_by s.length

/-- The responses of a whole stream that arrives in pieces behind the bytes `pending`, and the error
that ends it. -/
def readStream (limit : Nat) (pending : List UInt8) : List (List UInt8) → List Response × Error
  | [] =>
    match readFrames limit pending with
    | (responses, .fault fault) => (responses, .protocol fault)
    | (responses, .short part _) => (responses, part.atEnd)
  | piece :: pieces =>
    match readFrames limit (pending ++ piece) with
    | (responses, .fault fault) => (responses, .protocol fault)
    | (responses, .short _ rest) =>
      let (more, error) := readStream limit rest pieces
      (responses ++ more, error)

end MobDebug.Wire
