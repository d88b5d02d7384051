/-!
A stream in memory between the client and the debuggee, as the bytes in transit either way. The
room for bytes on their way to the debuggee is bounded.
-/
namespace MobDebug

/-- `arriving` are the bytes that the client has not taken, `leaving` those that the debuggee has
not taken, `taken` those it has and `written` all that the client ever wrote. A stalled debuggee
takes none. -/
structure Stream where
  capacity : Nat := 4194304
  stalled : Bool := false
  arriving : List UInt8 := []
  leaving : List UInt8 := []
  taken : List UInt8 := []
  written : List UInt8 := []
  clientGone : Bool := false
  leavingSoon : Bool := false
  debuggeeGone : Bool := false
  endSeen : Bool := false

namespace Stream

/-- How many bytes the client may write now. -/
def room (s : Stream) : Nat :=
  s.capacity - s.leaving.length

def write (s : Stream) (bs : List UInt8) : Stream :=
  { s with leaving := s.leaving ++ bs, written := s.written ++ bs }

/-- Bytes from the debuggee; they are lost once either side is gone. -/
def deliver (s : Stream) (bs : List UInt8) : Stream :=
  if s.clientGone || s.leavingSoon || s.debuggeeGone then s
  else { s with arriving := s.arriving ++ bs }

/-- The debuggee's next act: to leave if it is about to, to take what has come, or to see that the
client is gone. -/
def debuggeeStep? (s : Stream) : Option Stream :=
  if s.debuggeeGone || s.endSeen then none
  else if s.leavingSoon then some { s with debuggeeGone := true }
  else if s.stalled then none
  else if !s.leaving.isEmpty then some { s with leaving := [], taken := s.taken ++ s.leaving }
  else if s.clientGone then some { s with endSeen := true }
  else none

/-- The debuggee hangs up, after what is under way. -/
def hangUp (s : Stream) : Stream :=
  { s with leavingSoon := true }

end Stream
end MobDebug
