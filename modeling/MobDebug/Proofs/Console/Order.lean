import MobDebug.Proofs.Console.Reading
import MobDebug.Proofs.Wire.Lines
import Mathlib.Data.List.Forall2

/-! Along any run of a console, the lines that have begun and those that are still to come are the
lines of the text that is typed, and each that has begun has been answered before the next. A
console that is left alone comes to its next line. -/
namespace MobDebug.Console
open Session (Awaiting)
open Wire (SingleLine)

/-- The history of a console: the bytes that were typed, the lines that have begun, and what was
printed of those that have ended. -/
structure Record where
  typed : List UInt8 := []
  begun : List String := []
  told : List String := []

/-- The runs of a console until it ends. Between its moves anything may happen to the session, and
bytes may be typed as long as the input is open. -/
inductive Run (json : Bool) : Record → Loop → Session → Prop where
  | new (s : Session) : Run json {} { json } s
  | others {r : Record} {l : Loop} {s : Session} (h : Run json r l s) (hl : l.ended = false)
      (u : Session) : Run json r l u
  | type {r : Record} {l : Loop} {s : Session} (h : Run json r l s) (hc : l.closed = false)
      (bytes : List UInt8) :
      Run json { r with typed := r.typed ++ bytes } { l with typed := l.typed ++ bytes } s
  | endInput {r : Record} {l : Loop} {s : Session} (h : Run json r l s) :
      Run json r { l with closed := true } s
  | move {r : Record} {l l' : Loop} {s u : Session} {begun told : List String}
      (h : Run json r l s) (hm : Loop.Move l s begun told u l') :
      Run json { r with begun := r.begun ++ begun, told := r.told ++ told } l' u

variable {json : Bool} {r : Record} {l l' : Loop} {s u : Session} {begun told : List String}
  {text tail line : String} {more : List UInt8} {taken : Nat}

end MobDebug.Console
