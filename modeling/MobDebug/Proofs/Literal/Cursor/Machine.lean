import MobDebug.Literal.Reader
import Mathlib.Algebra.Ring.Int.Defs
import Mathlib.Algebra.Ring.Nat

/-!
A machine that reads a text in place. Its state is a position in the bytes and how many tables are
open. It stops at a fault of the text, and at whatever a program must never do: leave the text, take
bytes for characters that are none, go round a loop without moving on, compute an integer that its
width has no room for.
-/
namespace MobDebug.Literal.Cursor

/-- A text and a limit as a machine holds them: texts have less than `2 ^ 63` bytes, and sizes have
64 bits. An integer that leaves its width wraps, or else stops the machine. -/
structure Setting where
  text : String
  limit : Nat
  wraps : Bool
  text_lt : (Text.bytes text).length < 2 ^ 63
  limit_lt : limit < 2 ^ 64

namespace Setting

/-- The bytes of the text. -/
def source (env : Setting) : List UInt8 :=
  Text.bytes env.text

end Setting

structure State where
  pos : Nat
  depth : Nat

/-- What a program must never do. -/
inductive Breach where
  /-- A position behind the end of the text, or a slice that does not lie in it. -/
  | range
  /-- A slice that is taken for text and is not UTF-8. -/
  | encoding
  /-- A round of a loop, or a value, that leaves the position where it was. -/
  | standstill
  /-- An integer out of its width. -/
  | overflow
  /-- A branch that is not meant to be reached. -/
  | unreached
  deriving DecidableEq

/-- Why the machine stops before its end. -/
inductive Stop where
  | fault (e : Error)
  | breach (b : Breach)
  deriving DecidableEq

abbrev Scan := ReaderT Setting (StateT State (Except Stop))

/-! ### Integers -/

/-- The width of an integer. -/
structure Width where
  signed : Bool
  bits : Nat

namespace Width

def size : Width := ⟨false, 64⟩
def word : Width := ⟨false, 32⟩
def byte : Width := ⟨false, 8⟩
def long : Width := ⟨true, 64⟩
def int : Width := ⟨true, 32⟩

def least (w : Width) : Int :=
  if w.signed then -2 ^ (w.bits - 1) else 0

/-- The width has room for an integer. -/
def Holds (w : Width) (x : Int) : Prop :=
  w.least ≤ x ∧ x < w.least + 2 ^ w.bits

instance (w : Width) (x : Int) : Decidable (w.Holds x) :=
  inferInstanceAs (Decidable (_ ∧ _))

/-- The integer of the width that differs by a multiple of `2 ^ bits`. -/
def wrap (w : Width) (x : Int) : Int :=
  (x - w.least) % 2 ^ w.bits + w.least

end Width

variable {α β γ : Type}

def breach (b : Breach) : Scan α := fun _ _ => .error (.breach b)

/-- The result of an integer operation. -/
def keep (w : Width) (x : Int) : Scan Int := fun env c =>
  if w.Holds x then .ok (x, c)
  else if env.wraps then .ok (w.wrap x, c)
  else .error (.breach .overflow)

/-- The result of an operation without a sign. -/
def natural (w : Width) (x : Int) : Scan Nat := do
  return (← keep w x).toNat

def size (n : Nat) : Scan Nat :=
  natural .size n

/-! ### Positions -/

def here : Scan Nat := fun _ c => .ok (c.pos, c)

def source : Scan (List UInt8) := fun env c => .ok (env.source, c)

/-- The byte at the position, if there is one. -/
def peek : Scan (Option UInt8) := fun env c => .ok (env.source[c.pos]?, c)

/-- The byte at an offset from the position. -/
def peekAt (offset : Nat) : Scan (Option UInt8) := do
  let i ← size ((← here) + offset)
  return (← source)[i]?

def moveTo (pos : Nat) : Scan Unit := fun env c =>
  if pos ≤ env.source.length then .ok ((), { c with pos := pos }) else .error (.breach .range)

def advance (n : Nat) : Scan Unit := do
  moveTo (← size ((← here) + n))

def slice (start stop : Nat) : Scan (List UInt8) := fun env c =>
  if start ≤ stop ∧ stop ≤ env.source.length then .ok ((env.source.take stop).drop start, c)
  else .error (.breach .range)

def sliceFrom (start : Nat) : Scan (List UInt8) := do
  slice start (← source).length

/-- What is left from the position on. -/
def rest : Scan (List UInt8) := do
  sliceFrom (← here)

/-- Bytes as text. -/
def decode (bytes : List UInt8) : Scan String :=
  match Text.decode? bytes with
  | some s => pure s
  | none => breach .encoding

/-! ### Faults and limits -/

def failFrom (pos : Nat) (fault : Fault) : Scan α := fun _ _ => .error (.fault ⟨fault, pos⟩)

def fail (fault : Fault) : Scan α := do
  failFrom (← here) fault

def getLimit : Scan Nat := fun env c => .ok (env.limit, c)

def getDepth : Scan Nat := fun _ c => .ok (c.depth, c)

def setDepth (depth : Nat) : Scan Unit := fun _ c => .ok ((), { c with depth := depth })

/-! ### Loops -/

/-- Goes round with one state after the other until there is a result. Each round that is not the
last moves on by what `lead` and the position are together, within the text. -/
def loopFrom (lead : β → Nat) (body : β → Scan (β ⊕ γ)) (b : β) : Scan γ := fun env c =>
  match body b env c with
  | .error e => .error e
  | .ok (.inr result, c') => .ok (result, c')
  | .ok (.inl b', c') =>
    if lead b + c.pos < lead b' + c'.pos ∧ lead b' + c'.pos ≤ env.source.length then
      loopFrom lead body b' env c'
    else .error (.breach .standstill)
termination_by env c => env.source.length - (lead b + c.pos)

/-- Goes round until there is a result, and moves the position on each time. -/
def loop (body : β → Scan (β ⊕ γ)) (b : β) : Scan γ :=
  loopFrom (fun _ => 0) body b

/-- Moves the position on. -/
def advancing (m : Scan α) : Scan α := do
  let start ← here
  let a ← m
  if start < (← here) then return a else breach .standstill

end MobDebug.Literal.Cursor
