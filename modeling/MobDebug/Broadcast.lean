/-!
A broadcast keeps the latest messages, up to its capacity. A receiver that falls further behind
learns how many it missed and goes on with the oldest that is kept.
-/
namespace MobDebug

/-- The first power of two, from `2 ^ e` on, that is no less than `n`. -/
def powerOfTwoFrom (n : Nat) : Nat → Nat → Nat
  | 0, e => Nat.pow 2 e
  | fuel + 1, e => if n ≤ Nat.pow 2 e then Nat.pow 2 e else powerOfTwoFrom n fuel (e + 1)

/-- All messages ever sent, in order, and how many of the last ones are kept. -/
structure Broadcast (α : Type) where
  capacity : Nat
  sent : List α := []

/-- What a receiver gets. -/
inductive Received (α : Type) where
  | message (a : α)
  | lagged (missed : Nat)

namespace Broadcast
variable {α : Type}

/-- A broadcast that keeps at least `size` messages: the next power of two. -/
def ofSize (size : Nat) : Broadcast α :=
  ⟨powerOfTwoFrom size 64 0, []⟩

def send (b : Broadcast α) (a : α) : Broadcast α :=
  { b with sent := b.sent ++ [a] }

/-- What a receiver gets that has taken `next` messages so far, and how many it has taken then. -/
def receive (b : Broadcast α) (next : Nat) : Option (Received α × Nat) :=
  let oldest := b.sent.length - b.capacity
  if next < oldest then some (.lagged (oldest - next), oldest)
  else b.sent[next]?.map fun a => (.message a, next + 1)

end Broadcast
end MobDebug
