/-!
Running tasks until nothing more happens. Tasks run in the order in which they were woken; one that
runs goes on until it has to wait, or until it has taken so many messages that the others are due.
-/
namespace MobDebug

/-- A system of tasks: what a task does next, if it need not wait, and whether it takes a message
with that; which tasks a change may have woken, in order, and which of them it has begun; and a
bound on the steps that are left to take. -/
structure Machine (σ τ : Type) where
  step? : σ → τ → Option σ
  takesMessage : σ → τ → Bool
  woken : σ → σ → List τ
  begun : σ → σ → τ → Bool
  turns : σ → Nat

/-- A state, and the tasks that are ready to go on, first come first. -/
structure Machine.Running (σ τ : Type) where
  state : σ
  ready : List τ := []

namespace Machine
variable {σ τ : Type} [BEq τ]

/-- The queue with those of the tasks behind it that are not in it. -/
def enqueue (queue tasks : List τ) : List τ :=
  tasks.foldl (fun queue t => if queue.contains t then queue else queue ++ [t]) queue

/-- The tasks that need not wait. -/
def able (m : Machine σ τ) (s : σ) (tasks : List τ) : List τ :=
  tasks.filter fun t => (m.step? s t).isSome

/-- The state after a change from outside, and the tasks that it wakes. A task that has begun has
its first turn even if it has to wait. -/
def act (m : Machine σ τ) (r : Running σ τ) (s : σ) : Running σ τ :=
  ⟨s, enqueue r.ready ((m.woken r.state s).filter fun t =>
    m.begun r.state s t || (m.step? s t).isSome)⟩

/-- How many messages a task takes in one turn at most. -/
def patience : Nat := 128

/-- Runs the ready tasks and those they wake, for at most `fuel` steps. The first one has taken
`messages` in its turn. -/
def run (m : Machine σ τ) : Nat → Nat → Running σ τ → σ
  | 0, _, r => r.state
  | fuel + 1, messages, r =>
    match r.ready with
    | [] => r.state
    | t :: queue =>
      if patience ≤ messages then run m fuel 0 ⟨r.state, queue ++ [t]⟩
      else
        match m.step? r.state t with
        | none => run m fuel 0 ⟨r.state, queue⟩
        | some s =>
          run m fuel (if m.takesMessage r.state t then messages + 1 else messages) (m.act r s)

/-- Runs until every task waits. -/
def settle (m : Machine σ τ) (r : Running σ τ) : Running σ τ :=
  ⟨m.run (m.turns r.state) 0 r, []⟩

end Machine
end MobDebug
