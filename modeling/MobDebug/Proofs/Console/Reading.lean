import MobDebug.Proofs.Console.Input
import MobDebug.Proofs.Wire.Lines
import Mathlib.Logic.Relation

/-! A console runs the lines of its input one after the other. Nothing that happens to the session
meanwhile makes it miss a line, run one twice, or begin one before the last has ended. -/
namespace MobDebug.Console
open Session (Awaiting Event)

/-- What is printed of a command in this state: its result, if it has ended. -/
def Execution.told : Execution → List String
  | .waiting _ _ => []
  | .finished result => [resultText result]

namespace Loop

/-- A console that is about to take an event or a line. -/
structure Free (l : Loop) (s : Session) (taken : Nat) : Prop where
  going : l.ended = false
  begun : l.taken = some taken
  idle : l.current = none
  live : s.core.state.isOver = false

/-- The moves of a console, with the lines that begin and what is printed of those that end. Where
both an event and a line can be taken, either may be; and any part of what was typed can be
heard. -/
inductive Move (l : Loop) (s : Session) : List String → List String → Session → Loop → Prop where
  | begin (hl : l.ended = false) (ht : l.taken = none) :
      Move l s [] [] s { l with taken := some s.events.sent.length }
  | resume {id : Nat} {c : Command} {awaiting : Awaiting} {outcome : Channel.Outcome}
      {u : Session} {e : Execution} (hl : l.ended = false)
      (hc : l.current = some (c, id, awaiting)) (ho : s.outcome? id = some outcome)
      (he : continueExecution s l.json c id awaiting outcome = (u, e)) :
      Move l s [] e.told u (l.afterExecution u c e).1
  | sessionOver (hl : l.ended = false) (hc : l.current = none) (ho : s.core.state.isOver = true) :
      Move l s [] [] s { l with ended := true }
  | event {taken next : Nat} {received : Received Event} (hf : l.Free s taken)
      (he : s.events.receive taken = some (received, next)) :
      Move l s [] [] s { l with taken := some next }
  | hear {taken : Nat} {now later : List UInt8} (hf : l.Free s taken)
      (ht : l.typed = now ++ later) :
      Move l s [] [] s { l with typed := later, input := l.input ++ now }
  | blank {taken : Nat} {line rest : List UInt8} (hf : l.Free s taken)
      (ht : takeLine? l.input (l.closed && l.typed.isEmpty) = some (line, rest))
      (hb : (Text.decodeLossy line).toList.all Text.isBlank = true) :
      Move l s [] [] s { l with input := rest }
  | misuse {taken : Nat} {line rest : List UInt8} {m : Misuse} (hf : l.Free s taken)
      (ht : takeLine? l.input (l.closed && l.typed.isEmpty) = some (line, rest))
      (hb : (Text.decodeLossy line).toList.all Text.isBlank = false)
      (hr : Command.read (Text.decodeLossy line) = .error m) :
      Move l s [Text.decodeLossy line] ["error: " ++ m.message ++ "\n"] s { l with input := rest }
  | command {taken : Nat} {line rest : List UInt8} {c : Command} {u : Session} {e : Execution}
      (hf : l.Free s taken)
      (ht : takeLine? l.input (l.closed && l.typed.isEmpty) = some (line, rest))
      (hb : (Text.decodeLossy line).toList.all Text.isBlank = false)
      (hr : Command.read (Text.decodeLossy line) = .ok c)
      (he : execute s l.json c = (u, e)) :
      Move l s [Text.decodeLossy line] e.told u
        (({ l with input := rest } : Loop).afterExecution u c e).1
  | finish {taken : Nat} (hf : l.Free s taken) (hc : l.closed = true) (ht : l.typed = [])
      (hi : l.input = []) : Move l s [] [] s { l with ended := true }

variable {l l' : Loop} {s u : Session} {printed : String} {begun told : List String}
  {taken : Nat} {line rest : List UInt8}

theorem afterExecution_told (l : Loop) (s : Session) (c : Command) (e : Execution) :
    (l.afterExecution s c e).2 = String.join e.told := by
  cases e with
  | waiting => rfl
  | finished result => simp [Loop.afterExecution, Execution.told, String.join]

theorem runLine_blank {text : String} (hb : text.toList.all Text.isBlank = true) :
    l.runLine s text = (s, l, "") := by
  rw [runLine, if_pos hb]

/-- To run a line that was taken is a move, in which the line begins unless it is blank. -/
theorem move_runLine (hf : l.Free s taken)
    (ht : takeLine? l.input (l.closed && l.typed.isEmpty) = some (line, rest))
    (h : ({ l with input := rest } : Loop).runLine s (Text.decodeLossy line) = (u, l', printed)) :
    ∃ told, Move l s (unlessBlank (Text.decodeLossy line)) told u l' ∧
      printed = String.join told := by
  cases hb : (Text.decodeLossy line).toList.all Text.isBlank with
  | true =>
    rw [runLine_blank hb] at h
    cases h
    rw [unlessBlank, if_pos hb]
    exact ⟨_, .blank hf ht hb, rfl⟩
  | false =>
    rw [unlessBlank_of_not hb]
    rw [runLine, if_neg (Bool.not_eq_true _ ▸ hb)] at h
    split at h
    · next m hr =>
      cases h
      exact ⟨_, .misuse hf ht hb hr, by simp [String.join]⟩
    · next c hr =>
      obtain rfl : _ = u := congrArg Prod.fst h
      obtain rfl : _ = l' := congrArg (·.2.1) h
      obtain rfl : _ = printed := congrArg (·.2.2) h
      exact ⟨_, .command hf ht hb hr rfl, afterExecution_told _ _ _ _⟩

/-- Every step of a console is one of its moves. -/
theorem move_of_step (h : l.step? s = some (u, l', printed)) :
    ∃ begun told, Move l s begun told u l' ∧ printed = String.join told := by
  unfold step? at h
  split at h
  · cases h
  next hl =>
  rw [Bool.not_eq_true] at hl
  split at h
  · next ht =>
    cases h
    exact ⟨_, _, .begin hl ht, rfl⟩
  next taken ht =>
  split at h
  · next c id awaiting hc =>
    obtain ⟨outcome, ho, h⟩ := Option.map_eq_some_iff.1 h
    obtain rfl : _ = u := congrArg Prod.fst h
    obtain rfl : _ = l' := congrArg (·.2.1) h
    obtain rfl : _ = printed := congrArg (·.2.2) h
    exact ⟨_, _, .resume hl hc ho rfl, afterExecution_told _ _ _ _⟩
  next hc =>
  split at h
  · next ho =>
    cases h
    exact ⟨_, _, .sessionOver hl hc ho, rfl⟩
  next ho =>
  -- the console is free from here on: it goes on, and no command is under way
  have hf : l.Free s taken := ⟨hl, ht, hc, Bool.not_eq_true _ ▸ ho⟩
  split at h
  · next received next he =>
    cases h
    exact ⟨_, _, .event hf he, rfl⟩
  split at h
  · cases h
    exact ⟨_, _, .hear hf (List.append_nil _).symm, rfl⟩
  next htyped =>
  have htyped : l.typed.isEmpty = true := by simpa using htyped
  split at h
  · next line rest hline =>
    exact ⟨_, move_runLine hf (by rw [htyped, Bool.and_true]; exact hline) (Option.some.inj h)⟩
  · next hline =>
    split at h
    · next hclosed =>
      cases h
      rw [hclosed] at hline
      exact ⟨_, _, .finish hf hclosed (List.isEmpty_iff.1 htyped) (eq_nil_of_takeLine? hline), rfl⟩
    · cases h

end Loop
end MobDebug.Console
