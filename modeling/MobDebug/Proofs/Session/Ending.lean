import MobDebug.Proofs.Session.Refusal

/-! How a session ends. Some calls cannot end it, others give the connection up, and what goes wrong
on the way terminates it. Then it allows no call any more. -/
namespace MobDebug
open Channel (Outcome)
open Wire (Command CommandName)

namespace Session
variable {s t : Session} {id : Nat} {awaiting : Awaiting} {o : Outcome} {p : Progress}

theorem resume_ended (s : Session) (operation : Operation) (name : CommandName) (next : State) :
    (s.resume operation name next).1.core.ended = s.core.ended := by
  unfold resume
  split
  · rfl
  · next hs => exact congrArg (·.ended) (link_of_submit (submitIn_eq_ok hs).2).2.2

theorem ask_ended (s : Session) (operation : Operation) (allowed : State → Bool)
    (command : Command) (awaiting : Awaiting) :
    (s.ask operation allowed command awaiting).1.core.ended = s.core.ended := by
  unfold ask
  split
  · rfl
  · next hs => exact congrArg (·.ended) (link_of_submit (submitIn_eq_ok hs).2).2.2

theorem evaluate_ended (s : Session) (frame : Option Nat) (expression : String)
    (awaiting : Awaiting) :
    (s.evaluate frame expression awaiting).1.core.ended = s.core.ended := by
  unfold evaluate
  split
  · rfl
  · next hs =>
    obtain ⟨-, command, -, hs⟩ := submitEvaluation_eq_ok hs
    exact congrArg (·.ended) (link_of_submit hs).2.2

theorem setBreakpoint_ended (s : Session) (b : Breakpoint) :
    (s.setBreakpoint b).1.core.ended = s.core.ended := by
  unfold setBreakpoint
  dsimp only
  split
  · rfl
  split
  · rfl
  split
  · rfl
  split
  · rfl
  · next hs => exact congrArg (·.ended) (link_of_submit hs).2.2

theorem clearBreakpoint_ended (s : Session) (b : Breakpoint) :
    (s.clearBreakpoint b).1.core.ended = s.core.ended := by
  unfold clearBreakpoint
  dsimp only
  split
  · rfl
  split
  · rfl
  split
  · rfl
  split
  · rfl
  · next hs => exact congrArg (·.ended) (link_of_submit hs).2.2

theorem selectFrame_ended (s : Session) (n : Nat) :
    (s.selectFrame n).1.core.ended = s.core.ended := by
  unfold selectFrame
  split
  · rfl
  split <;> rfl

/-- A call that gives the connection up enters the last state. -/
theorem finish_ended (he : s.core.ended = false) (operation : Operation) (name : CommandName)
    (last : State) : (s.finish operation name last).1.core.ended = false ∨
      (s.finish operation name last).1.core.state = last := by
  unfold finish
  split
  · exact .inl he
  · dsimp only
    split <;> exact .inr rfl

theorem greeted_ended {bs : List Breakpoint} (he : s.core.ended = false) (hg : Greeted s bs t p) :
    t.core.ended = false ∨ t.core.state = .terminated := by
  cases hg with
  | done => exact .inl he
  | told hs => exact .inl ((congrArg (·.ended) (link_of_submit hs).2.2).trans he)
  | broken => exact .inr rfl

theorem attach_ended (he : s.core.ended = false) (stream : Stream) :
    (s.attach stream).1.core.ended = false ∨ (s.attach stream).1.core.state = .terminated := by
  unfold attach
  dsimp only
  split
  · exact .inl he
  split
  · exact greeted_ended (s := s.installed stream) he (greet_greeted _ _)
  split
  · next hs => exact .inl ((congrArg (·.ended) (link_of_submit hs).2.2).trans he)
  · exact .inr rfl

theorem connect_ended (he : s.core.ended = false) (connection : Except Error Stream) :
    (s.connect connection).1.core.ended = false ∨
      (s.connect connection).1.core.state = .terminated := by
  unfold connect
  split
  · exact .inl he
  split
  · exact .inl he
  · exact attach_ended he _

/-- The call that a session does not survive terminates it, unless it detaches. -/
theorem start_ended (he : s.core.ended = false) (call : Call) :
    (s.start call).1.core.ended = false ∨ (s.start call).1.core.state = .terminated ∨
      call = .detach := by
  cases call with
  | attach stream => exact (attach_ended he stream).imp_right .inl
  | connect connection => exact (connect_ended he connection).imp_right .inl
  | run => exact .inl ((resume_ended _ _ _ _).trans he)
  | step kind => cases kind <;> exact .inl ((resume_ended _ _ _ _).trans he)
  | pause | stack | setOutput => exact .inl ((ask_ended _ _ _ _ _).trans he)
  | setBreakpoint b => exact .inl ((setBreakpoint_ended s b).trans he)
  | clearBreakpoint b => exact .inl ((clearBreakpoint_ended s b).trans he)
  | selectFrame n => exact .inl ((selectFrame_ended s n).trans he)
  | evaluate | evaluateAll => exact .inl ((evaluate_ended _ _ _ _).trans he)
  | detach => exact .inr (.inr rfl)
  | exit => exact (finish_ended he _ _ _).imp_right .inl

/-- So does the next part of a call. -/
theorem continued_ended (he : s.core.ended = false) (hc : Continued s id awaiting o t p) :
    t.core.ended = false ∨ t.core.state = .terminated := by
  cases hc with
  | greeted hg => exact greeted_ended he hg
  | @dropped current _ _ message _ _ hg =>
    exact greeted_ended (s := s.dropping current message) he hg
  | broken => exact .inr rfl
  | lost =>
    rcases s.connectionLost_cases with ⟨-, h⟩ | ⟨-, h⟩ <;> rw [h]
    · exact .inl he
    · exact .inr rfl
  | @paused _ location =>
    rcases s.enterPaused_cases location id with h | ⟨-, -, h⟩ <;> rw [h] <;> exact .inl he
  | _ => exact .inl he

theorem receive_ended (he : s.core.ended = false) (e : Channel.Event) :
    (s.receive e).core.ended = false ∨ (s.receive e).core.state = .terminated := by
  cases e with
  | paused location after =>
    change (s.enterPaused location after).core.ended = false ∨ _
    rcases s.enterPaused_cases location after with h | ⟨-, -, h⟩ <;> rw [h] <;> exact .inl he
  | output | debuggeeError => exact .inl he
  | closed =>
    change s.connectionLost.core.ended = false ∨ s.connectionLost.core.state = .terminated
    rcases s.connectionLost_cases with ⟨-, h⟩ | ⟨-, h⟩ <;> rw [h]
    · exact .inl he
    · exact .inr rfl

/-- A session that has ended is paused nowhere. -/
theorem Phase.nowhere (h : s.Phase) (he : s.core.ended) : s.core.location = none := by
  cases h with
  | new _ hopen | live _ hopen => exact absurd (hopen.symm.trans he) nofun
  | past _ _ _ hp => exact hp

/-- A session that has ended allows no call. -/
theorem Phase.illegal (h : s.Phase) (he : s.core.ended) (call : Call) : ¬ call.Legal s := by
  have hopen : s.core.ended ≠ false := by
    rw [he]
    exact nofun
  have hlive (hs : s.core.state.isLive) : False := hopen (h.of_isLive hs).2.1
  have hpaused (hs : s.core.state = .paused) : False := hlive (by rw [hs]; rfl)
  cases call with
  | attach | connect => exact fun hl => hopen hl.2
  | setBreakpoint | clearBreakpoint => exact hopen
  | pause =>
    rintro (hs | hs)
    · exact hlive (by rw [hs]; rfl)
    · exact hlive (by rw [hs]; rfl)
  | detach | exit => exact fun hs => hlive ((isLive_iff _).2 hs)
  | run | step | selectFrame | evaluate | evaluateAll | stack | setOutput => exact hpaused

end Session

end MobDebug
