import MobDebug.Proofs.Session.Alone
import MobDebug.Proofs.Session.Rooted

/-! A command to resume the program that the debuggee rejects. The call takes its resumption back:
the session is in its pause again, at the same place and with the same breakpoints, but the frame
that was selected there is forgotten. -/
namespace MobDebug
open Session (Call Awaiting Core Guarded Operation State)
open Channel (acceptedIn sentIn)
open Wire (CommandName Location)

namespace Session
variable {s : Session} {call : Call} {id : Nat} {awaiting : Awaiting} {operation : Operation}
  {name : CommandName} {next : State}

/-- The calls that resume the program. -/
def Call.resumes : Call → Bool
  | .run => true
  | .step _ => true
  | _ => false

theorem resume_waiting (h : (s.resume operation name next).2 = .waiting id awaiting) :
    ∃ t, s.core.state = .paused ∧ s.submit operation { name } = .ok (id, t) ∧
      (s.resume operation name next).1 = t.resuming id next ∧
      awaiting = .resume next s.core.location := by
  unfold resume at h ⊢
  split at h
  · cases h
  · next other t hs =>
    obtain ⟨hp, hs⟩ := submitIn_eq_ok hs
    obtain ⟨l, c, -, -, rfl⟩ := submit_eq_ok hs
    cases h
    exact ⟨_, by simpa using hp, hs, rfl, rfl⟩

/-- A call that resumes the program and waits has left the pause with its command. -/
theorem start_resuming (hc : call.resumes) (h : (s.start call).2 = .waiting id awaiting) :
    ∃ (operation : Operation) (name : CommandName) (next : State) (t : Session),
      name.resumes ∧ s.core.state = .paused ∧ s.submit operation { name } = .ok (id, t) ∧
        (s.start call).1 = t.resuming id next ∧ awaiting = .resume next s.core.location := by
  cases call with
  | run =>
    obtain ⟨t, hp, hs, ht, ha⟩ := resume_waiting h
    exact ⟨_, _, _, t, rfl, hp, hs, ht, ha⟩
  | step kind =>
    cases kind <;>
    · obtain ⟨t, hp, hs, ht, ha⟩ := resume_waiting h
      exact ⟨_, _, _, t, rfl, hp, hs, ht, ha⟩
  | _ => cases hc

/-- What was read before a command that resumes the program is older than that. -/
theorem stale_of_submit {t : Session} {location : Location} {after : Nat} (hg : Guarded s)
    (ht : Guarded (t.resuming id next)) (hres : name.resumes)
    (hs : s.submit operation { name } = .ok (id, t)) (hm : .paused location after ∈ s.brought) :
    after < id := by
  obtain ⟨pre, e, post, hj, he⟩ := Channel.split_of_told hm
  cases e with
  | event e =>
    cases he
    obtain ⟨r, hr, hid, hname⟩ := asked_submit hs
    have hnew : r.id ∉ sentIn pre := by
      intro hsent
      refine fresh_submit hg hs ?_
      rw [← hid, hj]
      simp [hsent]
    obtain ⟨k, hk⟩ := (Carries.submit hs).journal
    obtain ⟨l, c, -, -, rfl⟩ := submit_eq_ok hs
    have hsplit : c.journal = pre ++ .event (.paused location after) :: (post ++ k) := by
      rw [hj, List.append_assoc] at hk
      exact hk.symm
    exact (ht _ rfl).after_lt hsplit hr (hname ▸ hres) hnew
  | _ => cases he

/-- What a session knows that has left its pause. -/
def Core.resuming (c : Core) (id : Nat) (next : State) : Core :=
  { c with resumedAt := id, state := next, frame := 0, location := none }

/-- What a session knows that is back in its pause. -/
def Core.resumedInVain (c : Core) (id : Nat) : Core :=
  { c with resumedAt := id, frame := 0 }

end Session

namespace Debugger
variable {s u v f : Debugger} {n id code : Nat} {call : Call} {keeps : Bool} {awaiting : Awaiting}
  {next : State} {e : Error} {message : String} {operation : Operation} {name : CommandName}

/-- A job waits for the reply to a command that resumes the program, or has ended with its
rejection. Until then the session is as the job has left it, and then as it was, unless the
connection was lost. -/
inductive Rejecting (c : Core) (n id : Nat) (next : State) (keeps : Bool) (e : Error)
    (u : Debugger) : Prop where
  | waits (hj : u.jobs.lookup n = some (.waiting id (.resume next c.location) keeps))
      (hc : u.session.core.ended = false → u.session.core = c.resuming id next)
  | rejected (hj : u.jobs.lookup n = some (.ended (.answer (.error e))))
      (hc : u.session.core.ended = false → u.session.core = c.resumedInVain id)

variable {c : Core}

/-- The pump and the connection leave a job as it is whose resumption is rejected. -/
theorem Rejecting.passes (h : Rejecting c n id next keeps e s) (hr : Reachable s)
    (hs : Alone n s u) (hown : s.step? (.job n) ≠ some u)
    (hstale : ∀ location after, .paused location after ∈ s.session.brought → after < id) :
    Rejecting c n id next keeps e u := by
  have hcore {k : Core} (hk : k.resumedAt = id) (hp : Passes s u)
      (hc : s.session.core.ended = false → s.session.core = k) :
      u.session.core.ended = false → u.session.core = k := by
    intro he
    have hopen := not_ended_before hs.1 hr he
    have hsame := hc hopen
    rcases hp.core (by rw [hsame, hk]; exact hstale) with hu | hu
    · rw [hu, hsame]
    · exact absurd (he.symm.trans hu) nofun
  cases h with
  | waits hj hc =>
    obtain ⟨hj, hp⟩ := (hs.cases hj (by simp)).resolve_left hown
    exact .waits hj (hcore rfl hp hc)
  | rejected hj hc =>
    obtain ⟨hj, hp⟩ := (hs.cases hj (by simp)).resolve_left hown
    exact .rejected hj (hcore rfl hp hc)

/-- In its own step the job goes back to its pause. -/
theorem Rejecting.own (h : Rejecting c n id next keeps e s) (hr : Reachable s)
    (hs : s.step? (.job n) = some u) (hp : c.state = .paused) (he : e.kind = .debuggee)
    (ho : ∀ o, s.session.outcome? id = some o → o = .error e) :
    Rejecting c n id next keeps e u := by
  cases h with
  | waits hj hc =>
    obtain ⟨o, hout, hd, hu⟩ := step_waiting hj hs
    obtain rfl := ho o hout
    refine .rejected hu fun hopen => ?_
    have hsame := hc (not_ended_before (.task _ hs) hr hopen)
    have hstate : s.session.core.state = next := by
      rw [hsame]
      rfl
    rw [hd.core]
    simp only [Session.continueWith, he, hstate, if_true]
    change { s.session.core with state := .paused, location := c.location } = _
    rw [hsame, ← hp]
    rfl
  | rejected hj hc =>
    obtain ⟨session, job', text, hnone, -⟩ := jobStep_own hj hs
    cases hnone

/-- While nobody else does anything to the session and no pause is read, nothing else comes of a
command to resume the program that the debuggee rejects. -/
theorem rejecting_sole (hf : Sole n f u) (hr : Reachable f) (hp : c.state = .paused)
    (he : e.kind = .debuggee) (h : Rejecting c n id next keeps e f)
    (hstale : ∀ location after, .paused location after ∈ u.session.brought → after < id)
    (ho : ∀ o, u.session.outcome? id = some o → o = .error e) :
    Rejecting c n id next keeps e u := by
  induction hf with
  | refl => exact h
  | @tail v u hf hs ih =>
    have hv := hr.future (Sole.future hf)
    have hbrought := (carries_turn (step_turn hs.1)).brought
    have hstale := fun location after hm => hstale location after (hbrought.subset hm)
    have ho := fun o hout => ho o (outcome_future hv (.single hs.1) hout)
    have ih := ih hstale ho
    by_cases hown : v.step? (.job n) = some u
    · exact ih.own hv hown hp he ho
    · exact ih.passes hv hs hown hstale

/-- A call that resumes the program and waits has left a pause. No pause that was read before is
younger than its command. -/
theorem rejecting_begun (h : Reachable s) (hc : call.resumes)
    (hj : s.jobs.lookup n = some (.call call keeps)) (hs : s.step? (.job n) = some f)
    (hw : f.jobs.lookup n = some (.waiting id awaiting keeps)) (e : Error) :
    s.session.core.state = .paused ∧
    (∀ location after, .paused location after ∈ s.session.brought → after < id) ∧
    ∃ next, Rejecting s.session.core n id next keeps e f := by
  obtain ⟨hd, hlookup⟩ := step_call hj hs
  have hwait := callJob_waiting (Option.some.inj (hlookup.symm.trans hw))
  have hg := guarded_reachable h
  have hguarded := hg.start call
  obtain ⟨operation, name, next, t, hres, hpaused, hsub, ht, rfl⟩ :=
    Session.start_resuming hc hwait
  rw [ht] at hd hguarded
  have hcore : f.session.core = s.session.core.resuming id next := by
    rw [hd.core, Session.resuming, (Session.link_of_submit hsub).2.2]
    rfl
  exact ⟨hpaused, fun _ _ hm => Session.stale_of_submit hg hguarded hres hsub hm, next,
    .waits hw fun _ => hcore⟩

/-- A call that resumes the program leaves its pause with a command, and the debuggee rejects that.
Meanwhile no other call does anything to the session and no pause is read. When the call goes on no
more it has ended with the rejection, and unless the connection was lost the session is back in its
pause: the same state, the same location and the same breakpoints. Whatever frame was selected, the
innermost one is now. -/
theorem rejected_resume_restores (h : Reachable s) (hc : call.resumes)
    (hj : s.jobs.lookup n = some (.call call keeps)) (hs : s.step? (.job n) = some f)
    (hw : f.jobs.lookup n = some (.waiting id awaiting keeps)) (hf : Sole n f u)
    (hpause : ∀ location after,
      .paused location after ∉ u.session.brought.drop s.session.brought.length)
    (ho : u.session.outcome? id = some (.error (.debuggee code message)))
    (hq : u.step? (.job n) = none) :
    u.jobs.lookup n = some (.ended (.answer (.error (.debuggee code message)))) ∧
    (u.session.core.ended = false →
      u.session.core.snapshot = { s.session.core.snapshot with frame := 0 }) := by
  obtain ⟨hpaused, hbefore, next, hbegun⟩ := rejecting_begun h hc hj hs hw _
  have hbrought : s.session.brought <+: u.session.brought :=
    (carries_turn (step_turn (.task _ hs))).brought.trans (carries_future hf.future).brought
  have hstale (location : Location) (after : Nat)
      (hm : .paused location after ∈ u.session.brought) : after < id := by
    obtain ⟨later, hlater⟩ := hbrought
    rw [← hlater, List.drop_left] at hpause
    rw [← hlater] at hm
    rcases List.mem_append.1 hm with hm | hm
    · exact hbefore location after hm
    · exact absurd hm (hpause location after)
  have hend := rejecting_sole hf (h.step (.task _ hs)) hpaused rfl hbegun hstale
    (fun o hout => Option.some.inj (hout.symm.trans ho))
  cases hend with
  | waits hj =>
    rw [step?, hj, Option.bind_some, jobStep?, ho] at hq
    cases hq
  | rejected hj hsame =>
    refine ⟨hj, fun hopen => ?_⟩
    rw [hsame hopen]
    rfl

/-- A program is paused, and the debuggee rejects the command to step over a call. -/
theorem rejected_resume_restores_over : ∃ s f u, Reachable s ∧
    s.session.core.snapshot = ⟨.paused, 0, some ⟨"a.lua", 1⟩, []⟩ ∧
    s.jobs.lookup 1 = some (.call (.step .over) true) ∧ s.step? (.job 1) = some f ∧ Sole 1 f u ∧
    u.jobs.lookup 1 = some (.ended (.answer (.error (.debuggee 400 "no")))) ∧
    u.session.core.snapshot = ⟨.paused, 0, some ⟨"a.lua", 1⟩, []⟩ := by
  have h : Reachable (.new {}) := .new {}
  have h := h.step (.begin 0 rfl rfl (.call (.attach {}) true))
  have h := h.step (.task (.job 0) rfl)
  have h := h.step (.outside { arriving := Text.bytes "202 Paused 7\na.lua 1" } rfl rfl)
  have h := h.step (.task (.link .reader) rfl)
  have h := h.step (.task (.link .reader) rfl)
  have h := h.step (.task .pump rfl)
  have h := h.step (.begin 1 rfl rfl (.call (.step .over) true))
  have hstay {f : Debugger} (_ : Reachable f) : Sole 1 f f := .refl
  have hf := hstay (h.step (.task (.job 1) rfl))
  have hf := hf.next (.task (.link .writer) rfl) (by decide)
  have hf := hf.next (.task (.link .writer) rfl) (by decide)
  have hf := hf.next (.outside
    { arriving := Text.bytes "400 Bad Request 2\nno", written := Text.bytes "OVER\n" } rfl
    (by decide)) (by decide)
  have hf := hf.next (.task (.link .reader) rfl) (by decide)
  have hf := hf.next (.task (.link .reader) rfl) (by decide)
  have hf := hf.next (.task (.job 1) rfl) (by decide)
  obtain ⟨hj, hsnapshot⟩ :=
    rejected_resume_restores h rfl rfl rfl rfl hf (fun _ _ => nofun) rfl rfl
  exact ⟨_, _, _, h, rfl, rfl, rfl, hf, hj, hsnapshot rfl⟩

/-- A frame was selected where the program is paused, and the debuggee rejects the command to go on.
The call says so, and the session is in its pause again, but the selected frame is lost. -/
theorem rejected_resume_loses_frame : ∃ s f u, Reachable s ∧
    s.session.core.snapshot = ⟨.paused, 2, some ⟨"a.lua", 1⟩, []⟩ ∧
    s.jobs.lookup 2 = some (.call .run true) ∧ s.step? (.job 2) = some f ∧ Sole 2 f u ∧
    (∀ location after,
      .paused location after ∉ u.session.brought.drop s.session.brought.length) ∧
    u.jobs.lookup 2 = some (.ended (.answer (.error (.debuggee 400 "no")))) ∧
    u.session.core.snapshot = ⟨.paused, 0, some ⟨"a.lua", 1⟩, []⟩ := by
  have h : Reachable (.new {}) := .new {}
  have h := h.step (.begin 0 rfl rfl (.call (.attach {}) true))
  have h := h.step (.task (.job 0) rfl)
  have h := h.step (.outside { arriving := Text.bytes "202 Paused 7\na.lua 1" } rfl rfl)
  have h := h.step (.task (.link .reader) rfl)
  have h := h.step (.task (.link .reader) rfl)
  have h := h.step (.task .pump rfl)
  have h := h.step (.begin 1 rfl rfl (.call (.selectFrame 2) true))
  have h := h.step (.task (.job 1) rfl)
  have h := h.step (.begin 2 rfl rfl (.call .run true))
  have hstay {f : Debugger} (_ : Reachable f) : Sole 2 f f := .refl
  have hf := hstay (h.step (.task (.job 2) rfl))
  have hf := hf.next (.task (.link .writer) rfl) (by decide)
  have hf := hf.next (.task (.link .writer) rfl) (by decide)
  have hf := hf.next (.outside
    { arriving := Text.bytes "400 Bad Request 2\nno", written := Text.bytes "RUN\n" } rfl
    (by decide)) (by decide)
  have hf := hf.next (.task (.link .reader) rfl) (by decide)
  have hf := hf.next (.task (.link .reader) rfl) (by decide)
  have hf := hf.next (.task (.job 2) rfl) (by decide)
  exact ⟨_, _, _, h, rfl, rfl, rfl, hf, fun _ _ => nofun, rfl, rfl⟩

end Debugger
end MobDebug
