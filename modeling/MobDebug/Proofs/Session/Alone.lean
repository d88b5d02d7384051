import MobDebug.Proofs.Session.Latest

/-! A call while no other is made: what happens between its steps is up to the connection, the pump
and the clock. -/
namespace MobDebug

namespace Debugger
variable {s u : Debugger} {n : Nat} {job : Job}

/-- A step of a run in which no job but this one does anything to the session. -/
def Alone (n : Nat) (s u : Debugger) : Prop :=
  Step s u ∧ ∀ m, m ≠ n → s.step? (.job m) = some u → u.session = s.session

/-- Runs in which no job but this one does anything to the session. -/
abbrev Sole (n : Nat) : Debugger → Debugger → Prop := Relation.ReflTransGen (Alone n)

theorem Sole.future (h : Sole n s u) : Future s u :=
  Relation.ReflTransGen.mono (fun _ _ hs => hs.1) _ _ h

/-- What happens to a session between the steps of its jobs. -/
inductive Passes (s u : Debugger) : Prop where
  | drift (hd : s.session.Drifts u.session)
  | brings {e : Channel.Event} (he : e ∈ s.session.brought) (hu : u.session = s.session.receive e)

theorem Alone.cases (h : Alone n s u) (hj : s.jobs.lookup n = some job)
    (hc : ∀ loop, job ≠ .console loop) :
    s.step? (.job n) = some u ∨ (u.jobs.lookup n = some job ∧ Passes s u) := by
  obtain ⟨hs, hothers⟩ := h
  rcases lookup_step hs hj hc with hown | hkept
  · exact .inl hown
  cases step_pumps hs with
  | job m hm =>
    by_cases hmn : m = n
    · exact .inl (hmn ▸ hm)
    · refine .inr ⟨hkept, .drift ?_⟩
      rw [hothers m hmn hm]
      exact .refl _
  | drift _ hd => exact .inr ⟨hkept, .drift hd⟩
  | brings e hu _ he => exact .inr ⟨hkept, .brings (List.mem_of_getElem? he) (by rw [hu])⟩

/-- While all pauses that are brought are stale, a session stays as it is, or it ends. -/
theorem Passes.core (h : Passes s u) (hstale : ∀ location after,
    .paused location after ∈ s.session.brought → after < s.session.core.resumedAt) :
    u.session.core = s.session.core ∨ u.session.core.ended := by
  cases h with
  | drift hd => exact .inl hd.core
  | @brings e he hu =>
    rw [hu]
    cases e with
    | paused location after =>
      exact .inl (congrArg (·.core) (Session.enterPaused_stale (hstale _ _ he) location))
    | output | debuggeeError => exact .inl rfl
    | closed error => exact .inr (ended_of_closed _ error)

/-- Nobody else does anything where all other jobs have ended. -/
theorem alone_of_ended (hs : Step s u)
    (h : s.jobs.all fun j => j.1 == n || j.2 matches .ended _) : Alone n s u := by
  refine ⟨hs, ?_⟩
  intro m hm hstep
  obtain ⟨job, session, job', text, hj, hjob, -⟩ := jobStep_eq_some hstep
  have hended := List.all_eq_true.1 h _ (mem_of_lookup hj)
  rw [beq_false_of_ne hm, Bool.false_or] at hended
  cases job with
  | ended => cases hjob
  | _ => cases hended

theorem Sole.next {v : Debugger} (hf : Sole n s u) (hs : Step u v)
    (h : u.jobs.all fun j => j.1 == n || j.2 matches .ended _) : Sole n s v :=
  hf.tail (alone_of_ended hs h)

end Debugger
end MobDebug
