import MobDebug.Proofs.Channel.Causes
import MobDebug.Proofs.Channel.Replies
import MobDebug.Proofs.Channel.Written

/-! What becomes of a response: it answers the command in flight or none, and it is an event or not.
Nothing else hands anything on. -/
namespace MobDebug
open Wire (Response Location)
open Channel (Request Outcome Event Run Ledger answersIn eventsIn)

/-- What a command ends with that is answered by the response. -/
def Wire.Response.outcome (r : Response) : Outcome :=
  if r.status.isError then
    .error (.debuggee r.status.code (String.ofList (Text.trimEnd r.body.toList)))
  else .ok r.body

/-- A response that is an event, whether or not it answers a command. -/
def Wire.Response.isEvent (r : Response) : Bool := r.status == .output || r.status == .paused

namespace Channel
variable {c d : Channel} {r : Response} {q : Request} {location : Location}

/-- The event that a response becomes. -/
inductive Tells : Response → Event → Prop where
  | output {body : String} : Tells ⟨.output, body⟩ (.output body)
  | paused {body : String} {location : Location} (after : Nat)
      (hl : Location.read body = .ok location) : Tells ⟨.paused, body⟩ (.paused location after)

/-- The command that a pause answers is in flight. -/
def Suspending (c : Channel) : Prop := ∃ r, c.inFlight = some r ∧ r.name = .suspend

theorem answer?_inFlight (hf : c.inFlight = some q) (o : Outcome) :
    c.answer? (fun _ => true) o = some { c with
      inFlight := none, signalled := true, journal := c.journal ++ [.answered q.id o] } :=
  answer?_eq_some.2 ⟨q, hf, rfl, rfl⟩

/-- A pause answers nothing, unless its command is in flight. -/
theorem answer?_pause_none (h : ¬ c.Suspending) (o : Outcome) :
    c.answer? Wire.CommandName.isAnsweredByPause o = none := by
  rw [Option.eq_none_iff_forall_not_mem]
  intro d hd
  obtain ⟨q, hf, hq, -⟩ := answer?_eq_some.1 hd
  exact h ⟨q, hf, by cases hname : q.name <;> simp [hname, Wire.CommandName.isAnsweredByPause] at hq ⊢⟩

/-- A response has been handed on: these answers have been given, and it has become an event if it
is one. -/
structure Handed (c d : Channel) (r : Response) (answers : List (Nat × Outcome)) : Prop where
  answers : answersIn d.journal = answersIn c.journal ++ answers
  events : ∃ es, eventsIn d.journal = eventsIn c.journal ++ es ∧
    List.Forall₂ Tells ([r].filter (·.isEvent)) es

/-- A response that answers nothing. -/
theorem handed_unasked (hd : c.dispatch r = .ok d)
    (hs : r.status = .output ∨ r.status = .paused ∧ ¬ c.Suspending) : Handed c d r [] := by
  obtain ⟨status, body⟩ := r
  rcases hs with hs | ⟨hs, hq⟩ <;> cases hs
  · cases hd
    exact ⟨by simp [record], [.output body], by simp [record], .cons .output .nil⟩
  · cases hl : Location.read body with
    | error => simp [dispatch, hl] at hd
    | ok location =>
      have hn := answer?_pause_none (c := c.record (.event (.paused location c.lastSent))) hq
      simp only [dispatch, hl, hn, Option.getD_none, Except.ok.injEq] at hd
      subst hd
      exact ⟨by simp [record], [.paused location c.lastSent], by simp [record],
        .cons (.paused _ hl) .nil⟩

/-- A response that answers the command in flight. -/
theorem handed_reply (hd : c.dispatch r = .ok d) (hf : c.inFlight = some q)
    (hs : r.status ≠ .output) (hp : r.status = .paused → q.name = .suspend) :
    Handed c d r [(q.id, r.outcome)] := by
  obtain ⟨status, body⟩ := r
  cases status with
  | output => exact absurd rfl hs
  | paused =>
    cases hl : Location.read body with
    | error => simp [dispatch, hl] at hd
    | ok location =>
      simp only [dispatch, hl, answer?, record, hf, Option.bind_some, hp rfl,
        Wire.CommandName.isAnsweredByPause, if_true, Option.getD_some, Except.ok.injEq] at hd
      subst hd
      exact ⟨by simp [Response.outcome, Wire.Status.isError], [.paused location c.lastSent],
        by simp, .cons (.paused _ hl) .nil⟩
  | _ =>
    simp only [dispatch, answer?_inFlight hf, Option.getD_some, Except.ok.injEq] at hd
    subst hd
    exact ⟨by simp [Response.outcome, Wire.Status.isError], [], by simp, .nil⟩

/-- Only a pause can be at fault where a response is handed on. -/
theorem dispatch_location {fault : ProtocolFault} (h : c.dispatch r = .error fault) :
    r.status = .paused ∧ Location.read r.body = .error fault := by
  cases dispatched_of_eq h with
  | garbled hs hl => exact ⟨hs, hl⟩

/-- Nothing has been handed on between two moments. -/
structure Still (c d : Channel) : Prop where
  answers : answersIn d.journal = answersIn c.journal
  events : eventsIn d.journal = eventsIn c.journal
  onWire : c.onWire <+: d.onWire

theorem still_of_send (h : Run (· = .send) c d) (hl : Ledger c) : Still c d := by
  obtain ⟨-, hanswers, hevents⟩ := quiet_of_send h
  exact ⟨hanswers, hevents, onWire_run h hl⟩

theorem still_of_ask (h : Step c .ask d) (hl : Ledger c) : Still c d := by
  refine ⟨?_, ?_, onWire_step h hl⟩
  all_goals cases h <;> simp

end Channel

namespace Link
variable {l m : Link} {t : Task}

/-- The bound of a body is never changed. -/
theorem step_limit (h : l.step? t = some m) : m.bodyLimit = l.bodyLimit := by
  cases t with
  | reader =>
    cases readerTurn_some h <;> rfl
  | writer => exact (writerStep_keeps h).2
  | watchdog id =>
    cases watchdogTurn_some h <;> rfl
  | debuggee =>
    obtain ⟨s, -, rfl⟩ := Option.map_eq_some_iff.1 h
    rfl

end Link

namespace Traffic
variable {t u : Traffic}

theorem step_limit (hs : Step t u) : u.link.bodyLimit = t.link.bodyLimit := by
  cases hs with
  | task _ hs => exact Link.step_limit hs
  | _ => rfl

/-- Whatever happens, nothing is handed on while as many bytes are to be read as before. -/
theorem still_step (hs : Step t u) (hb : Booked t) (hi : u.link.incoming = t.link.incoming)
    (ho : u.link.channel.closed = false) : Channel.Still t.link.channel u.link.channel := by
  cases hs with
  | submit _ hs => exact Channel.still_of_ask (Channel.submit_step hs) hb.ledger
  | cancel _ _ hs => exact Channel.still_of_ask (Channel.withdraw_step hs) hb.ledger
  | close => exact absurd (ho.symm.trans (Channel.fail_closed _ _)) nofun
  | task _ hs =>
    cases Link.step_went hs with
    | quiet hr => exact Channel.still_of_send hr hb.ledger
    | @handed _ rest hlt ha _ _ hrest =>
      rw [hrest] at hi
      rw [hi, Link.incoming, ha, List.append_nil] at hlt
      exact absurd hlt (Nat.lt_irrefl _)
    | failed _ hm =>
      rw [hm, Channel.fail_closed] at ho
      cases ho
  | forget | receive | outside | tick => exact ⟨rfl, rfl, List.prefix_rfl⟩

end Traffic
end MobDebug
