import MobDebug.Proofs.Session.Ending
import MobDebug.Proofs.Session.Pump

/-! The loss of the connection. Every call that waits for a reply ends with the error with which the
connection has failed, the session is over once it has been told, and then it refuses all calls. -/
namespace MobDebug
open Session (Awaiting Began Call Callback Continued Delivery Greeted Operation Progress State)
open Channel (Outcome acceptedIn answersIn closingsIn keptIn withdrawnIn)
open Wire (Command CommandName)

theorem Link.Cause.not_rejected {l : Link} {e : Error} (h : l.Cause e) : e.kind ≠ .debuggee := by
  cases h with
  | @ended part => cases part <;> exact nofun
  | _ => exact nofun

namespace Channel
variable {c : Channel} {r : Request} {e : Error}

theorem Ledger.outstanding_of_unanswered (h : Ledger c) (hw : withdrawnIn c.journal = [])
    (hr : r ∈ acceptedIn c.journal) (ho : c.outcome? r.id = none) : r ∈ c.outstanding := by
  obtain ⟨done, hdone, hids⟩ := h.account
  have hkept : r ∈ done ++ c.outstanding := by
    rwa [← hdone, keptIn_of_untaken hw]
  rcases List.mem_append.1 hkept with hr | hr
  · have hid : r.id ∈ (answersIn c.journal).map (·.1) := hids ▸ List.mem_map_of_mem hr
    have hsome := h.outcome?_isSome.2 hid
    rw [ho] at hsome
    cases hsome
  · exact hr

/-- A channel that fails answers whatever is outstanding. -/
theorem outcome?_fail (h : Ledger (c.fail e)) (ho : c.closed = false) (hr : r ∈ c.outstanding) :
    (c.fail e).outcome? r.id = some (.error e) := by
  refine h.outcome?_eq_some.2 ?_
  rw [fail_eq ho]
  simp only [told_append, answersIn_ending]
  exact List.mem_append_right _ (List.mem_map.2 ⟨r, hr, rfl⟩)

/-- The end of a channel tells why it has failed. -/
theorem fail_inj {error : Error} (ho : c.closed = false) (h : c.fail e = c.fail error) :
    e = error := by
  have hclosings := congrArg (fun d => closingsIn d.journal) h
  simpa [fail_eq ho, told_append, closingsIn_ending] using hclosings

end Channel

/-- Where a task closes the channel, it has a cause for that. -/
theorem Link.cause_of_fail {l m : Link} {t : Task} {e : Error} (h : l.step? t = some m)
    (ho : l.channel.closed = false) (hm : m.channel = l.channel.fail e) : l.Cause e := by
  have hc : m.channel.closed := by rw [hm, Channel.fail_closed]
  cases step_went h with
  | quiet hr => exact absurd (ho.symm.trans ((Channel.quiet_of_send hr).1.symm.trans hc)) nofun
  | handed _ _ hd => exact absurd (ho.symm.trans ((Channel.dispatch_closed hd).symm.trans hc)) nofun
  | failed hcause hm' => exact Channel.fail_inj ho (hm.symm.trans hm') ▸ hcause

namespace Session
variable {s t : Session} {id : Nat} {awaiting : Awaiting} {call : Call} {e : Error} {o : Outcome}
  {p : Progress}

/-- A call whose command has failed ends with the error. -/
theorem continueWith_failed (he : e.kind ≠ .debuggee) (ha : awaiting ≠ .finish) :
    (s.continueWith id awaiting (.error e)).2 = .finished (.error e) := by
  cases awaiting with
  | attach current rest =>
    cases e with
    | debuggee => exact absurd rfl he
    | _ => rfl
  | finish => exact absurd rfl ha
  | _ => rfl

theorem greeted_attaching {bs : List Breakpoint} (hg : Greeted s bs t p) :
    ∀ w ∈ p.awaiting?, w.2.isAttaching := by
  cases hg with
  | done | broken => nofun
  | told =>
    rintro _ ⟨⟩
    rfl

end Session

namespace Console

/-- A console that has ended runs no command. -/
def Loop.Idle (l : Loop) : Prop := l.ended → l.current = none

theorem idle_of_open {l : Loop} (h : l.ended = false) : l.Idle :=
  fun he => absurd (h.symm.trans he) nofun

theorem idle_afterExecution {l : Loop} (h : l.ended = false) (s : Session) (c : Command)
    (e : Execution) : (l.afterExecution s c e).1.Idle := by
  cases e with
  | waiting => exact idle_of_open h
  | finished => exact fun _ => rfl

theorem idle_step {l m : Loop} {s t : Session} {text : String}
    (h : l.step? s = some (t, m, text)) : m.Idle := by
  obtain ⟨begun, told, hmove, -⟩ := Loop.move_of_step h
  cases hmove with
  | begin hl => exact idle_of_open hl
  | resume hl => exact idle_afterExecution hl _ _ _
  | sessionOver _ hc => exact fun _ => hc
  | event hf | hear hf | blank hf | misuse hf => exact idle_of_open hf.going
  | @command _ _ rest _ _ _ hf =>
    have hopen : { l with input := rest }.ended = false := hf.going
    exact idle_afterExecution hopen _ _ _
  | finish hf => exact fun _ => hf.idle

end Console

/-- The job runs no command on a console that has ended. -/
def Job.Idle : Job → Prop
  | .console loop => loop.Idle
  | _ => True

/-- How a job ends whose command has failed. -/
def Job.failure? (e : Error) : Job → Option JobResult
  | .waiting _ _ _ => some (.answer (.error e))
  | .delivery _ ran => some (.callbacks (ran ++ [.error e]))
  | .executing _ _ _ _ => some (.text (.error e))
  | _ => none

namespace Debugger
variable {s u v f : Debugger} {l m : Link} {n id : Nat} {job job' : Job} {awaiting : Awaiting}
  {e : Error} {result : JobResult} {session : Session} {text : String}

/-! ### Jobs on a lost connection -/

theorem idle_callJob (keeps : Bool) (p : Progress) : (callJob keeps p).Idle := by
  cases p <;> trivial

theorem idle_deliveryJob (ran : List Callback) (d : Delivery) : (deliveryJob ran d).Idle := by
  cases d <;> trivial

theorem idle_commandJob (json : Bool) (c : Console.Command) (x : Console.Execution) :
    (commandJob json c x).Idle := by
  cases x <;> trivial

theorem idle_jobStep (h : s.jobStep? job = some (session, job', text)) : job'.Idle := by
  cases job with
  | call call keeps =>
    obtain rfl : _ = job' := congrArg (·.2.1) (Option.some.inj h)
    exact idle_callJob _ _
  | waiting =>
    obtain ⟨o, -, h⟩ := Option.map_eq_some_iff.1 h
    obtain rfl : _ = job' := congrArg (·.2.1) h
    exact idle_callJob _ _
  | delivery =>
    obtain ⟨⟨t, d, now⟩, -, h⟩ := Option.map_eq_some_iff.1 h
    cases h
    exact idle_deliveryJob _ _
  | command json line =>
    simp only [jobStep?] at h
    split at h
    · cases h
      trivial
    · obtain rfl : _ = job' := congrArg (·.2.1) (Option.some.inj h)
      exact idle_commandJob _ _ _
  | executing =>
    obtain ⟨o, -, h⟩ := Option.map_eq_some_iff.1 h
    obtain rfl : _ = job' := congrArg (·.2.1) h
    exact idle_commandJob _ _ _
  | console loop =>
    obtain ⟨⟨t, m, text⟩, hs, h⟩ := Option.map_eq_some_iff.1 h
    cases h
    exact Console.idle_step hs
  | printer json taken last =>
    simp only [jobStep?] at h
    split at h
    · cases h
      trivial
    · cases h
      trivial
    · split at h <;> cases h
      trivial
  | ended => cases h

theorem idle_new {t : Session} (h : job.New t) : job.Idle := by
  cases h with
  | console => exact fun _ => rfl
  | _ => trivial

theorem mem_onConsole {f : Console.Loop → Console.Loop} {p : Nat × Job}
    (h : p ∈ (s.onConsole f).jobs) :
    p ∈ s.jobs ∨ ∃ loop, (p.1, .console loop) ∈ s.jobs ∧ p.2 = .console (f loop) := by
  have hfirst (jobs : List (Nat × Job)) (h : p ∈ onConsole.onFirst f jobs) :
      p ∈ jobs ∨ ∃ loop, (p.1, .console loop) ∈ jobs ∧ p.2 = .console (f loop) := by
    fun_induction onConsole.onFirst f jobs with
    | case1 => exact .inl h
    | case2 m loop rest =>
      rcases List.mem_cons.1 h with rfl | h
      · exact .inr ⟨loop, List.mem_cons_self, rfl⟩
      · exact .inl (List.mem_cons_of_mem _ h)
    | case3 other rest _ ih =>
      rcases List.mem_cons.1 h with rfl | h
      · exact .inl List.mem_cons_self
      · rcases ih h with h | ⟨loop, h, he⟩
        · exact .inl (List.mem_cons_of_mem _ h)
        · exact .inr ⟨loop, List.mem_cons_of_mem _ h, he⟩
  rw [onConsole, List.mem_reverse] at h
  simpa using hfirst _ h

theorem idle_reachable (h : Reachable s) : ∀ p ∈ s.jobs, p.2.Idle := by
  induction h with
  | new config =>
    intro p hp
    cases hp
  | @step s u _ hs ih =>
    intro p hp
    rcases jobs_step hs with ⟨n, h⟩ | he | ⟨id, job, -, hj, he⟩ | ⟨f, hf, he⟩
    · obtain ⟨job, session, job', text, -, hjob, rfl⟩ := jobStep_eq_some h
      rw [jobs_release] at hp
      obtain ⟨q, hq, rfl⟩ := List.mem_map.1 hp
      dsimp only
      split
      · exact idle_jobStep hjob
      · exact ih q hq
    · exact ih p (he ▸ hp)
    · rw [he] at hp
      rcases List.mem_append.1 hp with hp | hp
      · exact ih p hp
      · obtain rfl := List.mem_singleton.1 hp
        exact idle_new hj
    · rw [he] at hp
      rcases mem_onConsole hp with hp | ⟨loop, hloop, hp⟩
      · exact ih p hp
      · have hidle : loop.Idle := ih _ hloop
        rw [hp]
        exact fun hended => (hf loop).1.trans (hidle ((hf loop).2 ▸ hended))

/-- A call gives the connection up before it waits for the debuggee to hang up. -/
theorem ended_of_finish (h : Reachable s) :
    ∀ n id, s.awaits n = some (id, .finish) → s.session.core.ended := by
  induction h with
  | new config => nofun
  | @step s u hr hs ih =>
    -- only the call that takes the step comes to wait for something else
    have hkept {p : Progress} {k : Nat} (ha : u.awaits = Function.update s.awaits k p.awaiting?)
        (hp : ∀ id, p.awaiting? = some (id, .finish) → u.session.core.ended) :
        ∀ n id, u.awaits n = some (id, .finish) → u.session.core.ended := by
      intro n id hn
      rw [ha, Function.update_apply] at hn
      split at hn
      · exact hp id hn
      · exact ended_step hs hr (ih n id hn)
    cases step_turn hs with
    | drift ha | receive ha =>
      intro n id hn
      rw [ha] at hn
      exact ended_step hs hr (ih n id hn)
    | begin k _ hb hd ha =>
      refine hkept ha fun id hp => ?_
      rw [hd.core]
      cases hb with
      | leaving => rfl
      | attached _ _ _ hg => exact absurd (Session.greeted_attaching hg _ hp) nofun
      | edited b on => cases on <;> cases hp
      | asked _ hasks =>
        cases hp
        cases hasks
      | _ => cases hp
    | resume k _ _ hc _ ha =>
      refine hkept ha fun id hp => ?_
      cases hc with
      | greeted hg | dropped hg => exact absurd (Session.greeted_attaching hg _ hp) nofun
      | _ => cases hp

/-- A job that has its reply goes on. -/
theorem step_of_outcome (h : Reachable s) {w : Nat × Awaiting} {o : Outcome}
    (hn : s.awaits n = some w) (ho : s.session.outcome? w.1 = some o) : s.step? (.job n) ≠ none := by
  obtain ⟨job, hj, hw⟩ := Option.bind_eq_some_iff.1 hn
  intro hwaits
  rw [step?, hj, Option.bind_some, Option.map_eq_none_iff] at hwaits
  cases job with
  | waiting id awaiting keeps =>
    cases hw
    rw [jobStep?, ho] at hwaits
    cases hwaits
  | delivery d ran =>
    cases d with
    | waiting id maxDepth =>
      cases hw
      rw [jobStep?, Session.deliver?, ho] at hwaits
      cases hwaits
    | asking | finished => cases hw
  | executing json c id awaiting =>
    cases hw
    rw [jobStep?, ho] at hwaits
    cases hwaits
  | console loop =>
    obtain ⟨⟨c, id, awaiting⟩, hcur, rfl⟩ := Option.map_eq_some_iff.1 hw
    have hidle : loop.Idle := idle_reachable h _ (mem_of_lookup hj)
    -- a console that has ended executes nothing
    have hended : loop.ended = false := by
      rw [← Bool.not_eq_true]
      intro hended
      rw [hidle hended] at hcur
      cases hcur
    rw [jobStep?, Option.map_eq_none_iff, Console.Loop.step?, hended,
      if_neg Bool.false_ne_true] at hwaits
    split at hwaits
    · cases hwaits
    · rw [hcur] at hwaits
      simp [ho] at hwaits
  | call | command | printer | ended => cases hw

/-- A connection that is closed has answered every command that a job waits for. -/
theorem outcome_of_closed (h : Reachable s) (hl : s.session.link = some l) (hc : l.channel.closed)
    {w : Nat × Awaiting} (hn : s.awaits n = some w) : ∃ o, s.session.outcome? w.1 = some o := by
  obtain ⟨r, hr, hid, -⟩ := (attended_reachable h l (.inl hl)).known n w hn
  have hg := guarded_reachable h l hl
  refine Option.isSome_iff_exists.1 ?_
  rw [Session.outcome?_of_link hl, ← hid, Option.isSome_iff_ne_none]
  intro hnone
  have hout := hg.ledger.outstanding_of_unanswered hg.untaken hr hnone
  rw [hg.ledger.drained hc] at hout
  cases hout

/-- Behind the end of the connection no call waits for good. -/
theorem awaits_of_quiet (h : Reachable s) (hl : s.session.link = some l) (hc : l.channel.closed)
    (hq : s.Quiet) (n : Nat) : s.awaits n = none := by
  cases hn : s.awaits n with
  | none => rfl
  | some w =>
    obtain ⟨o, ho⟩ := outcome_of_closed h hl hc hn
    exact absurd (hq (.job n)) (step_of_outcome h hn ho)

/-- A job whose command has failed ends with the error. -/
theorem step_failed (hj : s.jobs.lookup n = some job) (hw : job.awaiting? = some (id, awaiting))
    (hf : job.failure? e = some result) (ha : awaiting ≠ .finish) (he : e.kind ≠ .debuggee)
    (ho : s.session.outcome? id = some (.error e)) (hs : s.step? (.job n) = some u) :
    u.jobs.lookup n = some (.ended result) := by
  cases job with
  | waiting =>
    cases hw
    cases hf
    obtain ⟨o, hout, -, hu⟩ := step_waiting hj hs
    cases ho.symm.trans hout
    rw [hu, Session.continueWith_failed he ha]
    rfl
  | delivery d ran =>
    cases d with
    | waiting n maxDepth =>
      cases hw
      cases hf
      obtain ⟨session, job', text, hjob, -, hu⟩ := jobStep_own hj hs
      rw [jobStep?, Session.deliver?, ho] at hjob
      cases hjob
      exact hu
    | asking | finished => cases hw
  | executing json c =>
    cases hw
    cases hf
    obtain ⟨session, job', text, hjob, -, hu⟩ := jobStep_own hj hs
    obtain ⟨o, hout, hjob⟩ := Option.map_eq_some_iff.1 hjob
    cases ho.symm.trans hout
    obtain rfl : _ = job' := congrArg (·.2.1) hjob
    have hp := @Session.continueWith_failed s.session id awaiting e he ha
    exact hu.trans (congrArg (fun p => some (commandJob json c (.ofProgress json c p))) hp)
  | _ => cases hf

theorem failed_future (h : Reachable s) (hf : Future s u) (hj : s.jobs.lookup n = some job)
    (hw : job.awaiting? = some (id, awaiting)) (hfail : job.failure? e = some result)
    (ha : awaiting ≠ .finish) (he : e.kind ≠ .debuggee)
    (ho : s.session.outcome? id = some (.error e)) :
    u.jobs.lookup n = some job ∨ u.jobs.lookup n = some (.ended result) := by
  have hc (loop : Console.Loop) : job ≠ .console loop := by
    rintro rfl
    cases hfail
  induction hf with
  | refl => exact .inl hj
  | @tail v u hf hs ih =>
    rcases ih with hv | hv
    · rcases lookup_step hs hv hc with hown | hkept
      · exact .inr (step_failed hv hw hfail ha he (outcome_future h hf ho) hown)
      · exact .inl hkept
    · exact .inr (lookup_ended hs hv)

/-! ### The end of the session -/

/-- In between, a call has detached a session that had not ended. -/
def Detached (s u : Debugger) : Prop :=
  ∃ v n w, Future s v ∧ v.session.core.ended = false ∧ v.step? (.job n) = some w ∧
    (v.session.start .detach).1.Drifts w.session ∧ Future w u

/-- A session ends as terminated, unless a call detaches it. -/
theorem ends_step (hs : Step s u) (he : s.session.core.ended = false) (hu : u.session.core.ended) :
    u.session.core.state = .terminated ∨ (u.session.core.state = .disconnected ∧
      ∃ n, s.step? (.job n) = some u ∧ (s.session.start .detach).1.Drifts u.session) := by
  -- what goes on beside the calls and the pump ends no session
  have hsurvived {t : Session} (hd : t.Drifts u.session) (ht : t.core.ended = false) : False := by
    rw [hd.core] at hu
    exact absurd (ht.symm.trans hu) nofun
  cases step_pumps hs with
  | drift _ hd => exact (hsurvived hd he).elim
  | brings e hu' =>
    rcases Session.receive_ended he e with hopen | hstate
    · rw [hu'] at hu
      exact absurd (hopen.symm.trans hu) nofun
    · rw [hu']
      exact .inl hstate
  | job n h =>
    obtain ⟨job, session, job', text, hj, hjob, hu'⟩ := jobStep_eq_some h
    have hd : session.Drifts u.session := by
      rw [hu']
      exact drifts_release ({ s with session, out := s.out ++ text }.setJob n job')
    cases hw : job.awaiting? with
    | none =>
      rcases jobStep_free hw hjob with rfl | ⟨call, rfl⟩
      · exact (hsurvived hd he).elim
      rcases Session.start_ended he call with hopen | hstate | rfl
      · exact (hsurvived hd hopen).elim
      · exact .inl (hd.core ▸ hstate)
      rcases Session.finish_ended he .detach .done .disconnected with hopen | hstate
      · exact (hsurvived hd hopen).elim
      · exact .inr ⟨hd.core ▸ hstate, n, h, hd⟩
    | some w =>
      rcases jobStep_waiting hw hjob with rfl | ⟨o, -, rfl⟩
      · exact (hsurvived hd he).elim
      rcases Session.continued_ended he (Session.continueWith_continued _ w.1 w.2 o) with
        hopen | hstate
      · exact (hsurvived hd hopen).elim
      · exact .inl (hd.core ▸ hstate)

theorem terminated_future (h : Reachable s) (he : s.session.core.ended = false) (hf : Future s u)
    (hu : u.session.core.ended) : u.session.core.state = .terminated ∨
      (u.session.core.state = .disconnected ∧ Detached s u) := by
  induction hf with
  | refl => exact absurd (he.symm.trans hu) nofun
  | @tail v u hf hs ih =>
    cases hv : v.session.core.ended with
    | true =>
      have hl := (ended_turn (standing_reachable (h.future hf)) hv (step_turn hs)).1
      rcases hl.state with hstate | hstate
      · rw [hstate]
        refine (ih hv).imp_right ?_
        rintro ⟨hdis, k, n, w, hk, hopen, hstep, hd, hw⟩
        exact ⟨hdis, k, n, w, hk, hopen, hstep, hd, hw.tail hs⟩
      · exact .inl hstate
    | false =>
      refine (ends_step hs hv hu).imp_right ?_
      rintro ⟨hdis, n, hstep, hd⟩
      exact ⟨hdis, v, n, u, hf, hv, hstep, hd, .refl⟩

/-- A call on a session that has ended is refused for its state. -/
theorem step_ended (h : Reachable s) (he : s.session.core.ended) {job : Job} {call : Call}
    (hj : s.jobs.lookup n = some job) (hc : job.asks? = some call) :
    ∃ u, s.step? (.job n) = some u ∧ u.jobs.lookup n = some
      (.ended (job.refusal (.invalidState call.operation s.session.core.state))) :=
  ⟨_, step_refused h hj hc (.illegal ((standing_reachable h).phase.illegal he call)),
    lookup_refusing (by rw [hj]; rfl)⟩

/-- A task of the connection finds that it is lost, on a session that has not ended. -/
structure Loses (s f : Debugger) (e : Error) : Prop where
  reachable : Reachable s
  lasting : s.session.core.ended = false
  fails : ∃ l m t, s.session.link = some l ∧ l.channel.closed = false ∧
    s.step? (.link t) = some f ∧ f.session.link = some m ∧ m.channel = l.channel.fail e

theorem Loses.after (h : Loses s f e) : Reachable f := by
  obtain ⟨hr, -, l, m, t, -, -, hs, -⟩ := h
  exact hr.step (.task _ hs)

/-- The connection has failed, and nothing else has changed. -/
theorem Loses.link (h : Loses s f e) : ∃ l m, s.session.link = some l ∧
    l.channel.closed = false ∧ l.Cause e ∧ m.channel = l.channel.fail e ∧
    f = { s with session := { s.session with link := some m } } := by
  obtain ⟨-, -, l, m, t, hl, ho, hs, hm, hfail⟩ := h
  cases taskTurn hs with
  | link hl' hm' =>
    cases hl.symm.trans hl'
    cases hm
    exact ⟨l, _, hl, ho, Link.cause_of_fail hm' ho hfail, hfail, rfl⟩

theorem Loses.closed (h : Loses s f e) (hf : Future f u) :
    ∃ k, u.session.link = some k ∧ k.channel.closed := by
  obtain ⟨l, m, -, -, -, hfail, rfl⟩ := h.link
  obtain ⟨k, hk, hfuture⟩ := carries_future hf m rfl
  exact ⟨k, hk, Link.closed_future hfuture (by rw [hfail, Channel.fail_closed])⟩

/-- Whoever waits and has no reply has the error for one. -/
theorem Loses.outcome (h : Loses s f e) (hn : s.awaits n = some (id, awaiting))
    (hnone : s.session.outcome? id = none) : f.session.outcome? id = some (.error e) := by
  obtain ⟨l, m, hl, ho, -, hfail, hf⟩ := h.link
  have hg := guarded_reachable h.reachable l hl
  obtain ⟨r, hr, (hid : r.id = id), -⟩ :=
    (attended_reachable h.reachable l (.inl hl)).known n _ hn
  rw [Session.outcome?_of_link hl, ← hid] at hnone
  have hout := hg.ledger.outstanding_of_unanswered hg.untaken hr hnone
  have hledger := (guarded_reachable h.after m (by rw [hf])).ledger
  rw [hf, Session.outcome?_of_link rfl, ← hid]
  rw [hfail] at hledger ⊢
  exact Channel.outcome?_fail hledger ho hout

/-- A job that waits, and has no reply, goes on only to end with the error. -/
theorem Loses.failed (h : Loses s f e) (hf : Future f u) (hj : s.jobs.lookup n = some job)
    (hw : job.awaiting? = some (id, awaiting)) (hnone : s.session.outcome? id = none)
    (hr : job.failure? e = some result) :
    u.jobs.lookup n = some job ∨ u.jobs.lookup n = some (.ended result) := by
  have hn : s.awaits n = some (id, awaiting) := by rw [awaits, hj, Option.bind_some, hw]
  have ha : awaiting ≠ .finish := by
    rintro rfl
    exact Bool.eq_false_iff.1 h.lasting (ended_of_finish h.reachable n id hn)
  obtain ⟨l, m, -, -, hcause, -, hkept⟩ := h.link
  have hjobs : f.jobs.lookup n = some job := by rw [hkept, hj]
  exact failed_future h.after hf hjobs hw hr ha hcause.not_rejected (h.outcome hn hnone)

/-- The connection is lost on a session that has not ended. When every task waits again, all calls
have returned, those that had no reply with the error that was found. Whoever still has the session
finds it terminated, with no location, unless a call has detached it before it was told of the loss;
then it is disconnected. That is its last state, and every call from then on is refused for it. -/
theorem connection_lost (h : Loses s f e) (hf : Future f u) (hq : u.Quiet) :
    (∀ n, u.awaits n = none) ∧
    (∀ n job id awaiting result, s.jobs.lookup n = some job →
      job.awaiting? = some (id, awaiting) → s.session.outcome? id = none →
      job.failure? e = some result → u.jobs.lookup n = some (.ended result)) ∧
    (u.gone = false → u.session.core.location = none ∧
      (u.session.core.state = .terminated ∨
        (u.session.core.state = .disconnected ∧ Detached f u)) ∧
      ∀ v, Future u v → v.session.core.state = u.session.core.state ∧
        ∀ n job call, v.jobs.lookup n = some job → job.asks? = some call →
          ∃ w, v.step? (.job n) = some w ∧ w.jobs.lookup n = some
            (.ended (job.refusal (.invalidState call.operation u.session.core.state)))) := by
  have hu := h.after.future hf
  obtain ⟨k, hk, hclosed⟩ := h.closed hf
  have hreturned := awaits_of_quiet hu hk hclosed hq
  refine ⟨hreturned, ?_, fun hg => ?_⟩
  · intro n job id awaiting result hj hw hnone hr
    rcases h.failed hf hj hw hnone hr with hkept | hended
    · have hnone := hreturned n
      rw [awaits, hkept, Option.bind_some, hw] at hnone
      cases hnone
    · exact hended
  · have hended := ended_of_rest hu hk hclosed (hq .pump) hg
    have hnobody : ¬ u.Attaching := by
      rintro ⟨n, w, hw, -⟩
      rw [hreturned n] at hw
      cases hw
    have hlasting : f.session.core.ended = false := by
      obtain ⟨l, m, -, -, -, -, hkept⟩ := h.link
      rw [hkept]
      exact h.lasting
    refine ⟨(standing_reachable hu).phase.nowhere hended,
      terminated_future h.after hlasting hf hended, fun v hv => ?_⟩
    obtain ⟨hrests, -⟩ := (lingers_future hu hended hv).2 hnobody
    refine ⟨hrests.state, fun n job call hj hc => ?_⟩
    rw [← hrests.state]
    exact step_ended (hu.future hv) hrests.ended hj hc

/-- While two calls tell breakpoints to the debuggee, it sends a line that is no header. -/
theorem connection_lost_greeting : ∃ s f u, Loses s f (.protocol (.unknownStatus "what")) ∧
    Future f u ∧ u.Quiet ∧
    u.jobs.lookup 1 =
      some (.ended (.answer (.error (.protocol (.unknownStatus "what"))))) ∧
    u.jobs.lookup 2 =
      some (.ended (.answer (.error (.protocol (.unknownStatus "what"))))) ∧
    u.session.core.state = .terminated ∧ u.session.core.location = none ∧
    ∀ v, Future u v → v.session.core.state = .terminated := by
  have h : Reachable (.new {}) := .new {}
  have h := h.step (.begin 0 rfl rfl (.call (.setBreakpoint ⟨"a.lua", 1⟩) true))
  have h := h.step (.task (.job 0) rfl)
  have h := h.step (.begin 1 rfl rfl (.call (.attach {}) true))
  have h := h.step (.task (.job 1) rfl)
  have h := h.step (.begin 2 rfl rfl (.call (.setBreakpoint ⟨"b.lua", 2⟩) true))
  have h := h.step (.task (.job 2) rfl)
  have h := h.step (.task (.link .writer) rfl)
  have h := h.step (.task (.link .writer) rfl)
  have h := h.step (.outside
    { arriving := Text.bytes "what is this\n", written := Text.bytes "SETB a.lua 1\n" } rfl
    (by decide))
  have h := h.step (.task (.link .reader) rfl)
  have hstay {f : Debugger} (_ : Reachable f) : Future f f := .refl
  have hf := hstay (h.step (.task (.link .reader) rfl))
  have hf := hf.tail (.task .pump rfl)
  have hf := hf.tail (.task (.job 2) rfl)
  have hf := hf.tail (.task (.job 1) rfl)
  have hf := hf.tail (.task (.link .writer) rfl)
  have hf := hf.tail (.task (.link .debuggee) rfl)
  have hf := hf.tail (.task (.link (.watchdog 1)) rfl)
  have hlost : Loses _ _ (.protocol (.unknownStatus "what")) :=
    ⟨h, rfl, _, _, .reader, rfl, rfl, rfl, rfl, rfl⟩
  obtain ⟨-, hfailed, hover⟩ := connection_lost hlost hf
    (quiet_of_tasks rfl (by intro t; cases t <;> rfl) rfl rfl (by decide))
  obtain ⟨hlocation, -, hlast⟩ := hover rfl
  exact ⟨_, _, _, hlost, hf, quiet_of_tasks rfl (by intro t; cases t <;> rfl) rfl rfl (by decide),
    hfailed 1 _ _ _ _ rfl rfl rfl rfl, hfailed 2 _ _ _ _ rfl rfl rfl rfl, rfl, hlocation,
    fun v hv => (hlast v hv).1⟩

/-- The debuggee sends a line that is no header, and a call detaches the session before it is told
of the loss: the session is disconnected, and the call ends with the connection. -/
theorem lost_but_detached : ∃ s f u, Loses s f (.protocol (.unknownStatus "what")) ∧
    Future f u ∧ u.Quiet ∧ u.gone = false ∧ u.session.core.state = .disconnected ∧
    u.jobs.lookup 1 = some (.ended (.answer (.error .channelClosed))) := by
  have h : Reachable (.new {}) := .new {}
  have h := h.step (.begin 0 rfl rfl (.call (.attach {}) true))
  have h := h.step (.task (.job 0) rfl)
  have h := h.step (.outside { arriving := Text.bytes "what is this\n" } rfl rfl)
  have h := h.step (.task (.link .reader) rfl)
  have hstay {f : Debugger} (_ : Reachable f) : Future f f := .refl
  have hf := hstay (h.step (.task (.link .reader) rfl))
  have hf := hf.tail (.begin 1 rfl rfl (.call .detach true))
  have hf := hf.tail (.task (.job 1) rfl)
  have hf := hf.tail (.task .pump rfl)
  have hf := hf.tail (.task (.link .writer) rfl)
  have hf := hf.tail (.task (.link .debuggee) rfl)
  exact ⟨_, _, _, ⟨h, rfl, _, _, .reader, rfl, rfl, rfl, rfl, rfl⟩, hf,
    quiet_of_tasks rfl (by intro t; cases t <;> rfl) rfl rfl (by decide), rfl, rfl, rfl⟩

/-- While a call tells two breakpoints to the debuggee, it accepts the first and then sends a line
that is no header. The call, which has its reply, finds the connection closed when it tells the
second, and not why. -/
theorem lost_between_breakpoints : ∃ s f u, Loses s f (.protocol (.unknownStatus "what")) ∧
    (∃ id awaiting, s.awaits 2 = some (id, awaiting)) ∧ Future f u ∧ u.Quiet ∧ u.gone = false ∧
    u.jobs.lookup 2 = some (.ended (.answer (.error .channelClosed))) := by
  have h : Reachable (.new {}) := .new {}
  have h := h.step (.begin 0 rfl rfl (.call (.setBreakpoint ⟨"a.lua", 1⟩) true))
  have h := h.step (.task (.job 0) rfl)
  have h := h.step (.begin 1 rfl rfl (.call (.setBreakpoint ⟨"b.lua", 2⟩) true))
  have h := h.step (.task (.job 1) rfl)
  have h := h.step (.begin 2 rfl rfl (.call (.attach {}) true))
  have h := h.step (.task (.job 2) rfl)
  have h := h.step (.task (.link .writer) rfl)
  have h := h.step (.task (.link .writer) rfl)
  have h := h.step (.outside
    { arriving := Text.bytes "200 OK 0\nwhat is this\n",
      written := Text.bytes "SETB a.lua 1\n" } rfl (by decide))
  have h := h.step (.task (.link .reader) rfl)
  have h := h.step (.task (.link .reader) rfl)
  have hstay {f : Debugger} (_ : Reachable f) : Future f f := .refl
  have hf := hstay (h.step (.task (.link .reader) rfl))
  have hf := hf.tail (.task (.job 2) rfl)
  have hf := hf.tail (.task .pump rfl)
  have hf := hf.tail (.task (.link .writer) rfl)
  have hf := hf.tail (.task (.link .debuggee) rfl)
  have hf := hf.tail (.task (.link (.watchdog 1)) rfl)
  exact ⟨_, _, _, ⟨h, rfl, _, _, .reader, rfl, rfl, rfl, rfl, rfl⟩, ⟨_, _, rfl⟩, hf,
    quiet_of_tasks rfl (by intro t; cases t <;> rfl) rfl rfl (by decide), rfl, rfl⟩

/-- When the connection is lost the session is not always terminated, and not every call under way
ends with the error that was found. -/
theorem connection_lost_otherwise :
    (∃ s f u, Loses s f (.protocol (.unknownStatus "what")) ∧ Future f u ∧ u.Quiet ∧
      u.gone = false ∧ u.session.core.state = .disconnected ∧
      u.jobs.lookup 1 = some (.ended (.answer (.error .channelClosed)))) ∧
    ∃ s f u, Loses s f (.protocol (.unknownStatus "what")) ∧
      (∃ id awaiting, s.awaits 2 = some (id, awaiting)) ∧ Future f u ∧ u.Quiet ∧
      u.gone = false ∧ u.jobs.lookup 2 = some (.ended (.answer (.error .channelClosed))) :=
  ⟨lost_but_detached, lost_between_breakpoints⟩

end Debugger
end MobDebug
