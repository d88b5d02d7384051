import MobDebug.Proofs.Session.Calls
import MobDebug.Proofs.Session.Run
import Mathlib.Data.List.Forall2
import Mathlib.Data.Option.Basic
import Mathlib.Logic.Function.Basic

/-! What one step of a debugger does: a part of one call, an event that reaches the session, or
something of which the session learns nothing. -/
namespace MobDebug
open Session (Call Awaiting Progress Began Continued)

/-- What happens to a connection without the session: one of its tasks goes on, the other side or
the clock does something, or it is closed. -/
inductive Link.Moves (l : Link) : Link → Prop where
  | stay : Moves l l
  | task {m : Link} (t : Task) (h : l.step? t = some m) : Moves l m
  | outside (stream : Stream) (h : stream.written = l.stream.written) : Moves l { l with stream }
  | tick (now : Nat) (h : l.now ≤ now) : Moves l { l with now }
  | close : Moves l (l.fail .channelClosed)

theorem Link.Moves.run {l m : Link} (h : l.Moves m) :
    Channel.Run (· ≠ .ask) l.channel m.channel := by
  cases h with
  | task t h => exact step_run h
  | close => exact Channel.run_mono (fun _ ha => by simp [ha]) (Channel.fail_run _)
  | stay | outside | tick => exact .refl

/-- The session knows what it knew before, and its connections went on without it. -/
structure Session.Drifts (s u : Session) : Prop where
  config : u.config = s.config
  core : u.core = s.core
  events : u.events = s.events
  link : Option.Rel Link.Moves s.link u.link
  refused : List.Forall₂ Link.Moves s.refused u.refused

namespace Session.Drifts
variable {s : Session} {l m : Link}

theorem refl (s : Session) : s.Drifts s where
  config := rfl
  core := rfl
  events := rfl
  link := by
    cases s.link with
    | none => exact .none
    | some l => exact .some .stay
  refused := List.forall₂_same.2 fun _ _ => .stay

theorem close (s : Session) : s.Drifts s.close :=
  { refl s with
    link := by
      unfold Session.close
      cases s.link with
      | none => exact .none
      | some l => exact .some .close }

theorem moved (hl : s.link = some l) (h : l.Moves m) : s.Drifts { s with link := some m } :=
  { refl s with
    link := by
      rw [hl]
      exact .some h }

theorem refusedMoved {i : Nat} (hl : s.refused[i]? = some l) (h : l.Moves m) :
    s.Drifts { s with refused := s.refused.set i m } :=
  { refl s with
    refused := by
      obtain ⟨hi, rfl⟩ := List.getElem?_eq_some_iff.1 hl
      refine List.forall₂_iff_get.2 ⟨by simp, ?_⟩
      intro j hj hj'
      by_cases he : i = j
      · subst he
        simpa using h
      · simpa [List.getElem_set_ne he] using Link.Moves.stay }

variable {t : Session}

theorem link_some (h : s.Drifts t) (hl : s.link = some l) :
    ∃ m, t.link = some m ∧ l.Moves m := by
  have hr := h.link
  rw [hl] at hr
  generalize t.link = k at hr
  cases hr with
  | some hm => exact ⟨_, rfl, hm⟩

theorem link_isSome (h : s.Drifts t) : t.link.isSome = s.link.isSome := by
  have hr := h.link
  generalize s.link = k, t.link = m at hr
  cases hr <;> rfl

theorem refused_some {i : Nat} (h : s.Drifts t) (hl : s.refused[i]? = some l) :
    ∃ m, t.refused[i]? = some m ∧ l.Moves m := by
  obtain ⟨hlen, hget⟩ := List.forall₂_iff_get.1 h.refused
  obtain ⟨hi, rfl⟩ := List.getElem?_eq_some_iff.1 hl
  exact ⟨_, List.getElem?_eq_getElem (hlen ▸ hi), hget i hi (hlen ▸ hi)⟩

theorem refused_mem (h : s.Drifts t) (hm : m ∈ t.refused) : ∃ l ∈ s.refused, l.Moves m := by
  obtain ⟨hlen, hget⟩ := List.forall₂_iff_get.1 h.refused
  obtain ⟨i, hi, rfl⟩ := List.getElem_of_mem hm
  exact ⟨_, List.getElem_mem (hlen ▸ hi), hget i (hlen ▸ hi) hi⟩

end Session.Drifts

namespace Session
variable {s t : Session} {l : Link} {id : Nat}

open Channel (acceptedIn)

/-- All that has happened on the connection of a session. -/
def journal (s : Session) : List Channel.Entry := (s.link.map (·.channel.journal)).getD []

theorem journal_of_link (hl : s.link = some l) : s.journal = l.channel.journal := by
  rw [journal, hl]
  rfl

theorem accepted_drifts (hd : s.Drifts t) : acceptedIn t.journal = acceptedIn s.journal := by
  have hr := hd.link
  unfold journal
  generalize s.link = k, t.link = k' at hr
  cases hr with
  | none => rfl
  | some hm => exact (Channel.run_accepted hm.run).1

theorem accepted_submit {operation : Operation} {command : Wire.Command}
    (h : s.submit operation command = .ok (id, t)) : ∃ line, command.encode = .ok line ∧
      acceptedIn t.journal = acceptedIn s.journal ++ [⟨id, command.name, line⟩] := by
  obtain ⟨l, c, hl, hs, rfl⟩ := submit_eq_ok h
  obtain ⟨line, hline, -, rfl, rfl⟩ := Channel.submit_eq_ok hs
  refine ⟨line, hline, ?_⟩
  rw [journal_of_link hl]
  simp [journal]

end Session

namespace Debugger
variable {s u : Debugger} {job job' : Job} {n : Nat} {session : Session} {text : String}

/-- The reply that a job waits for, by its id, and what it will do with it. -/
def awaits (s : Debugger) (n : Nat) : Option (Nat × Awaiting) :=
  (s.jobs.lookup n).bind Job.awaiting?

/-- What a step may do. Whoever lets go of the session last closes its connection. -/
inductive Turn (s u : Debugger) : Prop where
  | drift (ha : u.awaits = s.awaits) (hd : s.session.Drifts u.session)
  | receive {l : Link} {e : Channel.Event} (ha : u.awaits = s.awaits)
      (hl : s.session.link = some l) (he : l.channel.events[s.pumped]? = some e)
      (hu : u.session = s.session.receive e)
  | begin (n : Nat) {session : Session} {p : Progress} (hn : s.awaits n = none)
      (hb : Began s.session session p) (hd : session.Drifts u.session)
      (ha : u.awaits = Function.update s.awaits n p.awaiting?)
  | resume (n : Nat) {id : Nat} {awaiting : Awaiting} {o : Channel.Outcome} {session : Session}
      {p : Progress} (hn : s.awaits n = some (id, awaiting)) (ho : s.session.outcome? id = some o)
      (hc : Continued s.session id awaiting o session p) (hd : session.Drifts u.session)
      (ha : u.awaits = Function.update s.awaits n p.awaiting?)

/-- What a job may do in its turn: nothing to the session, or a part of its call. -/
inductive JobTurn (s : Debugger) (n : Nat) (u : Debugger) : Prop where
  | idle (ha : u.awaits = s.awaits) (hd : s.session.Drifts u.session)
  | begin {session : Session} {p : Progress} (hn : s.awaits n = none)
      (hb : Began s.session session p) (hd : session.Drifts u.session)
      (ha : u.awaits = Function.update s.awaits n p.awaiting?)
  | resume {id : Nat} {awaiting : Awaiting} {o : Channel.Outcome} {session : Session}
      {p : Progress} (hn : s.awaits n = some (id, awaiting)) (ho : s.session.outcome? id = some o)
      (hc : Continued s.session id awaiting o session p) (hd : session.Drifts u.session)
      (ha : u.awaits = Function.update s.awaits n p.awaiting?)

/-- What happens in a step of no job. -/
inductive Elapses (s u : Debugger) : Prop where
  | drift (ha : u.awaits = s.awaits) (hd : s.session.Drifts u.session)
  | receive {l : Link} {e : Channel.Event} (ha : u.awaits = s.awaits)
      (hl : s.session.link = some l) (he : l.channel.events[s.pumped]? = some e)
      (hu : u.session = s.session.receive e)

theorem JobTurn.turn (h : JobTurn s n u) : Turn s u := by
  cases h with
  | idle ha hd => exact .drift ha hd
  | begin hn hb hd ha => exact .begin n hn hb hd ha
  | resume hn ho hc hd ha => exact .resume n hn ho hc hd ha

theorem Elapses.turn (h : Elapses s u) : Turn s u := by
  cases h with
  | drift ha hd => exact .drift ha hd
  | receive ha hl he hu => exact .receive ha hl he hu

/-- Jobs that wait for the same wait for the same. -/
theorem awaits_congr
    (h : u.jobs.map (fun p => (p.1, p.2.awaiting?)) = s.jobs.map fun p => (p.1, p.2.awaiting?)) :
    u.awaits = s.awaits := by
  have hlookup (jobs : List (Nat × Job)) (n : Nat) :
      (jobs.lookup n).bind Job.awaiting? =
        ((jobs.map fun p => (p.1, p.2.awaiting?)).lookup n).bind id := by
    induction jobs with
    | nil => rfl
    | cons p jobs ih =>
      obtain ⟨m, job⟩ := p
      rw [List.map_cons, List.lookup_cons, List.lookup_cons]
      cases n == m with
      | true => rfl
      | false => exact ih
  funext n
  rw [awaits, awaits, hlookup, hlookup, h]

theorem awaits_begin {job : Job} {id : Nat} (hid : s.jobs.lookup id = none)
    (hj : job.awaiting? = none) : (s.begin id job).awaits = s.awaits := by
  funext n
  rw [awaits, begin, List.lookup_append]
  by_cases he : n = id
  · subst he
    simp [awaits, hid, hj]
  · have he : (n == id) = false := by simpa using he
    simp [awaits, List.lookup_cons, he]

theorem lookup_setJob (hn : (s.jobs.lookup n).isSome) (job : Job) (m : Nat) :
    (s.setJob n job).jobs.lookup m = if m = n then some job else s.jobs.lookup m := by
  have hlookup (jobs : List (Nat × Job)) : ({ s with jobs }.setJob n job).jobs.lookup m =
      if m = n then (jobs.lookup n).map fun _ => job else jobs.lookup m := by
    induction jobs with
    | nil => simp [setJob]
    | cons p jobs ih =>
      obtain ⟨other, old⟩ := p
      simp only [setJob, List.map_cons] at ih ⊢
      by_cases ho : other = n <;> by_cases hm : m = n <;>
        grind
  obtain ⟨old, hold⟩ := Option.isSome_iff_exists.1 hn
  refine (hlookup s.jobs).trans ?_
  rw [hold]
  rfl

theorem awaits_setJob (hn : (s.jobs.lookup n).isSome) (job : Job) :
    (s.setJob n job).awaits = Function.update s.awaits n job.awaiting? := by
  funext m
  rw [awaits, lookup_setJob hn]
  by_cases hm : m = n
  · subst hm
    simp
  · simp [awaits, hm]

theorem awaits_release (s : Debugger) : s.release.awaits = s.awaits := by
  unfold release
  split <;> rfl

theorem awaits_onConsole {f : Console.Loop → Console.Loop} (hf : ∀ l, (f l).current = l.current) :
    (s.onConsole f).awaits = s.awaits := by
  have hfirst (jobs : List (Nat × Job)) :
      (onConsole.onFirst f jobs).map (fun p => (p.1, p.2.awaiting?)) =
        jobs.map fun p => (p.1, p.2.awaiting?) := by
    fun_induction onConsole.onFirst f jobs with
    | case1 => rfl
    | case2 n loop rest => simp [Job.awaiting?, hf]
    | case3 other rest _ ih => rw [List.map_cons, List.map_cons, ih]
  apply awaits_congr
  rw [onConsole, List.map_reverse, hfirst, ← List.map_reverse, List.reverse_reverse]

theorem drifts_release (s : Debugger) : s.session.Drifts s.release.session := by
  rcases s.release_session with h | h <;> rw [h]
  · exact .refl _
  · exact .close _

theorem jobTurn_of_step (h : s.step? (.job n) = some u) : JobTurn s n u := by
  obtain ⟨job, session, job', text, hj, hs, rfl⟩ := jobStep_eq_some h
  have hn : s.awaits n = job.awaiting? := by rw [awaits, hj, Option.bind_some]
  have ha : ({ s with session, out := s.out ++ text }.setJob n job').release.awaits =
      Function.update s.awaits n job'.awaiting? := by
    rw [awaits_release, awaits_setJob (by rw [hj]; rfl)]
    rfl
  have hd :
      session.Drifts ({ s with session, out := s.out ++ text }.setJob n job').release.session :=
    drifts_release ({ s with session, out := s.out ++ text }.setJob n job')
  cases hw : job.awaiting? with
  | none =>
    rw [hw] at hn
    rcases jobStep_begins hw hs with ⟨rfl, hnone⟩ | ⟨call, rfl, hcall⟩
    · rw [hnone, ← hn, Function.update_eq_self] at ha
      exact .idle ha hd
    · rw [hcall] at ha
      exact .begin hn (Session.start_began _ _) hd ha
  | some p =>
    rw [hw] at hn
    rcases jobStep_resumes hw hs with ⟨rfl, hsame⟩ | ⟨outcome, ho, rfl, hnext⟩
    · rw [hsame, ← hn, Function.update_eq_self] at ha
      exact .idle ha hd
    · rw [hnext] at ha
      exact .resume hn ho (Session.continueWith_continued _ _ _ _) hd ha

/-- A job that is new waits for no reply. -/
theorem Job.New.awaiting? {session : Session} (h : job.New session) : job.awaiting? = none := by
  cases h <;> rfl

/-- A step is that of a job or of none. -/
theorem step_cases (hs : Step s u) :
    (∃ n, s.step? (.job n) = some u ∧ JobTurn s n u) ∨ Elapses s u := by
  cases hs with
  | task task h =>
    cases taskTurn h with
    | link hl hm => exact .inr (.drift rfl (.moved hl (.task _ hm)))
    | refused hl hm => exact .inr (.drift rfl (.refusedMoved hl (.task _ hm)))
    | stops => exact .inr (.drift rfl (.refl _))
    | brings hl he => exact .inr (.receive rfl hl he rfl)
    | job => exact .inl ⟨_, h, jobTurn_of_step h⟩
  | begin id _ hid hj => exact .inr (.drift (awaits_begin hid (Job.New.awaiting? hj)) (.refl _))
  | type => exact .inr (.drift (awaits_onConsole fun _ => rfl) (.refl _))
  | endInput => exact .inr (.drift (awaits_onConsole fun _ => rfl) (.refl _))
  | drop => exact .inr (.drift (awaits_release _) (drifts_release { s with held := false }))
  | outside stream hl h => exact .inr (.drift rfl (.moved hl (.outside stream h)))
  | outsideRefused i stream hl h => exact .inr (.drift rfl (.refusedMoved hl (.outside stream h)))
  | tick now hl h => exact .inr (.drift rfl (.moved hl (.tick now h)))

/-- Every step is a turn. -/
theorem step_turn (hs : Step s u) : Turn s u := by
  rcases step_cases hs with ⟨n, -, h⟩ | h
  · exact h.turn
  · exact h.turn

theorem jobs_release (s : Debugger) : s.release.jobs = s.jobs := by
  unfold release
  split <;> rfl

/-- What is typed into a console changes no other job. -/
theorem lookup_onConsole {f : Console.Loop → Console.Loop} (hj : s.jobs.lookup n = some job)
    (hc : ∀ loop, job ≠ .console loop) : (s.onConsole f).jobs.lookup n = some job := by
  have hfirst (jobs : List (Nat × Job)) :
      List.Forall₂ (fun p q => q.1 = p.1 ∧ (q = p ∨ ∃ loop, p.2 = .console loop)) jobs
        (onConsole.onFirst f jobs) := by
    fun_induction onConsole.onFirst f jobs with
    | case1 => exact .nil
    | case2 m loop rest =>
      exact .cons ⟨rfl, .inr ⟨loop, rfl⟩⟩ (List.forall₂_same.2 fun _ _ => ⟨rfl, .inl rfl⟩)
    | case3 other rest _ ih => exact .cons ⟨rfl, .inl rfl⟩ ih
  have hkept := List.forall₂_reverse_iff.2 (hfirst s.jobs.reverse)
  rw [List.reverse_reverse] at hkept
  change (onConsole.onFirst f s.jobs.reverse).reverse.lookup n = some job
  generalize (onConsole.onFirst f s.jobs.reverse).reverse = changed at hkept ⊢
  generalize s.jobs = jobs at hj hkept
  induction hkept with
  | nil => cases hj
  | @cons p q _ _ hq _ ih =>
    obtain ⟨hid, he⟩ := hq
    rw [List.lookup_cons] at hj ⊢
    rw [hid]
    cases hn : n == p.1 with
    | false =>
      rw [hn] at hj
      exact ih hj
    | true =>
      rw [hn] at hj
      cases hj
      rcases he with rfl | ⟨loop, hloop⟩
      · rfl
      · exact absurd hloop (hc loop)

/-- What becomes of the jobs: one of them takes its step, they stay as they are, one begins, or
something is typed into a console. -/
theorem jobs_step (hs : Step s u) : (∃ n, s.step? (.job n) = some u) ∨ u.jobs = s.jobs ∨
    (∃ id job, s.jobs.lookup id = none ∧ job.New s.session ∧ u.jobs = s.jobs ++ [(id, job)]) ∨
    ∃ f : Console.Loop → Console.Loop,
      (∀ l, (f l).current = l.current ∧ (f l).ended = l.ended) ∧ u.jobs = (s.onConsole f).jobs := by
  cases hs with
  | task task h =>
    cases taskTurn h with
    | link | refused | stops | brings => exact .inr (.inl rfl)
    | job => exact .inl ⟨_, h⟩
  | begin id _ hid hj => exact .inr (.inr (.inl ⟨id, _, hid, hj, rfl⟩))
  | type bytes =>
    refine .inr (.inr (.inr ⟨fun l => { l with typed := l.typed ++ bytes }, ?_, rfl⟩))
    exact fun _ => ⟨rfl, rfl⟩
  | endInput =>
    exact .inr (.inr (.inr ⟨fun l => { l with closed := true }, fun _ => ⟨rfl, rfl⟩, rfl⟩))
  | drop => exact .inr (.inl (jobs_release _))
  | outside | outsideRefused | tick => exact .inr (.inl rfl)

/-- A job changes in its own steps only, unless it is a console. -/
theorem lookup_step (hs : Step s u) (hj : s.jobs.lookup n = some job)
    (hc : ∀ loop, job ≠ .console loop) :
    s.step? (.job n) = some u ∨ u.jobs.lookup n = some job := by
  rcases jobs_step hs with ⟨m, h⟩ | he | ⟨id, other, -, -, he⟩ | ⟨f, -, he⟩
  · by_cases hm : n = m
    · exact .inl (hm ▸ h)
    · obtain ⟨old, session, job', text, hold, -, rfl⟩ := jobStep_eq_some h
      rw [jobs_release, lookup_setJob (by rw [hold]; rfl), if_neg hm]
      exact .inr hj
  · exact .inr (he ▸ hj)
  · exact .inr (by rw [he, List.lookup_append, hj]; rfl)
  · exact .inr (he ▸ lookup_onConsole hj hc)

variable {call : Call} {keeps : Bool} {id : Nat} {awaiting : Awaiting}

theorem jobStep_own (hj : s.jobs.lookup n = some job) (h : s.step? (.job n) = some u) :
    ∃ session job' text, s.jobStep? job = some (session, job', text) ∧
      session.Drifts u.session ∧ u.jobs.lookup n = some job' := by
  obtain ⟨old, session, job', text, hold, hs, rfl⟩ := jobStep_eq_some h
  cases hj.symm.trans hold
  refine ⟨session, job', text, hs, ?_, ?_⟩
  · exact drifts_release ({ s with session, out := s.out ++ text }.setJob n job')
  · rw [jobs_release, lookup_setJob (by rw [hold]; rfl), if_pos rfl]

/-- A job that has ended stays as it is. -/
theorem lookup_ended {result : JobResult} (hs : Step s u)
    (hj : s.jobs.lookup n = some (.ended result)) : u.jobs.lookup n = some (.ended result) := by
  rcases lookup_step hs hj (by simp) with hstep | hkept
  · obtain ⟨session, job', text, hnone, -⟩ := jobStep_own hj hstep
    cases hnone
  · exact hkept

/-- The first step of a call. -/
theorem step_call (hj : s.jobs.lookup n = some (.call call keeps))
    (h : s.step? (.job n) = some u) : (s.session.start call).1.Drifts u.session ∧
      u.jobs.lookup n = some (callJob keeps (s.session.start call).2) := by
  obtain ⟨session, job', text, hs, hd, hu⟩ := jobStep_own hj h
  obtain rfl : _ = session := congrArg Prod.fst (Option.some.inj hs)
  obtain rfl : _ = job' := congrArg (·.2.1) (Option.some.inj hs)
  exact ⟨hd, hu⟩

/-- The next step of a call, which has its reply. -/
theorem step_waiting (hj : s.jobs.lookup n = some (.waiting id awaiting keeps))
    (h : s.step? (.job n) = some u) : ∃ o, s.session.outcome? id = some o ∧
      (s.session.continueWith id awaiting o).1.Drifts u.session ∧
      u.jobs.lookup n = some (callJob keeps (s.session.continueWith id awaiting o).2) := by
  obtain ⟨session, job', text, hs, hd, hu⟩ := jobStep_own hj h
  obtain ⟨o, ho, hs⟩ := Option.map_eq_some_iff.1 hs
  obtain rfl : _ = session := congrArg Prod.fst hs
  obtain rfl : _ = job' := congrArg (·.2.1) hs
  exact ⟨o, ho, hd, hu⟩

end Debugger
end MobDebug
