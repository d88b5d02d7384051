import MobDebug.Debugger
import MobDebug.Proofs.Console.Reading
import MobDebug.Proofs.Session.Calls

/-! The runs of a debugger: any order of what its users begin, what its tasks do, what happens to
its connections from the other side, and the passing of time. -/
namespace MobDebug
open Session (Call Callback Awaiting Config Delivery Guarded)

namespace Session

/-- Nothing happens, or the first part of a call; `awaited` is what is waited for then. -/
def Begins (s u : Session) (awaited : Option (Nat × Awaiting)) : Prop :=
  (u = s ∧ awaited = none) ∨
    ∃ call, u = (s.start call).1 ∧ awaited = (s.start call).2.awaiting?

/-- Nothing happens, or the next part of a call that waits for the reply to a command, once the
reply is in. -/
def Resumes (s u : Session) (id : Nat) (awaiting : Awaiting)
    (awaited : Option (Nat × Awaiting)) : Prop :=
  (u = s ∧ awaited = some (id, awaiting)) ∨
    ∃ outcome, s.outcome? id = some outcome ∧ u = (s.continueWith id awaiting outcome).1 ∧
      awaited = (s.continueWith id awaiting outcome).2.awaiting?

variable {s u : Session} {d d' : Delivery} {ran : List Callback} {id : Nat} {awaiting : Awaiting}

/-- The reply that an evaluation for callbacks waits for. It does nothing to the session then, like
a call that evaluates. -/
def Delivery.awaiting? : Delivery → Option (Nat × Awaiting)
  | .waiting id _ => some (id, .evaluate)
  | _ => none

/-- To evaluate for callbacks does to the session what the call does. -/
theorem evaluateWith_begins (s : Session) (frame : Nat) (expression : String) :
    s.Begins (s.evaluateWith frame expression).1
      (s.evaluateWith frame expression).2.1.awaiting? := by
  refine .inr ⟨.evaluate (some frame) expression, ?_⟩
  rw [start, evaluate, evaluateWith, Option.getD_some]
  cases s.submitEvaluation frame expression <;> exact ⟨rfl, rfl⟩

theorem deliver_begins (hd : d.awaiting? = none) (h : s.deliver? d = some (u, d', ran)) :
    s.Begins u d'.awaiting? := by
  cases d with
  | asking frame expression =>
    obtain rfl : _ = u := congrArg Prod.fst (Option.some.inj h)
    obtain rfl : _ = d' := congrArg (·.2.1) (Option.some.inj h)
    exact evaluateWith_begins s frame expression
  | waiting => cases hd
  | finished => cases h

theorem deliver_resumes (hd : d.awaiting? = some (id, awaiting))
    (h : s.deliver? d = some (u, d', ran)) : s.Resumes u id awaiting d'.awaiting? := by
  cases d with
  | waiting n maxDepth =>
    cases hd
    obtain ⟨outcome, ho, h⟩ := Option.map_eq_some_iff.1 h
    cases h
    refine .inr ⟨outcome, ho, ?_⟩
    cases outcome <;> exact ⟨rfl, rfl⟩
  | asking | finished => cases hd

end Session

namespace Console
variable {s u : Session} {loop loop' : Loop} {text : String}

/-- The reply that a command under way waits for. -/
def Execution.awaiting? : Execution → Option (Nat × Awaiting)
  | .waiting id awaiting => some (id, awaiting)
  | .finished _ => none

theorem awaiting?_ofProgress (json : Bool) (c : Command) (p : Session.Progress) :
    (Execution.ofProgress json c p).awaiting? = p.awaiting? := by
  cases p <;> rfl

theorem afterExecution_current (loop : Loop) (s : Session) (c : Command) (e : Execution) :
    (loop.afterExecution s c e).1.current.map (·.2) = e.awaiting? := by
  cases e <;> rfl

/-- A command begins a call, or does nothing to the session. -/
theorem execute_begins (s : Session) (json : Bool) (c : Command) :
    s.Begins (execute s json c).1 (execute s json c).2.awaiting? := by
  unfold execute
  split
  · next call _ => exact .inr ⟨call, rfl, awaiting?_ofProgress _ _ _⟩
  · split <;> exact .inl ⟨rfl, rfl⟩

theorem loopStep_free (hc : loop.current = none) (h : loop.step? s = some (u, loop', text)) :
    s.Begins u (loop'.current.map (·.2)) := by
  have hcur : loop.current.map (·.2) = none := Option.map_eq_none_iff.2 hc
  obtain ⟨begun, told, hmove, -⟩ := Loop.move_of_step h
  cases hmove with
  | resume _ hc' => cases hc.symm.trans hc'
  | @command _ _ _ c _ _ _ _ _ _ he =>
    rw [afterExecution_current]
    have hbegins := execute_begins s loop.json c
    rwa [he] at hbegins
  | _ => exact .inl ⟨rfl, hcur⟩

theorem loopStep_waiting {c : Command} {id : Nat} {awaiting : Awaiting}
    (hc : loop.current = some (c, id, awaiting)) (h : loop.step? s = some (u, loop', text)) :
    s.Resumes u id awaiting (loop'.current.map (·.2)) := by
  have hcur : loop.current.map (·.2) = some (id, awaiting) := by
    rw [hc]
    rfl
  have hbusy {taken : Nat} : ¬ loop.Free s taken := fun hf => by cases hc.symm.trans hf.idle
  obtain ⟨begun, told, hmove, -⟩ := Loop.move_of_step h
  cases hmove with
  | begin => exact .inl ⟨rfl, hcur⟩
  | resume _ hc' ho he =>
    cases hc.symm.trans hc'
    obtain ⟨rfl, rfl⟩ := Prod.mk.inj he
    refine .inr ⟨_, ho, rfl, ?_⟩
    rw [afterExecution_current]
    exact awaiting?_ofProgress _ _ _
  | sessionOver _ hc' => cases hc.symm.trans hc'
  | event hf | hear hf | blank hf | misuse hf | command hf | finish hf => exact absurd hf hbusy

end Console

/-- What a user may begin on a session. -/
inductive Job.New (s : Session) : Job → Prop where
  | call (call : Call) (keeps : Bool) : New s (.call call keeps)
  | delivery (frame : Nat) (expression : String) : New s (.delivery (.asking frame expression) [])
  | command (json : Bool) (line : String) : New s (.command json line)
  | console (json : Bool) : New s (.console { json })
  | printer (json : Bool) {taken : Nat} (h : taken ≤ s.events.sent.length) :
      New s (.printer json taken none)

/-- The reply that a job waits for, and what it will do with it. -/
def Job.awaiting? : Job → Option (Nat × Awaiting)
  | .waiting id awaiting _ => some (id, awaiting)
  | .delivery d _ => d.awaiting?
  | .executing _ _ id awaiting => some (id, awaiting)
  | .console loop => loop.current.map (·.2)
  | _ => none

namespace Debugger

inductive Step : Debugger → Debugger → Prop where
  | task {s u : Debugger} (task : Task) (h : s.step? task = some u) : Step s u
  | begin {s : Debugger} (id : Nat) {job : Job} (hs : s.held = true)
      (hid : s.jobs.lookup id = none) (h : job.New s.session) : Step s (s.begin id job)
  | type {s : Debugger} (bytes : List UInt8) :
      Step s (s.onConsole fun l => { l with typed := l.typed ++ bytes })
  | endInput {s : Debugger} : Step s (s.onConsole fun l => { l with closed := true })
  | drop {s : Debugger} : Step s s.drop
  -- the other side may do anything to a stream but take back what was written
  | outside {s : Debugger} {l : Link} (stream : Stream) (hl : s.session.link = some l)
      (h : stream.written = l.stream.written) :
      Step s { s with session := { s.session with link := some { l with stream } } }
  | outsideRefused {s : Debugger} (index : Nat) {l : Link} (stream : Stream)
      (hl : s.session.refused[index]? = some l) (h : stream.written = l.stream.written) :
      Step s
        { s with
          session :=
            { s.session with refused := s.session.refused.set index { l with stream } } }
  | tick {s : Debugger} {l : Link} (now : Nat) (hl : s.session.link = some l) (h : l.now ≤ now) :
      Step s { s with session := { s.session with link := some { l with now } } }

/-- What may follow a state, in any number of steps. -/
abbrev Future : Debugger → Debugger → Prop := Relation.ReflTransGen Step

inductive Reachable : Debugger → Prop where
  | new (config : Config) : Reachable (.new config)
  | step {s u : Debugger} (h : Reachable s) (hs : Step s u) : Reachable u

variable {s u : Debugger} {job job' : Job} {id n : Nat} {awaiting : Awaiting} {session : Session}
  {text : String}

theorem release_session (s : Debugger) :
    s.release.session = s.session ∨ s.release.session = s.session.close := by
  unfold release
  split
  · exact .inl rfl
  · exact .inr rfl

theorem jobStep_eq_some (h : s.step? (.job n) = some u) :
    ∃ job session job' text, s.jobs.lookup n = some job ∧
      s.jobStep? job = some (session, job', text) ∧
      u = ({ s with session, out := s.out ++ text }.setJob n job').release := by
  obtain ⟨job, hj, h⟩ := Option.bind_eq_some_iff.1 h
  obtain ⟨⟨session, job', text⟩, hs, rfl⟩ := Option.map_eq_some_iff.1 h
  exact ⟨job, session, job', text, hj, hs, rfl⟩

theorem awaiting?_callJob (keeps : Bool) (p : Session.Progress) :
    (callJob keeps p).awaiting? = p.awaiting? := by
  cases p <;> rfl

theorem callJob_waiting {keeps keeps' : Bool} {p : Session.Progress}
    (h : callJob keeps p = .waiting id awaiting keeps') : p = .waiting id awaiting := by
  cases p with
  | waiting => cases h; rfl
  | finished => cases h

theorem awaiting?_deliveryJob (ran : List Callback) (d : Delivery) :
    (deliveryJob ran d).awaiting? = d.awaiting? := by
  cases d <;> rfl

theorem awaiting?_commandJob (json : Bool) (c : Console.Command) (e : Console.Execution) :
    (commandJob json c e).awaiting? = e.awaiting? := by
  cases e <;> rfl

/-- What a job that waits for no reply does to the session. -/
theorem jobStep_begins (hj : job.awaiting? = none)
    (h : s.jobStep? job = some (session, job', text)) :
    s.session.Begins session job'.awaiting? := by
  cases job with
  | call call keeps =>
    obtain rfl : _ = session := congrArg Prod.fst (Option.some.inj h)
    obtain rfl : _ = job' := congrArg (·.2.1) (Option.some.inj h)
    exact .inr ⟨call, rfl, awaiting?_callJob _ _⟩
  | waiting | executing => cases hj
  | delivery d ran =>
    obtain ⟨⟨u, d', now⟩, hs, h⟩ := Option.map_eq_some_iff.1 h
    cases h
    rw [awaiting?_deliveryJob]
    exact Session.deliver_begins hj hs
  | command json line =>
    simp only [jobStep?] at h
    split at h
    · cases h
      exact .inl ⟨rfl, rfl⟩
    · obtain rfl : _ = session := congrArg Prod.fst (Option.some.inj h)
      obtain rfl : _ = job' := congrArg (·.2.1) (Option.some.inj h)
      rw [awaiting?_commandJob]
      exact Console.execute_begins _ _ _
  | console loop =>
    obtain ⟨⟨u, loop', text⟩, hs, h⟩ := Option.map_eq_some_iff.1 h
    cases h
    exact Console.loopStep_free (Option.map_eq_none_iff.1 hj) hs
  | printer json taken last =>
    simp only [jobStep?] at h
    split at h
    · cases h
      exact .inl ⟨rfl, rfl⟩
    · cases h
      exact .inl ⟨rfl, rfl⟩
    · split at h <;> cases h
      exact .inl ⟨rfl, rfl⟩
  | ended => cases h

/-- What a job that waits for a reply does to the session. -/
theorem jobStep_resumes (hj : job.awaiting? = some (id, awaiting))
    (h : s.jobStep? job = some (session, job', text)) :
    s.session.Resumes session id awaiting job'.awaiting? := by
  cases job with
  | waiting =>
    cases hj
    obtain ⟨outcome, ho, h⟩ := Option.map_eq_some_iff.1 h
    obtain rfl : _ = session := congrArg Prod.fst h
    obtain rfl : _ = job' := congrArg (·.2.1) h
    exact .inr ⟨outcome, ho, rfl, awaiting?_callJob _ _⟩
  | delivery d ran =>
    obtain ⟨⟨u, d', now⟩, hs, h⟩ := Option.map_eq_some_iff.1 h
    cases h
    rw [awaiting?_deliveryJob]
    exact Session.deliver_resumes hj hs
  | executing =>
    cases hj
    obtain ⟨outcome, ho, h⟩ := Option.map_eq_some_iff.1 h
    obtain rfl : _ = session := congrArg Prod.fst h
    obtain rfl : _ = job' := congrArg (·.2.1) h
    refine .inr ⟨outcome, ho, rfl, ?_⟩
    rw [awaiting?_commandJob]
    exact Console.awaiting?_ofProgress _ _ _
  | console loop =>
    obtain ⟨⟨c, _, _⟩, hc, he⟩ := Option.map_eq_some_iff.1 hj
    cases he
    obtain ⟨⟨u, loop', text⟩, hs, h⟩ := Option.map_eq_some_iff.1 h
    cases h
    exact Console.loopStep_waiting hc hs
  | call | command | printer | ended => cases hj

/-- A job that waits for no reply does nothing to the session, or the first part of a call. -/
theorem jobStep_free (hj : job.awaiting? = none)
    (h : s.jobStep? job = some (session, job', text)) :
    session = s.session ∨ ∃ call, session = (s.session.start call).1 := by
  rcases jobStep_begins hj h with ⟨hs, -⟩ | ⟨call, hs, -⟩
  · exact .inl hs
  · exact .inr ⟨call, hs⟩

/-- A job that waits for a reply does nothing to the session, or the next part of its call, once the
reply is in. -/
theorem jobStep_waiting (hj : job.awaiting? = some (id, awaiting))
    (h : s.jobStep? job = some (session, job', text)) :
    session = s.session ∨ ∃ outcome, s.session.outcome? id = some outcome ∧
      session = (s.session.continueWith id awaiting outcome).1 := by
  rcases jobStep_resumes hj h with ⟨hs, -⟩ | ⟨outcome, ho, hs, -⟩
  · exact .inl hs
  · exact .inr ⟨outcome, ho, hs⟩

/-- The pump has brought an event to the session. -/
def bring (s : Debugger) (e : Channel.Event) : Debugger :=
  { s with
    session := s.session.receive e
    pumped := s.pumped + 1
    pumping := !e matches .closed _ }

/-- What a task does in its step. The pump finds out late that nobody has the session any more. -/
inductive TaskTurn (s : Debugger) : Task → Debugger → Prop where
  | link {t : Link.Task} {l m : Link} (hl : s.session.link = some l) (hm : l.step? t = some m) :
      TaskTurn s (.link t) { s with session := { s.session with link := some m } }
  | refused {i : Nat} {t : Link.Task} {l m : Link} (hl : s.session.refused[i]? = some l)
      (hm : l.step? t = some m) :
      TaskTurn s (.refused i t)
        { s with session := { s.session with refused := s.session.refused.set i m } }
  | stops {l : Link} {e : Channel.Event} (hl : s.session.link = some l)
      (he : l.channel.events[s.pumped]? = some e) (hg : s.gone) :
      TaskTurn s .pump { s with pumping := false }
  | brings {l : Link} {e : Channel.Event} (hl : s.session.link = some l)
      (he : l.channel.events[s.pumped]? = some e) (hg : s.gone = false) :
      TaskTurn s .pump (s.bring e)
  | job {n : Nat} {job job' : Job} {session : Session} {text : String}
      (hj : s.jobs.lookup n = some job) (hs : s.jobStep? job = some (session, job', text)) :
      TaskTurn s (.job n) ({ s with session, out := s.out ++ text }.setJob n job').release

theorem taskTurn {t : Task} (h : s.step? t = some u) : TaskTurn s t u := by
  cases t with
  | link t =>
    obtain ⟨l, hl, h⟩ := Option.bind_eq_some_iff.1 h
    obtain ⟨m, hm, rfl⟩ := Option.map_eq_some_iff.1 h
    exact .link hl hm
  | refused i t =>
    obtain ⟨l, hl, h⟩ := Option.bind_eq_some_iff.1 h
    obtain ⟨m, hm, rfl⟩ := Option.map_eq_some_iff.1 h
    exact .refused hl hm
  | pump =>
    change s.pumpStep? = some u at h
    unfold pumpStep? at h
    split at h
    · cases h
    obtain ⟨l, hl, h⟩ := Option.bind_eq_some_iff.1 h
    obtain ⟨e, he, h⟩ := Option.map_eq_some_iff.1 h
    split at h
    · next hg =>
      cases h
      exact .stops hl he hg
    · next hg =>
      cases h
      exact .brings hl he (by simpa using hg)
  | job n =>
    obtain ⟨job, session, job', text, hj, hs, rfl⟩ := jobStep_eq_some h
    exact .job hj hs

theorem guarded_release (h : Guarded s.session) : Guarded s.release.session := by
  rcases s.release_session with he | he <;> rw [he]
  · exact h
  · exact h.close

theorem guarded_job (h : Guarded s.session) (hs : s.step? (.job n) = some u) :
    Guarded u.session := by
  obtain ⟨job, session, job', text, -, hjob, rfl⟩ := jobStep_eq_some hs
  apply guarded_release
  cases hj : job.awaiting? with
  | none =>
    rcases jobStep_free hj hjob with rfl | ⟨call, rfl⟩
    · exact h
    · exact h.start call
  | some p =>
    rcases jobStep_waiting hj hjob with rfl | ⟨outcome, -, rfl⟩
    · exact h
    · exact h.continueWith _ _ _

theorem guarded_step (hs : Step s u) (h : Guarded s.session) : Guarded u.session := by
  have hlink {l m : Link} (hl : s.session.link = some l)
      (hm : Channel.Run (· ≠ .ask) l.channel m.channel) :
      Guarded { s.session with link := some m } := by
    rintro _ ⟨⟩
    exact Session.tended_run hm (h l hl)
  cases hs with
  | task task hs =>
    cases taskTurn hs with
    | link hl hm => exact hlink hl (Link.step_run hm)
    | refused => exact h.of_eq rfl rfl
    | stops => exact h
    | brings => exact h.receive _
    | job => exact guarded_job h hs
  | begin | type | endInput => exact h
  | drop => exact guarded_release h
  | outside stream hl => exact hlink hl .refl
  | outsideRefused => exact h.of_eq rfl rfl
  | tick now hl => exact hlink hl .refl

theorem guarded_reachable (h : Reachable s) : Guarded s.session := by
  induction h with
  | new config =>
    intro l hl
    cases hl
  | step _ hs ih => exact guarded_step hs ih

end Debugger
end MobDebug
