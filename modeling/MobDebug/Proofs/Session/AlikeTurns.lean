import MobDebug.Proofs.Session.Alike

/-! Two debuggers that differ in the bodies of replies that only their callers read, and in what
came of them. Each task does the same in both. -/
namespace MobDebug
open Session (Awaiting Call Callback Delivery Fares Guarded Progress)

namespace Console
variable {s u : Session} {loop : Loop} {p : Prop} {id : Nat} {awaiting : Awaiting}

/-- The command evaluates an expression, or shows the stack. -/
def Command.inquires (c : Command) : Bool :=
  c.call?.any Call.inquires

/-- A part of a command does the same to two sessions, like a part of its call. -/
inductive Executes (p : Prop) : Session × Execution → Session × Execution → Prop where
  | finished {s u : Session} (h : s.Alike u) (result : Except Error (Option String)) :
      Executes p (s, .finished result) (u, .finished result)
  | waiting {s u : Session} (h : s.Alike u) {id : Nat} {awaiting : Awaiting}
      (he : s.Expects (id, awaiting)) (hp : awaiting.inquires → p) :
      Executes p (s, .waiting id awaiting) (u, .waiting id awaiting)
  | answered {s u : Session} (h : s.Alike u) (result result' : Except Error (Option String))
      (hp : p) : Executes p (s, .finished result) (u, .finished result')

theorem executes_fares {a b : Session × Progress} (h : Fares p a b) (json : Bool) (c : Command) :
    Executes p (a.1, .ofProgress json c a.2) (b.1, .ofProgress json c b.2) := by
  cases h with
  | finished h result => exact .finished h _
  | waiting h he hp => exact .waiting h he hp
  | answered h result result' hp => exact .answered h _ _ hp

theorem execute_alike (h : s.Alike u) (json : Bool) (c : Command) :
    Executes c.inquires (execute s json c) (execute u json c) := by
  unfold execute Command.inquires
  split
  · next call hc =>
    rw [hc]
    exact executes_fares (h.start call) json c
  · split
    · rw [h.core]
      exact .finished h _
    · exact .finished h _

theorem continueExecution_alike (h : s.Alike u) (hg : Guarded s) (he : s.Expects (id, awaiting))
    (json : Bool) (c : Command) :
    Option.Rel (Executes awaiting.inquires)
      ((s.outcome? id).map (continueExecution s json c id awaiting))
      ((u.outcome? id).map (continueExecution u json c id awaiting)) := by
  have hr := rel_map (h.resumed hg he) fun _ _ hr => executes_fares hr json c
  exact hr

/-- The same turn of a console in two sessions, whatever it prints. -/
def Turns (a b : Session × Loop × String) : Prop :=
  a.1.Alike b.1 ∧ b.2.1 = a.2.1 ∧ ∀ w ∈ a.2.1.current.map (·.2), a.1.Expects w

theorem afterExecution_alike {a b : Session × Execution} (h : Executes p a b) (loop : Loop)
    (c : Command) :
    Turns (a.1, loop.afterExecution a.1 c a.2) (b.1, loop.afterExecution b.1 c b.2) := by
  cases h with
  | finished h result | answered h result result' hp =>
    refine ⟨h, ?_, nofun⟩
    simp only [Loop.afterExecution]
    rw [h.core]
  | waiting h he hp =>
    refine ⟨h, rfl, ?_⟩
    rintro _ ⟨⟩
    exact he

theorem runLine_alike (h : s.Alike u) (hc : loop.current = none) (line : String) :
    Turns (loop.runLine s line) (loop.runLine u line) := by
  have hidle (text : String) : Turns (s, loop, text) (u, loop, text) := by
    refine ⟨h, rfl, ?_⟩
    rw [hc]
    nofun
  unfold Loop.runLine
  split
  · exact hidle ""
  split
  · exact hidle _
  · exact afterExecution_alike (execute_alike h _ _) loop _

/-- A console that waits for no reply. -/
theorem step_alike_free (h : s.Alike u) (hc : loop.current = none) :
    Option.Rel Turns (loop.step? s) (loop.step? u) := by
  have hidle {loop' : Loop} (hc : loop'.current = none) :
      Option.Rel Turns (some (s, loop', "")) (some (u, loop', "")) := by
    refine .some ⟨h, rfl, ?_⟩
    rw [hc]
    nofun
  unfold Loop.step?
  simp only [hc]
  rw [h.core, h.events]
  split
  · exact .none
  split
  · exact hidle rfl
  split
  · exact hidle rfl
  split
  · exact hidle rfl
  split
  · exact hidle rfl
  split
  · exact .some (runLine_alike h rfl _)
  · split
    · exact hidle rfl
    · exact .none

theorem step_alike (h : s.Alike u) (hg : Guarded s)
    (he : ∀ w ∈ loop.current.map (·.2), s.Expects w) :
    Option.Rel Turns (loop.step? s) (loop.step? u) := by
  cases hc : loop.current with
  | none => exact step_alike_free h hc
  | some p =>
    obtain ⟨c, id, awaiting⟩ := p
    rw [hc] at he
    have hr := continueExecution_alike h hg (he _ rfl) loop.json c
    unfold Loop.step?
    rw [h.events]
    simp only [hc]
    split
    · exact .none
    split
    · exact .some ⟨h, rfl, he⟩
    · have hnext := rel_map hr fun _ _ hr => afterExecution_alike hr loop c
      exact hnext

end Console

/-- The job evaluates an expression, or asks for the stack. -/
def Job.inquires : Job → Bool
  | .call c _ => c.inquires
  | .waiting _ awaiting _ => awaiting.inquires
  | .delivery _ _ => true
  | .command _ line => (Console.Command.read line).toOption.any Console.Command.inquires
  | .executing _ _ _ awaiting => awaiting.inquires
  | _ => false

/-- The same job, or one that has inquired and has ended with another result. -/
inductive Job.Alike (asked : List Nat) (s : Session) (n : Nat) : Job → Job → Prop where
  | same {job : Job} (hq : job.inquires → n ∈ asked) (he : ∀ w ∈ job.awaiting?, s.Expects w) :
      Alike asked s n job job
  | ended (result result' : JobResult) (hn : n ∈ asked) :
      Alike asked s n (.ended result) (.ended result')

namespace Job.Alike
variable {asked more : List Nat} {s t : Session} {n : Nat} {job job' : Job} {p : Prop}

theorem mono (h : Job.Alike asked s n job job') (hm : ∀ n ∈ asked, n ∈ more) (hc : s.Carries t) :
    Job.Alike more t n job job' := by
  cases h with
  | same hq he => exact .same (fun h => hm n (hq h)) fun w hw => (he w hw).carries hc
  | ended result result' hn => exact .ended result result' (hm n hn)

/-- A job that does not inquire, and waits for no reply. -/
theorem plain (hq : job.inquires = false) (ha : job.awaiting? = none) :
    Job.Alike asked s n job job := by
  refine .same (fun h => ?_) fun w hw => ?_
  · cases hq.symm.trans h
  · cases ha.symm.trans hw

theorem console {loop : Console.Loop} (he : ∀ w ∈ loop.current.map (·.2), s.Expects w) :
    Job.Alike asked s n (.console loop) (.console loop) :=
  .same nofun he

theorem keepsSession (h : Job.Alike asked s n job job') :
    job'.keepsSession = job.keepsSession := by
  cases h <;> rfl

end Job.Alike

namespace Debugger
variable {asked : List Nat} {s u : Debugger} {n : Nat} {job job' : Job} {p : Prop}

/-- The same turn of a job, whatever it prints. -/
def JobTurns (asked : List Nat) (n : Nat) (a b : Session × Job × String) : Prop :=
  a.1.Alike b.1 ∧ Job.Alike asked a.1 n a.2.1 b.2.1

theorem callJob_alike {a b : Session × Progress} (h : Fares p a b) (hp : p → n ∈ asked)
    (keeps : Bool) :
    JobTurns asked n (a.1, callJob keeps a.2, "") (b.1, callJob keeps b.2, "") := by
  cases h with
  | finished h result => exact ⟨h, .plain rfl rfl⟩
  | waiting h he hq =>
    refine ⟨h, .same (fun ha => hp (hq ha)) ?_⟩
    rintro _ ⟨⟩
    exact he
  | answered h result result' hq => exact ⟨h, .ended _ _ (hp hq)⟩

theorem commandJob_alike {a b : Session × Console.Execution} (h : Console.Executes p a b)
    (hp : p → n ∈ asked) (json : Bool) (c : Console.Command) :
    JobTurns asked n (a.1, commandJob json c a.2, "") (b.1, commandJob json c b.2, "") := by
  cases h with
  | finished h result => exact ⟨h, .plain rfl rfl⟩
  | waiting h he hq =>
    refine ⟨h, .same (fun ha => hp (hq ha)) ?_⟩
    rintro _ ⟨⟩
    exact he
  | answered h result result' hq => exact ⟨h, .ended _ _ (hp hq)⟩

theorem delivery_alike (h : s.session.Alike u.session) (hn : n ∈ asked) {d : Delivery}
    (he : ∀ w ∈ d.awaiting?, s.session.Expects w) (ran : List Callback) :
    Option.Rel (JobTurns asked n) (s.jobStep? (.delivery d ran))
      (u.jobStep? (.delivery d ran)) := by
  simp only [jobStep?]
  cases d with
  | asking frame expression =>
    have hs := h.submitEvaluation frame expression
    simp only [Session.deliver?, Session.evaluateWith]
    generalize s.session.submitEvaluation _ _ = e, u.session.submitEvaluation _ _ = e' at hs ⊢
    cases hs with
    | refused e => exact .some ⟨h, .plain rfl rfl⟩
    | accepted hv hexp =>
      dsimp only
      rw [hv.config]
      refine .some ⟨hv, .same (fun _ => hn) ?_⟩
      rintro _ ⟨⟩
      exact hexp .evaluate fun _ => rfl
  | waiting id maxDepth =>
    have ho := h.outcome? id
    simp only [Session.deliver?]
    generalize s.session.outcome? id = o, u.session.outcome? id = o' at ho ⊢
    cases ho with
    | same o =>
      cases o with
      | none => exact .none
      | some o => exact .some ⟨h, .plain rfl rfl⟩
    | replied body body' => exact .some ⟨h, .ended _ _ hn⟩
  | finished => exact .none

theorem jobStep_alike (h : s.session.Alike u.session) (hg : Guarded s.session)
    (hgone : u.gone = s.gone) (hj : Job.Alike asked s.session n job job') :
    Option.Rel (JobTurns asked n) (s.jobStep? job) (u.jobStep? job') := by
  cases hj with
  | ended => exact .none
  | same hq he =>
  cases job with
  | call call keeps => exact .some (callJob_alike (h.start call) hq keeps)
  | waiting id awaiting keeps =>
    -- the reply may differ where the job has inquired, and only its own result comes of it
    have hr := h.resumed hg (he _ rfl)
    have hnext := rel_map hr fun _ _ hr => callJob_alike hr hq keeps
    exact hnext
  | delivery d ran => exact delivery_alike h (hq rfl) he ran
  | command json line =>
    simp only [jobStep?]
    simp only [Job.inquires] at hq
    split
    · exact .some ⟨h, .plain rfl rfl⟩
    · next c hc =>
      rw [hc] at hq
      exact .some (commandJob_alike (Console.execute_alike h json c) hq json c)
  | executing json c id awaiting =>
    have hr := Console.continueExecution_alike h hg (he _ rfl) json c
    have hnext := rel_map hr fun _ _ hr => commandJob_alike hr hq json c
    exact hnext
  | console loop =>
    have hr := Console.step_alike h hg he
    simp only [jobStep?]
    generalize loop.step? s.session = o, loop.step? u.session = o' at hr ⊢
    cases hr with
    | none => exact .none
    | @some a b hab =>
      obtain ⟨t, loop', text⟩ := a
      obtain ⟨v, loop'', text'⟩ := b
      obtain ⟨hv, rfl, hexp⟩ := hab
      exact .some ⟨hv, .console hexp⟩
  | printer json taken last =>
    simp only [jobStep?]
    rw [h.events, hgone]
    split
    · exact .some ⟨h, .plain rfl rfl⟩
    · exact .some ⟨h, .plain rfl rfl⟩
    · split
      · exact .some ⟨h, .plain rfl rfl⟩
      · exact .none
  | ended => exact .none

/-- The same jobs, one by one. -/
def JobsAlike (asked : List Nat) (s : Session) : List (Nat × Job) → List (Nat × Job) → Prop :=
  List.Forall₂ fun a b => b.1 = a.1 ∧ Job.Alike asked s a.1 a.2 b.2

/-- The same debugger, but for the bodies of the replies that only their callers read, the results
of the jobs that asked for them, and what was printed. -/
structure Alike (asked : List Nat) (s u : Debugger) : Prop where
  session : s.session.Alike u.session
  held : u.held = s.held
  gone : u.gone = s.gone
  pumped : u.pumped = s.pumped
  pumping : u.pumping = s.pumping
  jobs : JobsAlike asked s.session s.jobs u.jobs

/-- The readers of both connections come to the same frame. -/
def Meets (s u : Debugger) : Prop :=
  ∀ l m, s.session.link = some l → u.session.link = some m → l.Meets m

section jobs
variable {more : List Nat} {session t : Session} {jobs jobs' : List (Nat × Job)}

theorem jobsAlike_mono (h : JobsAlike asked session jobs jobs') (hm : ∀ n ∈ asked, n ∈ more)
    (hc : session.Carries t) : JobsAlike more t jobs jobs' :=
  List.Forall₂.imp (fun _ _ hj => ⟨hj.1, hj.2.mono hm hc⟩) h

theorem jobsAlike_lookup (h : JobsAlike asked session jobs jobs') (n : Nat) :
    Option.Rel (Job.Alike asked session n) (jobs.lookup n) (jobs'.lookup n) := by
  induction h with
  | nil => exact .none
  | @cons a b _ _ hab _ ih =>
    obtain ⟨m, job⟩ := a
    obtain ⟨m', job'⟩ := b
    obtain ⟨hid, hj⟩ := hab
    obtain rfl : m' = m := hid
    rw [List.lookup_cons, List.lookup_cons]
    cases hm : n == m' with
    | false => exact ih
    | true =>
      obtain rfl : n = m' := eq_of_beq hm
      exact .some hj

theorem jobsAlike_setJob (h : JobsAlike asked session jobs jobs')
    (hj : Job.Alike asked session n job job') :
    JobsAlike asked session
      (jobs.map fun (other, old) => if other = n then (n, job) else (other, old))
      (jobs'.map fun (other, old) => if other = n then (n, job') else (other, old)) := by
  induction h with
  | nil => exact .nil
  | @cons a b _ _ hab _ ih =>
    refine .cons ?_ ih
    dsimp only
    rw [hab.1]
    split
    · exact ⟨rfl, hj⟩
    · exact ⟨rfl, hab.2⟩

theorem jobsAlike_keepsSession (h : JobsAlike asked session jobs jobs') :
    jobs'.any (·.2.keepsSession) = jobs.any (·.2.keepsSession) := by
  induction h with
  | nil => rfl
  | cons hab _ ih => rw [List.any_cons, List.any_cons, hab.2.keepsSession, ih]

theorem jobsAlike_onConsole {f : Console.Loop → Console.Loop} (hf : ∀ l, (f l).current = l.current)
    (h : JobsAlike asked session jobs jobs') :
    JobsAlike asked session (onConsole.onFirst f jobs) (onConsole.onFirst f jobs') := by
  induction h with
  | nil => exact .nil
  | @cons a b _ _ hab hrest ih =>
    obtain ⟨m, job⟩ := a
    obtain ⟨m', job'⟩ := b
    obtain ⟨hid, hj⟩ := hab
    obtain rfl : m' = m := hid
    cases hj with
    | ended result result' hn => exact .cons ⟨rfl, .ended result result' hn⟩ ih
    | same hq he =>
      cases job with
      | console loop =>
        refine .cons ⟨rfl, .console ?_⟩ hrest
        simpa only [Job.awaiting?, hf] using he
      | call | waiting | delivery | command | executing | printer | ended =>
        exact .cons ⟨rfl, .same hq he⟩ ih

end jobs

theorem jobStep_carries {session : Session} {text : String}
    (h : s.jobStep? job = some (session, job', text)) : s.session.Carries session := by
  cases hj : job.awaiting? with
  | none =>
    rcases jobStep_free hj h with rfl | ⟨call, rfl⟩
    · exact .of_eq rfl
    · exact .began (Session.start_began _ _)
  | some w =>
    rcases jobStep_waiting hj h with rfl | ⟨o, -, rfl⟩
    · exact .of_eq rfl
    · exact .continued (Session.continueWith_continued _ _ _ _)

namespace Alike

theorem release (h : Alike asked s u) : Alike asked s.release u.release := by
  unfold Debugger.release
  rw [h.held, h.gone, jobsAlike_keepsSession h.jobs]
  split
  · exact h
  · exact { h with
      session := h.session.close
      held := rfl
      gone := rfl
      jobs := jobsAlike_mono h.jobs (fun _ hn => hn) (.close _) }

/-- What happens to the session changes nothing for the jobs. -/
theorem withSession (h : Alike asked s u) {t v : Session} (ht : t.Alike v)
    (hc : s.session.Carries t) : Alike asked { s with session := t } { u with session := v } :=
  { h with
    session := ht
    jobs := jobsAlike_mono h.jobs (fun _ hn => hn) hc }

theorem step_link (h : Alike asked s u) (hg : Guarded s.session) (t : Link.Task)
    (hr : t = .reader → s.Meets u) :
    Option.Rel (Alike asked) (s.step? (.link t)) (u.step? (.link t)) := by
  have hlink := h.session.link
  simp only [step?]
  generalize hs : s.session.link = l, hu : u.session.link = m at hlink
  cases hlink with
  | none => exact .none
  | @some l m hlm =>
    have hstep := hlm.step (hg l hs).ledger t fun ht => hr ht l m hs hu
    dsimp only [Option.bind]
    generalize hl : l.step? t = o, m.step? t = o' at hstep
    cases hstep with
    | none => exact .none
    | some hlm =>
      exact .some (h.withSession (h.session.withLink (.some hlm))
        (.drifts (.moved hs (.task t hl))))

theorem step_refused (h : Alike asked s u) (i : Nat) (t : Link.Task) :
    Option.Rel (Alike asked) (s.step? (.refused i t)) (u.step? (.refused i t)) := by
  simp only [step?]
  rw [h.session.refused]
  cases hs : s.session.refused[i]? with
  | none => exact .none
  | some l =>
    dsimp only [Option.bind]
    cases hl : l.step? t with
    | none => exact .none
    | some m =>
      exact .some (h.withSession (h.session.withRefused _)
        (.drifts (.refusedMoved hs (.task t hl))))

theorem step_pump (h : Alike asked s u) :
    Option.Rel (Alike asked) (s.step? .pump) (u.step? .pump) := by
  have hlink := h.session.link
  simp only [step?, pumpStep?]
  rw [h.pumping, h.gone]
  split
  · exact .none
  generalize s.session.link = l, u.session.link = m at hlink
  cases hlink with
  | none => exact .none
  | @some l m hlm =>
    dsimp only [Option.bind]
    rw [hlm.channel.events, h.pumped]
    cases l.channel.events[s.pumped]? with
    | none => exact .none
    | some e =>
      refine .some ?_
      split
      · exact { h with
          gone := rfl
          pumped := rfl
          pumping := rfl }
      · exact { h.withSession (h.session.receive e) (.receive _ e) with
          gone := rfl
          pumped := rfl
          pumping := rfl }

theorem step_job (h : Alike asked s u) (hg : Guarded s.session) (n : Nat) :
    Option.Rel (Alike asked) (s.step? (.job n)) (u.step? (.job n)) := by
  have hlookup := jobsAlike_lookup h.jobs n
  simp only [step?]
  generalize s.jobs.lookup n = o, u.jobs.lookup n = o' at hlookup
  cases hlookup with
  | none => exact .none
  | @some job job' hj =>
    have hturn := jobStep_alike h.session hg h.gone hj
    dsimp only [Option.bind]
    generalize hs : s.jobStep? job = o, u.jobStep? job' = o' at hturn
    cases hturn with
    | none => exact .none
    | @some a b hab =>
      obtain ⟨session, next, text⟩ := a
      obtain ⟨session', next', text'⟩ := b
      obtain ⟨hsession, hnext⟩ := hab
      have h := h.withSession hsession (jobStep_carries hs)
      exact .some (Alike.release { h with jobs := jobsAlike_setJob h.jobs hnext })

/-- Each task does the same in both. -/
theorem step (h : Alike asked s u) (hg : Guarded s.session) (t : Task)
    (hr : t = .link .reader → s.Meets u) : Option.Rel (Alike asked) (s.step? t) (u.step? t) := by
  cases t with
  | link t =>
    refine h.step_link hg t ?_
    rintro rfl
    exact hr rfl
  | refused i t => exact h.step_refused i t
  | pump => exact h.step_pump
  | job n => exact h.step_job hg n

theorem onConsole (h : Alike asked s u) {f : Console.Loop → Console.Loop}
    (hf : ∀ l, (f l).current = l.current) : Alike asked (s.onConsole f) (u.onConsole f) := by
  have hjobs := List.rel_reverse h.jobs
  exact { h with jobs := List.rel_reverse (jobsAlike_onConsole hf hjobs) }

theorem begin (h : Alike asked s u) {more : List Nat} (hm : ∀ n ∈ asked, n ∈ more) (n : Nat)
    {job : Job} (hj : job.New s.session) (hq : job.inquires → n ∈ more) :
    Alike more (s.begin n job) (u.begin n job) := by
  refine { h with jobs := List.rel_append (jobsAlike_mono h.jobs hm (.of_eq rfl)) ?_ }
  refine .cons ⟨rfl, .same hq ?_⟩ .nil
  rw [Job.New.awaiting? hj]
  nofun

theorem drop (h : Alike asked s u) : Alike asked s.drop u.drop := by
  refine Alike.release ?_
  exact { h with held := rfl }

end Alike

end Debugger
end MobDebug
