import MobDebug.Proofs.Evaluation.Results
import MobDebug.Proofs.Session.Loss
import MobDebug.Proofs.Session.Refusal
import MobDebug.Proofs.Session.Replacement
import MobDebug.Proofs.Session.Rooted

/-! The flavours of evaluation: for the first value, for all values, or for callbacks. They do the
same to the session, so one can take the place of another in a run, and tells its user the same. -/
namespace MobDebug
open Literal (Value)
open Session (Continued Began Greeted Progress)

namespace Session
variable {s t u : Session} {id : Nat} {p : Progress}

theorem submit_config {operation : Operation} {command : Wire.Command}
    (h : s.submit operation command = .ok (id, u)) : u.config = s.config := by
  obtain ⟨l, c, -, -, rfl⟩ := submit_eq_ok h
  rfl

theorem submitEvaluation_config {frame : Nat} {expression : String}
    (h : s.submitEvaluation frame expression = .ok (id, u)) : u.config = s.config := by
  obtain ⟨-, command, -, hs⟩ := submitEvaluation_eq_ok h
  exact submit_config hs

theorem enterPaused_config (s : Session) (location : Wire.Location) (after : Nat) :
    (s.enterPaused location after).config = s.config := by
  rcases s.enterPaused_cases location after with h | ⟨-, -, h⟩ <;> rw [h]
  rfl

theorem connectionLost_config (s : Session) : s.connectionLost.config = s.config := by
  rcases s.connectionLost_cases with ⟨-, h⟩ | ⟨-, h⟩ <;> rw [h]
  rfl

theorem receive_config (s : Session) (e : Channel.Event) : (s.receive e).config = s.config := by
  cases e with
  | paused location after => exact s.enterPaused_config location after
  | output | debuggeeError => rfl
  | closed => exact s.connectionLost_config

theorem Greeted.config {bs : List Breakpoint} (h : Greeted s bs t p) : t.config = s.config := by
  cases h with
  | done | broken => rfl
  | told hs => exact submit_config hs

theorem Began.config (h : Began s t p) : t.config = s.config := by
  cases h with
  | attached _ _ _ hg => exact hg.config
  | introduced _ _ _ _ hs | edited _ _ _ _ hs | resumed _ _ _ hs | asked _ _ _ hs
  | leaving _ _ _ hs =>
    have hconfig := submit_config hs
    exact hconfig
  | _ => rfl

theorem Continued.config {awaiting : Awaiting} {o : Channel.Outcome}
    (h : Continued s id awaiting o t p) : t.config = s.config := by
  cases h with
  | greeted hg | dropped hg => exact hg.config
  | lost => exact s.connectionLost_config
  | paused => exact s.enterPaused_config _ _
  | _ => rfl

end Session

/-- How a user evaluates an expression. A call may keep the session until it ends, callbacks do
not. -/
inductive Flavour where
  | first (keeps : Bool)
  | all (keeps : Bool)
  | callbacks

/-- How far an evaluation is: it is about to ask, it waits for the reply to its command, or it has
ended with these values or an error. -/
inductive Evaluation.Stage where
  | asking (frame : Nat) (expression : String)
  | waiting (id : Nat)
  | ended (result : Except Error (List Value))

open Evaluation (Stage)

/-- The next step of an evaluation, if it does not wait and has not ended. -/
def Evaluation.Stage.next? (s : Session) : Stage → Option (Session × Stage)
  | .asking frame expression =>
    match s.submitEvaluation frame expression with
    | .error e => some (s, .ended (.error e))
    | .ok (id, s) => some (s, .waiting id)
  | .waiting id =>
    (s.outcome? id).map fun outcome =>
      (s, .ended (outcome.bind (Evaluation.results s.config.maxDepth)))
  | .ended _ => none

namespace Flavour

def keeps : Flavour → Bool
  | .first keeps => keeps
  | .all keeps => keeps
  | .callbacks => false

/-- What the user is told: the first value, all values, or one of the two callbacks with the first
value or the error. -/
def result : Flavour → Except Error (List Value) → JobResult
  | .first _, r => .answer (r.map fun values => .value (Evaluation.first values))
  | .all _, r => .answer (r.map .values)
  | .callbacks, .ok values => .callbacks [.result (Evaluation.first values)]
  | .callbacks, .error e => .callbacks [.error e]

/-- The job of an evaluation under this limit of depth. -/
def job (maxDepth : Nat) : Flavour → Stage → Job
  | .first keeps, .asking frame expression => .call (.evaluate (some frame) expression) keeps
  | .all keeps, .asking frame expression => .call (.evaluateAll (some frame) expression) keeps
  | .callbacks, .asking frame expression => .delivery (.asking frame expression) []
  | .first keeps, .waiting id => .waiting id .evaluate keeps
  | .all keeps, .waiting id => .waiting id .evaluateAll keeps
  | .callbacks, .waiting id => .delivery (.waiting id maxDepth) []
  | f, .ended r => .ended (f.result r)

end Flavour

namespace Debugger
variable {s u v : Debugger} {n d : Nat} {f g : Flavour} {stage next : Stage} {session : Session}

theorem job_not_console (f : Flavour) (d : Nat) (stage : Stage) (loop : Console.Loop) :
    f.job d stage ≠ .console loop := by
  cases f <;> cases stage <;> exact nofun

theorem keepsSession_job (hk : g.keeps = f.keeps) (d : Nat) (stage : Stage) :
    (g.job d stage).keepsSession = (f.job d stage).keepsSession := by
  have hwaiting (f : Flavour) (id : Nat) : (f.job d (.waiting id)).keepsSession = f.keeps := by
    cases f <;> rfl
  cases stage with
  | waiting id => rw [hwaiting, hwaiting, hk]
  | asking | ended => cases f <;> cases g <;> rfl

/-- Once the reply is in, an evaluation for one value or for all ends with it. -/
theorem continueWith_evaluate (s : Session) (id : Nat) (o : Channel.Outcome) :
    s.continueWith id .evaluate o = (s, .finished
      ((o.bind (Evaluation.results s.config.maxDepth)).map fun values =>
        .value (Evaluation.first values))) := by
  cases o <;> rfl

theorem continueWith_evaluateAll (s : Session) (id : Nat) (o : Channel.Outcome) :
    s.continueWith id .evaluateAll o =
      (s, .finished ((o.bind (Evaluation.results s.config.maxDepth)).map .values)) := by
  cases o <;> rfl

/-- The value for the callback is the first one. -/
theorem callbackOf_result (d : Nat) (o : Channel.Outcome) :
    Flavour.callbacks.result (o.bind (Evaluation.results d)) =
      .callbacks [Session.callbackOf d o] := by
  unfold Session.callbackOf
  cases o.bind (Evaluation.results d) with
  | error e => rfl
  | ok values => cases values <;> rfl

/-- Each flavour goes from stage to stage. -/
theorem jobStep_flavour (hd : s.session.config.maxDepth = d) (f : Flavour) (stage : Stage) :
    s.jobStep? (f.job d stage) =
      (stage.next? s.session).map fun (session, stage) => (session, f.job d stage, "") := by
  cases stage with
  | asking frame expression =>
    cases hs : s.session.submitEvaluation frame expression with
    | error e =>
      cases f <;>
        simp only [Flavour.job, jobStep?, Session.start, Session.evaluate, Session.deliver?,
          Session.evaluateWith, Stage.next?, Option.getD_some, hs] <;> rfl
    | ok accepted =>
      obtain ⟨id, t⟩ := accepted
      have hconfig : t.config.maxDepth = d := by
        rw [← hd, Session.submitEvaluation_config hs]
      cases f <;>
        simp only [Flavour.job, jobStep?, Session.start, Session.evaluate, Session.deliver?,
          Session.evaluateWith, Stage.next?, Option.getD_some, hs, hconfig] <;> rfl
  | waiting id =>
    cases ho : s.session.outcome? id with
    | none =>
      cases f <;> simp only [Flavour.job, jobStep?, Session.deliver?, Stage.next?, ho] <;> rfl
    | some o =>
      simp only [Stage.next?, ho, hd, Option.map_some]
      cases f with
      | first keeps =>
        simp only [Flavour.job, jobStep?, ho, Option.map_some, continueWith_evaluate, hd]
        rfl
      | all keeps =>
        simp only [Flavour.job, jobStep?, ho, Option.map_some, continueWith_evaluateAll, hd]
        rfl
      | callbacks =>
        simp only [Flavour.job, jobStep?, Session.deliver?, ho, Option.map_some,
          callbackOf_result]
        rfl
  | ended r => cases f <;> rfl

/-- A session keeps its configuration. -/
theorem config_step (hs : Step s u) : u.session.config = s.session.config := by
  cases step_turn hs with
  | drift _ hd => exact hd.config
  | receive _ _ _ hu => rw [hu, Session.receive_config]
  | begin _ _ hb hd => exact hd.config.trans hb.config
  | resume _ _ _ hc hd => exact hd.config.trans hc.config

theorem held_before (hs : Step s u) (hu : u.held) : s.held := by
  cases hs with
  | task task h =>
    cases taskTurn h with
    | link | refused | stops | brings => exact hu
    | job => rwa [release_held] at hu
  | drop =>
    rw [drop, release_held] at hu
    cases hu
  | begin | type | endInput | outside | outsideRefused | tick => exact hu

/-- The next step of an evaluation is that of its job. -/
theorem step_flavour (hj : s.jobs.lookup n = some (f.job d stage))
    (hd : s.session.config.maxDepth = d) (hnext : stage.next? s.session = some (session, next)) :
    ∃ u, s.step? (.job n) = some u ∧ u.jobs.lookup n = some (f.job d next) := by
  have hjob : s.jobStep? (f.job d stage) = some (session, f.job d next, "") := by
    rw [jobStep_flavour hd, hnext]
    rfl
  refine ⟨_, by rw [step?, hj, Option.bind_some, hjob, Option.map_some], ?_⟩
  rw [jobs_release, lookup_setJob (by rw [hj]; rfl), if_pos rfl]

/-- A step of the debugger leaves an evaluation where it is or takes it to its next stage, and an
evaluation of another flavour in its place would be there too. -/
theorem stage_step (hr : Reachable s) (hj : s.jobs.lookup n = some (f.job d stage))
    (hd : s.session.config.maxDepth = d) (hs : Step s u) :
    ∃ next, (next = stage ∨ ∃ session, stage.next? s.session = some (session, next)) ∧
      u.jobs.lookup n = some (f.job d next) ∧ ∀ g : Flavour, u.held ∨ g.keeps = f.keeps →
        Step (s.setJob n (g.job d stage)) (u.setJob n (g.job d next)) := by
  by_cases hown : s.step? (.job n) = some u
  · obtain ⟨session, job', text, hjob, -, hu⟩ := jobStep_own hj hown
    have hstage := (jobStep_flavour hd f stage).symm.trans hjob
    obtain ⟨⟨t, next⟩, hnext, he⟩ := Option.map_eq_some_iff.1 hstage
    cases he
    refine ⟨next, .inr ⟨_, hnext⟩, hu, fun g hk => .task (.job n) ?_⟩
    have hother : s.jobStep? (g.job d stage) = some (session, g.job d next, "") := by
      rw [jobStep_flavour hd, hnext]
      rfl
    exact step_own_setJob hj hjob hother hown (hk.imp_right fun hk => keepsSession_job hk d next)
  · refine ⟨stage, .inl rfl,
      (lookup_step hs hj (job_not_console f d stage)).resolve_left hown, fun g hk => ?_⟩
    exact step_setJob hs (setJob_self hr hj) (by rw [hj]; rfl) (job_not_console f d stage)
      (job_not_console g d stage) hown (hk.imp_right fun hk => keepsSession_job hk d stage)

/-- How an evaluation has come to its stage. In some state between, its command was refused or
submitted, and what the command ended with has been read. -/
inductive Came (s u : Debugger) (d frame : Nat) (expression : String) : Stage → Prop where
  | asking : Came s u d frame expression (.asking frame expression)
  | refused {v : Debugger} {e : Error} (hv : Future s v) (hu : Future v u)
      (h : v.session.submitEvaluation frame expression = .error e) :
      Came s u d frame expression (.ended (.error e))
  | submitted {v : Debugger} {id : Nat} {t : Session} (hv : Future s v) (hu : Future v u)
      (h : v.session.submitEvaluation frame expression = .ok (id, t)) :
      Came s u d frame expression (.waiting id)
  | answered {v : Debugger} {id : Nat} {t : Session} {o : Channel.Outcome} (hv : Future s v)
      (hu : Future v u) (h : v.session.submitEvaluation frame expression = .ok (id, t))
      (ho : u.session.outcome? id = some o) :
      Came s u d frame expression (.ended (o.bind (Evaluation.results d)))

variable {frame : Nat} {expression : String}

theorem Came.stays (h : Came s u d frame expression stage) (hr : Reachable u) (hs : Step u v) :
    Came s v d frame expression stage := by
  cases h with
  | asking => exact .asking
  | refused hv hu h => exact .refused hv (hu.tail hs) h
  | submitted hv hu h => exact .submitted hv (hu.tail hs) h
  | answered hv hu h ho =>
    exact .answered hv (hu.tail hs) h (outcome_future hr (.single hs) ho)

theorem Came.goes (h : Came s u d frame expression stage) (hr : Reachable u)
    (hd : u.session.config.maxDepth = d) (hf : Future s u) (hs : Step u v)
    (hnext : stage.next? u.session = some (session, next)) :
    Came s v d frame expression next := by
  cases h with
  | asking =>
    rw [Stage.next?] at hnext
    split at hnext
    · next he =>
      cases hnext
      exact .refused hf (.single hs) he
    · next he =>
      cases hnext
      exact .submitted hf (.single hs) he
  | submitted hv hu h =>
    obtain ⟨o, ho, he⟩ := Option.map_eq_some_iff.1 hnext
    cases he
    rw [hd]
    exact .answered hv (hu.tail hs) h (outcome_future hr (.single hs) ho)
  | refused | answered => cases hnext

theorem begin_setJob_self (hn : s.jobs.lookup n = none) (a b : Job) :
    (s.begin n a).setJob n b = s.begin n b := by
  have hothers : s.jobs.map (placed n b) = s.jobs := by
    refine (List.map_congr_left fun p hp => ?_).trans (List.map_id _)
    have hne := List.lookup_eq_none_iff.1 hn p hp
    exact if_neg fun he => by simp [he] at hne
  simp only [setJob_eq, begin, List.map_append, hothers, List.map_singleton]
  rw [placed, if_pos rfl]

theorem new_flavour (t : Session) (f : Flavour) (d frame : Nat) (expression : String) :
    (f.job d (.asking frame expression)).New t := by
  cases f with
  | first keeps => exact .call _ keeps
  | all keeps => exact .call _ keeps
  | callbacks => exact .delivery frame expression

theorem stage_future (hr : Reachable s) (hs : s.held)
    (hn : s.jobs.lookup n = none) (hd : s.session.config.maxDepth = d)
    (hf : Future (s.begin n (f.job d (.asking frame expression))) u) :
    Reachable u ∧ u.session.config.maxDepth = d ∧
    ∃ stage, Came (s.begin n (f.job d (.asking frame expression))) u d frame expression stage ∧
      u.jobs.lookup n = some (f.job d stage) ∧ ∀ g : Flavour, u.held ∨ g.keeps = f.keeps →
        Future (s.begin n (g.job d (.asking frame expression))) (u.setJob n (g.job d stage)) := by
  induction hf with
  | refl =>
    refine ⟨hr.step (.begin n hs hn (new_flavour _ f d frame expression)), hd,
      .asking frame expression, .asking, ?_, fun g _ => ?_⟩
    · rw [begin, List.lookup_append, hn]
      simp
    · rw [begin_setJob_self hn]
  | @tail u v hf hs ih =>
    obtain ⟨hu, hconfig, stage, hcame, hj, hswap⟩ := ih
    obtain ⟨next, hnext, hj, hstep⟩ := stage_step hu hj hconfig hs
    refine ⟨hu.step hs, by rw [config_step hs, hconfig], next, ?_, hj, fun g hk => ?_⟩
    · rcases hnext with rfl | ⟨session, hnext⟩
      · exact hcame.stays hu hs
      · exact hcame.goes hu hconfig hf hs hnext
    · exact (hswap g (hk.imp_left (held_before hs))).tail (hstep g hk)

/-- An evaluation goes on, unless it has ended or waits for a reply on an open connection. -/
theorem stage_waits (hr : Reachable s) (hj : s.jobs.lookup n = some (f.job d stage))
    (hw : stage.next? s.session = none) : (∃ r, stage = .ended r) ∨
      ∃ id l, stage = .waiting id ∧ s.session.outcome? id = none ∧ s.session.link = some l ∧
        l.channel.closed = false := by
  cases stage with
  | asking frame expression =>
    rw [Stage.next?] at hw
    split at hw <;> cases hw
  | waiting id =>
    have ho : s.session.outcome? id = none := Option.map_eq_none_iff.1 hw
    obtain ⟨awaiting, hn⟩ : ∃ awaiting, s.awaits n = some (id, awaiting) := by
      rw [awaits, hj]
      cases f <;> exact ⟨_, rfl⟩
    obtain ⟨r, hasked, -⟩ := (rooted_reachable hr).asked n _ hn
    cases hl : s.session.link with
    | none =>
      rw [Session.journal, hl] at hasked
      cases hasked
    | some l =>
      refine .inr ⟨id, l, rfl, ho, rfl, ?_⟩
      rw [← Bool.not_eq_true]
      intro hclosed
      obtain ⟨o, hanswered⟩ := outcome_of_closed hr hl hclosed hn
      cases ho.symm.trans hanswered
  | ended r => exact .inl ⟨r, rfl⟩

/-- However an expression is evaluated, the evaluation comes from stage to stage, and ends with what
its command was refused with, or with what its reply holds or failed with. In the same run, if the
session is held all along or waiting keeps it alike, an evaluation of another flavour is at the same
stage, so the users are told the same: all values, the first of them or nil, or an error. Of the two
callbacks none has run before the end, and one afterwards, for good. An evaluation goes on whenever
it has its turn, unless it waits for a reply on an open connection. -/
theorem flavours_agree (hr : Reachable s) (hs : s.held) (hn : s.jobs.lookup n = none)
    (hd : s.session.config.maxDepth = d)
    (hf : Future (s.begin n (f.job d (.asking frame expression))) u) :
    ∃ stage, Came (s.begin n (f.job d (.asking frame expression))) u d frame expression stage ∧
      u.jobs.lookup n = some (f.job d stage) ∧
      (∀ g : Flavour, u.held ∨ g.keeps = f.keeps →
        Future (s.begin n (g.job d (.asking frame expression))) (u.setJob n (g.job d stage))) ∧
      (∀ session next, stage.next? u.session = some (session, next) →
        ∃ v, u.step? (.job n) = some v ∧ v.jobs.lookup n = some (f.job d next)) ∧
      (stage.next? u.session = none → (∃ r, stage = .ended r) ∨
        ∃ id l, stage = .waiting id ∧ u.session.outcome? id = none ∧ u.session.link = some l ∧
          l.channel.closed = false) ∧
      ∀ r, stage = .ended r → ∀ v, Future u v → v.jobs.lookup n = some (.ended (f.result r)) := by
  obtain ⟨hu, hconfig, stage, hcame, hj, hswap⟩ := stage_future hr hs hn hd hf
  refine ⟨stage, hcame, hj, hswap, fun session next hnext => step_flavour hj hconfig hnext,
    stage_waits hu hj, ?_⟩
  rintro r rfl v hv
  refine ended_future hv (hj.trans ?_)
  cases f <;> rfl

theorem results_two :
    Evaluation.results 8 "\x7b\"true\", \"nil\"\x7d" = .ok [.bool true, .nil] := by
  have htext : Evaluation.reply [.bool true, .nil] = "\x7b\"true\", \"nil\"\x7d" := by
    decide +kernel
  have hwritable : ∀ v ∈ [Value.bool true, .nil], v.Writable :=
    List.forall_mem_cons.2 ⟨.bool true, List.forall_mem_singleton.2 .nil⟩
  rw [← htext]
  exact Evaluation.results_ok (by decide) hwritable (by decide)

/-- A reply with two values, the second of which is nil. -/
theorem flavours_agree_two : ∃ s u, Reachable s ∧ s.session.core.state = .paused ∧
    Future (s.begin 1 (.call (.evaluateAll (some 0) "x") true)) u ∧
    u.jobs.lookup 1 = some (.ended (.answer (.ok (.values [.bool true, .nil])))) ∧
    Future (s.begin 1 (.call (.evaluate (some 0) "x") true))
      (u.setJob 1 (.ended (.answer (.ok (.value (.bool true)))))) ∧
    Future (s.begin 1 (.delivery (.asking 0 "x") []))
      (u.setJob 1 (.ended (.callbacks [.result (.bool true)]))) := by
  have h : Reachable (.new {}) := .new {}
  have h := h.step (.begin 0 rfl rfl (.call (.attach {}) true))
  have h := h.step (.task (.job 0) rfl)
  have h := h.step (.outside { arriving := Text.bytes "202 Paused 7\na.lua 1" } rfl rfl)
  have h := h.step (.task (.link .reader) rfl)
  have h := h.step (.task (.link .reader) rfl)
  have h := h.step (.task .pump rfl)
  have hstay {s : Debugger} (_ : Reachable s) : Future s s := .refl
  have hf := hstay (h.step (.begin 1 rfl rfl (.call (.evaluateAll (some 0) "x") true)))
  have hf := hf.tail (.task (.job 1) rfl)
  have hf := hf.tail (.task (.link .writer) rfl)
  have hf := hf.tail (.task (.link .writer) rfl)
  have hf := hf.tail (.outside
    { arriving := Text.bytes "200 OK 15\n\x7b\"true\", \"nil\"\x7d",
      written := Text.bytes "EXEC return x --\x7bstack=0; maxlevel=8\x7d\n" } rfl (by decide))
  have hf := hf.tail (.task (.link .reader) rfl)
  have hf := hf.tail (.task (.link .reader) rfl)
  have hf := hf.tail (.task (.job 1) rfl)
  obtain ⟨stage, -, hj, hswap, -⟩ :=
    @flavours_agree _ _ 1 8 (.all true) 0 "x" h rfl rfl rfl hf
  have hended : (Flavour.all true).job 8 stage = .ended (.answer
      ((Evaluation.results 8 "\x7b\"true\", \"nil\"\x7d").map .values)) :=
    Option.some.inj (hj.symm.trans rfl)
  rw [results_two] at hended
  obtain rfl : stage = .ended (.ok [.bool true, .nil]) := by
    cases stage with
    | ended r =>
      cases r <;> cases hended
      rfl
    | asking | waiting => cases hended
  exact ⟨_, _, h, rfl, hf, hj, hswap (.first true) (.inl rfl), hswap .callbacks (.inl rfl)⟩

end Debugger
end MobDebug
