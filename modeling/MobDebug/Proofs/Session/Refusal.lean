import MobDebug.Proofs.Session.Ended
import MobDebug.Proofs.Session.Attachment
import MobDebug.Proofs.Text.Blank

/-! Calls that are refused at once. What is wrong with them shows before anything is told or
submitted, so nothing comes of them but the error. -/
namespace MobDebug
open Session (Call Operation Breakpoint)
open Wire (Command CommandName isLineEnd)

/-- A command with a line end in what it says has no line. -/
theorem Wire.Command.encode_multiLine {c : Command} {ch : Char} (hm : ch ∈ c.text.toList)
    (hl : isLineEnd ch) : c.encode = .error (.multiLineCommand c.name) := by
  have hany : c.text.toList.any isLineEnd = true := List.any_eq_true.2 ⟨ch, hm, hl⟩
  rw [encode, line?, if_pos hany]

namespace Session
variable {s : Session} {call : Call} {e : Error} {expression : String} {fault : ProtocolFault}
  {b : Breakpoint}

/-- What a call is named in an error. -/
def Call.operation : Call → Operation
  | .attach _ | .connect _ => .attach
  | .run => .run
  | .step kind => .step kind
  | .pause => .pause
  | .setBreakpoint _ => .setBreakpoint
  | .clearBreakpoint _ => .clearBreakpoint
  | .selectFrame _ => .selectFrame
  | .evaluate _ _ | .evaluateAll _ _ => .evaluate
  | .stack => .stack
  | .setOutput _ => .output
  | .detach => .detach
  | .exit => .exit

/-- The sessions in which a call may be made. -/
def Call.Legal (s : Session) : Call → Prop
  | .attach _ | .connect _ => s.link = none ∧ s.core.ended = false
  | .setBreakpoint _ | .clearBreakpoint _ => s.core.ended = false
  | .pause => s.core.state = .running ∨ s.core.state = .stepping
  | .detach | .exit =>
    s.core.state = .running ∨ s.core.state = .paused ∨ s.core.state = .stepping
  | .run | .step _ | .selectFrame _ | .evaluate _ _ | .evaluateAll _ _ | .stack | .setOutput _ =>
    s.core.state = .paused

/-- What a call evaluates. -/
def Call.expression? : Call → Option String
  | .evaluate _ expression | .evaluateAll _ expression => some expression
  | _ => none

/-- What is wrong with what a call asks for: an expression that is blank, one that is on several
lines, or a new breakpoint that does not fit on a line, where there is somebody to tell it. -/
inductive Call.Malformed (s : Session) : Call → ProtocolFault → Prop where
  | blank {call : Call} {expression : String} (hc : call.expression? = some expression)
      (h : ∀ c ∈ expression.toList, Text.isBlank c) : Malformed s call .emptyExpression
  | lines {call : Call} {expression : String} {before after : List Char} {c : Char}
      (hc : call.expression? = some expression)
      (he : expression.toList = before ++ c :: after) (hline : isLineEnd c)
      (hb : ∃ d ∈ before, Text.isBlank d = false) (ha : ∃ d ∈ after, Text.isBlank d = false) :
      Malformed s call .multiLineExpression
  | file {b : Breakpoint} (hb : b ∉ s.core.breakpoints) (hl : s.link.isSome)
      (hf : ∃ c ∈ b.file.toList, isLineEnd c) :
      Malformed s (.setBreakpoint b) (.multiLineCommand .setBreakpoint)

/-- The errors that a call is refused with. -/
inductive Call.Refused (s : Session) (call : Call) : Error → Prop where
  | illegal (h : ¬ call.Legal s) : Refused s call (.invalidState call.operation s.core.state)
  | malformed {fault : ProtocolFault} (hl : call.Legal s) (h : call.Malformed s fault) :
      Refused s call (.protocol fault)

/-- The session that has refused a call. It remembers the stream it was to attach to, which is
closed. -/
def turnedAway (s : Session) : Call → Session
  | .attach stream => s.refusing stream
  | _ => s

theorem turnedAway_core (s : Session) (call : Call) : (s.turnedAway call).core = s.core := by
  cases call <;> rfl

theorem turnedAway_events (s : Session) (call : Call) : (s.turnedAway call).events = s.events := by
  cases call <;> rfl

theorem turnedAway_link (s : Session) (call : Call) : (s.turnedAway call).link = s.link := by
  cases call <;> rfl

theorem turnedAway_commands (s : Session) (call : Call) :
    (s.turnedAway call).commands = s.commands := by
  rw [commands, turnedAway_link, ← commands]

/-! ### Illegal calls -/

/-- A call that connects does not even try where it may not attach. -/
theorem connect_illegal (h : s.core.ended ∨ s.link.isSome) (connection : Except Error Stream) :
    s.connect connection = (s, .finished (.error (s.invalid .attach))) := by
  unfold connect
  rw [if_pos (Bool.or_eq_true _ _ ▸ h)]

theorem resume_illegal (h : s.core.state ≠ .paused) (operation : Operation) (name : CommandName)
    (next : State) :
    s.resume operation name next = (s, .finished (.error (s.invalid operation))) := by
  simp [resume, submitIn, h]

theorem ask_illegal {allowed : State → Bool} (h : allowed s.core.state = false)
    (operation : Operation) (command : Command) (awaiting : Awaiting) :
    s.ask operation allowed command awaiting = (s, .finished (.error (s.invalid operation))) := by
  simp [ask, submitIn, h]

theorem finish_illegal (h : s.core.state.isLive = false) (operation : Operation)
    (name : CommandName) (last : State) :
    s.finish operation name last = (s, .finished (.error (s.invalid operation))) := by
  simp [finish, h]

theorem evaluate_illegal (h : s.core.state ≠ .paused) (frame : Option Nat) (expression : String)
    (awaiting : Awaiting) :
    s.evaluate frame expression awaiting = (s, .finished (.error (s.invalid .evaluate))) := by
  simp [evaluate, submitEvaluation, h]

/-- Where the state forbids a call, its first part is its last. -/
theorem start_illegal (h : ¬ call.Legal s) : s.start call =
    (s.turnedAway call, .finished (.error (.invalidState call.operation s.core.state))) := by
  have htaken (hn : ¬ (s.link = none ∧ s.core.ended = false)) : s.core.ended ∨ s.link.isSome := by
    rcases Bool.eq_false_or_eq_true s.core.ended with he | he
    · exact .inl he
    · exact .inr (Option.isSome_iff_ne_none.2 fun hl => hn ⟨hl, he⟩)
  have hover (hn : ¬ (s.core.state = .running ∨ s.core.state = .paused ∨
      s.core.state = .stepping)) : s.core.state.isLive = false := by
    rw [← isLive_iff] at hn
    exact Bool.not_eq_true _ ▸ hn
  cases call with
  | attach stream => exact attach_refused (htaken h) stream
  | connect connection => exact connect_illegal (htaken h) connection
  | run => exact resume_illegal h _ _ _
  | step kind => cases kind <;> exact resume_illegal h _ _ _
  | pause =>
    refine ask_illegal ?_ _ _ _
    simpa [Call.Legal] using h
  | setBreakpoint b =>
    have he : s.core.ended = true := Bool.not_eq_false _ ▸ h
    rw [start, setBreakpoint, if_pos he]
    rfl
  | clearBreakpoint b =>
    have he : s.core.ended = true := Bool.not_eq_false _ ▸ h
    rw [start, clearBreakpoint, if_pos he]
    rfl
  | selectFrame n =>
    have hs : s.core.state ≠ .paused := h
    rw [start, selectFrame, if_pos hs]
    rfl
  | evaluate | evaluateAll => exact evaluate_illegal h _ _ _
  | stack | setOutput =>
    have hs : s.core.state ≠ .paused := h
    exact ask_illegal (decide_eq_false hs) _ _ _
  | detach | exit => exact finish_illegal (hover h) _ _ _

/-! ### Malformed calls -/

/-- An expression is looked at before anything is submitted. -/
theorem evaluate_malformed (hp : s.Phase) (hs : s.core.state = .paused)
    (h : ∀ frame depth, Evaluation.command frame expression depth = .error fault)
    (frame : Option Nat) (awaiting : Awaiting) :
    s.evaluate frame expression awaiting = (s, .finished (.error (.protocol fault))) := by
  have hlink : s.link.isSome := (hp.live_iff.1 (by rw [hs]; rfl)).1
  obtain ⟨l, hl⟩ := Option.isSome_iff_exists.1 hlink
  simp [evaluate, submitEvaluation, hs, hl, h]

theorem start_expression (hp : s.Phase) (hl : call.Legal s)
    (hc : call.expression? = some expression)
    (h : ∀ frame depth, Evaluation.command frame expression depth = .error fault) :
    s.start call = (s.turnedAway call, .finished (.error (.protocol fault))) := by
  cases call with
  | evaluate | evaluateAll =>
    cases hc
    exact evaluate_malformed hp hl h _ _
  | _ => cases hc

/-- No line sets a breakpoint in a file with a line end in its name. -/
theorem Breakpoint.encode_multiLine (hf : ∃ c ∈ b.file.toList, isLineEnd c) :
    (Command.setBreakpoint b.file b.line).encode = .error (.multiLineCommand .setBreakpoint) := by
  obtain ⟨c, hc, hline⟩ := hf
  refine Command.encode_multiLine ?_ hline
  simp [Command.text, Command.setBreakpoint, hc]

/-- A breakpoint is recorded only once its command is submitted. -/
theorem setBreakpoint_malformed (he : s.core.ended = false) (hb : b ∉ s.core.breakpoints)
    (hl : s.link.isSome) (hf : ∃ c ∈ b.file.toList, isLineEnd c) :
    s.setBreakpoint b = (s, .finished (.error (.protocol (.multiLineCommand .setBreakpoint)))) := by
  obtain ⟨l, hl⟩ := Option.isSome_iff_exists.1 hl
  have hencode := Breakpoint.encode_multiLine hf
  have hsubmit : s.submit .setBreakpoint (.setBreakpoint b.file b.line) =
      .error (.protocol (.multiLineCommand .setBreakpoint)) := by
    rw [submit, hl]
    simp [Channel.submit, hencode, Except.map]
  simp [setBreakpoint, he, hb, hl, hsubmit]

theorem start_malformed (hp : s.Phase) (hl : call.Legal s) (h : call.Malformed s fault) :
    s.start call = (s.turnedAway call, .finished (.error (.protocol fault))) := by
  cases h with
  | blank hc h =>
    refine start_expression hp hl hc fun frame depth => ?_
    simp [Evaluation.command, Text.trim_blank h]
  | @lines _ expression before after c hc he hline hb ha =>
    refine start_expression hp hl hc fun frame depth => ?_
    have hmem : c ∈ Text.trim expression.toList := he ▸ Text.mem_trim hb ha
    simp only [Evaluation.command]
    rw [if_neg fun hn => ?_, if_pos (List.any_eq_true.2 ⟨_, hmem, hline⟩)]
    rw [List.isEmpty_iff.1 hn] at hmem
    cases hmem
  | file hb hlink hf => exact setBreakpoint_malformed hl hb hlink hf

theorem start_refused (hp : s.Phase) (h : call.Refused s e) :
    s.start call = (s.turnedAway call, .finished (.error e)) := by
  cases h with
  | illegal h => exact start_illegal h
  | malformed hl h => exact start_malformed hp hl h

/-- A call that evaluates is refused only where its command is. -/
theorem submitEvaluation_refused {t : Session} {frame : Nat}
    (h : s.start (.evaluate (some frame) expression) = (t, .finished (.error e))) :
    s.submitEvaluation frame expression = .error e := by
  simp only [start, evaluate, Option.getD_some] at h
  cases hs : s.submitEvaluation frame expression with
  | error fault =>
    rw [hs] at h
    cases h
    rfl
  | ok asked =>
    rw [hs] at h
    cases h

end Session

/-- What a job asks for that has not begun: a call, or an evaluation for callbacks. -/
def Job.asks? : Job → Option Call
  | .call c _ => some c
  | .delivery (.asking frame expression) [] => some (.evaluate (some frame) expression)
  | _ => none

/-- How a job ends that was refused: with the error, or with the one callback that is told it. -/
def Job.refusal (e : Error) : Job → JobResult
  | .delivery _ _ => .callbacks [.error e]
  | _ => .answer (.error e)

namespace Debugger
variable {s u : Debugger} {n : Nat} {job : Job} {call : Call} {e : Error} {result : JobResult}

theorem stream_release (s : Debugger) :
    s.release.session.link.map (·.stream) = s.session.link.map (·.stream) := by
  rcases s.release_session with h | h <;> rw [h]
  rw [Session.close]
  cases s.session.link <;> rfl

theorem refused_release (s : Debugger) : s.release.session.refused = s.session.refused := by
  rcases s.release_session with h | h <;> rw [h]
  rfl

theorem ended_future (hf : Future s u)
    (hj : s.jobs.lookup n = some (.ended result)) : u.jobs.lookup n = some (.ended result) := by
  induction hf with
  | refl => exact hj
  | tail _ hs ih => exact lookup_ended hs ih

/-- The debugger after a call was refused. Whoever held the session only for this call lets go of
it. -/
def refusing (s : Debugger) (n : Nat) (call : Call) (result : JobResult) : Debugger :=
  ({ s with session := s.session.turnedAway call }.setJob n (.ended result)).release

theorem lookup_refusing (hj : (s.jobs.lookup n).isSome) :
    (s.refusing n call result).jobs.lookup n = some (.ended result) := by
  rw [refusing, jobs_release]
  exact (lookup_setJob (s := { s with session := s.session.turnedAway call }) hj _ n).trans
    (if_pos rfl)

theorem refused_refusing (n : Nat) (stream : Stream) (result : JobResult) :
    (s.refusing n (.attach stream) result).session.refused[s.session.refused.length]? =
      some ((s.session.opened stream).fail .channelClosed) := by
  rw [refusing, refused_release]
  exact List.getElem?_concat_length

/-- An evaluation for callbacks asks like a call that evaluates. -/
theorem jobStep_refused (hp : s.session.Phase) (hc : job.asks? = some call)
    (hr : call.Refused s.session e) :
    s.jobStep? job = some (s.session.turnedAway call, .ended (job.refusal e), "") := by
  have hstart := Session.start_refused hp hr
  cases job with
  | call asked keeps =>
    cases hc
    rw [jobStep?, hstart]
    rfl
  | delivery d ran =>
    cases d with
    | asking frame expression =>
      cases ran with
      | nil =>
        cases hc
        have hsubmit := Session.submitEvaluation_refused hstart
        simp only [jobStep?, Session.deliver?, Session.evaluateWith, hsubmit, Option.map_some]
        rfl
      | cons => cases hc
    | waiting | finished => cases hc
  | _ => cases hc

theorem step_refused (h : Reachable s) (hj : s.jobs.lookup n = some job)
    (hc : job.asks? = some call) (hr : call.Refused s.session e) :
    s.step? (.job n) = some (s.refusing n call (job.refusal e)) := by
  have hjob := jobStep_refused (standing_reachable h).phase hc hr
  simp only [step?, hj, Option.bind_some, hjob, Option.map_some, String.append_empty]
  rfl

/-- A call is refused where the state of the session forbids it, with an error that names the state;
and where it is allowed, if it evaluates a blank expression or one of several lines, or sets a new
breakpoint on a line that cannot be told to the debuggee. The call ends with its first step, with
this one error for good, and an evaluation for callbacks with the one callback that is told the
error. Nothing else happens: not to what the session knows, not to its subscribers, its commands or
its stream; and a stream that was refused is closed and never written to. -/
theorem refused_without_effect (h : Reachable s) (hj : s.jobs.lookup n = some job)
    (hc : job.asks? = some call) (hr : call.Refused s.session e) :
    let v := s.refusing n call (job.refusal e)
    s.step? (.job n) = some v ∧
    v.session.core = s.session.core ∧
    v.session.events = s.session.events ∧
    v.session.commands = s.session.commands ∧
    v.session.link.map (·.stream) = s.session.link.map (·.stream) ∧
    ∀ u, Future v u →
      u.jobs.lookup n = some (.ended (job.refusal e)) ∧
      ∀ stream, call = .attach stream →
        ∃ l, u.session.refused[s.session.refused.length]? = some l ∧ l.channel.closed ∧
          l.stream.written = stream.written := by
  intro v
  have hd : (s.session.turnedAway call).Drifts v.session :=
    drifts_release ({ s with session := s.session.turnedAway call }.setJob n
      (.ended (job.refusal e)))
  have hstep : s.step? (.job n) = some v := step_refused h hj hc hr
  refine ⟨hstep, hd.core.trans (s.session.turnedAway_core call),
    hd.events.trans (s.session.turnedAway_events call),
    (Session.commands_drifts hd).trans (s.session.turnedAway_commands call), ?_, fun u hf => ?_⟩
  · refine (stream_release _).trans ?_
    exact congrArg (Option.map (·.stream)) (s.session.turnedAway_link call)
  · refine ⟨ended_future hf (lookup_refusing (by rw [hj]; rfl)), ?_⟩
    rintro stream rfl
    have hreach := h.step (.task (.job n) hstep)
    obtain ⟨l, hl, hw⟩ := refused_silent hreach hf (refused_refusing n stream _)
    exact ⟨l, hl, refused_closed (hreach.future hf) l (List.mem_of_getElem? hl), hw⟩

/-- A program is paused. Two lines are to be evaluated for somebody who only waits for the reply,
and a blank expression for callbacks. -/
theorem refused_without_effect_lines : ∃ s, Reachable s ∧ s.session.core.state = .paused ∧
    s.jobs.lookup 1 = some (.call (.evaluate (some 0) "a\nb") false) ∧
    s.jobs.lookup 2 = some (.delivery (.asking 0 " ") []) ∧
    (∃ u, s.step? (.job 1) = some u ∧ u.session.core.state = .paused ∧ u.session.commands = [] ∧
      ∀ v, Future u v → v.jobs.lookup 1 =
        some (.ended (.answer (.error (.protocol .multiLineExpression))))) ∧
    ∃ u, s.step? (.job 2) = some u ∧ u.session.events = s.session.events ∧
      ∀ v, Future u v → v.jobs.lookup 2 =
        some (.ended (.callbacks [.error (.protocol .emptyExpression)])) := by
  have h : Reachable (.new {}) := .new {}
  have h := h.step (.begin 0 rfl rfl (.call (.attach {}) true))
  have h := h.step (.task (.job 0) rfl)
  have h := h.step (.outside { arriving := Text.bytes "202 Paused 7\na.lua 1" } rfl rfl)
  have h := h.step (.task (.link .reader) rfl)
  have h := h.step (.task (.link .reader) rfl)
  have h := h.step (.task .pump rfl)
  have h := h.step (.begin 1 rfl rfl (.call (.evaluate (some 0) "a\nb") false))
  have h := h.step (.begin 2 rfl rfl (.delivery 0 " "))
  have hlines {s : Session} (hs : s.core.state = .paused) :
      Call.Refused s (.evaluate (some 0) "a\nb") (.protocol .multiLineExpression) :=
    .malformed hs (@Call.Malformed.lines s _ _ ['a'] ['b'] '\n' rfl rfl rfl
      ⟨'a', by decide, rfl⟩ ⟨'b', by decide, rfl⟩)
  have hblank {s : Session} (hs : s.core.state = .paused) :
      Call.Refused s (.evaluate (some 0) " ") (.protocol .emptyExpression) :=
    .malformed hs (.blank rfl (List.forall_mem_singleton.mpr rfl))
  obtain ⟨hstep, hcore, -, hcommands, -, hfuture⟩ :=
    refused_without_effect (n := 1) h rfl rfl (hlines rfl)
  obtain ⟨hstep', -, hevents, -, -, hfuture'⟩ :=
    refused_without_effect (n := 2) h rfl rfl (hblank rfl)
  exact ⟨_, h, rfl, rfl, rfl,
    ⟨_, hstep, congrArg (·.state) hcore, hcommands, fun v hv => (hfuture v hv).1⟩,
    _, hstep', hevents, fun v hv => (hfuture' v hv).1⟩

end Debugger
end MobDebug
