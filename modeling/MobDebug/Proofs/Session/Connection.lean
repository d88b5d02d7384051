import MobDebug.Session.Call
import MobDebug.Proofs.Channel.Reports
import MobDebug.Proofs.Channel.Wiring

/-! What a session does with its connection: it takes no command back, and it keeps the id of the
latest command that resumes the program. -/
namespace MobDebug
open Wire (Command CommandName Location)
open Channel (Outcome Run Reports acceptedIn withdrawnIn)

/-- A command that lets the paused program go on. -/
def Wire.CommandName.resumes : CommandName → Bool
  | .run => true
  | .step => true
  | .over => true
  | .out => true
  | _ => false

namespace Session
variable {s u : Session} {l : Link} {c d : Channel} {id n : Nat} {command : Command}
  {operation : Operation}

@[simp] theorem emit_core (s : Session) (e : Event) : (s.emit e).core = s.core := rfl

@[simp] theorem emit_link (s : Session) (e : Event) : (s.emit e).link = s.link := rfl

@[simp] theorem publish_core (s : Session) : s.publish.core = s.core := rfl

@[simp] theorem publish_link (s : Session) : s.publish.link = s.link := rfl

@[simp] theorem close_core (s : Session) : s.close.core = s.core := rfl

@[simp] theorem close_events (s : Session) : s.close.events = s.events := rfl

theorem submit_eq_ok (h : s.submit operation command = .ok (id, u)) :
    ∃ l c, s.link = some l ∧ l.channel.submit command = .ok (id, c) ∧
      u = { s with link := some { l with channel := c } } := by
  unfold submit at h
  split at h
  · cases h
  · next l hl =>
    cases hs : l.channel.submit command with
    | error e => simp [hs, Except.map] at h
    | ok p =>
      simp only [hs, Except.map, Except.ok.injEq, Prod.mk.injEq] at h
      obtain ⟨rfl, rfl⟩ := h
      exact ⟨l, p.2, hl, hs, rfl⟩

theorem submitIn_eq_ok {allowed : State → Bool}
    (h : s.submitIn operation allowed command = .ok (id, u)) :
    allowed s.core.state ∧ s.submit operation command = .ok (id, u) := by
  unfold submitIn at h
  split at h
  · next ha => exact ⟨ha, h⟩
  · cases h

/-- An expression is evaluated by a command of its own kind. -/
theorem name_of_evaluation {n : Nat} {expression : String} {maxDepth : Nat} {command : Command}
    (h : Evaluation.command n expression maxDepth = .ok command) : command.name = .exec := by
  unfold Evaluation.command at h
  dsimp only at h
  split at h
  · cases h
  split at h
  · cases h
  · cases h
    rfl

theorem submitEvaluation_eq_ok {frame : Nat} {expression : String}
    (h : s.submitEvaluation frame expression = .ok (id, u)) : s.core.state = .paused ∧
      ∃ command, command.name = .exec ∧ s.submit .evaluate command = .ok (id, u) := by
  unfold submitEvaluation at h
  split at h
  · cases h
  next hp =>
  rw [not_or, not_not] at hp
  split at h
  · cases h
  · next command hc => exact ⟨hp.1, command, name_of_evaluation hc, h⟩

/-- The connection has its books in order, no command was taken back, and none that resumes the
program was submitted after the one of id `n`. -/
structure Tended (c : Channel) (n : Nat) : Prop where
  ledger : c.Ledger
  reports : Reports c.journal
  untaken : withdrawnIn c.journal = []
  resumed : ∀ r ∈ acceptedIn c.journal, r.name.resumes → r.id ≤ n

theorem tended_initial : Tended {} n where
  ledger := Channel.ledger_initial
  reports := Channel.reports_nil
  untaken := rfl
  resumed := by simp

theorem tended_run (hs : Run (· ≠ .ask) c d) (h : Tended c n) : Tended d n := by
  obtain ⟨ha, hw⟩ := Channel.run_accepted hs
  constructor
  · exact Channel.ledger_run hs h.ledger
  · exact Channel.reports_run hs h.ledger h.reports
  · exact hw.trans h.untaken
  · rw [ha]
    exact h.resumed

/-- A command that is submitted either does not resume the program, or is the latest that does. -/
theorem tended_submit (hs : c.submit command = .ok (id, d)) (h : Tended c n) :
    (command.name.resumes = false → Tended d n) ∧ Tended d id := by
  have hrun : Run (fun _ => True) c d := (Channel.submit_step hs).run trivial
  have hledger := Channel.ledger_run hrun h.ledger
  have hreports := Channel.reports_run hrun h.ledger h.reports
  obtain ⟨line, -, -, rfl, rfl⟩ := Channel.submit_eq_ok hs
  have huntaken : withdrawnIn (c.journal ++ [.submitted ⟨c.nextId, command.name, line⟩]) = [] := by
    simpa using h.untaken
  constructor
  · intro hn
    refine ⟨hledger, hreports, huntaken, ?_⟩
    intro r hr hres
    simp only [Channel.told_append, Channel.told_cons, Channel.told_nil, Channel.Entry.accepted?,
      Option.toList_some, List.append_nil, List.mem_append, List.mem_singleton] at hr
    rcases hr with hr | rfl
    · exact h.resumed r hr hres
    · exact absurd hres (by simp [hn])
  · refine ⟨hledger, hreports, huntaken, ?_⟩
    intro r hr _
    exact Nat.lt_succ_iff.1 (hledger.fresh r hr)

/-- The session tends its connection, if it has one. -/
def Guarded (s : Session) : Prop :=
  ∀ l, s.link = some l → Tended l.channel s.core.resumedAt

namespace Guarded

theorem of_eq (h : Guarded s) (hl : u.link = s.link) (hc : u.core.resumedAt = s.core.resumedAt) :
    Guarded u := by
  intro m hm
  rw [hc]
  exact h m (hl ▸ hm)

theorem close (h : Guarded s) : Guarded s.close := by
  intro m hm
  obtain ⟨l, hl, rfl⟩ := Option.map_eq_some_iff.1 hm
  refine tended_run ?_ (h l hl)
  exact Channel.run_mono (fun _ ha => by simp [ha]) (Channel.fail_run _)

theorem terminate (h : Guarded s) : Guarded s.terminate := by
  apply Guarded.close
  exact h.of_eq rfl rfl

theorem submit (h : Guarded s) (hn : command.name.resumes = false)
    (hs : s.submit operation command = .ok (id, u)) : Guarded u := by
  obtain ⟨l, c, hl, hc, rfl⟩ := submit_eq_ok hs
  intro m hm
  cases hm
  exact (tended_submit hc (h l hl)).1 hn

theorem submitIn (h : Guarded s) {allowed : State → Bool} (hn : command.name.resumes = false)
    (hs : s.submitIn operation allowed command = .ok (id, u)) : Guarded u :=
  h.submit hn (submitIn_eq_ok hs).2

theorem enterPaused (h : Guarded s) (location : Location) (after : Nat) :
    Guarded (s.enterPaused location after) := by
  unfold Session.enterPaused
  split
  · exact h
  split
  · exact h
  split
  · exact h
  · exact h.of_eq rfl rfl

theorem connectionLost (h : Guarded s) : Guarded s.connectionLost := by
  unfold Session.connectionLost
  split
  · exact h
  · exact h.of_eq rfl rfl

theorem receive (h : Guarded s) (e : Channel.Event) : Guarded (s.receive e) := by
  cases e with
  | paused location after => exact h.enterPaused location after
  | output => exact h.of_eq rfl rfl
  | debuggeeError => exact h.of_eq rfl rfl
  | closed => exact h.connectionLost

theorem greet (h : Guarded s) (rest : List Breakpoint) : Guarded (s.greet rest).1 := by
  unfold Session.greet
  split
  · exact h
  · split
    · next hs => exact h.submit rfl hs
    · exact h.terminate

theorem attach (h : Guarded s) (stream : Stream) : Guarded (s.attach stream).1 := by
  unfold Session.attach
  dsimp only
  split
  · exact h.of_eq rfl rfl
  · have hnew : Guarded
        { s with
          link := some { timeout := s.config.replyTimeout, bodyLimit := s.config.bodyLimit, stream }
          core := { s.core with state := .running } }.publish := by
      intro m hm
      cases hm
      exact tended_initial
    split
    · exact hnew.greet _
    · split
      · next hs => exact hnew.submit rfl hs
      · exact hnew.terminate

theorem connect (h : Guarded s) (connection : Except Error Stream) :
    Guarded (s.connect connection).1 := by
  unfold Session.connect
  split
  · exact h
  · split
    · exact h
    · exact h.attach _

theorem resume (h : Guarded s) (operation : Operation) (name : CommandName) (next : State) :
    Guarded (s.resume operation name next).1 := by
  unfold Session.resume
  split
  · exact h
  · next id u hs =>
    obtain ⟨l, c, hl, hc, rfl⟩ := submit_eq_ok (submitIn_eq_ok hs).2
    intro m hm
    cases hm
    exact (tended_submit hc (h l hl)).2

theorem setBreakpoint (h : Guarded s) (b : Breakpoint) : Guarded (s.setBreakpoint b).1 := by
  unfold Session.setBreakpoint
  dsimp only
  split
  · exact h
  split
  · exact h
  split
  · exact h.of_eq rfl rfl
  · split
    · exact h
    · next hs => exact (h.submit rfl hs).of_eq rfl rfl

theorem clearBreakpoint (h : Guarded s) (b : Breakpoint) : Guarded (s.clearBreakpoint b).1 := by
  unfold Session.clearBreakpoint
  dsimp only
  split
  · exact h
  split
  · exact h
  split
  · exact h.of_eq rfl rfl
  · split
    · exact h
    · next hs => exact (h.submit rfl hs).of_eq rfl rfl

theorem selectFrame (h : Guarded s) (n : Nat) : Guarded (s.selectFrame n).1 := by
  unfold Session.selectFrame
  split
  · exact h
  split
  · exact h
  · exact h.of_eq rfl rfl

theorem evaluate (h : Guarded s) (frame : Option Nat) (expression : String) (awaiting : Awaiting) :
    Guarded (s.evaluate frame expression awaiting).1 := by
  unfold Session.evaluate
  split
  · exact h
  · next hs =>
    obtain ⟨-, command, hn, hs⟩ := submitEvaluation_eq_ok hs
    exact h.submit (by rw [hn]; rfl) hs

theorem ask (h : Guarded s) (operation : Operation) (allowed : State → Bool)
    (hn : command.name.resumes = false) (awaiting : Awaiting) :
    Guarded (s.ask operation allowed command awaiting).1 := by
  unfold Session.ask
  split
  · exact h
  · next hs => exact h.submitIn hn hs

theorem finish (h : Guarded s) (operation : Operation) {name : CommandName}
    (hn : name.resumes = false) (last : State) : Guarded (s.finish operation name last).1 := by
  unfold Session.finish
  split
  · exact h
  · dsimp only
    split
    · exact (h.of_eq rfl rfl).close
    · next hs => exact (h.submit hn hs).of_eq rfl rfl

theorem start (h : Guarded s) (call : Call) : Guarded (s.start call).1 := by
  cases call with
  | attach stream => exact h.attach stream
  | connect connection => exact h.connect connection
  | run => exact h.resume _ _ _
  | step kind => cases kind <;> exact h.resume _ _ _
  | pause => exact h.ask _ _ rfl _
  | setBreakpoint b => exact h.setBreakpoint b
  | clearBreakpoint b => exact h.clearBreakpoint b
  | selectFrame n => exact h.selectFrame n
  | evaluate frame expression => exact h.evaluate _ _ _
  | evaluateAll frame expression => exact h.evaluate _ _ _
  | stack => exact h.ask _ _ rfl _
  | setOutput mode => exact h.ask _ _ rfl _
  | detach => exact h.finish _ rfl _
  | exit => exact h.finish _ rfl _

theorem continueAttach (h : Guarded s) (current : Option Breakpoint) (rest : List Breakpoint)
    (outcome : Outcome) : Guarded (s.continueAttach current rest outcome).1 := by
  unfold Session.continueAttach
  split
  · exact h.greet _
  · apply Guarded.greet
    exact h.of_eq rfl rfl
  · exact h.terminate

theorem continueWith (h : Guarded s) (id : Nat) (awaiting : Awaiting) (outcome : Outcome) :
    Guarded (s.continueWith id awaiting outcome).1 := by
  unfold Session.continueWith
  split
  · exact h.continueAttach _ _ _
  · exact h
  · dsimp only
    split
    · split
      · exact h.of_eq rfl rfl
      · exact h
    · exact h.connectionLost
    · exact h
  · split
    · exact h
    · exact h.enterPaused _ _
  · exact h.of_eq rfl rfl
  · dsimp only
    split
    · exact h.of_eq rfl rfl
    · exact h
  · exact h.of_eq rfl rfl
  · dsimp only
    split
    · exact h.of_eq rfl rfl
    · exact h
  · exact h
  · exact h
  · exact h
  · exact h
  · exact h.close
  · exact h.close
  · exact h

end Guarded
end Session
end MobDebug
