import MobDebug.Proofs.Session.Connection

/-! What the parts of a call do to a session: one case for each way in which a part may go, with the
conditions under which it goes that way. -/
namespace MobDebug
open Wire (Command CommandName Location)
open Channel (Outcome)

/-- A command that asks for something and lets the program stay where it is. -/
def Wire.CommandName.asks : CommandName → Bool
  | .suspend => true
  | .exec => true
  | .stack => true
  | .output => true
  | _ => false

namespace Session
variable {s t : Session} {id : Nat} {p : Progress} {b : Breakpoint} {bs : List Breakpoint}

/-- A call that waits like this has only to hand its reply on. -/
def Awaiting.asks : Awaiting → Bool
  | .pause => true
  | .evaluate => true
  | .evaluateAll => true
  | .stack => true
  | .setOutput => true
  | _ => false

/-- The call is telling breakpoints to the debuggee, or the base directory first. -/
def Awaiting.isAttaching : Awaiting → Bool
  | .attach _ _ => true
  | _ => false

/-- The reply that a call waits for, and what it will do with it. -/
def Progress.awaiting? : Progress → Option (Nat × Awaiting)
  | .waiting id awaiting => some (id, awaiting)
  | .finished _ => none

/-- The command that sets a breakpoint or clears it. -/
def Breakpoint.command (b : Breakpoint) : Bool → Command
  | true => .setBreakpoint b.file b.line
  | false => .deleteBreakpoint b.file b.line

/-- A call that has sent this command. -/
def Awaiting.edit (b : Breakpoint) : Bool → Awaiting
  | true => .setBreakpoint b
  | false => .clearBreakpoint b

/-- The breakpoints with one set or cleared. -/
def mark (b : Breakpoint) (bs : List Breakpoint) : Bool → List Breakpoint
  | true => insertBreakpoint b bs
  | false => bs.erase b

/-- The session with a breakpoint set or cleared. -/
def marked (s : Session) (b : Breakpoint) (on : Bool) : Session :=
  { s with core := { s.core with breakpoints := mark b s.core.breakpoints on } }

/-- The connection over a stream, as it is opened. -/
def opened (s : Session) (stream : Stream) : Link :=
  { timeout := s.config.replyTimeout, bodyLimit := s.config.bodyLimit, stream }

/-- The session with its connection over a stream. -/
def installed (s : Session) (stream : Stream) : Session :=
  { s with link := some (s.opened stream), core := { s.core with state := .running } }.publish

/-- The session after it has refused a stream. -/
def refusing (s : Session) (stream : Stream) : Session :=
  { s with refused := s.refused ++ [(s.opened stream).fail .channelClosed] }

/-- The session that leaves its pause with a command. -/
def resuming (s : Session) (id : Nat) (next : State) : Session :=
  let core := { s.core with resumedAt := id, state := next, frame := 0, location := none }
  { s with core }.publish

/-- The session that is back in its pause. -/
def reverted (s : Session) (previous : Option Location) : Session :=
  { s with core := { s.core with state := .paused, location := previous } }.publish

/-- The session that has come to a pause. -/
def entering (s : Session) (location : Location) : Session :=
  { s with
    core := { s.core with state := .paused, frame := 0, location := some location } }.publish

/-- The session that has given its connection up. -/
def ending (s : Session) (last : State) : Session :=
  { s with core := { s.core with state := last, ended := true, location := none } }.publish

/-- The session without a breakpoint that the debuggee has rejected, if the rejected command was
about one. -/
def dropping (s : Session) (current : Option Breakpoint) (message : String) : Session :=
  let kept := match current with
    | some b => s.core.breakpoints.erase b
    | none => s.core.breakpoints
  ({ s with core := { s.core with breakpoints := kept } }.publish).emit (.debuggeeError message)

/-- How a session goes on to tell breakpoints. -/
inductive Greeted (s : Session) : List Breakpoint → Session → Progress → Prop where
  | done : Greeted s [] s (.finished (.ok .unit))
  | told {b : Breakpoint} {rest : List Breakpoint} {id : Nat} {t : Session}
      (hs : s.submit .attach (b.command true) = .ok (id, t)) :
      Greeted s (b :: rest) t (.waiting id (.attach (some b) rest))
  | broken {bs : List Breakpoint} (e : Error) : Greeted s bs s.terminate (.finished (.error e))

/-- What the first part of a call does. -/
inductive Began (s : Session) : Session → Progress → Prop where
  | idle (result : Except Error Answer) : Began s s (.finished result)
  | refused (stream : Stream) (h : s.core.ended ∨ s.link.isSome) :
      Began s (s.refusing stream) (.finished (.error (s.invalid .attach)))
  | attached (stream : Stream) {t : Session} {p : Progress} (he : s.core.ended = false)
      (hl : s.link = none) (hg : Greeted (s.installed stream) s.core.breakpoints t p) : Began s t p
  | introduced (stream : Stream) {dir : String} {id : Nat} {t : Session}
      (he : s.core.ended = false) (hl : s.link = none) (hd : s.config.baseDir = some dir)
      (hs : (s.installed stream).submit .attach { name := .baseDir, args := dir } = .ok (id, t)) :
      Began s t (.waiting id (.attach none s.core.breakpoints))
  | recorded (b : Breakpoint) (on : Bool) (he : s.core.ended = false)
      (hc : s.core.breakpoints.contains b = !on) (hl : s.link = none) :
      Began s (s.marked b on).publish (.finished (.ok (.flag true)))
  | edited (b : Breakpoint) (on : Bool) {operation : Operation} {id : Nat} {t : Session}
      (he : s.core.ended = false) (hc : s.core.breakpoints.contains b = !on)
      (hs : s.submit operation (b.command on) = .ok (id, t)) :
      Began s (t.marked b on) (.waiting id (.edit b on))
  | resumed {operation : Operation} {name : CommandName} {next : State} {id : Nat} {t : Session}
      (hn : name.resumes) (hnext : next = .running ∨ next = .stepping)
      (hp : s.core.state = .paused) (hs : s.submit operation { name } = .ok (id, t)) :
      Began s (t.resuming id next) (.waiting id (.resume next s.core.location))
  | selected (n : Nat) (hp : s.core.state = .paused) :
      Began s { s with core := { s.core with frame := n } }.publish (.finished (.ok .unit))
  | asked {operation : Operation} {command : Command} {awaiting : Awaiting} {id : Nat}
      {t : Session} (hn : command.name.asks) (ha : awaiting.asks) (hlive : s.core.state.isLive)
      (hs : s.submit operation command = .ok (id, t))
      (hp : awaiting = .pause → command.name = .suspend) : Began s t (.waiting id awaiting)
  | leaving {operation : Operation} {name : CommandName} {last : State} {id : Nat} {t : Session}
      (hn : name = .done ∨ name = .exit) (hlast : last.isOver) (hlive : s.core.state.isLive)
      (hs : s.submit operation { name } = .ok (id, t)) :
      Began s (t.ending last) (.waiting id .finish)
  | left {last : State} (e : Error) (hlast : last.isOver) (hlive : s.core.state.isLive)
      (hl : s.link.isSome) : Began s (s.ending last).close (.finished (.error e))

/-- What the next part of a call does with the reply to its command of this id. -/
inductive Continued (s : Session) (id : Nat) :
    Awaiting → Outcome → Session → Progress → Prop where
  | greeted {current : Option Breakpoint} {rest : List Breakpoint} {body : String} {t : Session}
      {p : Progress} (hg : Greeted s rest t p) :
      Continued s id (.attach current rest) (.ok body) t p
  | dropped {current : Option Breakpoint} {rest : List Breakpoint} {code : Nat} {message : String}
      {t : Session} {p : Progress} (hg : Greeted (s.dropping current message) rest t p) :
      Continued s id (.attach current rest) (.error (.debuggee code message)) t p
  | broken {current : Option Breakpoint} {rest : List Breakpoint} {e : Error}
      (he : e.kind ≠ .debuggee) :
      Continued s id (.attach current rest) (.error e) s.terminate (.finished (.error e))
  | resumed {next : State} {previous : Option Location} {body : String} :
      Continued s id (.resume next previous) (.ok body) s (.finished (.ok .unit))
  | reverted {next : State} {previous : Option Location} {e : Error} (he : e.kind = .debuggee)
      (hn : s.core.state = next) :
      Continued s id (.resume next previous) (.error e) (s.reverted previous) (.finished (.error e))
  | moved {next : State} {previous : Option Location} {e : Error} (he : e.kind = .debuggee)
      (hn : s.core.state ≠ next) :
      Continued s id (.resume next previous) (.error e) s (.finished (.error e))
  | lost {next : State} {previous : Option Location} {e : Error} (he : e.kind = .network) :
      Continued s id (.resume next previous) (.error e) s.connectionLost (.finished (.error e))
  | spoilt {next : State} {previous : Option Location} {e : Error} (he : e.kind = .protocol) :
      Continued s id (.resume next previous) (.error e) s (.finished (.error e))
  | paused {body : String} {location : Location} (hr : Location.read body = .ok location) :
      Continued s id .pause (.ok body) (s.enterPaused location id)
        (.finished (.ok (.location location)))
  | confirmed (b : Breakpoint) (on : Bool) {body : String} :
      Continued s id (.edit b on) (.ok body) s.publish (.finished (.ok (.flag true)))
  | undone (b : Breakpoint) (on : Bool) {e : Error} (he : e.kind = .debuggee) :
      Continued s id (.edit b on) (.error e) (s.marked b !on) (.finished (.error e))
  | failed (b : Breakpoint) (on : Bool) {e : Error} (he : e.kind ≠ .debuggee) :
      Continued s id (.edit b on) (.error e) s (.finished (.error e))
  | asked {awaiting : Awaiting} {o : Outcome} (ha : awaiting.asks) (result : Except Error Answer) :
      Continued s id awaiting o s (.finished result)
  | finished {o : Outcome} (result : Except Error Answer) :
      Continued s id .finish o s.close (.finished result)

theorem enterPaused_cases (s : Session) (location : Location) (after : Nat) :
    s.enterPaused location after = s ∨
      (s.core.resumedAt ≤ after ∧ s.core.state.isLive ∧
        s.enterPaused location after = s.entering location) := by
  unfold enterPaused
  split
  · exact .inl rfl
  next ha =>
  split
  · exact .inl rfl
  next hs =>
  split
  · exact .inl rfl
  · exact .inr ⟨Nat.le_of_not_lt ha, by simpa using hs, rfl⟩

theorem connectionLost_cases (s : Session) :
    (s.core.ended ∧ s.connectionLost = s) ∨
      (s.core.ended = false ∧ s.connectionLost = s.ending .terminated) := by
  unfold connectionLost
  split
  · next he => exact .inl ⟨he, rfl⟩
  · next he => exact .inr ⟨by simpa using he, rfl⟩

theorem greet_greeted (s : Session) (bs : List Breakpoint) :
    Greeted s bs (s.greet bs).1 (s.greet bs).2 := by
  unfold greet
  split
  · exact .done
  · split
    · next hs => exact .told hs
    · exact .broken _

theorem attach_began (s : Session) (stream : Stream) :
    Began s (s.attach stream).1 (s.attach stream).2 := by
  unfold attach
  dsimp only
  split
  · next h => exact .refused stream (by simpa using h)
  · next h =>
    simp only [Bool.or_eq_true, not_or, Bool.not_eq_true, Option.isSome_eq_false_iff,
      Option.isNone_iff_eq_none] at h
    split
    · exact .attached stream h.1 h.2 (greet_greeted _ _)
    · next hd =>
      split
      · next hs =>
        obtain ⟨l, c, -, -, rfl⟩ := submit_eq_ok hs
        exact .introduced stream h.1 h.2 hd hs
      · exact .attached stream h.1 h.2 (.broken _)

theorem connect_began (s : Session) (connection : Except Error Stream) :
    Began s (s.connect connection).1 (s.connect connection).2 := by
  unfold connect
  split
  · exact .idle _
  · split
    · exact .idle _
    · exact attach_began s _

theorem resume_began (s : Session) (operation : Operation) {name : CommandName} {next : State}
    (hn : name.resumes) (hnext : next = .running ∨ next = .stepping) :
    Began s (s.resume operation name next).1 (s.resume operation name next).2 := by
  unfold resume
  split
  · exact .idle _
  · next id t h =>
    obtain ⟨hp, hs⟩ := submitIn_eq_ok h
    obtain ⟨l, c, -, -, rfl⟩ := submit_eq_ok hs
    exact .resumed hn hnext (by simpa using hp) hs

theorem setBreakpoint_began (s : Session) (b : Breakpoint) :
    Began s (s.setBreakpoint b).1 (s.setBreakpoint b).2 := by
  unfold setBreakpoint
  dsimp only
  split
  · exact .idle _
  next he =>
  split
  · exact .idle _
  next hc =>
  rw [Bool.not_eq_true] at he hc
  split
  · next hl => exact .recorded b true he hc (Option.isNone_iff_eq_none.1 hl)
  · split
    · exact .idle _
    · next hs => exact .edited b true he hc hs

theorem clearBreakpoint_began (s : Session) (b : Breakpoint) :
    Began s (s.clearBreakpoint b).1 (s.clearBreakpoint b).2 := by
  unfold clearBreakpoint
  dsimp only
  split
  · exact .idle _
  next he =>
  split
  · exact .idle _
  next hc =>
  rw [Bool.not_eq_true] at he
  rw [Bool.not_eq_true, Bool.not_eq_false'] at hc
  split
  · next hl => exact .recorded b false he hc (Option.isNone_iff_eq_none.1 hl)
  · split
    · exact .idle _
    · next hs => exact .edited b false he hc hs

theorem selectFrame_began (s : Session) (n : Nat) :
    Began s (s.selectFrame n).1 (s.selectFrame n).2 := by
  unfold selectFrame
  split
  · exact .idle _
  next hp =>
  split
  · exact .idle _
  · exact .selected n (not_not.1 hp)

theorem evaluate_began (s : Session) (frame : Option Nat) (expression : String)
    {awaiting : Awaiting} (ha : awaiting.asks) (hne : awaiting ≠ .pause) :
    Began s (s.evaluate frame expression awaiting).1 (s.evaluate frame expression awaiting).2 := by
  unfold evaluate
  split
  · exact .idle _
  · next hs =>
    obtain ⟨hp, command, hn, hs⟩ := submitEvaluation_eq_ok hs
    exact .asked (by rw [hn]; rfl) ha (by rw [hp]; rfl) hs fun hp => absurd hp hne

theorem ask_began (s : Session) (operation : Operation) {allowed : State → Bool}
    {command : Command} {awaiting : Awaiting} (hlive : ∀ state, allowed state → state.isLive)
    (hn : command.name.asks) (ha : awaiting.asks)
    (hp : awaiting = .pause → command.name = .suspend) :
    Began s (s.ask operation allowed command awaiting).1
      (s.ask operation allowed command awaiting).2 := by
  unfold ask
  split
  · exact .idle _
  · next h =>
    obtain ⟨hallowed, hs⟩ := submitIn_eq_ok h
    exact .asked hn ha (hlive _ hallowed) hs hp

theorem finish_began (s : Session) (operation : Operation) {name : CommandName} {last : State}
    (hn : name = .done ∨ name = .exit) (hlast : last.isOver) :
    Began s (s.finish operation name last).1 (s.finish operation name last).2 := by
  unfold finish
  split
  · exact .idle _
  next h =>
  simp only [Bool.or_eq_true, Bool.not_eq_eq_eq_not, Bool.not_true, not_or, Bool.not_eq_false,
    Option.isNone_iff_eq_none] at h
  dsimp only
  split
  · exact .left _ hlast h.1 (Option.isSome_iff_ne_none.2 h.2)
  · next hs => exact .leaving hn hlast h.1 hs

theorem start_began (s : Session) (call : Call) : Began s (s.start call).1 (s.start call).2 := by
  have hpaused : ∀ state : State, decide (state = .paused) → state.isLive := by
    intro state h
    rw [of_decide_eq_true h]
    rfl
  cases call with
  | attach stream => exact attach_began s stream
  | connect connection => exact connect_began s connection
  | run => exact resume_began s _ rfl (.inl rfl)
  | step kind => cases kind <;> exact resume_began s _ rfl (.inr rfl)
  | pause =>
    refine ask_began s _ ?_ rfl rfl fun _ => rfl
    intro state h
    simp only [Bool.or_eq_true, decide_eq_true_eq] at h
    rcases h with rfl | rfl <;> rfl
  | setBreakpoint b => exact setBreakpoint_began s b
  | clearBreakpoint b => exact clearBreakpoint_began s b
  | selectFrame n => exact selectFrame_began s n
  | evaluate => exact evaluate_began s _ _ rfl nofun
  | evaluateAll => exact evaluate_began s _ _ rfl nofun
  | stack => exact ask_began s _ hpaused rfl rfl nofun
  | setOutput => exact ask_began s _ hpaused rfl rfl nofun
  | detach => exact finish_began s _ (.inl rfl) rfl
  | exit => exact finish_began s _ (.inr rfl) rfl

theorem continueAttach_continued (s : Session) (id : Nat) (current : Option Breakpoint)
    (rest : List Breakpoint) (o : Outcome) :
    Continued s id (.attach current rest) o (s.continueAttach current rest o).1
      (s.continueAttach current rest o).2 := by
  unfold continueAttach
  split
  · exact .greeted (greet_greeted _ _)
  · exact .dropped (greet_greeted _ _)
  · next e he =>
    refine .broken ?_
    cases e with
    | debuggee code message => exact absurd rfl (he code message)
    | _ => exact ErrorKind.noConfusion

theorem continueResume_continued (s : Session) (id : Nat) (next : State)
    (previous : Option Location) (e : Error) :
    Continued s id (.resume next previous) (.error e)
      (s.continueWith id (.resume next previous) (.error e)).1
      (s.continueWith id (.resume next previous) (.error e)).2 := by
  unfold continueWith
  dsimp only
  split
  · next he =>
    split
    · next hn => exact .reverted he hn
    · next hn => exact .moved he hn
  · next he => exact .lost he
  · next he => exact .spoilt he

/-- A rejected edit is taken back. -/
theorem continueEdit_continued (s : Session) (id : Nat) (b : Breakpoint) (on : Bool) (e : Error) :
    Continued s id (.edit b on) (.error e) (s.continueWith id (.edit b on) (.error e)).1
      (s.continueWith id (.edit b on) (.error e)).2 := by
  by_cases he : e.kind = .debuggee
  · cases on with
    | true =>
      simp only [continueWith, Awaiting.edit, he, if_true]
      exact .undone b true he
    | false =>
      simp only [continueWith, Awaiting.edit, he, if_true]
      exact .undone b false he
  · cases on with
    | true =>
      simp only [continueWith, Awaiting.edit, he, if_false]
      exact .failed b true he
    | false =>
      simp only [continueWith, Awaiting.edit, he, if_false]
      exact .failed b false he

theorem continueWith_continued (s : Session) (id : Nat) (awaiting : Awaiting) (o : Outcome) :
    Continued s id awaiting o (s.continueWith id awaiting o).1
      (s.continueWith id awaiting o).2 := by
  cases awaiting with
  | attach current rest => exact continueAttach_continued s id current rest o
  | resume next previous =>
    cases o with
    | ok body => exact .resumed
    | error e => exact continueResume_continued s id next previous e
  | pause =>
    cases o with
    | error e => exact .asked rfl _
    | ok body =>
      unfold continueWith
      dsimp only
      split
      · exact .asked rfl _
      · next hr => exact .paused hr
  | setBreakpoint b =>
    cases o with
    | ok body => exact .confirmed b true
    | error e => exact continueEdit_continued s id b true e
  | clearBreakpoint b =>
    cases o with
    | ok body => exact .confirmed b false
    | error e => exact continueEdit_continued s id b false e
  | evaluate | evaluateAll | stack | setOutput =>
    cases o <;> exact .asked rfl _
  | finish => cases o <;> exact .finished _

end Session
end MobDebug
