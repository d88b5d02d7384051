import MobDebug.Proofs.Channel.Alike
import MobDebug.Proofs.Session.Rooted

/-! Two sessions that differ in the bodies of replies that only their callers read. Every part of a
call, and every event, does the same to both. -/
namespace MobDebug
open Wire (Command CommandName Location)
open Channel (Outcome Inquired Outcomes acceptedIn)

namespace Session
variable {s t u v : Session} {id : Nat} {awaiting : Awaiting} {p : Prop}

/-- The call hands its reply on to its caller, and nothing else. -/
def Awaiting.inquires : Awaiting → Bool
  | .evaluate => true
  | .evaluateAll => true
  | .stack => true
  | _ => false

/-- The call evaluates an expression, or asks for the stack. -/
def Call.inquires : Call → Bool
  | .evaluate _ _ => true
  | .evaluateAll _ _ => true
  | .stack => true
  | _ => false

/-- The same session, but for the bodies of the replies that only their callers read. -/
inductive Alike (s : Session) : Session → Prop where
  | mk {link : Option Link} (h : Option.Rel Link.Alike s.link link) : Alike s { s with link }

/-- The call has asked, and hands the reply on if only a caller reads it. -/
def Expects (s : Session) (w : Nat × Awaiting) : Prop :=
  ∃ r ∈ acceptedIn s.journal, r.id = w.1 ∧ (r.name.inquires → w.2.inquires)

/-- A part of a call does the same to two sessions. If `p` allows it, the call may wait for a reply
that only its caller reads, and it may end with another result. -/
inductive Fares (p : Prop) : Session × Progress → Session × Progress → Prop where
  | finished {s u : Session} (h : s.Alike u) (result : Except Error Answer) :
      Fares p (s, .finished result) (u, .finished result)
  | waiting {s u : Session} (h : s.Alike u) {id : Nat} {awaiting : Awaiting}
      (he : s.Expects (id, awaiting)) (hp : awaiting.inquires → p) :
      Fares p (s, .waiting id awaiting) (u, .waiting id awaiting)
  | answered {s u : Session} (h : s.Alike u) (result result' : Except Error Answer) (hp : p) :
      Fares p (s, .finished result) (u, .finished result')

/-- The same command is submitted in two sessions. -/
inductive Submits (name : CommandName) :
    Except Error (Nat × Session) → Except Error (Nat × Session) → Prop where
  | refused (e : Error) : Submits name (.error e) (.error e)
  | accepted {id : Nat} {s u : Session} (h : s.Alike u)
      (he : ∀ awaiting : Awaiting, (name.inquires → awaiting.inquires) →
        s.Expects (id, awaiting)) : Submits name (.ok (id, s)) (.ok (id, u))

theorem alike_refl (s : Session) : s.Alike s := by
  refine .mk ?_
  cases s.link with
  | none => exact .none
  | some l => exact .some (Link.alike_refl l)

namespace Alike

theorem config (h : s.Alike u) : u.config = s.config := by
  cases h
  rfl

theorem core (h : s.Alike u) : u.core = s.core := by
  cases h
  rfl

theorem refused (h : s.Alike u) : u.refused = s.refused := by
  cases h
  rfl

theorem events (h : s.Alike u) : u.events = s.events := by
  cases h
  rfl

theorem link (h : s.Alike u) : Option.Rel Link.Alike s.link u.link := by
  obtain ⟨h⟩ := h
  exact h

theorem link_isSome (h : s.Alike u) : u.link.isSome = s.link.isSome :=
  isSome_of_rel h.link

theorem link_isNone (h : s.Alike u) : u.link.isNone = s.link.isNone := by
  rw [← Option.not_isSome, ← Option.not_isSome, h.link_isSome]

theorem withLink (h : s.Alike u) {l m : Option Link} (hl : Option.Rel Link.Alike l m) :
    Alike { s with link := l } { u with link := m } := by
  obtain ⟨-⟩ := h
  exact .mk hl

theorem link_some (h : s.Alike u) {l m : Link} (hl : s.link = some l) (hm : u.link = some m) :
    l.Alike m := by
  have hlm := h.link
  rw [hl, hm] at hlm
  cases hlm with
  | some h => exact h

theorem takes_left (h : s.Alike u) {l : Link} (hl : s.link = some l) :
    Alike { s with link := some l.takeArriving } u := by
  obtain ⟨h⟩ := h
  rw [hl] at h
  cases h with
  | some h => exact .mk (.some h.takes_left)

theorem takes_right (h : s.Alike u) {m : Link} (hm : u.link = some m) :
    s.Alike { u with link := some m.takeArriving } := by
  obtain ⟨h⟩ := h
  obtain rfl : _ = some m := hm
  refine .mk ?_
  generalize s.link = l at h ⊢
  cases h with
  | some h => exact .some h.takes_right

theorem withCore (h : s.Alike u) (core : Core) : Alike { s with core } { u with core } := by
  obtain ⟨h⟩ := h
  exact .mk h

theorem withRefused (h : s.Alike u) (refused : List Link) :
    Alike { s with refused } { u with refused } := by
  obtain ⟨h⟩ := h
  exact .mk h

theorem emit (h : s.Alike u) (e : Event) : (s.emit e).Alike (u.emit e) := by
  obtain ⟨h⟩ := h
  exact .mk h

theorem publish (h : s.Alike u) : s.publish.Alike u.publish := by
  obtain ⟨h⟩ := h
  exact .mk h

theorem close (h : s.Alike u) : s.close.Alike u.close := by
  refine h.withLink ?_
  have hl := h.link
  generalize s.link = l, u.link = m at hl ⊢
  cases hl with
  | none => exact .none
  | some hl => exact .some (hl.fail .channelClosed)

theorem terminate (h : s.Alike u) : s.terminate.Alike u.terminate := by
  unfold Session.terminate
  rw [h.core]
  exact (h.withCore _).publish.close

theorem invalid (h : s.Alike u) (operation : Operation) :
    u.invalid operation = s.invalid operation := by
  rw [Session.invalid, Session.invalid, h.core]

theorem submit (h : s.Alike u) (operation : Operation) (command : Command) :
    Submits command.name (s.submit operation command) (u.submit operation command) := by
  have hasked {id : Nat} {t : Session} := @asked_submit s t id operation command
  unfold Session.submit at hasked ⊢
  rw [h.invalid]
  have hl := h.link
  generalize s.link = l, u.link = m at hl hasked ⊢
  cases hl with
  | none => exact .refused _
  | @some l m hl =>
    have hc := hl.channel.submit command
    dsimp only at hasked ⊢
    generalize l.channel.submit command = e, m.channel.submit command = e' at hc hasked ⊢
    cases hc with
    | error e => exact .refused e
    | @ok a b hab =>
      obtain ⟨id, c⟩ := a
      obtain ⟨id', d⟩ := b
      obtain ⟨rfl, hcd⟩ := hab
      obtain ⟨r, hr, hid, hname⟩ := hasked rfl
      refine .accepted (h.withLink (.some (hl.submitted hcd))) fun awaiting ha => ?_
      exact ⟨r, hr, hid, hname ▸ ha⟩

theorem submitIn (h : s.Alike u) (operation : Operation) (allowed : State → Bool)
    (command : Command) :
    Submits command.name (s.submitIn operation allowed command)
      (u.submitIn operation allowed command) := by
  unfold Session.submitIn
  rw [h.core, h.invalid]
  split
  · exact h.submit operation command
  · exact .refused _

theorem greet (h : s.Alike u) (bs : List Breakpoint) : Fares p (s.greet bs) (u.greet bs) := by
  unfold Session.greet
  split
  · exact .finished h _
  · next b rest =>
    have hs := h.submit .attach (.setBreakpoint b.file b.line)
    generalize s.submit _ _ = e, u.submit _ _ = e' at hs ⊢
    cases hs with
    | refused e => exact .finished h.terminate _
    | accepted hv he => exact .waiting hv (he _ nofun) nofun

theorem attach (h : s.Alike u) (stream : Stream) :
    Fares p (s.attach stream) (u.attach stream) := by
  obtain ⟨hl⟩ := h
  unfold Session.attach
  dsimp only
  rw [isSome_of_rel hl]
  split
  · exact .finished (Alike.withRefused (.mk hl) _) (.error (s.invalid .attach))
  · -- from here on the two sessions are the same
    split
    · exact (alike_refl _).greet _
    · split
      · next hs =>
        obtain ⟨r, hr, hid, hname⟩ := asked_submit hs
        refine .waiting (alike_refl _) ⟨r, hr, hid, ?_⟩ nofun
        rw [hname]
        nofun
      · exact .finished (alike_refl _) _

theorem connect (h : s.Alike u) (connection : Except Error Stream) :
    Fares p (s.connect connection) (u.connect connection) := by
  unfold Session.connect
  rw [h.core, h.link_isSome, h.invalid]
  split
  · exact .finished h _
  · split
    · exact .finished h _
    · exact h.attach _

theorem resume (h : s.Alike u) (operation : Operation) {name : CommandName} (next : State)
    (hn : name.inquires = false) :
    Fares p (s.resume operation name next) (u.resume operation name next) := by
  unfold Session.resume
  have hs := h.submitIn operation (· = .paused) { name }
  generalize s.submitIn _ _ _ = e, u.submitIn _ _ _ = e' at hs ⊢
  cases hs with
  | refused e => exact .finished h _
  | accepted hv he =>
    dsimp only
    rw [hv.core]
    refine .waiting (hv.withCore _).publish (he _ ?_) nofun
    simp [hn]

theorem setBreakpoint (h : s.Alike u) (b : Breakpoint) :
    Fares p (s.setBreakpoint b) (u.setBreakpoint b) := by
  unfold Session.setBreakpoint
  dsimp only
  rw [h.core, h.link_isNone, h.invalid]
  split
  · exact .finished h _
  split
  · exact .finished h _
  split
  · exact .finished (h.withCore _).publish _
  · have hs := h.submit .setBreakpoint (.setBreakpoint b.file b.line)
    generalize s.submit _ _ = e, u.submit _ _ = e' at hs ⊢
    cases hs with
    | refused e => exact .finished h _
    | accepted hv he =>
      dsimp only
      rw [hv.core]
      exact .waiting (hv.withCore _) (he _ nofun) nofun

theorem clearBreakpoint (h : s.Alike u) (b : Breakpoint) :
    Fares p (s.clearBreakpoint b) (u.clearBreakpoint b) := by
  unfold Session.clearBreakpoint
  dsimp only
  rw [h.core, h.link_isNone, h.invalid]
  split
  · exact .finished h _
  split
  · exact .finished h _
  split
  · exact .finished (h.withCore _).publish _
  · have hs := h.submit .clearBreakpoint (.deleteBreakpoint b.file b.line)
    generalize s.submit _ _ = e, u.submit _ _ = e' at hs ⊢
    cases hs with
    | refused e => exact .finished h _
    | accepted hv he =>
      dsimp only
      rw [hv.core]
      exact .waiting (hv.withCore _) (he _ nofun) nofun

theorem selectFrame (h : s.Alike u) (n : Nat) : Fares p (s.selectFrame n) (u.selectFrame n) := by
  unfold Session.selectFrame
  rw [h.core, h.invalid]
  split
  · exact .finished h _
  split
  · exact .finished h _
  · exact .finished (h.withCore _).publish _

theorem submitEvaluation (h : s.Alike u) (frame : Nat) (expression : String) :
    Submits .exec (s.submitEvaluation frame expression)
      (u.submitEvaluation frame expression) := by
  unfold Session.submitEvaluation
  rw [h.core, h.config, h.link_isNone, h.invalid]
  split
  · exact .refused _
  split
  · exact .refused _
  · next command hc =>
    rw [← name_of_evaluation hc]
    exact h.submit .evaluate command

theorem evaluate (h : s.Alike u) (frame : Option Nat) (expression : String)
    (ha : awaiting.inquires) (hp : p) :
    Fares p (s.evaluate frame expression awaiting) (u.evaluate frame expression awaiting) := by
  unfold Session.evaluate
  rw [h.core]
  have hs := h.submitEvaluation (frame.getD s.core.frame) expression
  generalize s.submitEvaluation _ _ = e, u.submitEvaluation _ _ = e' at hs ⊢
  cases hs with
  | refused e => exact .finished h _
  | accepted hv he => exact .waiting hv (he _ fun _ => ha) fun _ => hp

theorem ask (h : s.Alike u) (operation : Operation) (allowed : State → Bool) {command : Command}
    (hn : command.name.inquires = awaiting.inquires) (hp : awaiting.inquires → p) :
    Fares p (s.ask operation allowed command awaiting)
      (u.ask operation allowed command awaiting) := by
  unfold Session.ask
  have hs := h.submitIn operation allowed command
  generalize s.submitIn _ _ _ = e, u.submitIn _ _ _ = e' at hs ⊢
  cases hs with
  | refused e => exact .finished h _
  | accepted hv he =>
    refine .waiting hv (he _ fun hq => ?_) hp
    rwa [← hn]

theorem finish (h : s.Alike u) (operation : Operation) {name : CommandName} (last : State)
    (hn : name.inquires = false) :
    Fares p (s.finish operation name last) (u.finish operation name last) := by
  unfold Session.finish
  dsimp only
  rw [h.core, h.link_isNone, h.invalid]
  split
  · exact .finished h _
  · have hs := h.submit operation { name }
    generalize s.submit _ _ = e, u.submit _ _ = e' at hs ⊢
    cases hs with
    | refused e => exact .finished (h.withCore _).publish.close _
    | accepted hv he =>
      dsimp only
      rw [hv.core]
      refine .waiting (hv.withCore _).publish (he _ ?_) nofun
      simp [hn]

/-- The first part of a call does the same to both. -/
theorem start (h : s.Alike u) (call : Call) :
    Fares call.inquires (s.start call) (u.start call) := by
  cases call with
  | attach stream => exact h.attach stream
  | connect connection => exact h.connect connection
  | run => exact h.resume _ _ rfl
  | step kind => cases kind <;> exact h.resume _ _ rfl
  | pause => exact h.ask _ _ rfl id
  | setBreakpoint b => exact h.setBreakpoint b
  | clearBreakpoint b => exact h.clearBreakpoint b
  | selectFrame n => exact h.selectFrame n
  | evaluate frame expression => exact h.evaluate _ _ rfl rfl
  | evaluateAll frame expression => exact h.evaluate _ _ rfl rfl
  | stack =>
    rw [Session.start, Session.start, h.config]
    exact h.ask _ _ rfl id
  | setOutput mode => exact h.ask _ _ rfl id
  | detach => exact h.finish _ _ rfl
  | exit => exact h.finish _ _ rfl

theorem enterPaused (h : s.Alike u) (location : Location) (after : Nat) :
    (s.enterPaused location after).Alike (u.enterPaused location after) := by
  unfold Session.enterPaused
  rw [h.core]
  split
  · exact h
  split
  · exact h
  split
  · exact h
  · exact (h.withCore _).publish

theorem connectionLost (h : s.Alike u) : s.connectionLost.Alike u.connectionLost := by
  unfold Session.connectionLost
  rw [h.core]
  split
  · exact h
  · exact (h.withCore _).publish

theorem receive (h : s.Alike u) (e : Channel.Event) : (s.receive e).Alike (u.receive e) := by
  cases e with
  | paused location after => exact h.enterPaused location after
  | output => exact h.emit _
  | debuggeeError => exact h.emit _
  | closed => exact h.connectionLost

theorem outcome? (h : s.Alike u) (id : Nat) :
    Outcomes (Inquired s.journal) id (s.outcome? id) (u.outcome? id) := by
  have hl := h.link
  unfold Session.outcome? Session.journal
  generalize s.link = l, u.link = m at hl ⊢
  cases hl with
  | none => exact .same none
  | some hl => exact hl.channel.outcome? id

theorem continueAttach (h : s.Alike u) (current : Option Breakpoint) (rest : List Breakpoint)
    (o : Outcome) :
    Fares p (s.continueAttach current rest o) (u.continueAttach current rest o) := by
  unfold Session.continueAttach
  split
  · exact h.greet rest
  · rw [h.core]
    exact Alike.greet ((h.withCore _).publish.emit _) rest
  · exact .finished h.terminate _

theorem continueResume (h : s.Alike u) (id : Nat) (next : State) (previous : Option Location)
    (e : Error) : Fares p (s.continueWith id (.resume next previous) (.error e))
      (u.continueWith id (.resume next previous) (.error e)) := by
  unfold Session.continueWith
  dsimp only
  rw [h.core]
  refine .finished ?_ _
  split
  · split
    · exact (h.withCore _).publish
    · exact h
  · exact h.connectionLost
  · exact h

/-- The next part of a call does the same to both, with the same reply. -/
theorem continueWith (h : s.Alike u) (id : Nat) (awaiting : Awaiting) (o : Outcome) :
    Fares p (s.continueWith id awaiting o) (u.continueWith id awaiting o) := by
  cases awaiting with
  | attach current rest => exact h.continueAttach current rest o
  | resume next previous =>
    cases o with
    | ok body => exact .finished h _
    | error e => exact h.continueResume id next previous e
  | pause =>
    cases o with
    | error e => exact .finished h _
    | ok body =>
      unfold Session.continueWith
      dsimp only
      split
      -- a reply without a place leaves the session as it is
      · exact .finished h _
      · exact .finished (h.enterPaused _ _) _
  | setBreakpoint b | clearBreakpoint b =>
    cases o with
    | ok body => exact .finished h.publish _
    | error e =>
      unfold Session.continueWith
      dsimp only
      rw [h.core]
      refine .finished ?_ _
      split
      · exact h.withCore _
      · exact h
  | evaluate | evaluateAll | stack =>
    cases o with
    | error e => exact .finished h _
    | ok body =>
      unfold Session.continueWith
      dsimp only
      rw [h.config]
      exact .finished h _
  | setOutput => cases o <;> exact .finished h _
  | finish => cases o <;> exact .finished h.close _

/-- Replies that differ end a call that hands its reply on, and nothing else. -/
theorem continueWith_inquired (h : s.Alike u) (id : Nat) (ha : awaiting.inquires)
    (body body' : String) : Fares awaiting.inquires (s.continueWith id awaiting (.ok body))
      (u.continueWith id awaiting (.ok body')) := by
  cases awaiting with
  | evaluate | evaluateAll | stack => exact .answered h _ _ rfl
  | _ => cases ha

end Alike

/-- A reply that only its caller reads is handed on by the call that waits for it. -/
theorem Guarded.inquires (hg : Guarded s) (he : s.Expects (id, awaiting))
    (hi : Inquired s.journal id) : awaiting.inquires := by
  obtain ⟨r, hr, hid, hn⟩ := he
  obtain ⟨q, hq, rfl, hinq⟩ := hi
  cases hl : s.link with
  | none =>
    rw [Session.journal, hl] at hr
    cases hr
  | some l =>
    have hids := (hg l hl).ledger.increasing
    rw [← journal_of_link hl] at hids
    have hfind := Channel.find?_id hids hr
    rw [hid, Channel.find?_id hids hq] at hfind
    cases hfind
    exact hn hinq

theorem Expects.carries {w : Nat × Awaiting} (h : s.Expects w) (hc : s.Carries t) :
    t.Expects w := by
  obtain ⟨r, hr, hid, hn⟩ := h
  exact ⟨r, Channel.acceptedIn_mono hc.journal hr, hid, hn⟩

/-- The next part of a call does the same to both, once its reply is in. -/
theorem Alike.resumed (h : s.Alike u) (hg : Guarded s) (he : s.Expects (id, awaiting)) :
    Option.Rel (Fares awaiting.inquires) ((s.outcome? id).map (s.continueWith id awaiting))
      ((u.outcome? id).map (u.continueWith id awaiting)) := by
  have ho := h.outcome? id
  generalize s.outcome? id = o, u.outcome? id = o' at ho ⊢
  cases ho with
  | same =>
    cases o with
    | none => exact .none
    | some o => exact .some (h.continueWith id awaiting o)
  | replied body body' hi =>
    exact .some (h.continueWith_inquired id (hg.inquires he hi) body body')

end Session
end MobDebug
