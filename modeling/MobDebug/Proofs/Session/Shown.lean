import MobDebug.Proofs.Session.Breakpoints

/-! What the subscribers of a session are told of it. A part of a call that changes anything tells
the whole state at once, with one exception: an edit of a breakpoint is told when its reply is in,
and an edit that is taken back is not told at all. -/
namespace MobDebug
open Channel (Outcome)

namespace Session
variable {s t u : Session} {id : Nat} {bs : List Breakpoint} {awaiting : Awaiting} {o : Outcome}
  {p : Progress} {slip : Breakpoint → Bool → Prop} {quiet : Prop}

/-- What an event makes a subscriber take the session for. -/
def Event.shows (before : Snapshot) : Event → Snapshot
  | .stateChanged snapshot => snapshot
  | _ => before

/-- How a session is shown to those who were told these events from the start. -/
def shownBy (events : List Event) : Snapshot := events.foldl Event.shows (Core.snapshot {})

/-- How a session is shown to those who were told everything. -/
def shown (s : Session) : Snapshot := shownBy s.events.sent

theorem shownBy_concat (events : List Event) (e : Event) :
    shownBy (events ++ [e]) = e.shows (shownBy events) := by
  rw [shownBy, List.foldl_append]
  rfl

@[simp] theorem shown_publish (s : Session) : s.publish.shown = s.core.snapshot :=
  shownBy_concat _ _

theorem shown_of_events (h : t.events = s.events) : t.shown = s.shown := by
  rw [shown, h, shown]

theorem events_of_submit {operation : Operation} {command : Wire.Command}
    (h : s.submit operation command = .ok (id, t)) : t.events = s.events := by
  obtain ⟨l, c, -, -, rfl⟩ := submit_eq_ok h
  rfl

theorem sent_publish (h : t.events = s.events) : s.events.sent <+: t.publish.events.sent := by
  rw [← h]
  exact List.prefix_append _ _

/-- What a part of a call does for the subscribers. They are told the state, or there is nothing to
tell, or a breakpoint was set or cleared without a word; `quiet` says when it may tell nothing,
and `slip` which breakpoint may slip. -/
inductive Informs (slip : Breakpoint → Bool → Prop) (quiet : Prop) (s t : Session) : Prop where
  | tells (hs : s.events.sent <+: t.events.sent) (h : t.shown = t.core.snapshot)
  | keeps (hq : quiet) (hs : s.events.sent <+: t.events.sent) (h : t.shown = s.shown)
      (hc : t.core = s.core)
  | slips {b : Breakpoint} {on : Bool} (hb : slip b on) (he : t.events = s.events)
      (hc : t.core = (s.marked b on).core)

/-- Nothing slips. -/
abbrev Announces (s t : Session) : Prop := Informs (fun _ _ => False) True s t

namespace Informs

theorem same (hq : quiet) (he : t.events = s.events) (hc : t.core = s.core) :
    Informs slip quiet s t :=
  .keeps hq (by rw [he]) (shown_of_events he) hc

/-- The state is told in the end. -/
theorem publishes (he : t.events = s.events) : Informs slip quiet s t.publish :=
  .tells (sent_publish he) (shown_publish t)

theorem sent (h : Informs slip quiet s t) : s.events.sent <+: t.events.sent := by
  cases h with
  | tells hs | keeps _ hs => exact hs
  | slips _ he => rw [he]

/-- What announces keeps the subscribers up to date. -/
theorem after (h : Announces s t) (hs : u.events.sent <+: s.events.sent)
    (htold : s.shown = s.core.snapshot) : Informs slip quiet u t := by
  refine .tells (hs.trans h.sent) ?_
  cases h with
  | tells _ h => exact h
  | keeps _ _ h hc => rw [h, htold, hc]
  | slips hb => exact hb.elim

theorem drifts (h : Informs slip quiet s t) (hd : t.Drifts u) : Informs slip quiet s u := by
  have he := hd.events
  cases h with
  | tells hs h => exact .tells (by rw [he]; exact hs) (by rw [shown_of_events he, hd.core, h])
  | keeps hq hs h hc =>
    exact .keeps hq (by rw [he]; exact hs) ((shown_of_events he).trans h) (hd.core.trans hc)
  | slips hb hs hc => exact .slips hb (he.trans hs) (hd.core.trans hc)

end Informs

theorem announces_enterPaused (s : Session) (location : Wire.Location) (after : Nat) :
    Announces s (s.enterPaused location after) := by
  rcases s.enterPaused_cases location after with he | ⟨-, -, he⟩ <;> rw [he]
  · exact .same trivial rfl rfl
  · exact .publishes rfl

theorem announces_connectionLost (s : Session) : Announces s s.connectionLost := by
  rcases s.connectionLost_cases with ⟨-, he⟩ | ⟨-, he⟩ <;> rw [he]
  · exact .same trivial rfl rfl
  · exact .publishes rfl

theorem announces_receive (s : Session) (e : Channel.Event) : Announces s (s.receive e) := by
  cases e with
  | paused location after => exact announces_enterPaused s location after
  | output | debuggeeError =>
    exact .keeps trivial (List.prefix_append _ _) (shownBy_concat _ _) rfl
  | closed => exact announces_connectionLost s

theorem informs_ending (he : t.events = s.events) (last : State) :
    Informs slip quiet s (t.ending last) :=
  .publishes he

theorem announces_terminate (s : Session) : Announces s s.terminate :=
  (informs_ending rfl .terminated).drifts (.close (s.ending .terminated))

theorem announces_greeted (hg : Greeted s bs t p) : Announces s t := by
  cases hg with
  | done => exact .same trivial rfl rfl
  | told hs => exact .same trivial (events_of_submit hs) (link_of_submit hs).2.2
  | broken => exact announces_terminate s

/-- The first part of a call tells what it changes, unless it edits a breakpoint and waits. -/
theorem informs_began (hb : Began s t p) :
    Informs (fun b on => s.core.ended = false ∧ ∃ id, p = .waiting id (.edit b on)) True s t := by
  cases hb with
  | idle | refused => exact .same trivial rfl rfl
  | @attached stream _ _ _ _ hg =>
    exact (announces_greeted hg).after (sent_publish rfl) (shown_publish _)
  | @introduced stream _ _ _ _ _ _ hs =>
    have hsame : Announces (s.installed stream) t :=
      .same trivial (events_of_submit hs) (link_of_submit hs).2.2
    exact hsame.after (sent_publish rfl) (shown_publish _)
  | recorded | selected => exact .publishes rfl
  | @edited b on _ _ u he _ hs =>
    have hevents := events_of_submit hs
    refine .slips ⟨he, _, rfl⟩ hevents ?_
    rw [marked, marked, (link_of_submit hs).2.2]
  | resumed _ _ _ hs =>
    have hevents := events_of_submit hs
    exact .publishes hevents
  | leaving _ _ _ hs => exact informs_ending (events_of_submit hs) _
  | asked _ _ _ hs => exact .same trivial (events_of_submit hs) (link_of_submit hs).2.2
  | @left last => exact (informs_ending rfl last).drifts (.close (s.ending last))

/-- A call that edits a breakpoint. -/
def Awaiting.edits : Awaiting → Bool
  | .setBreakpoint _ => true
  | .clearBreakpoint _ => true
  | _ => false

theorem Awaiting.edits_edit (b : Breakpoint) (on : Bool) : (Awaiting.edit b on).edits := by
  cases on <;> rfl

/-- The next part of a call tells what it changes, unless it takes back an edit. An edit ends without
a word only if it has failed otherwise than by the word of the debuggee. -/
theorem informs_continued (hc : Continued s id awaiting o t p) :
    Informs
      (fun b on => ∃ e, awaiting = .edit b (!on) ∧ o = .error e ∧ e.kind = .debuggee)
      (awaiting.edits → ∃ e, o = .error e ∧ e.kind ≠ .debuggee) s t := by
  have hsame {awaiting : Awaiting} (ha : awaiting.edits = false) (h : Announces s t) :
      Informs (fun b on => ∃ e, awaiting = .edit b (!on) ∧ o = .error e ∧ e.kind = .debuggee)
        (awaiting.edits → ∃ e, o = .error e ∧ e.kind ≠ .debuggee) s t := by
    cases h with
    | tells hs h => exact .tells hs h
    | keeps _ hs h hc => exact .keeps (fun he => absurd (ha.symm.trans he) nofun) hs h hc
    | slips hb => exact hb.elim
  cases hc with
  | greeted hg => exact hsame rfl (announces_greeted hg)
  | @dropped current _ _ message _ _ hg =>
    refine (announces_greeted hg).after ?_ ((shownBy_concat _ _).trans (shown_publish _))
    exact (List.prefix_append _ _).trans (List.prefix_append _ _)
  | broken => exact hsame rfl (announces_terminate s)
  | resumed | moved | spoilt => exact hsame rfl (.same trivial rfl rfl)
  | reverted | confirmed => exact .publishes rfl
  | lost => exact hsame rfl (announces_connectionLost s)
  | paused => exact hsame rfl (announces_enterPaused s _ _)
  | @undone b on e he => exact .slips ⟨e, by rw [Bool.not_not], rfl, he⟩ rfl rfl
  | @failed b on e he => exact .same (fun _ => ⟨e, rfl, he⟩) rfl rfl
  | asked ha =>
    refine hsame ?_ (.same trivial rfl rfl)
    cases awaiting with
    | setBreakpoint | clearBreakpoint => cases ha
    | _ => rfl
  | finished => exact hsame rfl (.same trivial rfl rfl)

end Session
end MobDebug
