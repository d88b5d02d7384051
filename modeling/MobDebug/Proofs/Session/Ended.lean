import MobDebug.Proofs.Session.Phase

/-! A session that has ended. Nothing brings it back and it submits no command, unless a call is
still telling breakpoints to the debuggee: that call goes on as if nothing had happened, and when it
fails it moves the session once more. -/
namespace MobDebug
open Session (Awaiting Breakpoint Progress Greeted Began Continued)
open Channel (Outcome Request acceptedIn)

namespace Session
variable {s t u : Session} {id : Nat} {bs : List Breakpoint} {awaiting : Awaiting} {o : Outcome}
  {p : Progress}

/-- The commands that the session has submitted on its connection, in order. -/
def commands (s : Session) : List Request :=
  (s.link.map fun l => acceptedIn l.channel.journal).getD []

/-- Nothing has happened to an ended session that its users would notice. -/
structure Rests (s t : Session) : Prop where
  ended : t.core.ended
  state : t.core.state = s.core.state
  commands : t.commands = s.commands

/-- What may happen to an ended session while breakpoints are told. -/
structure Lingers (s t : Session) : Prop where
  ended : t.core.ended
  state : t.core.state = s.core.state ∨ t.core.state = .terminated
  commands : ∃ rs, t.commands = s.commands ++ rs ∧ ∀ r ∈ rs, r.name = .setBreakpoint

theorem commands_eq (s : Session) : s.commands = acceptedIn s.journal := by
  unfold commands journal
  cases s.link <;> rfl

theorem commands_drifts (h : s.Drifts t) : t.commands = s.commands := by
  rw [commands_eq, commands_eq, accepted_drifts h]

theorem commands_close (s : Session) : s.close.commands = s.commands :=
  commands_drifts (.close s)

theorem commands_submit {operation : Operation} {command : Wire.Command}
    (h : s.submit operation command = .ok (id, t)) :
    ∃ r, t.commands = s.commands ++ [r] ∧ r.name = command.name := by
  obtain ⟨line, -, he⟩ := accepted_submit h
  rw [commands_eq, commands_eq, he]
  exact ⟨_, rfl, rfl⟩

namespace Rests

theorem refl (he : s.core.ended) : s.Rests s := ⟨he, rfl, rfl⟩

theorem trans (h : s.Rests t) (h' : t.Rests u) : s.Rests u :=
  ⟨h'.ended, h'.state.trans h.state, h'.commands.trans h.commands⟩

theorem drifts (he : s.core.ended) (h : s.Drifts t) : s.Rests t :=
  ⟨by rw [h.core]; exact he, by rw [h.core], commands_drifts h⟩

theorem close (he : s.core.ended) : s.Rests s.close := .drifts he (.close s)

theorem lingers (h : s.Rests t) : s.Lingers t :=
  ⟨h.ended, .inl h.state, [], h.commands.trans (List.append_nil _).symm, nofun⟩

theorem connectionLost (he : s.core.ended) : s.Rests s.connectionLost := by
  rcases s.connectionLost_cases with ⟨-, h⟩ | ⟨h, -⟩
  · rw [h]
    exact .refl he
  · exact absurd (he.symm.trans h) nofun

theorem enterPaused (he : s.core.ended) (hp : s.Phase) (location : Wire.Location) (after : Nat) :
    s.Rests (s.enterPaused location after) := by
  rcases s.enterPaused_cases location after with h | ⟨-, h, -⟩
  · rw [h]
    exact .refl he
  · exact absurd ((hp.of_isLive h).2.1.symm.trans he) nofun

theorem receive (he : s.core.ended) (hp : s.Phase) (e : Channel.Event) : s.Rests (s.receive e) := by
  cases e with
  | paused location after => exact .enterPaused he hp location after
  | output | debuggeeError => exact ⟨he, rfl, rfl⟩
  | closed => exact .connectionLost he

end Rests

theorem Lingers.trans (h : s.Lingers t) (h' : t.Lingers u) : s.Lingers u := by
  obtain ⟨rs, hrs, hn⟩ := h.commands
  obtain ⟨qs, hqs, hm⟩ := h'.commands
  refine ⟨h'.ended, ?_, rs ++ qs, ?_, ?_⟩
  · rcases h'.state with he | he
    · rw [he]
      exact h.state
    · exact .inr he
  · rw [hqs, hrs, List.append_assoc]
  · intro r hr
    rcases List.mem_append.1 hr with hr | hr
    · exact hn r hr
    · exact hm r hr

/-- No call that begins gets anything done. -/
theorem rests_began (he : s.core.ended) (hp : s.Phase) (hb : Began s t p) :
    s.Rests t ∧ p.awaiting? = none := by
  have hlive (h : s.core.state.isLive) : False :=
    absurd ((hp.of_isLive h).2.1.symm.trans he) nofun
  cases hb with
  | idle | refused => exact ⟨⟨he, rfl, rfl⟩, rfl⟩
  | attached _ h | introduced _ h | recorded _ _ h | edited _ _ h =>
    exact absurd (h.symm.trans he) nofun
  | resumed _ _ h | selected _ h => exact (hlive (by rw [h]; rfl)).elim
  | asked _ _ h | leaving _ _ h | left _ _ h => exact (hlive h).elim

theorem lingers_terminate (s : Session) : s.Lingers s.terminate := by
  have hc : s.terminate.commands = s.commands := commands_close (s.ending .terminated)
  exact ⟨rfl, .inr rfl, [], hc.trans (List.append_nil _).symm, nofun⟩

theorem lingers_greeted (he : s.core.ended) (hg : Greeted s bs t p) : s.Lingers t := by
  cases hg with
  | done => exact (Rests.refl he).lingers
  | told hs =>
    obtain ⟨r, hr, hname⟩ := commands_submit hs
    have hc := (link_of_submit hs).2.2
    refine ⟨by rw [hc]; exact he, .inl (by rw [hc]), [r], hr, ?_⟩
    intro q hq
    rw [List.mem_singleton.1 hq]
    exact hname
  | broken => exact lingers_terminate s

/-- Nor does a call that has its reply, unless it tells breakpoints. -/
theorem ended_continued (he : s.core.ended) (hp : s.Phase) (ha : awaiting.Sound)
    (hc : Continued s id awaiting o t p) :
    (s.Rests t ∧ p.awaiting? = none) ∨ (awaiting.isAttaching ∧ s.Lingers t) := by
  cases hc with
  | greeted hg => exact .inr ⟨rfl, lingers_greeted he hg⟩
  | @dropped current _ _ message _ _ hg =>
    have hd : s.Rests (s.dropping current message) := ⟨he, rfl, rfl⟩
    exact .inr ⟨rfl, hd.lingers.trans (lingers_greeted he hg)⟩
  | broken => exact .inr ⟨rfl, lingers_terminate s⟩
  | resumed | moved | spoilt | failed | asked => exact .inl ⟨.refl he, rfl⟩
  | reverted _ h =>
    have hlive := (hp.of_isLive (h ▸ (isLive_of_next ha.1).1)).2.1
    exact absurd (hlive.symm.trans he) nofun
  | lost => exact .inl ⟨.connectionLost he, rfl⟩
  | paused => exact .inl ⟨.enterPaused he hp _ _, rfl⟩
  | confirmed | undone => exact .inl ⟨⟨he, rfl, rfl⟩, rfl⟩
  | finished => exact .inl ⟨.close he, rfl⟩

end Session

namespace Debugger
open Session (Rests Lingers)
variable {s u v : Debugger}

theorem ended_turn (h : Standing s) (he : s.session.core.ended) (ht : Turn s u) :
    s.session.Lingers u.session ∧
      (¬ s.Attaching → s.session.Rests u.session ∧ ¬ u.Attaching) := by
  have hrests (hr : s.session.Rests u.session)
      (ha : ∀ n, u.awaits n = s.awaits n ∨ u.awaits n = none) :
      s.session.Lingers u.session ∧
        (¬ s.Attaching → s.session.Rests u.session ∧ ¬ u.Attaching) := by
    refine ⟨hr.lingers, fun hn => ⟨hr, ?_⟩⟩
    rintro ⟨n, w, hw, hatt⟩
    rcases ha n with he | he <;> rw [he] at hw
    · exact hn ⟨n, w, hw, hatt⟩
    · cases hw
  have hupdate {n : Nat} {a : Option (Nat × Awaiting)} (hnone : a = none)
      (ha : u.awaits = Function.update s.awaits n a) (m : Nat) :
      u.awaits m = s.awaits m ∨ u.awaits m = none := by
    rw [ha, Function.update_apply]
    split
    · exact .inr hnone
    · exact .inl rfl
  cases ht with
  | drift ha hd => exact hrests (.drifts he hd) fun n => .inl (by rw [ha])
  | receive ha _ _ hu =>
    refine hrests ?_ fun n => .inl (by rw [ha])
    rw [hu]
    exact .receive he h.phase _
  | begin n _ hb hd ha =>
    obtain ⟨hr, hnone⟩ := Session.rests_began he h.phase hb
    exact hrests (hr.trans (.drifts hr.ended hd)) (hupdate hnone ha)
  | resume n hn _ hc hd ha =>
    rcases Session.ended_continued he h.phase (h.sound n _ hn) hc with ⟨hr, hnone⟩ | ⟨hatt, hl⟩
    · exact hrests (hr.trans (.drifts hr.ended hd)) (hupdate hnone ha)
    · refine ⟨hl.trans (Rests.drifts hl.ended hd).lingers, fun hno => ?_⟩
      exact absurd ⟨n, _, hn, hatt⟩ hno

theorem lingers_future (h : Reachable s) (he : s.session.core.ended) (hf : Future s u) :
    s.session.Lingers u.session ∧
      (¬ s.Attaching → s.session.Rests u.session ∧ ¬ u.Attaching) := by
  induction hf with
  | refl => exact ⟨(Rests.refl he).lingers, fun hn => ⟨.refl he, hn⟩⟩
  | tail hf hs ih =>
    obtain ⟨hl, hr⟩ := ended_turn (standing_reachable (h.future hf)) ih.1.ended (step_turn hs)
    refine ⟨ih.1.trans hl, fun hn => ?_⟩
    obtain ⟨hbefore, hnext⟩ := ih.2 hn
    exact ⟨hbefore.trans (hr hnext).1, (hr hnext).2⟩

end Debugger
end MobDebug
