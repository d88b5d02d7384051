import MobDebug.Proofs.Session.Turn

/-! A session is new until it has a connection, then it is live, and then it is over. The state, the
location of a pause and the connection tell which. -/
namespace MobDebug
open Wire (Location)
open Channel (Outcome)

namespace Session
variable {s t u : Session} {id : Nat} {b : Breakpoint} {bs : List Breakpoint} {awaiting : Awaiting}
  {o : Outcome} {p : Progress}

inductive Phase (s : Session) : Prop where
  | new (hl : s.link = none) (he : s.core.ended = false) (hs : s.core.state = .disconnected)
      (hp : s.core.location = none) : Phase s
  | live (hl : s.link.isSome) (he : s.core.ended = false) (hs : s.core.state.isLive)
      (hp : s.core.location.isSome ↔ s.core.state = .paused) : Phase s
  | past (hl : s.link.isSome) (he : s.core.ended) (hs : s.core.state.isOver)
      (hp : s.core.location = none) : Phase s

/-- What a call waits for was asked in a pause, if it is to go back to it. -/
def Awaiting.Sound : Awaiting → Prop
  | .resume next previous => (next = .running ∨ next = .stepping) ∧ previous.isSome
  | _ => True

theorem Awaiting.sound_of_asks (h : awaiting.asks) : awaiting.Sound := by
  cases awaiting with
  | resume => cases h
  | _ => trivial

theorem Awaiting.sound_edit (b : Breakpoint) (on : Bool) : (Awaiting.edit b on).Sound := by
  cases on <;> trivial

theorem link_of_submit {operation : Operation} {command : Wire.Command}
    (h : s.submit operation command = .ok (id, t)) :
    s.link.isSome ∧ t.link.isSome ∧ t.core = s.core := by
  obtain ⟨l, c, hl, -, rfl⟩ := submit_eq_ok h
  exact ⟨by rw [hl]; rfl, rfl, rfl⟩

theorem link_of_outcome (h : s.outcome? id = some o) : s.link.isSome := by
  obtain ⟨l, hl, -⟩ := Option.bind_eq_some_iff.1 h
  rw [hl]
  rfl

theorem close_link_isSome (s : Session) : s.close.link.isSome = s.link.isSome :=
  Option.isSome_map

theorem isLive_of_next {next : State} (h : next = .running ∨ next = .stepping) :
    next.isLive ∧ next ≠ .paused := by
  rcases h with rfl | rfl <;> decide

theorem not_isLive_of_isOver {state : State} (h : state.isOver) : state.isLive = false := by
  cases state with
  | disconnected | terminated => rfl
  | running | paused | stepping => cases h

namespace Phase

theorem of_eq (h : Phase s) (hl : u.link.isSome = s.link.isSome) (he : u.core.ended = s.core.ended)
    (hs : u.core.state = s.core.state) (hp : u.core.location = s.core.location) : Phase u := by
  cases h with
  | new l e st p =>
    refine .new ?_ (he.trans e) (hs.trans st) (hp.trans p)
    rw [l, Option.isSome_none, Option.isSome_eq_false_iff, Option.isNone_iff_eq_none] at hl
    exact hl
  | live l e st p => exact .live (hl.trans l) (he.trans e) (hs ▸ st) (by rw [hp, hs]; exact p)
  | past l e st p => exact .past (hl.trans l) (he.trans e) (hs ▸ st) (hp.trans p)

theorem close (h : Phase s) : Phase s.close :=
  h.of_eq s.close_link_isSome rfl rfl rfl

theorem submit (h : Phase s) {operation : Operation} {command : Wire.Command}
    (hs : s.submit operation command = .ok (id, t)) : Phase t := by
  obtain ⟨hl, ht, hc⟩ := link_of_submit hs
  exact h.of_eq (ht.trans hl.symm) (by rw [hc]) (by rw [hc]) (by rw [hc])

theorem ended (hl : s.link.isSome) {last : State} (hlast : last.isOver) : Phase (s.ending last) :=
  .past hl rfl hlast rfl

theorem terminate (hl : s.link.isSome) : Phase s.terminate := by
  have h : Phase (s.ending .terminated) := ended hl rfl
  exact h.close

/-- In a live state the session has a connection that it has not given up. -/
theorem of_isLive (h : Phase s) (hs : s.core.state.isLive) :
    s.link.isSome ∧ s.core.ended = false ∧ (s.core.location.isSome ↔ s.core.state = .paused) := by
  cases h with
  | new _ _ st =>
    rw [st] at hs
    cases hs
  | live hl he _ hp => exact ⟨hl, he, hp⟩
  | past _ _ st =>
    rw [not_isLive_of_isOver st] at hs
    cases hs

theorem resuming (h : Phase s) (hs : s.core.state = .paused) {next : State}
    (hn : next = .running ∨ next = .stepping) : Phase (s.resuming id next) := by
  obtain ⟨hl, he, -⟩ := h.of_isLive (by rw [hs]; rfl)
  obtain ⟨hlive, hne⟩ := isLive_of_next hn
  exact .live hl he hlive (iff_of_false (by simp [Session.resuming]) hne)

theorem reverted (h : Phase s) {next : State} {previous : Option Location}
    (ha : (Awaiting.resume next previous).Sound) (hs : s.core.state = next) :
    Phase (s.reverted previous) := by
  obtain ⟨hl, he, -⟩ := h.of_isLive (hs ▸ (isLive_of_next ha.1).1)
  exact .live hl he rfl (iff_of_true ha.2 rfl)

theorem connectionLost (h : Phase s) (hl : s.link.isSome) : Phase s.connectionLost := by
  rcases s.connectionLost_cases with ⟨-, he⟩ | ⟨-, he⟩ <;> rw [he]
  · exact h
  · exact ended hl rfl

theorem enterPaused (h : Phase s) (location : Location) (after : Nat) :
    Phase (s.enterPaused location after) := by
  rcases s.enterPaused_cases location after with he | ⟨-, hs, he⟩ <;> rw [he]
  · exact h
  · obtain ⟨hl, he, -⟩ := h.of_isLive hs
    exact .live hl he rfl (iff_of_true rfl rfl)

theorem receive (h : Phase s) (hl : s.link.isSome) (e : Channel.Event) : Phase (s.receive e) := by
  cases e with
  | paused location after => exact h.enterPaused location after
  | output | debuggeeError => exact h.of_eq rfl rfl rfl rfl
  | closed => exact h.connectionLost hl

theorem greeted (h : Phase s) (hl : s.link.isSome) (hg : Greeted s bs t p) : Phase t := by
  cases hg with
  | done => exact h
  | told hs => exact h.submit hs
  | broken => exact terminate hl

theorem began (h : Phase s) (hb : Began s t p) : Phase t := by
  have hinstalled (stream : Stream) (he : s.core.ended = false) (hl : s.link = none) :
      Phase (s.installed stream) := by
    cases h with
    | new _ _ _ hp => exact .live rfl he rfl (iff_of_false (by simp [Session.installed, hp]) nofun)
    | live hs | past hs =>
      rw [hl] at hs
      cases hs
  cases hb with
  | idle => exact h
  | refused => exact h.of_eq rfl rfl rfl rfl
  | attached stream he hl hg => exact (hinstalled stream he hl).greeted rfl hg
  | introduced stream he hl _ hs => exact (hinstalled stream he hl).submit hs
  | recorded => exact h.of_eq rfl rfl rfl rfl
  | edited _ _ _ _ hs => exact (h.submit hs).of_eq rfl rfl rfl rfl
  | resumed _ hnext hp hs =>
    refine (h.submit hs).resuming ?_ hnext
    rw [(link_of_submit hs).2.2, hp]
  | selected => exact h.of_eq rfl rfl rfl rfl
  | asked _ _ _ hs => exact h.submit hs
  | leaving _ hlast _ hs => exact ended (link_of_submit hs).2.1 hlast
  | left _ hlast _ hl => exact (ended hl hlast).close

theorem continued (h : Phase s) (hl : s.link.isSome) (ha : awaiting.Sound)
    (hc : Continued s id awaiting o t p) : Phase t := by
  cases hc with
  | greeted hg => exact h.greeted hl hg
  | @dropped current _ _ message _ _ hg =>
    have hd : Phase (s.dropping current message) := h.of_eq rfl rfl rfl rfl
    exact hd.greeted hl hg
  | broken => exact terminate hl
  | resumed | moved | spoilt | failed | asked => exact h
  | reverted _ hn => exact h.reverted ha hn
  | lost => exact h.connectionLost hl
  | paused => exact h.enterPaused _ _
  | confirmed | undone => exact h.of_eq rfl rfl rfl rfl
  | finished => exact h.close

theorem drifts (h : Phase s) (hd : s.Drifts t) : Phase t :=
  h.of_eq hd.link_isSome (by rw [hd.core]) (by rw [hd.core]) (by rw [hd.core])

end Phase

theorem sound_greeted (hg : Greeted s bs t p) : ∀ w ∈ p.awaiting?, w.2.Sound := by
  cases hg with
  | done | broken => nofun
  | told =>
    rintro _ ⟨⟩
    trivial

theorem sound_began (h : Phase s) (hb : Began s t p) : ∀ w ∈ p.awaiting?, w.2.Sound := by
  cases hb with
  | idle | refused | recorded | selected | left => nofun
  | attached _ _ _ hg => exact sound_greeted hg
  | introduced | leaving =>
    rintro _ ⟨⟩
    trivial
  | edited b on =>
    rintro _ ⟨⟩
    exact Awaiting.sound_edit b on
  | resumed _ hnext hp =>
    rintro _ ⟨⟩
    exact ⟨hnext, (h.of_isLive (by rw [hp]; rfl)).2.2.2 hp⟩
  | asked _ ha =>
    rintro _ ⟨⟩
    exact Awaiting.sound_of_asks ha

theorem sound_continued (hc : Continued s id awaiting o t p) : ∀ w ∈ p.awaiting?, w.2.Sound := by
  cases hc with
  | greeted hg | dropped hg => exact sound_greeted hg
  | _ => nofun

end Session

namespace Debugger
variable {s u : Debugger}

/-- A call is telling breakpoints to the debuggee. -/
def Attaching (s : Debugger) : Prop :=
  ∃ n, ∃ w ∈ s.awaits n, w.2.isAttaching

/-- The session is in a phase, and whatever its calls wait for was asked in the right one. -/
structure Standing (s : Debugger) : Prop where
  phase : s.session.Phase
  sound : ∀ n, ∀ w ∈ s.awaits n, w.2.Sound

theorem standing_turn (ht : Turn s u) (h : Standing s) : Standing u := by
  have hupdate {n : Nat} {p : Session.Progress} (hp : ∀ w ∈ p.awaiting?, w.2.Sound)
      (ha : u.awaits = Function.update s.awaits n p.awaiting?) :
      ∀ n, ∀ w ∈ u.awaits n, w.2.Sound := by
    intro m
    rw [ha, Function.update_apply]
    split
    · exact hp
    · exact h.sound m
  cases ht with
  | drift ha hd => exact ⟨h.phase.drifts hd, by rw [ha]; exact h.sound⟩
  | receive ha hl _ hu =>
    refine ⟨?_, by rw [ha]; exact h.sound⟩
    rw [hu]
    exact h.phase.receive (by rw [hl]; rfl) _
  | begin n _ hb hd ha =>
    exact ⟨(h.phase.began hb).drifts hd, hupdate (Session.sound_began h.phase hb) ha⟩
  | resume n hn ho hc hd ha =>
    have hphase := h.phase.continued (Session.link_of_outcome ho) (h.sound n _ hn) hc
    exact ⟨hphase.drifts hd, hupdate (Session.sound_continued hc) ha⟩

theorem standing_reachable (h : Reachable s) : Standing s := by
  induction h with
  | new config => exact ⟨.new rfl rfl rfl rfl, nofun⟩
  | step _ hs ih => exact standing_turn (step_turn hs) ih

theorem Reachable.future (h : Reachable s) (hf : Future s u) : Reachable u := by
  induction hf with
  | refl => exact h
  | tail _ hs ih => exact ih.step hs

end Debugger
end MobDebug
