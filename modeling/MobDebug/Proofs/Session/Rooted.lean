import MobDebug.Proofs.Session.Attachment

/-! What the session waits for goes back to commands that it has submitted: a call that waits has
asked by a fitting command, and the latest resumption was one. -/
namespace MobDebug
open Wire (CommandName)
open Channel (Entry Request Outcome acceptedIn)

namespace Session
variable {s t : Session} {a : Nat → Option (Nat × Awaiting)} {n id : Nat}
  {w : Option (Nat × Awaiting)} {bs : List Breakpoint} {awaiting : Awaiting} {o : Outcome}
  {p : Progress} {r : Request}

theorem asked_submit {operation : Operation} {command : Wire.Command}
    (h : s.submit operation command = .ok (id, t)) :
    ∃ r ∈ acceptedIn t.journal, r.id = id ∧ r.name = command.name := by
  obtain ⟨line, -, he⟩ := accepted_submit h
  rw [he]
  exact ⟨_, List.mem_concat_self, rfl, rfl⟩

theorem Guarded.resumed (hg : Guarded s) (hr : r ∈ acceptedIn s.journal) (hres : r.name.resumes) :
    r.id ≤ s.core.resumedAt := by
  cases hl : s.link with
  | none =>
    rw [Session.journal, hl] at hr
    cases hr
  | some l =>
    rw [journal_of_link hl] at hr
    exact (hg l hl).resumed r hr hres

/-- The commands whose reply a call can wait for. -/
def Awaiting.Fits : Awaiting → CommandName → Prop
  | .pause, name => name = .suspend
  | .resume _ _, name => name.resumes
  | _, _ => True

theorem Awaiting.fits_edit (b : Breakpoint) (on : Bool) (name : CommandName) :
    (Awaiting.edit b on).Fits name := by
  cases on <;> trivial

theorem Awaiting.fits_of_asks {name : CommandName} (ha : awaiting.asks)
    (hp : awaiting = .pause → name = .suspend) : awaiting.Fits name := by
  cases awaiting with
  | pause => exact hp rfl
  | resume => cases ha
  | _ => trivial

/-- The call has asked by a fitting command. -/
def Asked (s : Session) (v : Nat × Awaiting) : Prop :=
  ∃ r ∈ acceptedIn s.journal, r.id = v.1 ∧ v.2.Fits r.name

theorem Asked.carries {v : Nat × Awaiting} (h : s.Asked v) (hc : s.Carries t) : t.Asked v := by
  obtain ⟨r, hr, hfits⟩ := h
  exact ⟨r, Channel.acceptedIn_mono hc.journal hr, hfits⟩

theorem Asked.of_submit {u : Session} {operation : Operation} {command : Wire.Command}
    (hs : s.submit operation command = .ok (id, u)) (ht : t.link = u.link)
    (ha : awaiting.Fits command.name) : t.Asked (id, awaiting) := by
  obtain ⟨r, hr, hid, hname⟩ := asked_submit hs
  refine ⟨r, ?_, hid, hname ▸ ha⟩
  rw [Session.journal, ht]
  exact hr

theorem asked_greeted (hg : Greeted s bs t p) : ∀ v ∈ p.awaiting?, t.Asked v := by
  cases hg with
  | done | broken => nofun
  | told hs =>
    rintro _ ⟨⟩
    exact .of_submit hs rfl trivial

theorem asked_began (hb : Began s t p) : ∀ v ∈ p.awaiting?, t.Asked v := by
  cases hb with
  | idle | refused | recorded | selected | left => nofun
  | attached _ _ _ hg => exact asked_greeted hg
  | introduced _ _ _ _ hs =>
    rintro _ ⟨⟩
    exact .of_submit hs rfl trivial
  | edited b on _ _ hs =>
    rintro _ ⟨⟩
    exact .of_submit hs rfl (Awaiting.fits_edit b on _)
  | resumed hn _ _ hs =>
    rintro _ ⟨⟩
    exact .of_submit hs rfl hn
  | asked _ ha _ hs hp =>
    rintro _ ⟨⟩
    exact .of_submit hs rfl (Awaiting.fits_of_asks ha hp)
  | leaving _ _ _ hs =>
    rintro _ ⟨⟩
    exact .of_submit hs rfl trivial

theorem asked_continued (hc : Continued s id awaiting o t p) : ∀ v ∈ p.awaiting?, t.Asked v := by
  cases hc with
  | greeted hg | dropped hg => exact asked_greeted hg
  | _ => nofun

theorem greeted_resumedAt (hg : Greeted s bs t p) : t.core.resumedAt = s.core.resumedAt := by
  cases hg with
  | done | broken => rfl
  | told hs => rw [(link_of_submit hs).2.2]

/-- Only a command that resumes the program changes what the session takes for the latest one. -/
theorem began_resumedAt (hb : Began s t p) : t.core.resumedAt = s.core.resumedAt ∨
    ∃ r ∈ acceptedIn t.journal, r.id = t.core.resumedAt ∧ r.name.resumes := by
  cases hb with
  | idle | refused | recorded | selected | left => exact .inl rfl
  | attached _ _ _ hg =>
    have hr := greeted_resumedAt hg
    exact .inl hr
  | introduced _ _ _ _ hs =>
    have hcore := (link_of_submit hs).2.2
    exact .inl (congrArg (·.resumedAt) hcore)
  | edited _ _ _ _ hs | asked _ _ _ hs | leaving _ _ _ hs =>
    have hcore := (link_of_submit hs).2.2
    exact .inl (congrArg (·.resumedAt) hcore)
  | resumed hn _ _ hs =>
    obtain ⟨r, hr, hid, hname⟩ := asked_submit hs
    exact .inr ⟨r, hr, hid, by rw [hname, hn]⟩

theorem enterPaused_resumedAt (s : Session) (location : Wire.Location) (after : Nat) :
    (s.enterPaused location after).core.resumedAt = s.core.resumedAt := by
  rcases s.enterPaused_cases location after with he | ⟨-, -, he⟩ <;> rw [he]
  rfl

theorem connectionLost_resumedAt (s : Session) :
    s.connectionLost.core.resumedAt = s.core.resumedAt := by
  rcases s.connectionLost_cases with ⟨-, he⟩ | ⟨-, he⟩ <;> rw [he]
  rfl

theorem receive_resumedAt (s : Session) (e : Channel.Event) :
    (s.receive e).core.resumedAt = s.core.resumedAt := by
  cases e with
  | paused location after => exact enterPaused_resumedAt s location after
  | output | debuggeeError => rfl
  | closed => exact connectionLost_resumedAt s

theorem continued_resumedAt (hc : Continued s id awaiting o t p) :
    t.core.resumedAt = s.core.resumedAt := by
  cases hc with
  | greeted hg => exact greeted_resumedAt hg
  | dropped hg =>
    have hr := greeted_resumedAt hg
    exact hr
  | lost => exact connectionLost_resumedAt s
  | paused => exact enterPaused_resumedAt s _ _
  | _ => rfl

/-- Each call that waits has asked, and the latest resumption was submitted. -/
structure Rooted (s : Session) (a : Nat → Option (Nat × Awaiting)) : Prop where
  asked : ∀ n, ∀ w ∈ a n, s.Asked w
  latest : s.core.resumedAt = 0 ∨
    ∃ r ∈ acceptedIn s.journal, r.id = s.core.resumedAt ∧ r.name.resumes

namespace Rooted

theorem carries (h : Rooted s a) (hc : s.Carries t)
    (hr : t.core.resumedAt = s.core.resumedAt ∨
      ∃ r ∈ acceptedIn t.journal, r.id = t.core.resumedAt ∧ r.name.resumes) : Rooted t a := by
  refine ⟨fun n w hw => (h.asked n w hw).carries hc, ?_⟩
  rcases hr with hr | hr
  · rw [hr]
    refine h.latest.imp_right ?_
    rintro ⟨r, hr, hid⟩
    exact ⟨r, Channel.acceptedIn_mono hc.journal hr, hid⟩
  · exact .inr hr

theorem update (h : Rooted s a) (hw : ∀ v ∈ w, s.Asked v) (n : Nat) :
    Rooted s (Function.update a n w) := by
  refine ⟨?_, h.latest⟩
  intro m v hv
  rw [Function.update_apply] at hv
  split at hv
  · exact hw v hv
  · exact h.asked m v hv

theorem began (h : Rooted s a) (hb : Began s t p) (n : Nat) :
    Rooted t (Function.update a n p.awaiting?) :=
  (h.carries (.began hb) (began_resumedAt hb)).update (asked_began hb) n

theorem continued (h : Rooted s a) (hc : Continued s id awaiting o t p) (n : Nat) :
    Rooted t (Function.update a n p.awaiting?) :=
  (h.carries (.continued hc) (.inl (continued_resumedAt hc))).update (asked_continued hc) n

theorem receive (h : Rooted s a) (e : Channel.Event) : Rooted (s.receive e) a :=
  h.carries (.receive s e) (.inl (receive_resumedAt s e))

theorem drifts (h : Rooted s a) (hd : s.Drifts t) : Rooted t a :=
  h.carries (.drifts hd) (.inl (by rw [hd.core]))

end Rooted
end Session

namespace Debugger
variable {s u : Debugger}

theorem rooted_turn (ht : Turn s u) (h : s.session.Rooted s.awaits) :
    u.session.Rooted u.awaits := by
  cases ht with
  | drift ha hd =>
    rw [ha]
    exact h.drifts hd
  | receive ha _ _ hu =>
    rw [ha, hu]
    exact h.receive _
  | begin n _ hb hd ha =>
    rw [ha]
    exact (h.began hb n).drifts hd
  | resume n _ _ hc hd ha =>
    rw [ha]
    exact (h.continued hc n).drifts hd

theorem rooted_reachable (h : Reachable s) : s.session.Rooted s.awaits := by
  induction h with
  | new config => exact ⟨nofun, .inl rfl⟩
  | step _ hs ih => exact rooted_turn (step_turn hs) ih

end Debugger
end MobDebug
