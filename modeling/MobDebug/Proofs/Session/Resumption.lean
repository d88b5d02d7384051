import MobDebug.Proofs.Session.Pause
import MobDebug.Proofs.Session.Rooted

/-! What a pause rests on. A session that has resumed the program is paused again because it was
told so since, or because the debuggee has rejected the command that resumed it. It takes the
rejection of an older command for that of the latest, if the state happens to be the same. -/
namespace MobDebug
open Wire (CommandName Location)
open Session (Awaiting Progress Breakpoint Greeted Began Continued Guarded Tended Operation State)
open Channel (Entry Request Outcome acceptedIn sentIn answersIn eventsIn)

namespace Session
variable {s t : Session} {l : Link} {a : Nat → Option (Nat × Awaiting)} {n id : Nat}
  {w : Option (Nat × Awaiting)} {bs : List Breakpoint} {awaiting : Awaiting} {o : Outcome}
  {p : Progress} {j k : List Entry} {r : Request}

/-- What has paused the program since the command `n` resumed it. -/
inductive Halted (j : List Entry) (n : Nat) : Prop where
  | paused {location : Location} {after : Nat} (he : .paused location after ∈ eventsIn j)
      (hn : n ≤ after) : Halted j n
  | suspended {q : Request} {body : String} (hq : q ∈ acceptedIn j) (hs : q.name = .suspend)
      (ha : (q.id, .ok body) ∈ answersIn j) (hn : n ≤ q.id) : Halted j n
  | rejected {code : Nat} {message : String}
      (ha : (n, .error (.debuggee code message)) ∈ answersIn j) : Halted j n

theorem Halted.mono (h : Halted j n) (hj : j <+: k) : Halted k n := by
  cases h with
  | paused he hn =>
    obtain ⟨i, rfl⟩ := hj
    have he' := List.mem_append_left (eventsIn i) he
    rw [← Channel.told_append] at he'
    exact .paused he' hn
  | suspended hq hs ha hn =>
    exact .suspended (Channel.acceptedIn_mono hj hq) hs (Channel.answersIn_mono hj ha) hn
  | rejected ha => exact .rejected (Channel.answersIn_mono hj ha)

/-- Telling breakpoints does not pause the program. -/
theorem greeted_paused (hg : Greeted s bs t p) (hp : t.core.state = .paused) :
    s.core.state = .paused := by
  cases hg with
  | done => exact hp
  | told hs => rwa [(link_of_submit hs).2.2] at hp
  | broken => cases hp

/-- No call that begins pauses the program. -/
theorem began_paused (hb : Began s t p) (hp : t.core.state = .paused) :
    s.core.state = .paused ∧ t.core.resumedAt = s.core.resumedAt := by
  cases hb with
  | idle | refused | recorded => exact ⟨hp, rfl⟩
  | selected _ hs => exact ⟨hs, rfl⟩
  | attached _ _ _ hg => cases greeted_paused hg hp
  | introduced _ _ _ _ hs =>
    rw [(link_of_submit hs).2.2] at hp
    cases hp
  | @edited b on _ _ u _ _ hs =>
    have hcore := (link_of_submit hs).2.2
    have hp : u.core.state = .paused := hp
    rw [hcore] at hp
    exact ⟨hp, congrArg (·.resumedAt) hcore⟩
  | resumed _ hnext => exact absurd hp (isLive_of_next hnext).2
  | asked _ _ _ hs =>
    rw [(link_of_submit hs).2.2] at hp ⊢
    exact ⟨hp, rfl⟩
  | leaving _ hlast | left _ hlast =>
    obtain rfl : _ = State.paused := hp
    cases hlast

/-- A call goes on in a pause, or goes back to one, or is told of one. -/
theorem continued_paused (hc : Continued s id awaiting o t p) (hp : t.core.state = .paused) :
    s.core.state = .paused ∨
    (∃ next previous e, awaiting = .resume next previous ∧ o = .error e ∧ e.kind = .debuggee ∧
      s.core.state = next) ∨
    ∃ body location, awaiting = .pause ∧ o = .ok body ∧ Location.read body = .ok location ∧
      s.core.resumedAt ≤ id := by
  cases hc with
  | greeted hg => exact .inl (greeted_paused hg hp)
  | dropped hg =>
    have hs := greeted_paused hg hp
    exact .inl hs
  | broken => cases hp
  | resumed | moved | spoilt | failed | asked | confirmed | undone | finished => exact .inl hp
  | lost =>
    rcases s.connectionLost_cases with ⟨-, he⟩ | ⟨-, he⟩ <;> rw [he] at hp
    · exact .inl hp
    · cases hp
  | reverted he hn => exact .inr (.inl ⟨_, _, _, rfl, rfl, he, hn⟩)
  | @paused body location hr =>
    rcases s.enterPaused_cases location id with he | ⟨hle, -, -⟩
    · rw [he] at hp
      exact .inl hp
    · exact .inr (.inr ⟨body, location, rfl, rfl, hr, hle⟩)

theorem receive_paused {e : Channel.Event} (hp : (s.receive e).core.state = .paused) :
    s.core.state = .paused ∨
      ∃ location after, e = .paused location after ∧ s.core.resumedAt ≤ after := by
  cases e with
  | paused location after =>
    rcases s.enterPaused_cases location after with he | ⟨hle, -, -⟩
    · have hp : (s.enterPaused location after).core.state = .paused := hp
      rw [he] at hp
      exact .inl hp
    · exact .inr ⟨location, after, rfl, hle⟩
  | output | debuggeeError => exact .inl hp
  | closed =>
    have hp : s.connectionLost.core.state = .paused := hp
    rcases s.connectionLost_cases with ⟨-, he⟩ | ⟨-, he⟩ <;> rw [he] at hp
    · exact .inl hp
    · cases hp

/-- What the session knows of its pauses and resumptions goes back to the connection: each call that
waits has asked by a fitting command, the latest resumption was one, and a pause has its cause. -/
structure Backed (s : Session) (a : Nat → Option (Nat × Awaiting)) : Prop where
  asked : ∀ n, ∀ w ∈ a n, ∃ r ∈ acceptedIn s.journal, r.id = w.1 ∧ w.2.Fits r.name
  latest : s.core.resumedAt = 0 ∨
    ∃ r ∈ acceptedIn s.journal, r.id = s.core.resumedAt ∧ r.name.resumes
  halted : s.core.state = .paused → s.core.resumedAt = 0 ∨ Halted s.journal s.core.resumedAt

namespace Backed

theorem rooted (h : Backed s a) : Rooted s a := ⟨h.asked, h.latest⟩

theorem of_rooted (h : Rooted s a)
    (hh : s.core.state = .paused → s.core.resumedAt = 0 ∨ Halted s.journal s.core.resumedAt) :
    Backed s a :=
  ⟨h.asked, h.latest, hh⟩

/-- Where the pause is the one before, so is its cause. -/
theorem halts (h : Backed s a) (hc : s.Carries t) (hs : s.core.state = .paused)
    (hr : t.core.resumedAt = s.core.resumedAt) :
    t.core.resumedAt = 0 ∨ Halted t.journal t.core.resumedAt := by
  rw [hr]
  exact (h.halted hs).imp_right (·.mono hc.journal)

/-- The first part of a call. -/
theorem began (h : Backed s a) (hb : Began s t p) (n : Nat) :
    Backed t (Function.update a n p.awaiting?) := by
  refine .of_rooted (h.rooted.began hb n) fun hp => ?_
  obtain ⟨hs, hr⟩ := began_paused hb hp
  exact h.halts (.began hb) hs hr

/-- The next part of a call, which has its reply. A rejection is of the latest resumption, or does
not find the session as that left it. -/
theorem continued (h : Backed s a) (hg : Guarded s) (hc : Continued s id awaiting o t p)
    (hn : a n = some (id, awaiting)) (ho : s.outcome? id = some o)
    (hlatest : ∀ next previous code message, awaiting = .resume next previous →
      o = .error (.debuggee code message) → s.core.state = next → s.core.resumedAt ≤ id) :
    Backed t (Function.update a n p.awaiting?) := by
  refine .of_rooted (h.rooted.continued hc n) fun hp => ?_
  have hanswer := answer_of_outcome hg ho
  obtain ⟨r, hr, rfl, hfits⟩ := h.asked n _ hn
  have hcarries := Carries.continued hc
  rcases continued_paused hc hp with hs | ⟨next, previous, e, rfl, rfl, he, hnext⟩ |
      ⟨body, location, rfl, rfl, -, hle⟩
  · exact h.halts hcarries hs (continued_resumedAt hc)
  all_goals
    rw [continued_resumedAt hc]
    refine .inr (Halted.mono ?_ hcarries.journal)
  · cases e with
    | debuggee code message =>
      have hge := hlatest next previous code message rfl rfl hnext
      exact .rejected (Nat.le_antisymm (hg.resumed hr hfits) hge ▸ hanswer)
    | _ => cases he
  · exact .suspended hr hfits hanswer hle

/-- An event of the connection. -/
theorem receive (h : Backed s a) (hl : s.link = some l) {e : Channel.Event}
    (he : e ∈ eventsIn l.channel.journal) : Backed (s.receive e) a := by
  refine .of_rooted (h.rooted.receive e) fun hp => ?_
  rcases receive_paused hp with hs | ⟨location, after, rfl, hle⟩
  · exact h.halts (.receive s e) hs (receive_resumedAt s e)
  · rw [receive_resumedAt]
    rw [← journal_of_link hl] at he
    exact .inr (Halted.mono (.paused he hle) (Carries.receive s _).journal)

theorem drifts (h : Backed s a) (hd : s.Drifts t) : Backed t a := by
  refine .of_rooted (h.rooted.drifts hd) fun hp => ?_
  rw [hd.core] at hp
  exact h.halts (.drifts hd) hp (by rw [hd.core])

end Backed

end Session

namespace Debugger
variable {s u : Debugger} {config : Session.Config}

end Debugger
end MobDebug
