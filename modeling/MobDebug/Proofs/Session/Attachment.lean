import MobDebug.Proofs.Session.Phase

/-! A session has one connection: it is never replaced, and a stream that comes later is refused
without a byte written to it. -/
namespace MobDebug
open Session (Awaiting Breakpoint Greeted Began Continued)
open Channel (Outcome)

namespace Link
variable {l m : Link}

/-- What may happen to a connection that is kept: it goes on by itself, or it gets a command. -/
inductive Acts (l : Link) : Link → Prop where
  | move {m : Link} (h : l.Moves m) : Acts l m
  | submit {command : Wire.Command} {id : Nat} {c : Channel}
      (h : l.channel.submit command = .ok (id, c)) : Acts l { l with channel := c }

/-- What a connection may come to. -/
abbrev Future : Link → Link → Prop := Relation.ReflTransGen Acts

theorem Future.journal (h : l.Future m) : l.channel.journal <+: m.channel.journal := by
  induction h with
  | refl => exact List.prefix_rfl
  | tail _ hs ih =>
    refine ih.trans ?_
    cases hs with
    | move hm => exact Channel.run_journal hm.run
    | submit hs =>
      obtain ⟨line, -, -, -, rfl⟩ := Channel.submit_eq_ok hs
      exact List.prefix_append _ _

theorem closed_future (hf : l.Future m) (hc : l.channel.closed) : m.channel.closed := by
  induction hf with
  | refl => exact hc
  | tail _ hs ih =>
    cases hs with
    | move hm => exact Channel.closed_run hm.run ih
    | submit hs => exact Channel.closed_run ((Channel.submit_step hs).run rfl) ih

/-- Nothing is written on a closed connection. -/
theorem moves_closed (h : l.Moves m) (hc : l.channel.closed) :
    m.channel.closed ∧ m.stream.written = l.stream.written := by
  refine ⟨Channel.closed_run h.run hc, ?_⟩
  cases h with
  | stay | tick | close => rfl
  | outside stream h => exact h
  | task t h => exact written_of_closed h hc

end Link

namespace Session
variable {s t u : Session} {l : Link} {id : Nat} {bs : List Breakpoint} {awaiting : Awaiting}
  {o : Outcome} {p : Progress}

/-- The connection is kept. -/
def Carries (s t : Session) : Prop :=
  ∀ l, s.link = some l → ∃ m, t.link = some m ∧ l.Future m

namespace Carries

theorem of_eq (h : t.link = s.link) : s.Carries t := by
  intro l hl
  exact ⟨l, h.trans hl, .refl⟩

theorem trans (h : s.Carries t) (h' : t.Carries u) : s.Carries u := by
  intro l hl
  obtain ⟨m, hm, hf⟩ := h l hl
  obtain ⟨k, hk, hg⟩ := h' m hm
  exact ⟨k, hk, hf.trans hg⟩

theorem drifts (h : s.Drifts t) : s.Carries t := by
  intro l hl
  obtain ⟨m, hm, hf⟩ := h.link_some hl
  exact ⟨m, hm, .single (.move hf)⟩

theorem close (s : Session) : s.Carries s.close := drifts (.close s)

theorem submit {operation : Operation} {command : Wire.Command}
    (h : s.submit operation command = .ok (id, t)) : s.Carries t := by
  obtain ⟨m, c, hm, hs, rfl⟩ := submit_eq_ok h
  intro l hl
  cases hm.symm.trans hl
  exact ⟨_, rfl, .single (.submit hs)⟩

theorem terminate (s : Session) : s.Carries s.terminate := by
  have h : s.Carries (s.ending .terminated) := of_eq rfl
  exact h.trans (close _)

theorem connectionLost (s : Session) : s.Carries s.connectionLost := by
  rcases s.connectionLost_cases with ⟨-, he⟩ | ⟨-, he⟩
  · exact of_eq (by rw [he])
  · exact of_eq (by rw [he]; rfl)

theorem enterPaused (s : Session) (location : Wire.Location) (after : Nat) :
    s.Carries (s.enterPaused location after) := by
  rcases s.enterPaused_cases location after with he | ⟨-, -, he⟩
  · exact of_eq (by rw [he])
  · exact of_eq (by rw [he]; rfl)

theorem receive (s : Session) (e : Channel.Event) : s.Carries (s.receive e) := by
  cases e with
  | paused location after => exact enterPaused s location after
  | output | debuggeeError => exact of_eq rfl
  | closed => exact connectionLost s

theorem greeted (hg : Greeted s bs t p) : s.Carries t := by
  cases hg with
  | done => exact of_eq rfl
  | told hs => exact submit hs
  | broken => exact terminate s

theorem began (hb : Began s t p) : s.Carries t := by
  have hnone (h : s.link = none) : s.Carries t := by
    intro l hl
    cases h.symm.trans hl
  have hover {t : Session} (h : s.Carries t) (last : State) : s.Carries (t.ending last) :=
    h.trans (of_eq rfl)
  cases hb with
  | idle | refused | selected => exact of_eq rfl
  | attached _ _ hl | introduced _ _ hl | recorded _ _ _ _ hl => exact hnone hl
  | edited _ _ _ _ hs => exact (submit hs).trans (of_eq rfl)
  | resumed _ _ _ hs => exact (submit hs).trans (of_eq rfl)
  | asked _ _ _ hs => exact submit hs
  | leaving _ _ _ hs => exact hover (submit hs) _
  | left => exact (hover (of_eq rfl) _).trans (close _)

theorem continued (hc : Continued s id awaiting o t p) : s.Carries t := by
  cases hc with
  | greeted hg => exact greeted hg
  | @dropped current _ _ message _ _ hg =>
    have hd : s.Carries (s.dropping current message) := of_eq rfl
    exact hd.trans (greeted hg)
  | broken => exact terminate s
  | resumed | moved | spoilt | failed | asked | reverted | confirmed | undone => exact of_eq rfl
  | lost => exact connectionLost s
  | paused => exact enterPaused s _ _
  | finished => exact close s

end Carries

theorem Carries.journal (h : s.Carries t) : s.journal <+: t.journal := by
  cases hl : s.link with
  | none =>
    rw [Session.journal, hl]
    exact List.nil_prefix
  | some l =>
    obtain ⟨m, hm, hf⟩ := h l hl
    rw [journal_of_link hl, journal_of_link hm]
    exact hf.journal

theorem answer_of_outcome (hg : Guarded s) (h : s.outcome? id = some o) :
    (id, o) ∈ Channel.answersIn s.journal := by
  obtain ⟨l, hl, ho⟩ := Option.bind_eq_some_iff.1 h
  rw [journal_of_link hl]
  exact (hg l hl).ledger.outcome?_eq_some.1 ho

theorem submit_refused {operation : Operation} {command : Wire.Command}
    (h : s.submit operation command = .ok (id, t)) : t.refused = s.refused := by
  obtain ⟨l, c, -, -, rfl⟩ := submit_eq_ok h
  rfl

theorem greeted_refused (hg : Greeted s bs t p) : t.refused = s.refused := by
  cases hg with
  | done | broken => rfl
  | told hs => exact submit_refused hs

/-- A call that begins refuses one stream at most. -/
theorem began_refused (hb : Began s t p) :
    t.refused = s.refused ∨
      ∃ l : Link, l.channel.closed ∧ t.refused = s.refused ++ [l] := by
  cases hb with
  | refused stream => exact .inr ⟨(s.opened stream).fail .channelClosed, rfl, rfl⟩
  | attached _ _ _ hg =>
    have hr := greeted_refused hg
    exact .inl hr
  | introduced _ _ _ _ hs | edited _ _ _ _ hs | resumed _ _ _ hs | asked _ _ _ hs
  | leaving _ _ _ hs =>
    have hr := submit_refused hs
    exact .inl hr
  | idle | recorded | selected | left => exact .inl rfl

theorem connectionLost_refused (s : Session) : s.connectionLost.refused = s.refused := by
  rcases s.connectionLost_cases with ⟨-, he⟩ | ⟨-, he⟩
  · rw [he]
  · rw [he]
    rfl

theorem enterPaused_refused (s : Session) (location : Wire.Location) (after : Nat) :
    (s.enterPaused location after).refused = s.refused := by
  rcases s.enterPaused_cases location after with he | ⟨-, -, he⟩
  · rw [he]
  · rw [he]
    rfl

theorem receive_refused (s : Session) (e : Channel.Event) : (s.receive e).refused = s.refused := by
  cases e with
  | paused location after => exact enterPaused_refused s location after
  | output | debuggeeError => rfl
  | closed => exact connectionLost_refused s

theorem continued_refused (hc : Continued s id awaiting o t p) : t.refused = s.refused := by
  cases hc with
  | greeted hg => exact greeted_refused hg
  | dropped hg =>
    have hr := greeted_refused hg
    exact hr
  | lost => exact connectionLost_refused s
  | paused => exact enterPaused_refused s _ _
  | _ => rfl

end Session

namespace Debugger
variable {s u : Debugger} {l : Link} {i : Nat}

theorem carries_turn (ht : Turn s u) : s.session.Carries u.session := by
  cases ht with
  | drift _ hd => exact .drifts hd
  | receive _ _ _ hu =>
    rw [hu]
    exact .receive _ _
  | begin _ _ hb hd => exact (Session.Carries.began hb).trans (.drifts hd)
  | resume _ _ _ hc hd => exact (Session.Carries.continued hc).trans (.drifts hd)

theorem carries_future (hf : Future s u) : s.session.Carries u.session := by
  induction hf with
  | refl => exact .of_eq rfl
  | tail _ hs ih => exact ih.trans (carries_turn (step_turn hs))

/-- A stream that was refused keeps its place. -/
theorem refused_turn (ht : Turn s u) (hl : s.session.refused[i]? = some l) :
    ∃ m, u.session.refused[i]? = some m ∧ l.Moves m := by
  cases ht with
  | drift _ hd => exact hd.refused_some hl
  | receive _ _ _ hu =>
    rw [hu, Session.receive_refused]
    exact ⟨l, hl, .stay⟩
  | begin _ _ hb hd =>
    apply hd.refused_some
    rcases Session.began_refused hb with he | ⟨k, -, he⟩
    · rw [he, hl]
    · obtain ⟨hi, -⟩ := List.getElem?_eq_some_iff.1 hl
      rw [he, List.getElem?_append_left hi, hl]
  | resume _ _ _ hc hd =>
    apply hd.refused_some
    rw [Session.continued_refused hc, hl]

theorem refused_closed_turn (ht : Turn s u) (h : ∀ l ∈ s.session.refused, l.channel.closed) :
    ∀ l ∈ u.session.refused, l.channel.closed := by
  have hdrifts {t : Session} (ht : ∀ l ∈ t.refused, l.channel.closed)
      (hd : t.Drifts u.session) : ∀ l ∈ u.session.refused, l.channel.closed := by
    intro m hm
    obtain ⟨l, hl, hm⟩ := hd.refused_mem hm
    exact (Link.moves_closed hm (ht l hl)).1
  cases ht with
  | drift _ hd => exact hdrifts h hd
  | receive _ _ _ hu =>
    rw [hu, Session.receive_refused]
    exact h
  | @begin _ t _ _ hb hd =>
    refine hdrifts (t := t) ?_ hd
    rcases Session.began_refused hb with he | ⟨k, hk, he⟩ <;> rw [he]
    · exact h
    · intro l hl
      rcases List.mem_append.1 hl with hl | hl
      · exact h l hl
      · rw [List.mem_singleton.1 hl]
        exact hk
  | @resume _ _ _ _ t _ _ _ hc hd =>
    refine hdrifts (t := t) ?_ hd
    rw [Session.continued_refused hc]
    exact h

theorem refused_closed (h : Reachable s) : ∀ l ∈ s.session.refused, l.channel.closed := by
  induction h with
  | new config =>
    intro l hl
    exact absurd hl List.not_mem_nil
  | step _ hs ih => exact refused_closed_turn (step_turn hs) ih

/-- Nothing is ever written to a stream that was refused. -/
theorem refused_silent (h : Reachable s) (hf : Future s u) (hl : s.session.refused[i]? = some l) :
    ∃ m, u.session.refused[i]? = some m ∧ m.stream.written = l.stream.written := by
  induction hf with
  | refl => exact ⟨l, hl, rfl⟩
  | tail hf hs ih =>
    obtain ⟨m, hm, hw⟩ := ih
    obtain ⟨k, hk, hmoves⟩ := refused_turn (step_turn hs) hm
    have hc := refused_closed (h.future hf) m (List.mem_of_getElem? hm)
    exact ⟨k, hk, (Link.moves_closed hmoves hc).2.trans hw⟩

end Debugger

namespace Session
variable {s : Session}

/-- A session that has ended or has a connection refuses a stream, and learns nothing. -/
theorem attach_refused (h : s.core.ended ∨ s.link.isSome) (stream : Stream) :
    s.attach stream = (s.refusing stream, .finished (.error (s.invalid .attach))) := by
  unfold attach
  rw [if_pos (Bool.or_eq_true _ _ ▸ h)]
  rfl

/-- What a call does that takes a session. -/
theorem attach_new (hl : s.link = none) (he : s.core.ended = false) (stream : Stream) :
    s.attach stream = match s.config.baseDir with
      | none => (s.installed stream).greet s.core.breakpoints
      | some dir =>
        match (s.installed stream).submit .attach { name := .baseDir, args := dir } with
        | .ok (id, t) => (t, .waiting id (.attach none t.core.breakpoints))
        | .error e => ((s.installed stream).terminate, .finished (.error e)) := by
  rw [attach, he, hl, Option.isSome_none, Bool.or_false, if_neg Bool.false_ne_true]
  rfl

/-- A session without a connection takes the stream, and keeps it. -/
theorem attach_opened (hl : s.link = none) (he : s.core.ended = false) (stream : Stream) :
    ∃ m, (s.attach stream).1.link = some m ∧ (s.opened stream).Future m := by
  have hcarries {t : Session} (h : (s.installed stream).Carries t) :
      ∃ m, t.link = some m ∧ (s.opened stream).Future m := h _ rfl
  rw [attach_new hl he]
  split
  · exact hcarries (.greeted (greet_greeted _ _))
  · split
    · next hs => exact hcarries (.submit hs)
    · exact hcarries (.terminate _)

theorem attach_taken (hl : s.link = none) (he : s.core.ended = false) (stream : Stream) :
    (s.attach stream).1.link.isSome := by
  obtain ⟨m, hm, -⟩ := attach_opened hl he stream
  rw [hm]
  rfl

theorem isLive_iff (state : State) :
    state.isLive ↔ state = .running ∨ state = .paused ∨ state = .stepping := by
  cases state <;> decide

theorem Phase.located (h : s.Phase) : s.core.location.isSome ↔ s.core.state = .paused := by
  cases h with
  | new _ _ hs hp => rw [hs, hp]; exact iff_of_false nofun nofun
  | live _ _ _ hp => exact hp
  | past _ _ hs hp =>
    rw [hp]
    refine iff_of_false nofun ?_
    intro h
    rw [h] at hs
    cases hs

theorem Phase.live_iff (h : s.Phase) :
    s.core.state.isLive ↔ s.link.isSome ∧ s.core.ended = false := by
  cases h with
  | new hl _ hs => rw [hs, hl]; exact iff_of_false nofun nofun
  | live hl he hs => exact iff_of_true hs ⟨hl, he⟩
  | past _ he hs =>
    rw [not_isLive_of_isOver hs, he]
    exact iff_of_false nofun nofun

theorem Phase.ended_of_terminated (h : s.Phase) (hs : s.core.state = .terminated) :
    s.core.ended := by
  cases h with
  | new _ _ st => exact absurd (hs.symm.trans st) nofun
  | live _ _ st =>
    rw [hs] at st
    cases st
  | past _ he => exact he

theorem Phase.new_iff (h : s.Phase) :
    s.core.state = .disconnected ∧ s.core.ended = false ↔ s.link = none := by
  cases h with
  | new hl he hs => exact iff_of_true ⟨hs, he⟩ hl
  | live hl he hs =>
    refine iff_of_false ?_ (Option.isSome_iff_ne_none.1 hl)
    rintro ⟨st, -⟩
    rw [st] at hs
    cases hs
  | past hl he =>
    refine iff_of_false ?_ (Option.isSome_iff_ne_none.1 hl)
    rintro ⟨-, hn⟩
    exact absurd (hn.symm.trans he) nofun

end Session

namespace Debugger
variable {s u : Debugger}

/-- A call that attaches takes the session if it has no connection, and is refused otherwise. -/
theorem attach_step {n : Nat} {stream : Stream} {keeps : Bool} (hp : s.session.Phase)
    (hj : s.jobs.lookup n = some (.call (.attach stream) keeps)) (hu : s.step? (.job n) = some u) :
    (s.session.link = none ∧ u.session.link.isSome) ∨
    (s.session.link.isSome ∧
      u = ({ s with session := s.session.refusing stream }.setJob n
        (.ended (.answer (.error (.invalidState .attach s.session.core.state))))).release) := by
  obtain ⟨job, session, job', text, hj', hs, rfl⟩ := jobStep_eq_some hu
  cases hj.symm.trans hj'
  obtain ⟨hsession, hjob⟩ : (s.session.attach stream).1 = session ∧
      callJob keeps (s.session.attach stream).2 = job' ∧ "" = text := by
    simpa only [jobStep?, Session.start, Option.some.injEq, Prod.mk.injEq] using hs
  obtain ⟨hjob, rfl⟩ := hjob
  cases hl : s.session.link with
  | none =>
    have htaken := Session.attach_taken hl (hp.new_iff.2 hl).2 stream
    rw [hsession] at htaken
    obtain ⟨l, hl⟩ := Option.isSome_iff_exists.1 htaken
    obtain ⟨m, hm, -⟩ :=
      (drifts_release ({ s with session, out := s.out ++ "" }.setJob n job')).link_some hl
    exact .inl ⟨rfl, by rw [hm]; rfl⟩
  | some l =>
    have hrefused := Session.attach_refused (.inr (by rw [hl]; rfl)) stream
    rw [hrefused] at hsession hjob
    subst hsession hjob
    rw [String.append_empty]
    exact .inr ⟨rfl, rfl⟩

/-- The fields of a session agree at any moment: it has a location just in a pause, it is live just
while it has a connection that it has not given up, and it is as it was made until it has one. The
connection it gets stays its connection. A call that attaches gets it if there is none; otherwise
the call ends with an error, nothing changes but that the stream is among those refused, and no byte
is ever written to one of these. -/
theorem single_connection (h : Reachable s) :
    (s.session.core.location.isSome ↔ s.session.core.state = .paused) ∧
    (s.session.core.state = .running ∨ s.session.core.state = .paused ∨
        s.session.core.state = .stepping ↔
      s.session.link.isSome ∧ s.session.core.ended = false) ∧
    (s.session.core.state = .terminated → s.session.core.ended) ∧
    (s.session.core.state = .disconnected ∧ s.session.core.ended = false ↔
      s.session.link = none) ∧
    (∀ u, Future s u → ∀ l, s.session.link = some l →
      ∃ m, u.session.link = some m ∧ l.Future m) ∧
    (∀ n stream keeps, s.jobs.lookup n = some (.call (.attach stream) keeps) →
      ∀ u, s.step? (.job n) = some u →
        (s.session.link = none ∧ u.session.link.isSome) ∨
        (s.session.link.isSome ∧
          u = ({ s with session := s.session.refusing stream }.setJob n
            (.ended (.answer (.error (.invalidState .attach s.session.core.state))))).release)) ∧
    ∀ (i : Nat) (l : Link), s.session.refused[i]? = some l → ∀ u, Future s u →
      ∃ m, u.session.refused[i]? = some m ∧ m.stream.written = l.stream.written := by
  have hp := (standing_reachable h).phase
  refine ⟨hp.located, ?_, hp.ended_of_terminated, hp.new_iff, fun u hf => carries_future hf, ?_, ?_⟩
  · rw [← Session.isLive_iff]
    exact hp.live_iff
  · intro n stream keeps hj u hu
    exact attach_step hp hj hu
  · intro i l hl u hf
    exact refused_silent h hf hl

/-- Two calls attach, and the program pauses before the second of them has its turn. -/
theorem single_connection_twice : ∃ s u, Reachable s ∧ s.session.core.state = .paused ∧
    s.session.core.location.isSome ∧ s.step? (.job 1) = some u ∧
    u.session.core = s.session.core ∧
    u.jobs.lookup 1 = some (.ended (.answer (.error (.invalidState .attach .paused)))) ∧
    ∀ v, Future u v → v.session.link.isSome ∧
      ∃ m, v.session.refused[0]? = some m ∧ m.stream.written = [] := by
  have h : Reachable (.new {}) := .new {}
  have h := h.step (.begin 0 rfl rfl (.call (.attach {}) true))
  have h := h.step (.begin 1 rfl rfl (.call (.attach {}) true))
  have h := h.step (.task (.job 0) rfl)
  have h := h.step (.outside { arriving := Text.bytes "202 Paused 7\na.lua 1" } rfl rfl)
  have h := h.step (.task (.link .reader) rfl)
  have h := h.step (.task (.link .reader) rfl)
  have h := h.step (.task .pump rfl)
  have h' := h.step (.task (.job 1) rfl)
  obtain ⟨hlocated, -, -, -, -, hattach, -⟩ := single_connection h
  obtain ⟨-, -, -, -, hkept, -, hsilent⟩ := single_connection h'
  rcases hattach 1 {} true rfl _ rfl with ⟨hl, -⟩ | ⟨-, hu⟩
  · exact absurd hl (Option.some_ne_none _)
  refine ⟨_, _, h, rfl, hlocated.2 rfl, rfl, congrArg (·.session.core) hu,
    congrArg (·.jobs.lookup 1) hu, ?_⟩
  intro v hv
  obtain ⟨m, hm, -⟩ := hkept v hv _ rfl
  obtain ⟨k, hk, hw⟩ := hsilent 0 _ rfl v hv
  exact ⟨Option.isSome_of_eq_some hm, k, hk, hw⟩

end Debugger
end MobDebug
