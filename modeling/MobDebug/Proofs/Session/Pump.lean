import MobDebug.Proofs.Channel.Causes
import MobDebug.Proofs.Session.Attachment
import MobDebug.Proofs.Session.Ended
import MobDebug.Proofs.Session.Pairing

/-! The pump brings the events of the connection to the session, one after the other. When it rests
while somebody still has the session, it has brought all of them, or the session has ended. -/
namespace MobDebug
open Channel (Event Outcome Run answersIn eventsIn)

namespace Channel
variable {c d : Channel} {a : Act} {p : Act → Prop} {id : Nat} {error : Error}

/-- A frame answers one command at most, with an error only if the debuggee has rejected it. -/
theorem dispatch_rejected {response : Wire.Response} (h : c.dispatch response = .ok d)
    (ha : (id, .error error) ∈ answersIn d.journal) :
    (id, .error error) ∈ answersIn c.journal ∨ error.kind = .debuggee := by
  have hanswer {accepts : Wire.CommandName → Bool} {o : Outcome} {b e : Channel}
      (hb : answersIn b.journal = answersIn c.journal)
      (he : answersIn e.journal = answersIn c.journal) (hd : (b.answer? accepts o).getD e = d)
      (ho : o = .error error → error.kind = .debuggee) :
      (id, .error error) ∈ answersIn c.journal ∨ error.kind = .debuggee := by
    cases hs : b.answer? accepts o with
    | none =>
      rw [hs, Option.getD_none] at hd
      subst hd
      rw [he] at ha
      exact .inl ha
    | some k =>
      obtain ⟨q, -, -, rfl⟩ := answer?_eq_some.1 hs
      rw [hs, Option.getD_some] at hd
      subst hd
      simp only [told_append, hb] at ha
      rcases List.mem_append.1 ha with ha | ha
      · exact .inl ha
      -- it is the reply that was given just now
      · obtain ⟨-, ho'⟩ : id = q.id ∧ .error error = o := by simpa using ha
        exact .inr (ho ho'.symm)
  cases dispatched_of_eq h with
  | output => exact .inl (by simpa [record] using ha)
  | paused _ _ ht => exact hanswer (by simp [ht, record]) (by simp [ht, record]) rfl (by simp)
  | replied => exact hanswer rfl rfl rfl (by simp)
  | rejected _ _ ht =>
    refine hanswer rfl (by simp [ht, record]) rfl ?_
    rintro ⟨⟩
    rfl

/-- A channel tells its end when it closes, and before that nobody but the debuggee rejects a
command. -/
structure Candid (c : Channel) : Prop where
  told : c.closed → ∃ error, .closed error ∈ eventsIn c.journal
  rejected : c.closed = false →
    ∀ id error, (id, .error error) ∈ answersIn c.journal → error.kind = .debuggee

theorem candid_initial : Candid {} := ⟨nofun, nofun⟩

theorem candid_submit {command : Wire.Command} (hs : c.submit command = .ok (id, d))
    (h : Candid c) : Candid d := by
  obtain ⟨line, -, -, -, rfl⟩ := submit_eq_ok hs
  refine ⟨?_, ?_⟩
  · simpa using h.told
  · simpa using h.rejected

theorem candid_fail (h : Candid c) (error : Error) : Candid (c.fail error) := by
  cases ho : c.closed with
  | true =>
    rw [fail, ho, if_pos rfl]
    exact h
  | false =>
    rw [fail_eq ho]
    exact ⟨fun _ => ⟨error, by simp [ending]⟩, by simp⟩

theorem candid_dispatch {response : Wire.Response} (hd : c.dispatch response = .ok d)
    (h : Candid c) : Candid d := by
  have hclosed := dispatch_closed hd
  constructor
  · rw [hclosed]
    intro hc
    obtain ⟨error, he⟩ := h.told hc
    obtain ⟨j, hj⟩ := run_journal (dispatch_run hd)
    refine ⟨error, ?_⟩
    rw [← hj]
    simp only [told_append]
    exact List.mem_append_left _ he
  · rw [hclosed]
    intro ho id error ha
    rcases dispatch_rejected hd ha with ha | he
    · exact h.rejected ho id error ha
    · exact he

end Channel

namespace Link
variable {l m : Link}

theorem candid_moves (hm : l.Moves m) (h : l.channel.Candid) : m.channel.Candid := by
  cases hm with
  | stay | outside | tick => exact h
  | close => exact Channel.candid_fail h _
  | task t hs =>
    cases step_went hs with
    | quiet hr =>
      obtain ⟨hclosed, hanswers, hevents⟩ := Channel.quiet_of_send hr
      constructor
      · rw [hclosed, hevents]
        exact h.told
      · rw [hclosed, hanswers]
        exact h.rejected
    | handed _ _ hd => exact Channel.candid_dispatch hd h
    | failed _ hm =>
      rw [hm]
      exact Channel.candid_fail h _

theorem candid_future (hf : l.Future m) (h : l.channel.Candid) : m.channel.Candid := by
  induction hf with
  | refl => exact h
  | tail _ hs ih =>
    cases hs with
    | move hm => exact candid_moves hm ih
    | submit hs => exact Channel.candid_submit hs ih

end Link

namespace Session
variable {s t : Session} {w : Option (Nat × Awaiting)} {l m : Link}

/-- The connection after a part of a call is the one before it, some time later. -/
theorem Uses.future (hu : Uses s t w) (hm : t.Holds m) : ∃ l, s.Holds l ∧ l.Future m := by
  cases hu with
  | unopened hs ht =>
    rcases hm with hm | ⟨-, hc⟩
    · cases hm.symm.trans ht
    · exact ⟨m, .inr ⟨hs, hc⟩, .refl⟩
  | moved hl hmoves ht =>
    rcases hm with hm | ⟨hm, -⟩
    · cases hm.symm.trans ht
      exact ⟨_, hl, .single (.move hmoves)⟩
    · cases hm.symm.trans ht
  | asked hl hs ht =>
    rcases hm with hm | ⟨hm, -⟩
    · cases hm.symm.trans ht
      exact ⟨_, hl, .single (.submit hs)⟩
    · cases hm.symm.trans ht

/-- The events that the connection has told so far. -/
abbrev brought (s : Session) : List Channel.Event := eventsIn s.journal

theorem events_of_link (hl : s.link = some l) : l.channel.events = s.brought := by
  rw [Channel.events_eq, brought, journal_of_link hl]

theorem Carries.brought (h : s.Carries t) : s.brought <+: t.brought := by
  obtain ⟨j, hj⟩ := h.journal
  refine ⟨eventsIn j, ?_⟩
  rw [Session.brought, Session.brought, ← hj]
  exact Channel.told_append.symm

end Session

namespace Debugger
variable {s u : Debugger} {l m : Link}

theorem holds_turn (ht : Turn s u) (hm : u.session.Holds m) :
    ∃ l, s.session.Holds l ∧ l.Future m := by
  have hdrift {t : Session} (hd : t.Drifts u.session) : ∃ k, t.Holds k ∧ k.Future m := by
    obtain ⟨k, hk, hmoves⟩ := hm.drifts hd
    exact ⟨k, hk, .single (.move hmoves)⟩
  have huses {t : Session} {w : Option (Nat × Session.Awaiting)} (hu : Session.Uses s.session t w)
      (hd : t.Drifts u.session) : ∃ l, s.session.Holds l ∧ l.Future m := by
    obtain ⟨k, hk, hfuture⟩ := hdrift hd
    obtain ⟨l, hl, hfuture'⟩ := hu.future hk
    exact ⟨l, hl, hfuture'.trans hfuture⟩
  cases ht with
  | drift _ hd => exact hdrift hd
  | receive _ _ _ hu =>
    refine ⟨m, ?_, .refl⟩
    rwa [hu, Session.Holds, Session.receive_link] at hm
  | begin _ _ hb hd => exact huses (Session.uses_began hb) hd
  | resume _ _ ho hc hd =>
    obtain ⟨l, hl, -⟩ := Option.bind_eq_some_iff.1 ho
    exact huses (Session.uses_continued hl hc) hd

/-- Every connection began with a new channel. -/
theorem opened_reachable (h : Reachable s) (hm : s.session.Holds m) :
    ∃ l : Link, l.channel = {} ∧ l.Future m := by
  induction h generalizing m with
  | new config =>
    rcases hm with hm | ⟨-, hc⟩
    · cases hm
    · exact ⟨m, hc, .refl⟩
  | step _ hs ih =>
    obtain ⟨k, hk, hfuture⟩ := holds_turn (step_turn hs) hm
    obtain ⟨l, hl, hfuture'⟩ := ih hk
    exact ⟨l, hl, hfuture'.trans hfuture⟩

theorem candid_reachable (h : Reachable s) (hl : s.session.link = some l) : l.channel.Candid := by
  obtain ⟨k, hk, hfuture⟩ := opened_reachable h (.inl hl)
  refine Link.candid_future hfuture ?_
  rw [hk]
  exact Channel.candid_initial

/-- What a command has ended with it keeps. -/
theorem outcome_future {id : Nat} {o : Channel.Outcome} (h : Reachable s) (hf : Future s u)
    (ho : s.session.outcome? id = some o) : u.session.outcome? id = some o := by
  have hanswer := Session.answer_of_outcome (guarded_reachable h) ho
  obtain ⟨l, hl, -⟩ := Option.bind_eq_some_iff.1 ho
  obtain ⟨m, hm, hfuture⟩ := carries_future hf l hl
  rw [Session.journal_of_link hl] at hanswer
  rw [Session.outcome?_of_link hm]
  exact (guarded_reachable (h.future hf) m hm).ledger.outcome?_eq_some.2
    (Channel.answersIn_mono hfuture.journal hanswer)

/-- What a step does about the events of the connection: it leaves them where they are, in the turn
of a job or while the session learns nothing, or the pump brings the next one. A pump that finds
that nobody has the session any more stops. -/
inductive Pumps (s u : Debugger) : Prop where
  | job (n : Nat) (h : s.step? (.job n) = some u) (hp : u.pumped = s.pumped)
      (hw : u.pumping = s.pumping) (hg : s.gone → u.gone)
  | drift (ha : u.awaits = s.awaits) (hd : s.session.Drifts u.session)
      (hp : u.pumped = s.pumped) (hw : u.pumping = s.pumping ∨ u.gone) (hg : s.gone → u.gone)
  | brings (e : Channel.Event)
      (hu : u = { s with
        session := s.session.receive e, pumped := s.pumped + 1, pumping := !e matches .closed _ })
      (hg : s.gone = false) (he : s.session.brought[s.pumped]? = some e)

theorem release_pump (s : Debugger) :
    s.release.pumped = s.pumped ∧ s.release.pumping = s.pumping ∧ (s.gone → s.release.gone) := by
  unfold release
  split
  · exact ⟨rfl, rfl, id⟩
  · exact ⟨rfl, rfl, fun _ => rfl⟩

theorem step_pumps (hs : Step s u) : Pumps s u := by
  cases hs with
  | task task h =>
    cases taskTurn h with
    | link hl hm => exact .drift rfl (.moved hl (.task _ hm)) rfl (.inl rfl) id
    | refused hl hm => exact .drift rfl (.refusedMoved hl (.task _ hm)) rfl (.inl rfl) id
    | stops _ _ hg => exact .drift rfl (.refl _) rfl (.inr hg) id
    | brings hl he hg =>
      rw [Session.events_of_link hl] at he
      exact .brings _ rfl hg he
    | @job n _ job' session text =>
      obtain ⟨hp, hw, hg⟩ :=
        ({ s with session, out := s.out ++ text }.setJob n job').release_pump
      exact .job n h hp hw hg
  | begin id _ hid hj =>
    exact .drift (awaits_begin hid (Job.New.awaiting? hj)) (.refl _) rfl (.inl rfl) fun hg => hg
  | type => exact .drift (awaits_onConsole fun _ => rfl) (.refl _) rfl (.inl rfl) id
  | endInput => exact .drift (awaits_onConsole fun _ => rfl) (.refl _) rfl (.inl rfl) id
  | drop =>
    obtain ⟨hp, hw, hg⟩ := release_pump { s with held := false }
    exact .drift (awaits_release _) (drifts_release { s with held := false }) hp (.inl hw) hg
  | outside stream hl h => exact .drift rfl (.moved hl (.outside stream h)) rfl (.inl rfl) id
  | outsideRefused i stream hl h =>
    exact .drift rfl (.refusedMoved hl (.outside stream h)) rfl (.inl rfl) id
  | tick now hl h => exact .drift rfl (.moved hl (.tick now h)) rfl (.inl rfl) id

/-- The pump has brought the first of the events, and it stops only at the end: where it has
brought the end of the connection the session has ended. -/
structure Pumped (s : Debugger) : Prop where
  count : s.pumped ≤ s.session.brought.length
  stopped : s.pumping = false → s.gone ∨ s.session.core.ended
  closed : ∀ error, .closed error ∈ s.session.brought.take s.pumped → s.session.core.ended

theorem ended_of_closed (s : Session) (error : Error) : (s.receive (.closed error)).core.ended := by
  change s.connectionLost.core.ended
  rcases s.connectionLost_cases with ⟨he, h⟩ | ⟨-, h⟩ <;> rw [h]
  · exact he
  · rfl

theorem ended_step (hs : Step s u) (h : Reachable s) (he : s.session.core.ended) :
    u.session.core.ended :=
  ((ended_turn (standing_reachable h) he (step_turn hs)).1).ended

theorem pumped_step (hs : Step s u) (hr : Reachable s) (h : Pumped s) : Pumped u := by
  obtain ⟨j, hj⟩ := (carries_turn (step_turn hs)).brought
  have hended := ended_step hs hr
  -- events are only added behind those there are
  have htake {n : Nat} (hn : n ≤ s.session.brought.length) :
      u.session.brought.take n = s.session.brought.take n := by
    rw [← hj, List.take_append_of_le_length hn]
  have hrest (hp : u.pumped = s.pumped) (hw : u.pumping = s.pumping ∨ u.gone)
      (hg : s.gone → u.gone) : Pumped u := by
    constructor
    · rw [hp, ← hj, List.length_append]
      exact Nat.le_add_right_of_le h.count
    · intro hstop
      rcases hw with hw | hw
      · exact (h.stopped (hw ▸ hstop)).imp hg hended
      · exact .inl hw
    · rw [hp, htake h.count]
      intro error he
      exact hended (h.closed error he)
  cases step_pumps hs with
  | job n _ hp hw hg => exact hrest hp (.inl hw) hg
  | drift _ _ hp hw hg => exact hrest hp hw hg
  | brings e hu hg he =>
    obtain ⟨hlt, hget⟩ := List.getElem?_eq_some_iff.1 he
    have hcount : u.pumped = s.pumped + 1 := by rw [hu]
    constructor
    · rw [hcount, ← hj, List.length_append]
      omega
    · intro hstop
      cases e with
      | closed error =>
        refine .inr ?_
        rw [hu]
        exact ended_of_closed _ error
      | _ =>
        rw [hu] at hstop
        cases hstop
    · rw [hcount, htake hlt, List.take_succ_eq_append_getElem hlt, hget]
      intro error hmem
      rcases List.mem_append.1 hmem with hmem | hmem
      · exact hended (h.closed error hmem)
      · obtain rfl := List.mem_singleton.1 hmem
        rw [hu]
        exact ended_of_closed _ error

theorem pumped_reachable (h : Reachable s) : Pumped s := by
  induction h with
  | new config => exact ⟨Nat.le_refl _, nofun, nofun⟩
  | step hr hs ih => exact pumped_step hs hr ih

/-- A pump that rests has brought all events, unless the session is given up. -/
theorem pumped_all (h : Reachable s) (hp : s.step? .pump = none) (hg : s.gone = false)
    (he : s.session.core.ended = false) : s.pumped = s.session.brought.length := by
  have hpumped := pumped_reachable h
  have hpumping : s.pumping = true := by
    rw [← Bool.not_eq_false]
    intro hstop
    rcases hpumped.stopped hstop with hgone | hended
    · exact absurd (hg.symm.trans hgone) nofun
    · exact absurd (he.symm.trans hended) nofun
  refine Nat.le_antisymm hpumped.count ?_
  by_contra hlt
  change s.pumpStep? = none at hp
  cases hl : s.session.link with
  | none => simp [Session.brought, Session.journal, hl] at hlt
  | some l =>
    rw [pumpStep?, hpumping, hl] at hp
    simp only [Bool.not_true, Bool.false_eq_true, if_false, Option.bind_some,
      Option.map_eq_none_iff, Session.events_of_link hl, List.getElem?_eq_none_iff] at hp
    exact hlt hp

/-- Every task waits. -/
def Quiet (s : Debugger) : Prop := ∀ t, s.step? t = none

theorem quiet_of_tasks (hl : s.session.link = some l) (ht : ∀ t, l.step? t = none)
    (hn : s.session.refused = []) (hp : s.step? .pump = none)
    (hj : s.jobs.all fun j => (s.jobStep? j.2).isNone) : s.Quiet := by
  intro t
  cases t with
  | link t =>
    rw [step?, hl, Option.bind_some, ht]
    rfl
  | refused i t =>
    rw [step?, hn, List.getElem?_nil]
    rfl
  | pump => exact hp
  | job n =>
    refine Option.bind_eq_none_iff.2 fun job hjob => ?_
    have hnone := List.all_eq_true.1 hj _ (mem_of_lookup hjob)
    exact Option.map_eq_none_iff.2 (Option.isNone_iff_eq_none.1 hnone)

theorem quiet_of_waits (hl : s.session.link = some l) (ho : l.channel.closed = false)
    (hr : l.readerStep? = none) (hw : l.writerStep? = none) (hd : l.stream.debuggeeStep? = none)
    (ht : ∀ w ∈ l.watchdogs, l.now < w.deadline) (hn : s.session.refused = [])
    (hp : s.step? .pump = none) (hj : s.jobs.all fun j => (s.jobStep? j.2).isNone) : s.Quiet := by
  refine quiet_of_tasks hl (fun t => ?_) hn hp hj
  cases t with
  | reader => exact hr
  | writer => exact hw
  | watchdog id =>
    refine Option.bind_eq_none_iff.2 fun w hfind => ?_
    have hlt := ht w (List.mem_of_find?_eq_some hfind)
    rw [ho, if_neg Bool.false_ne_true, if_neg (Nat.not_le_of_lt hlt)]
  | debuggee => exact Option.map_eq_none_iff.2 hd

/-- A session that somebody still has has ended when its connection is closed and the pump rests. -/
theorem ended_of_rest (h : Reachable s) (hl : s.session.link = some l) (hc : l.channel.closed)
    (hp : s.step? .pump = none) (hg : s.gone = false) : s.session.core.ended := by
  by_contra he
  rw [Bool.not_eq_true] at he
  obtain ⟨error, htold⟩ := (candid_reachable h hl).told hc
  rw [← Session.journal_of_link hl] at htold
  have hended := (pumped_reachable h).closed error
  rw [pumped_all h hp hg he, List.take_length] at hended
  exact absurd (he.symm.trans (hended htold)) nofun

end Debugger
end MobDebug
