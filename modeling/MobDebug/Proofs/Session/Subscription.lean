import MobDebug.Proofs.Session.Pump
import MobDebug.Proofs.Session.Rollback
import MobDebug.Proofs.Session.Shown
import Mathlib.Data.List.Sort

/-! A subscriber of a session that is there from the start and never lags. It knows the state, the
frame and the location at any moment, and the breakpoints whenever no edit is under way, unless an
edit that it was shown has been taken back without a word. -/
namespace MobDebug
open Channel (answersIn)
open Session (Awaiting Breakpoint Config Core Event Informs Ordered Snapshot shownBy)

namespace Broadcast
variable {α : Type} {b : Broadcast α} {n m : Nat} {a : α}

theorem receive_message (h : b.receive n = some (.message a, m)) :
    b.sent[n]? = some a ∧ m = n + 1 := by
  unfold receive at h
  dsimp only at h
  split at h
  · cases h
  · obtain ⟨a', ha, h⟩ := Option.map_eq_some_iff.1 h
    cases h
    exact ⟨ha, rfl⟩

theorem receive_none (h : b.receive n = none) : b.sent.length ≤ n := by
  unfold receive at h
  dsimp only at h
  split at h
  · cases h
  · exact List.getElem?_eq_none_iff.1 (Option.map_eq_none_iff.1 h)

end Broadcast

namespace Session
variable {s t : Session} {b : Breakpoint} {bs cs : List Breakpoint}
  {slip : Breakpoint → Bool → Prop} {quiet : Prop}

instance : Std.Irrefl fun a b : Breakpoint => (a.before b : Prop) where
  irrefl a := by simp [Breakpoint.before_irrefl]

instance : Std.Antisymm fun a b : Breakpoint => (a.before b : Prop) where
  antisymm a b h h' := by
    have hirrefl := Breakpoint.before_trans h h'
    rw [Breakpoint.before_irrefl] at hirrefl
    cases hirrefl

/-- In order, the breakpoints are determined by which they are. -/
theorem Ordered.ext (h : Ordered bs) (h' : Ordered cs) (hm : ∀ b, b ∈ bs ↔ b ∈ cs) : bs = cs :=
  List.Pairwise.eq_of_mem_iff h h' hm

/-- The subscribers know all but the breakpoints, and they know those in order. -/
structure Followed (s : Session) : Prop where
  state : s.shown.state = s.core.state
  frame : s.shown.frame = s.core.frame
  location : s.shown.location = s.core.location
  ordered : Ordered s.shown.breakpoints

theorem Followed.informs (h : s.Followed) (hi : Informs slip quiet s t) (ht : t.Sorted) :
    t.Followed := by
  cases hi with
  | tells _ he => exact ⟨by rw [he]; rfl, by rw [he]; rfl, by rw [he]; rfl, by rw [he]; exact ht⟩
  | keeps _ _ he hc =>
    constructor <;> rw [he]
    · rw [hc, h.state]
    · rw [hc, h.frame]
    · rw [hc, h.location]
    · exact h.ordered
  | slips _ he hc =>
    constructor <;> rw [shown_of_events he]
    · rw [hc, h.state]
      rfl
    · rw [hc, h.frame]
      rfl
    · rw [hc, h.location]
      rfl
    · exact h.ordered

/-- The subscribers know whether the breakpoint is there. -/
def Known (b : Breakpoint) (s : Session) : Prop :=
  b ∈ s.shown.breakpoints ↔ b ∈ s.core.breakpoints

theorem known_of_told (h : s.shown = s.core.snapshot) (b : Breakpoint) : s.Known b := by
  rw [Known, h]
  rfl

/-- An edit of another breakpoint is nothing to those who know this one. -/
theorem Known.marked {c : Breakpoint} {on : Bool} (h : s.Known b) (hs : s.Sorted)
    (he : t.shown = s.shown) (hc : t.core = (s.marked c on).core) (hne : b ≠ c) : t.Known b := by
  rw [Known, he, hc]
  change _ ↔ b ∈ mark c s.core.breakpoints on
  rw [mem_mark hs, if_neg hne]
  exact h

theorem Known.of_eq (h : s.Known b) (he : t.shown = s.shown) (hc : t.core = s.core) :
    t.Known b := by
  rw [Known, he, hc]
  exact h

/-- Those who know which breakpoints are there know all. -/
theorem Followed.snapshot_eq (h : s.Followed) (hs : s.Sorted) (hk : ∀ b, s.Known b) :
    s.shown = s.core.snapshot := by
  have hb : s.shown.breakpoints = s.core.breakpoints := h.ordered.ext hs hk
  calc s.shown
      = ⟨s.shown.state, s.shown.frame, s.shown.location, s.shown.breakpoints⟩ := rfl
    _ = s.core.snapshot := by rw [h.state, h.frame, h.location, hb, Core.snapshot]

end Session

namespace Debugger
variable {s u : Debugger} {b : Breakpoint} {n id : Nat} {shown : Snapshot}
  {w : Option (Nat × Awaiting)}

/-- A subscriber that was there from the start and has never lagged: how many events it has taken,
and what it takes the session for. -/
inductive Subscribed : Debugger → Nat → Snapshot → Prop where
  | new (config : Config) : Subscribed (.new config) 0 (Core.snapshot {})
  | step {s u : Debugger} {n : Nat} {shown : Snapshot} (h : Subscribed s n shown)
      (hs : Step s u) : Subscribed u n shown
  | receive {s : Debugger} {n m : Nat} {shown : Snapshot} {e : Event} (h : Subscribed s n shown)
      (he : s.session.events.receive n = some (.message e, m)) : Subscribed s m (e.shows shown)

theorem informs_turn (ht : Turn s u) : ∃ slip quiet, Informs slip quiet s.session u.session := by
  cases ht with
  | drift _ hd =>
    have hsame : Session.Announces s.session s.session := .same trivial rfl rfl
    exact ⟨_, _, hsame.drifts hd⟩
  | receive _ _ _ hu => exact ⟨_, _, hu ▸ Session.announces_receive _ _⟩
  | begin _ _ hb hd => exact ⟨_, _, (Session.informs_began hb).drifts hd⟩
  | resume _ _ _ hc hd => exact ⟨_, _, (Session.informs_continued hc).drifts hd⟩

/-- A subscriber takes the session for what the events say that it has taken. -/
theorem subscribed_taken (h : Subscribed s n shown) :
    Reachable s ∧ n ≤ s.session.events.sent.length ∧
      shown = shownBy (s.session.events.sent.take n) := by
  induction h with
  | new config => exact ⟨.new config, Nat.zero_le _, rfl⟩
  | step _ hs ih =>
    obtain ⟨hr, hn, hshown⟩ := ih
    obtain ⟨slip, quiet, hi⟩ := informs_turn (step_turn hs)
    obtain ⟨es, hes⟩ := hi.sent
    refine ⟨hr.step hs, ?_, ?_⟩
    · exact Nat.le_trans hn hi.sent.length_le
    · rw [hshown, ← hes, List.take_append_of_le_length hn]
  | receive _ he ih =>
    obtain ⟨hr, hn, hshown⟩ := ih
    obtain ⟨hget, rfl⟩ := Broadcast.receive_message he
    obtain ⟨hlt, hget⟩ := List.getElem?_eq_some_iff.1 hget
    refine ⟨hr, hlt, ?_⟩
    rw [List.take_succ_eq_append_getElem hlt, hget, Session.shownBy_concat, hshown]

theorem followed_reachable (h : Reachable s) : s.session.Followed := by
  induction h with
  | new config => exact ⟨rfl, rfl, rfl, List.Pairwise.nil⟩
  | step hr hs ih =>
    obtain ⟨slip, quiet, hi⟩ := informs_turn (step_turn hs)
    exact ih.informs hi (sorted_reachable (hr.step hs))

theorem isClosed_iff : s.isClosed ↔ ∃ l, s.session.link = some l ∧ l.channel.closed := by
  unfold isClosed
  cases s.session.link <;> simp

theorem isClosed_turn (ht : Turn s u) (h : s.isClosed) : u.isClosed := by
  obtain ⟨l, hl, hc⟩ := isClosed_iff.1 h
  obtain ⟨m, hm, hf⟩ := carries_turn ht l hl
  exact isClosed_iff.2 ⟨m, hm, Link.closed_future hf hc⟩

/-- A command that has ended with an error, though not by the word of the debuggee, was outstanding
when the connection closed. -/
theorem isClosed_of_outcome {e : Error} (h : Reachable s)
    (ho : s.session.outcome? id = some (.error e)) (he : e.kind ≠ .debuggee) : s.isClosed := by
  obtain ⟨l, hl⟩ := Option.isSome_iff_exists.1 (Session.link_of_outcome ho)
  have ha := Session.answer_of_outcome (guarded_reachable h) ho
  rw [Session.journal_of_link hl] at ha
  by_contra hopen
  have hopen : l.channel.closed = false := by
    rw [Bool.eq_false_iff]
    exact fun hc => hopen (isClosed_iff.2 ⟨l, hl, hc⟩)
  exact he ((candid_reachable h hl).rejected hopen id e ha)

/-- A call waits for the reply to an edit of the breakpoint. -/
def Revising (b : Breakpoint) (s : Debugger) : Prop :=
  ∃ n id on, s.awaits n = some (id, .edit b on)

theorem Revising.update (h : Revising b s) (ha : u.awaits = Function.update s.awaits n w)
    (hn : ∀ id on, s.awaits n ≠ some (id, .edit b on)) : Revising b u := by
  obtain ⟨m, id, on, hm⟩ := h
  refine ⟨m, id, on, ?_⟩
  have hne : m ≠ n := by
    rintro rfl
    exact hn id on hm
  rw [ha, Function.update_of_ne hne, hm]

/-- The debuggee has rejected an edit that the subscribers have been shown, and the call that gets
this reply is about to take it back. -/
def Retracts (s : Debugger) (n : Nat) : Prop :=
  ∃ id b on code message, s.awaits n = some (id, .edit b on) ∧
    s.session.outcome? id = some (.error (.debuggee code message)) ∧
    (b ∈ s.session.shown.breakpoints ↔ on = true)

/-- A step in which no call takes back what the subscribers have been shown. -/
def PlainStep (s u : Debugger) : Prop :=
  Step s u ∧ ∀ n, s.step? (.job n) = some u → ¬ Retracts s n

abbrev Plain : Debugger → Debugger → Prop := Relation.ReflTransGen PlainStep

/-- The subscribers know whether the breakpoint is there, or they will be told: an edit of it is
under way, or the connection is lost and the session does not know yet. -/
def Settling (b : Breakpoint) (s : Debugger) : Prop :=
  s.session.Known b ∨ s.session.core.ended = false ∧ (Revising b s ∨ s.isClosed)

theorem Settling.kept (h : Settling b s) (hk : s.session.Known b → u.session.Known b)
    (he : u.session.core.ended = s.session.core.ended) (hr : Revising b s → Revising b u)
    (hc : s.isClosed → u.isClosed) : Settling b u := by
  rcases h with hknown | ⟨hopen, hwait⟩
  · exact .inl (hk hknown)
  · exact .inr ⟨he.trans hopen, hwait.imp hr hc⟩

theorem settling_job (hs : s.step? (.job n) = some u) (hr : Reachable s) (h : Settling b s)
    (hplain : ¬ Retracts s n) : Settling b u := by
  have hsort := sorted_reachable hr
  have ht := jobTurn_of_step hs
  have hclosed := isClosed_turn ht.turn
  cases ht with
  | idle ha hd =>
    refine h.kept (·.of_eq (Session.shown_of_events hd.events) hd.core) (by rw [hd.core]) ?_ hclosed
    rw [Revising, Revising, ha]
    exact id
  | begin hn hb hd ha =>
    have hupdate (hrev : Revising b s) : Revising b u := hrev.update ha (by rw [hn]; nofun)
    cases (Session.informs_began hb).drifts hd with
    | tells _ htold => exact .inl (Session.known_of_told htold b)
    | keeps _ _ hshown hcore => exact h.kept (·.of_eq hshown hcore) (by rw [hcore]) hupdate hclosed
    | @slips c on hslip hevents hcore =>
      -- the edit of this breakpoint now waits for its reply; one of another leaves it alone
      obtain ⟨hopen, id, hp⟩ := hslip
      have hended : u.session.core.ended = s.session.core.ended := by
        rw [hcore]
        rfl
      by_cases hbc : b = c
      · subst hbc
        refine .inr ⟨hended.trans hopen, .inl ⟨n, id, on, ?_⟩⟩
        rw [ha, Function.update_self, hp]
        rfl
      · exact h.kept (·.marked hsort (Session.shown_of_events hevents) hcore hbc) hended hupdate
          hclosed
  | @resume id awaiting o _ _ hn ho hc hd ha =>
    cases (Session.informs_continued hc).drifts hd with
    | tells _ htold => exact .inl (Session.known_of_told htold b)
    | keeps hquiet _ hshown hcore =>
      by_cases hedits : awaiting.edits
      · -- an edit that has failed otherwise: the connection is closed
        obtain ⟨e, rfl, he⟩ := hquiet hedits
        have hu := hclosed (isClosed_of_outcome hr ho he)
        rcases h with hknown | ⟨hopen, -⟩
        · exact .inl (hknown.of_eq hshown hcore)
        · exact .inr ⟨by rw [hcore, hopen], .inr hu⟩
      · refine h.kept (·.of_eq hshown hcore) (by rw [hcore]) (fun hrev => hrev.update ha ?_) hclosed
        intro id' on hw
        cases hn.symm.trans hw
        exact hedits (Awaiting.edits_edit b on)
    | @slips c on hslip hevents hcore =>
      obtain ⟨e, rfl, rfl, he⟩ := hslip
      have hshown := Session.shown_of_events hevents
      by_cases hbc : b = c
      · subst hbc
        left
        -- no snapshot has shown the edit that is taken back, or the job would retract it
        have hfresh : b ∈ s.session.shown.breakpoints ↔ on = true := by
          cases e with
          | debuggee code message =>
            have hne : ¬ (b ∈ s.session.shown.breakpoints ↔ (!on) = true) := fun hon =>
              hplain ⟨id, b, !on, code, message, hn, ho, hon⟩
            cases on <;> simp_all
          | _ => cases he
        rw [Session.Known, hshown, hcore, hfresh]
        change _ ↔ b ∈ Session.mark b s.session.core.breakpoints on
        rw [Session.mem_mark hsort, if_pos rfl]
      · refine h.kept (·.marked hsort hshown hcore hbc) (by rw [hcore]; rfl)
          (fun hrev => hrev.update ha ?_) hclosed
        intro id' on' hw
        obtain ⟨-, hw⟩ := Prod.mk.inj (Option.some.inj (hn.symm.trans hw))
        exact hbc (Session.Awaiting.edit_inj hw).1.symm

theorem settling_step (hs : PlainStep s u) (hr : Reachable s) (h : Settling b s) :
    Settling b u := by
  obtain ⟨hs, hplain⟩ := hs
  rcases step_cases hs with ⟨n, hstep, -⟩ | ht
  · exact settling_job hstep hr h (hplain n hstep)
  have hclosed := isClosed_turn ht.turn
  have hrevising (ha : u.awaits = s.awaits) (hrev : Revising b s) : Revising b u := by
    rw [Revising, ha]
    exact hrev
  cases ht with
  | drift ha hd =>
    exact h.kept (·.of_eq (Session.shown_of_events hd.events) hd.core) (by rw [hd.core])
      (hrevising ha) hclosed
  | receive ha _ _ hu =>
    have hi := hu ▸ Session.announces_receive s.session _
    cases hi with
    | tells _ htold => exact .inl (Session.known_of_told htold b)
    | keeps _ _ hshown hcore =>
      exact h.kept (·.of_eq hshown hcore) (by rw [hcore]) (hrevising ha) hclosed
    | slips hslip => exact hslip.elim

theorem settling_plain (hr : Reachable s) (h : ∀ b, Settling b s) (hf : Plain s u) :
    Reachable u ∧ ∀ b, Settling b u := by
  induction hf with
  | refl => exact ⟨hr, h⟩
  | tail _ hs ih => exact ⟨ih.1.step hs.1, fun b => settling_step hs ih.1 (ih.2 b)⟩

/-- Take a subscriber that was there from the start and has never lagged, when it has taken all that
was sent. It knows the state, the selected frame and the location. Let it have known everything at
some moment, as at the start, and no edit that the subscribers were shown have been taken back since:
when no call waits, and the pump neither, it knows everything again. -/
theorem subscriber_informed (h : Subscribed u n shown)
    (hn : u.session.events.receive n = none) :
    (shown.state = u.session.core.state ∧ shown.frame = u.session.core.frame ∧
      shown.location = u.session.core.location) ∧
    ∀ s, Reachable s → s.session.shown = s.session.core.snapshot → Plain s u →
      u.gone = false → u.step? .pump = none → (∀ n, u.awaits n = none) →
      shown = u.session.core.snapshot := by
  obtain ⟨hu, -, hshown⟩ := subscribed_taken h
  rw [List.take_of_length_le (Broadcast.receive_none hn)] at hshown
  have hshown : shown = u.session.shown := hshown
  have hfollowed := followed_reachable hu
  rw [hshown]
  refine ⟨⟨hfollowed.state, hfollowed.frame, hfollowed.location⟩, ?_⟩
  intro s hs htold hf hg hp hidle
  obtain ⟨-, hsettling⟩ := settling_plain hs (fun b => .inl (Session.known_of_told htold b)) hf
  refine hfollowed.snapshot_eq (sorted_reachable hu) fun b => ?_
  rcases hsettling b with hknown | ⟨hopen, ⟨m, id, on, hw⟩ | hclosed⟩
  · exact hknown
  · cases (hidle m).symm.trans hw
  · obtain ⟨l, hl, hc⟩ := isClosed_iff.1 hclosed
    exact absurd (hopen.symm.trans (ended_of_rest hu hl hc hp hg)) nofun

theorem Plain.next {v : Debugger} (hf : Plain s u) (hs : Step u v)
    (h : u.session.shown.breakpoints = [] ∧ u.jobs.all fun j => j.2.awaiting?.all fun w =>
      w.2 matches .setBreakpoint _ || !w.2.edits) : Plain s v := by
  refine hf.tail ⟨hs, ?_⟩
  rintro n - ⟨id, b, on, -, -, hw, -, hon⟩
  obtain ⟨job, hj, hw⟩ := Option.bind_eq_some_iff.1 hw
  have hset := List.all_eq_true.1 h.2 _ (mem_of_lookup hj)
  rw [hw, Option.all_some] at hset
  rw [h.1] at hon
  cases on with
  | true => cases hon.2 rfl
  | false => cases hset

theorem plain_future (h : Plain s u) : Future s u :=
  Relation.ReflTransGen.mono (fun _ _ hs => hs.1) _ _ h

theorem Subscribed.future (h : Subscribed s n shown) (hf : Future s u) : Subscribed u n shown := by
  induction hf with
  | refl => exact h
  | tail _ hs ih => exact ih.step hs

/-- A breakpoint is set and rejected before anybody is told, and then the program pauses. -/
theorem subscriber_informed_rejected : ∃ u n, Subscribed u n ⟨.paused, 0, some ⟨"x.lua", 1⟩, []⟩ ∧
    u.session.events.receive n = none ∧
    (answersIn u.session.journal).map (·.2.isOk) = [false] ∧
    u.session.core.snapshot = ⟨.paused, 0, some ⟨"x.lua", 1⟩, []⟩ := by
  obtain ⟨u, n, h, hf, hn, hg, hp, hjobs, hanswers⟩ :
      ∃ u n, Subscribed u n ⟨.paused, 0, some ⟨"x.lua", 1⟩, []⟩ ∧ Plain (.new {}) u ∧
        u.session.events.receive n = none ∧ u.gone = false ∧ u.step? .pump = none ∧
        u.jobs.all (·.2.awaiting?.isNone) ∧
        (answersIn u.session.journal).map (·.2.isOk) = [false] := by
    have hf : Plain (.new {}) (.new {}) := .refl
    have hf := hf.next (.begin 0 rfl rfl (.call (.attach {}) true)) (by decide)
    have hf := hf.next (.task (.job 0) rfl) (by decide)
    have hf := hf.next (.begin 1 rfl rfl (.call (.setBreakpoint ⟨"a.lua", 1⟩) true)) (by decide)
    have hf := hf.next (.task (.job 1) rfl) (by decide)
    have hf := hf.next (.task (.link .writer) rfl) (by decide)
    have hf := hf.next (.task (.link .writer) rfl) (by decide)
    have hf := hf.next (.outside
      { arriving := Text.bytes "400 No 0\n", written := Text.bytes "SETB a.lua 1\n" } rfl
      (by decide)) (by decide)
    have hf := hf.next (.task (.link .reader) rfl) (by decide)
    have hf := hf.next (.task (.link .reader) rfl) (by decide)
    have hf := hf.next (.task (.job 1) rfl) (by decide)
    have hf := hf.next (.outside
      { arriving := Text.bytes "202 Paused 7\nx.lua 1", written := Text.bytes "SETB a.lua 1\n" }
      rfl (by decide)) (by decide)
    have hf := hf.next (.task (.link .reader) rfl) (by decide)
    have hf := hf.next (.task (.link .reader) rfl) (by decide)
    have hf := hf.next (.task .pump rfl) (by decide)
    have h := (Subscribed.new {}).future (plain_future hf)
    have h := (h.receive rfl).receive rfl
    exact ⟨_, _, h, hf, rfl, rfl, rfl, by decide, by decide⟩
  have hsnapshot := (subscriber_informed h hn).2 _ (.new {}) rfl hf hg hp (awaits_none hjobs)
  exact ⟨u, n, h, hn, hanswers, hsnapshot.symm⟩

/-- A breakpoint is set, the program pauses before the debuggee has replied, and the state that is
told then shows the breakpoint. The debuggee rejects it and the session takes it back: nothing goes
on any more, and the subscriber still takes it to be there. -/
theorem subscriber_misinformed : ∃ u n shown, Subscribed u n shown ∧
    u.session.events.receive n = none ∧ u.Quiet ∧ u.gone = false ∧ (∀ n, u.awaits n = none) ∧
    shown = ⟨.paused, 0, some ⟨"x.lua", 1⟩, [⟨"a.lua", 1⟩]⟩ ∧
    u.session.core.snapshot = ⟨.paused, 0, some ⟨"x.lua", 1⟩, []⟩ := by
  have hf : Future (.new {}) (.new {}) := .refl
  have hf := hf.tail (.begin 0 rfl rfl (.call (.attach {}) true))
  have hf := hf.tail (.task (.job 0) rfl)
  have hf := hf.tail (.begin 1 rfl rfl (.call (.setBreakpoint ⟨"a.lua", 1⟩) true))
  have hf := hf.tail (.task (.job 1) rfl)
  have hf := hf.tail (.task (.link .writer) rfl)
  have hf := hf.tail (.task (.link .writer) rfl)
  have hf := hf.tail (.outside
    { arriving := Text.bytes "202 Paused 7\nx.lua 1", written := Text.bytes "SETB a.lua 1\n" }
    rfl (by decide))
  have hf := hf.tail (.task (.link .reader) rfl)
  have hf := hf.tail (.task (.link .reader) rfl)
  have hf := hf.tail (.task .pump rfl)
  have hf := hf.tail (.outside
    { arriving := Text.bytes "400 No 0\n", written := Text.bytes "SETB a.lua 1\n" } rfl
    (by decide))
  have hf := hf.tail (.task (.link .reader) rfl)
  have hf := hf.tail (.task (.link .reader) rfl)
  have hf := hf.tail (.task (.link .writer) rfl)
  have hf := hf.tail (.task (.job 1) rfl)
  have h := (Subscribed.new {}).future hf
  have h := (h.receive rfl).receive rfl
  exact ⟨_, _, _, h, rfl, quiet_of_waits rfl rfl rfl rfl rfl (by decide) rfl rfl (by decide), rfl,
    awaits_none (by decide), rfl, rfl⟩

end Debugger
end MobDebug
