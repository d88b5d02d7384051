import MobDebug.Proofs.Channel.Reports
import MobDebug.Proofs.Channel.Without

/-! A command that is taken back leaves no trace: the run without its submission and without whatever
else was done with it comes, after every action, to the same bytes, outcomes and events. -/
namespace MobDebug
open Wire (Command)
open Channel (Request Entry Outcome Spared shift shift_inj shift_beq shift_of_lt sentIn answersIn eventsIn
  closingsIn)

namespace Channel
variable {c : Channel} {x i : Nat} {e : Entry}

/-- What a journal tells names no command but those that were accepted. -/
theorem Ledger.without?_fresh (h : Ledger c) (hr : Reports c.journal) (he : e ∈ c.journal)
    (hx : c.nextId ≤ x) : e.without? x = some e := by
  have hsent {i : Nat} (hi : i ∈ sentIn c.journal) : i < x :=
    Nat.lt_of_lt_of_le (h.kept_fresh (h.wire.subset hi)) hx
  cases e with
  | submitted r =>
    have hin : r ∈ acceptedIn c.journal := List.mem_filterMap.2 ⟨_, he, rfl⟩
    have hlt := Nat.lt_of_lt_of_le (h.fresh r hin) hx
    simp [Entry.without?, Request.shift, shift_of_lt hlt, Nat.ne_of_lt hlt]
  | withdrawn i =>
    have hin : i ∈ withdrawnIn c.journal := List.mem_filterMap.2 ⟨_, he, rfl⟩
    obtain ⟨r, hr, rfl⟩ := h.known i hin
    have hlt := Nat.lt_of_lt_of_le (h.fresh r hr) hx
    simp [Entry.without?, shift_of_lt hlt, Nat.ne_of_lt hlt]
  | sent i =>
    have hlt := hsent (List.mem_filterMap.2 ⟨_, he, rfl⟩)
    simp [Entry.without?, shift_of_lt hlt]
  | answered i o =>
    have hin : (i, o) ∈ answersIn c.journal := List.mem_filterMap.2 ⟨_, he, rfl⟩
    have hlt := Nat.lt_of_lt_of_le
      (h.kept_fresh (h.answers_kept (List.mem_map_of_mem hin))) hx
    simp [Entry.without?, shift_of_lt hlt]
  | event e =>
    cases e with
    | paused location after =>
      obtain ⟨pre, post, hsplit⟩ := List.append_of_mem he
      have hafter : after = (sentIn pre).getLast?.getD 0 := hr _ _ _ hsplit
      -- a pause is dated by the last command that was sent before it
      have hlt : after < x := by
        cases hlast : (sentIn pre).getLast? with
        | none =>
          rw [hafter, hlast]
          exact Nat.lt_of_lt_of_le h.first hx
        | some i =>
          rw [hafter, hlast]
          apply hsent
          rw [hsplit]
          simp [List.mem_of_getLast? hlast]
      simp [Entry.without?, Event.shift, shift_of_lt hlt]
    | output | debuggeeError | closed => rfl

theorem Request.shift_of_lt {r : Request} (h : r.id < x) : r.shift x = r := by
  rw [Request.shift, Channel.shift_of_lt h]

theorem filter_map_eq_self {α : Type} {p : α → Bool} {f : α → α} {l : List α}
    (hp : ∀ a ∈ l, p a) (hf : ∀ a ∈ l, f a = a) : (l.filter p).map f = l := by
  rw [List.filter_eq_self.2 hp, List.map_congr_left hf, List.map_id']

/-- Without the command that was submitted last, a channel is as it was before. -/
theorem submit_undone {d : Channel} {command : Command} (h : Ledger c) (hr : Reports c.journal)
    (hs : c.submit command = .ok (x, d)) : d.without x c.signalled = c := by
  obtain ⟨line, -, ho, rfl, rfl⟩ := submit_eq_ok hs
  have hout (r) (hin : r ∈ c.outstanding) : r.id < c.nextId :=
    h.kept_fresh (List.mem_map_of_mem (h.mem_kept hin))
  have hwaiting : (c.waiting.filter (·.id != c.nextId)).map (·.shift c.nextId) = c.waiting := by
    apply filter_map_eq_self
    · intro r hin
      simpa using Nat.ne_of_lt (hout r (List.mem_append_right _ hin))
    · intro r hin
      exact Request.shift_of_lt (hout r (List.mem_append_right _ hin))
  have hflight : c.inFlight.map (·.shift c.nextId) = c.inFlight := by
    cases hf : c.inFlight with
    | none => rfl
    | some r => exact congrArg some (Request.shift_of_lt (hout r (by simp [outstanding, hf])))
  have hlast : shift c.nextId c.lastSent = c.lastSent := by
    apply Channel.shift_of_lt
    rw [h.lastSent]
    cases hlast : (sentIn c.journal).getLast? with
    | none => exact h.first
    | some i => exact h.kept_fresh (h.wire.subset (List.mem_of_getLast? hlast))
  have hjournal : c.journal.filterMap (·.without? c.nextId) = c.journal := by
    rw [List.filterMap_congr fun e he => h.without?_fresh hr he (Nat.le_refl _)]
    exact List.filterMap_some
  have hself : Entry.without? c.nextId (.submitted ⟨c.nextId, command.name, line⟩) = none :=
    if_pos rfl
  simp [without, hwaiting, hflight, hlast, hjournal, hself]

end Channel

namespace Traffic
variable {t u : Traffic} {x i : Nat} {s : Bool} {a : Action}

/-- What is done when a command was never submitted: nothing that has to do with it. -/
def Action.without? (x : Nat) : Action → Option Action
  | .cancel i => if i = x then none else some (.cancel (shift x i))
  | .forget i => if i = x then none else some (.forget (shift x i))
  | .receive i => if i = x then none else some (.receive (shift x i))
  | .task (.watchdog i) => if i = x then none else some (.task (.watchdog (shift x i)))
  | a => some a

/-- The link and its callers without a command that has neither been put in flight nor answered. -/
def without (x : Nat) (s : Bool) (t : Traffic) : Traffic where
  link := t.link.without x s
  submitted := (t.submitted.filter (·.1 != x)).map (Prod.map (shift x) id)
  withdrawn := (t.withdrawn.filter (· != x)).map (shift x)
  handles := (t.handles.filter (· != x)).map (shift x)
  received := t.received.map (Prod.map (shift x) id)

def Follows (x : Nat) (t u : Traffic) : Prop :=
  ∃ s, (s = true → t.link.channel.signalled = true) ∧ u = t.without x s

theorem mem_shift {ids : List Nat} (hi : i ≠ x) :
    shift x i ∈ (ids.filter (· != x)).map (shift x) ↔ i ∈ ids := by
  constructor
  · intro h
    obtain ⟨k, hk, he⟩ := List.mem_map.1 h
    obtain ⟨hk, hne⟩ := List.mem_filter.1 hk
    rwa [← (shift_inj (by simpa using hne) hi).1 he]
  · intro h
    exact List.mem_map_of_mem (List.mem_filter.2 ⟨h, by simpa using hi⟩)

theorem erase_shift {ids : List Nat} (hi : i ≠ x) :
    ((ids.filter (· != x)).map (shift x)).erase (shift x i) =
      ((ids.erase i).filter (· != x)).map (shift x) := by
  induction ids with
  | nil => rfl
  | cons k ids ih =>
    by_cases hk : k = x
    · subst hk
      rw [List.erase_cons_tail (by simpa using Ne.symm hi)]
      simpa using ih
    · have hkeep : (k :: ids).filter (· != x) = k :: ids.filter (· != x) := by simp [hk]
      rw [hkeep, List.map_cons, List.erase_cons, List.erase_cons, shift_beq hk hi]
      split
      · rfl
      · simp [hk, ih]

theorem erase_self {ids : List Nat} : (ids.erase x).filter (· != x) = ids.filter (· != x) := by
  rw [← List.erase_filter]
  exact List.erase_of_not_mem (by simp)

/-- A channel that has told of neither tells of neither at any moment before. -/
theorem spared_before (hf : Future t u) (h : Spared x u.link.channel) : Spared x t.link.channel := by
  obtain ⟨k, hk⟩ := Channel.run_journal (future_run hf)
  constructor
  · intro hx
    apply h.unsent
    rw [← hk]
    simp only [Channel.told_append]
    exact List.mem_append_left _ hx
  · intro hx
    apply h.unanswered
    rw [← hk]
    simp only [Channel.told_append, List.map_append]
    exact List.mem_append_left _ hx

theorem submit_without (hx : x < t.link.channel.nextId) (command : Command)
    (hs : s = true → t.link.channel.signalled = true) :
    Follows x (t.submit command) ((t.without x s).submit command) := by
  have hsubmit : (t.without x s).link.channel.submit command = _ :=
    Channel.submit_without (s := s) hx command
  cases hc : t.link.channel.submit command with
  | error error =>
    rw [hc] at hsubmit
    rw [submit, submit, hsubmit, hc]
    exact ⟨s, hs, rfl⟩
  | ok p =>
    obtain ⟨i, c⟩ := p
    obtain ⟨line, -, -, rfl, rfl⟩ := Channel.submit_eq_ok hc
    rw [hc] at hsubmit
    rw [submit, submit, hsubmit, hc]
    refine ⟨true, fun _ => rfl, ?_⟩
    have hne : t.link.channel.nextId ≠ x := Nat.ne_of_gt hx
    simp [Except.map, without, Link.without, hne]

theorem cancel_without (hi : i ≠ x) (hs : s = true → t.link.channel.signalled = true) :
    Follows x (t.cancel i) ((t.without x s).cancel (shift x i)) := by
  have hwithdraw : (t.without x s).link.channel.withdraw? (shift x i) = _ :=
    Channel.withdraw?_without (c := t.link.channel) (s := s) hi
  cases hc : t.link.channel.withdraw? i with
  | none =>
    rw [hc] at hwithdraw
    rw [cancel, cancel, hwithdraw, hc]
    exact ⟨s, hs, rfl⟩
  | some c =>
    rw [hc] at hwithdraw
    rw [cancel, cancel, hwithdraw, hc]
    refine ⟨s, ?_, ?_⟩
    · obtain ⟨-, rfl⟩ := Channel.withdraw?_eq_some hc
      exact hs
    · simp only [Option.map, without, erase_shift hi]
      simp [Link.without, hi]

theorem cancel_self (hs : s = true → t.link.channel.signalled = true) :
    Follows x (t.cancel x) (t.without x s) := by
  cases hc : t.link.channel.withdraw? x with
  | none =>
    rw [cancel, hc]
    exact ⟨s, hs, rfl⟩
  | some c =>
    rw [cancel, hc]
    refine ⟨s, ?_, ?_⟩
    · obtain ⟨-, rfl⟩ := Channel.withdraw?_eq_some hc
      exact hs
    · have hwithdraw := Channel.withdraw?_self (s := s) hc
      simp [without, Link.without, erase_self, hwithdraw]

theorem receive_without (h : Spared x t.link.channel) (hi : i ≠ x)
    (hs : s = true → t.link.channel.signalled = true) :
    Follows x (t.receive i) ((t.without x s).receive (shift x i)) := by
  have houtcome : (t.without x s).link.channel.outcome? (shift x i) = _ :=
    Channel.outcome?_without (s := s) h.unanswered hi
  cases ho : t.link.channel.outcome? i with
  | none =>
    rw [ho] at houtcome
    rw [receive, receive, houtcome, ho]
    exact ⟨s, hs, rfl⟩
  | some o =>
    rw [ho] at houtcome
    rw [receive, receive, houtcome, ho]
    refine ⟨s, hs, ?_⟩
    simp only [without, erase_shift hi]
    simp

theorem task_without {task : Link.Task} (h : Reachable t) (hu : Reachable (t.without x s))
    (hx : Spared x (t.act (.task task)).link.channel)
    (hs : s = true → t.link.channel.signalled = true) :
    Follows x (t.act (.task task)) (((Action.task task).without? x).elim (t.without x s)
      (t.without x s).act) := by
  have hb := booked_reachable h
  have hnow := spared_before (act_future t (.task task)) hx
  have hw (w) (hin : w ∈ t.link.watchdogs) : w.id ≠ x := by
    rintro rfl
    exact hnow.unsent (sent_of_watchdog h hin)
  have hf (r) (hin : r ∈ t.link.channel.inFlight) : r.id ≠ x := by
    rintro rfl
    have hflight : t.InFlight r.id := hb.inFlight_iff.2 (by rw [hin]; rfl)
    exact hnow.unsent hflight.1
  -- what the link does, its callers have no part in
  have follows {l k : Link} (hlink : Link.Follows x l k) :
      Follows x { t with link := l } { t.without x s with link := k } := by
    obtain ⟨s', hs', rfl⟩ := hlink
    exact ⟨s', hs', rfl⟩
  cases task with
  | reader => exact follows (Link.reader_without hx hs)
  | writer => exact follows (Link.writer_without hx (manned_reachable hu).alert hs)
  | watchdog i =>
    by_cases hi : i = x
    · subst hi
      simp only [Action.without?, if_pos, Option.elim, act, Link.watchdog_self hw]
      exact ⟨s, hs, rfl⟩
    · simp only [Action.without?, if_neg hi, Option.elim]
      exact follows (Link.watchdog_without hw hf hx hi hs)
  | debuggee => exact follows (Link.debuggee_without hs)

theorem act_without (h : Reachable t) (hu : Reachable u) (hx : x < t.link.channel.nextId)
    (hspared : Spared x (t.act a).link.channel) (hf : Follows x t u) :
    Follows x (t.act a) ((a.without? x).elim u u.act) := by
  obtain ⟨s, hs, rfl⟩ := hf
  have hnow := spared_before (act_future t a) hspared
  cases a with
  | submit command => exact submit_without hx command hs
  | cancel i =>
    by_cases hi : i = x
    · subst hi
      simp only [Action.without?, if_pos, Option.elim, act]
      split
      · exact cancel_self hs
      · exact ⟨s, hs, rfl⟩
    · simp only [Action.without?, if_neg hi, Option.elim, act, without, mem_shift hi]
      split
      · exact cancel_without hi hs
      · exact ⟨s, hs, rfl⟩
  | forget i =>
    by_cases hi : i = x
    · subst hi
      simp only [Action.without?, if_pos, Option.elim, act]
      exact ⟨s, hs, by simp [without, erase_self]⟩
    · simp only [Action.without?, if_neg hi, Option.elim, act]
      exact ⟨s, hs, by simp only [without, erase_shift hi]⟩
  | receive i =>
    by_cases hi : i = x
    · subst hi
      -- a command that is spared has no reply, so there is nothing to receive
      have hnone : t.link.channel.outcome? i = none := by
        rw [← Option.not_isSome_iff_eq_none, (booked_reachable h).ledger.outcome?_isSome]
        exact hnow.unanswered
      have hkeep : t.receive i = t := by rw [receive, hnone]
      simp only [Action.without?, if_pos, Option.elim, act, hkeep, ite_self]
      exact ⟨s, hs, rfl⟩
    · simp only [Action.without?, if_neg hi, Option.elim, act, without, mem_shift hi]
      split
      · exact receive_without hnow hi hs
      · exact ⟨s, hs, rfl⟩
  | close =>
    obtain ⟨s', hs', hk⟩ := Link.follows_fail (l := t.link) hspared hs
    exact ⟨s', hs', by simp only [Action.without?, Option.elim, act, without, hk]⟩
  | task task => exact task_without h hu hspared hs
  | outside stream =>
    simp only [Action.without?, Option.elim, act]
    by_cases hw : stream.written = t.link.stream.written
    · rw [if_pos hw, if_pos (show stream.written = (t.without x s).link.stream.written from hw)]
      exact ⟨s, hs, rfl⟩
    · rw [if_neg hw, if_neg (show ¬ stream.written = (t.without x s).link.stream.written from hw)]
      exact ⟨s, hs, rfl⟩
  | tick now =>
    simp only [Action.without?, Option.elim, act]
    by_cases hn : t.link.now ≤ now
    · rw [if_pos hn, if_pos (show (t.without x s).link.now ≤ now from hn)]
      exact ⟨s, hs, rfl⟩
    · rw [if_neg hn, if_neg (show ¬ (t.without x s).link.now ≤ now from hn)]
      exact ⟨s, hs, rfl⟩

theorem reports_reachable (h : Reachable t) : Channel.Reports t.link.channel.journal := by
  induction h with
  | opened h =>
    obtain ⟨timeout, bodyLimit, stream, -, rfl⟩ := h
    exact Channel.reports_nil
  | step hr hs ih => exact Channel.reports_run (step_run hs) (booked_reachable hr).ledger ih

/-- Without the command that was submitted last, all is as it was before. -/
theorem submit_follows (h : Reachable t) {command : Command} {c : Channel}
    (hc : t.link.channel.submit command = .ok (x, c)) :
    Follows x (t.act (.submit command)) t := by
  have hb := booked_reachable h
  have hchannel := Channel.submit_undone hb.ledger (reports_reachable h) hc
  have hact : t.act (.submit command) =
      { t with
        link := { t.link with channel := c }
        submitted := t.submitted ++ [(x, command)]
        handles := t.handles ++ [x] } := by
    rw [act, submit, hc]
  obtain ⟨line, -, -, rfl, hd⟩ := Channel.submit_eq_ok hc
  -- all that is known so far has an id below the new one, which the renaming leaves as it is
  have hsent {i : Nat} (hi : t.Sent i) : i < t.link.channel.nextId :=
    hb.ledger.kept_fresh (hb.ledger.wire.subset hi)
  have hpair {α : Type} {p : Nat × α} (hp : p.1 < t.link.channel.nextId) :
      Prod.map (shift t.link.channel.nextId) id p = p := Prod.ext (shift_of_lt hp) rfl
  have hwriter : t.link.writer.shift t.link.channel.nextId = t.link.writer := by
    cases hw : t.link.writer with
    | idle | stopped => rfl
    | writing i rest deadline =>
      obtain ⟨-, pre, r, hwire, rfl, -⟩ := (manned_reachable h).hand _ _ _ hw
      have hlt : r.id < t.link.channel.nextId := by
        apply hsent
        rw [Sent, ← hb.ledger.onWire_ids, hwire]
        simp
      rw [Channel.Writer.shift, shift_of_lt hlt]
  have hwatchdogs : t.link.watchdogs.map (·.shift t.link.channel.nextId) = t.link.watchdogs := by
    rw [List.map_congr_left fun w hw => ?_, List.map_id']
    rw [Channel.Watchdog.shift, shift_of_lt (hsent (sent_of_watchdog h hw))]
  have hsubmitted : (t.submitted.filter (·.1 != t.link.channel.nextId)).map
      (Prod.map (shift t.link.channel.nextId) id) = t.submitted := by
    have hlt (p) (hp : p ∈ t.submitted) : p.1 < t.link.channel.nextId :=
      hb.ledger.fresh (request p) (hb.accepted ▸ List.mem_map_of_mem hp)
    exact Channel.filter_map_eq_self (fun p hp => by simpa using Nat.ne_of_lt (hlt p hp))
      fun p hp => hpair (hlt p hp)
  have hwithdrawn : (t.withdrawn.filter (· != t.link.channel.nextId)).map
      (shift t.link.channel.nextId) = t.withdrawn := by
    have hlt (i) (hi : i ∈ t.withdrawn) : i < t.link.channel.nextId := by
      obtain ⟨r, hr, rfl⟩ := hb.ledger.known i (hb.taken ▸ hi)
      exact hb.ledger.fresh r hr
    exact Channel.filter_map_eq_self (fun i hi => by simpa using Nat.ne_of_lt (hlt i hi))
      fun i hi => shift_of_lt (hlt i hi)
  have hhandles : (t.handles.filter (· != t.link.channel.nextId)).map
      (shift t.link.channel.nextId) = t.handles :=
    Channel.filter_map_eq_self (fun i hi => by simpa using Nat.ne_of_lt (hb.held i hi))
      fun i hi => shift_of_lt (hb.held i hi)
  have hreceived : t.received.map (Prod.map (shift t.link.channel.nextId) id) = t.received := by
    rw [List.map_congr_left fun p hp => ?_, List.map_id']
    exact hpair (hb.ledger.kept_fresh (hb.ledger.answers_kept (List.mem_map_of_mem (hb.given p hp))))
  refine ⟨t.link.channel.signalled, fun _ => by rw [hact, hd], ?_⟩
  rw [hact, without, Link.without]
  simp [hchannel, hwriter, hwatchdogs, hsubmitted, hwithdrawn, hhandles, hreceived]

theorem run_follows {l : Link} (h : l.Opened) {before : List Action} {command : Command}
    {c : Channel} (hc : (run l before).link.channel.submit command = .ok (x, c))
    (done : List Action)
    (hx : Spared x (run l (before ++ .submit command :: done)).link.channel) :
    Follows x (run l (before ++ .submit command :: done))
      (run l (before ++ done.filterMap (·.without? x))) := by
  have hfirst : run l (before ++ [.submit command]) = (run l before).act (.submit command) :=
    run_snoc l before _
  have hlater (done : List Action) :
      before ++ .submit command :: done = (before ++ [.submit command]) ++ done := by simp
  induction done using List.reverseRecOn with
  | nil =>
    simp only [List.filterMap_nil, List.append_nil]
    rw [hfirst]
    exact submit_follows (run_reachable h before) hc
  | append_singleton done a ih =>
    rw [hlater, ← List.append_assoc, ← hlater, run_snoc] at hx ⊢
    have hspared := spared_before (act_future _ a) hx
    have hlt : x < (run l (before ++ .submit command :: done)).link.channel.nextId := by
      rw [hlater]
      refine Nat.lt_of_lt_of_le ?_ (Channel.run_nextId (future_run (run_future l _ done)))
      rw [hfirst, act, submit, hc]
      obtain ⟨_, -, -, rfl, rfl⟩ := Channel.submit_eq_ok hc
      exact Nat.lt_succ_self _
    have hstep := act_without (run_reachable h _) (run_reachable h _) hlt hx (ih hspared)
    cases ha : a.without? x with
    | none =>
      rw [ha] at hstep
      simpa [ha] using hstep
    | some b =>
      rw [ha] at hstep
      simpa [ha, ← List.append_assoc] using hstep

/-- What there is to see of a link and its callers is the same without the command of id `x`, but for
the ids of those after it: the bytes, the outcomes and the events, in the order in which they were
told, and what the callers have received. -/
structure Alike (x : Nat) (t u : Traffic) : Prop where
  stream : u.link.stream = t.link.stream
  closed : u.link.channel.closed = t.link.channel.closed
  journal : u.link.channel.journal = t.link.channel.journal.filterMap (·.without? x)
  answers : answersIn u.link.channel.journal =
    (answersIn t.link.channel.journal).map (Prod.map (shift x) id)
  events : u.link.channel.events = t.link.channel.events.map (·.shift x)
  submitted : u.submitted = (t.submitted.filter (·.1 != x)).map (Prod.map (shift x) id)
  received : u.received = t.received.map (Prod.map (shift x) id)

theorem Follows.alike (h : Follows x t u) : Alike x t u := by
  obtain ⟨s, -, rfl⟩ := h
  constructor
  · rfl
  · rfl
  · rfl
  · exact Channel.answersIn_without
  · rw [Channel.events_eq, Channel.events_eq]
    exact Channel.eventsIn_without
  · rfl
  · rfl

/-- A command can be taken back as long as it waits. -/
theorem withdraw?_isSome (hb : Booked t) {p : Nat × Command} (hp : p ∈ t.submitted) :
    (t.link.channel.withdraw? p.1).isSome ↔
      ¬ t.Sent p.1 ∧ t.outcome? p.1 = none ∧ p.1 ∉ t.withdrawn := by
  have hwaits : (t.link.channel.withdraw? p.1).isSome ↔ t.At p.1 .waiting := by
    unfold Channel.withdraw? At isWaiting
    split <;> simp_all
  have hflight (hs : t.Sent p.1) (ho : t.outcome? p.1 = none) : t.At p.1 .inFlight :=
    isInFlight_iff.2 (by simpa using hb.inFlight_iff.1 ⟨hs, ho⟩)
  have hdone {o : Outcome} (ho : t.outcome? p.1 = some o) : t.At p.1 (.completed o) :=
    hb.completed_iff.2 (hb.ledger.outcome?_eq_some.1 ho)
  rw [hwaits]
  constructor
  · intro hw
    have ho : t.outcome? p.1 = none := by
      cases ho : t.outcome? p.1 with
      | none => rfl
      | some o => exact absurd (hb.at_unique hw (hdone ho)) nofun
    exact ⟨fun hs => absurd (hb.at_unique hw (hflight hs ho)) nofun, ho,
      fun hd => absurd (hb.at_unique hw (y := .withdrawn) hd) nofun⟩
  · rintro ⟨hs, ho, hd⟩
    obtain ⟨place, hplace⟩ := hb.exists_at hp
    cases place with
    | waiting => exact hplace
    | inFlight => exact absurd (hb.ledger.inFlight_iff.1 (isInFlight_iff.1 hplace)).1 hs
    | completed o =>
      have hsome := hb.ledger.outcome?_eq_some.2 (hb.completed_iff.1 hplace)
      exact absurd (ho.symm.trans hsome) nofun
    | withdrawn => exact absurd hplace hd

/-- A command can be taken back just as long as it waits. A run in which one is taken back later on
writes, after every action, the same bytes as the run without its submission and without whatever
else was done with it, hands out the same outcomes, emits the same events and is closed by the same
error; only ids differ. -/
theorem cancelled_without_trace {l : Link} (h : l.Opened) :
    (∀ actions, ∀ p ∈ (run l actions).submitted,
      (((run l actions).link.channel.withdraw? p.1).isSome ↔
        ¬ (run l actions).Sent p.1 ∧ (run l actions).outcome? p.1 = none ∧
          p.1 ∉ (run l actions).withdrawn)) ∧
    ∀ before command rest x c, (run l before).link.channel.submit command = .ok (x, c) →
      x ∈ (run l (before ++ .submit command :: rest)).withdrawn →
      ∀ done, done <+: rest →
        Alike x (run l (before ++ .submit command :: done))
          (run l (before ++ done.filterMap (·.without? x))) := by
  refine ⟨fun actions p hp => withdraw?_isSome (booked_reachable (run_reachable h _)) hp, ?_⟩
  intro before command rest x c hc hx done hdone
  obtain ⟨more, rfl⟩ := hdone
  have hb := booked_reachable (run_reachable h (before ++ .submit command :: (done ++ more)))
  obtain ⟨houtcome, hsent⟩ := hb.never_of_withdrawn hx
  have hspared : Spared x (run l (before ++ .submit command :: (done ++ more))).link.channel := by
    refine ⟨hsent, fun ha => ?_⟩
    have hsome := hb.ledger.outcome?_isSome.2 ha
    rw [show Channel.outcome? _ x = none from houtcome] at hsome
    cases hsome
  refine (run_follows h hc done (spared_before ?_ hspared)).alike
  rw [← List.cons_append, ← List.append_assoc]
  exact run_future l _ more

/-- The second of three commands is taken back while the first is in flight and the third waits, and
the third is written and in flight next. -/
theorem cancelled_without_trace_between :
    let before := [.submit { name := .stack }, .task .writer, .task .writer]
    let later := [.task .writer, .cancel 2,
      .outside { arriving := Text.bytes "200 OK 0\n", written := Text.bytes "STACK\n" },
      .task .reader, .task .reader, .task .writer, .task .writer]
    let l : Link := { timeout := 10, bodyLimit := 100 }
    let t := run l (before ++ .submit { name := .run } :: .submit { name := .over } :: later)
    let u := run l (before ++ .submit { name := .over } :: later.filterMap (·.without? 2))
    t.withdrawn = [2] ∧ t.isInFlight 3 ∧ u.isInFlight 2 ∧
      t.link.stream.written = Text.bytes "STACK\nOVER\n" ∧ Alike 2 t u := by
  obtain ⟨c, hc⟩ : ∃ c, (run { timeout := 10, bodyLimit := 100 }
      [.submit { name := .stack }, .task .writer, .task .writer]).link.channel.submit
        { name := .run } = .ok (2, c) := ⟨_, rfl⟩
  intro before later l t u
  have hopened : l.Opened := ⟨10, 100, {}, rfl, rfl⟩
  refine ⟨by decide, by decide, by decide, by decide, ?_⟩
  exact (cancelled_without_trace hopened).2 before { name := .run }
    (.submit { name := .over } :: later) 2 c hc (by decide) _ List.prefix_rfl

end Traffic
end MobDebug
