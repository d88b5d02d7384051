import MobDebug.Proofs.Channel.Writer

/-! When a channel times out. The writer and the watchdogs wait for moments that lie in the past of
a run: the first at which a command was on the wire, and the first at which it was all written. So
their time is up just when a command is stalled, and then the channel fails. -/
namespace MobDebug
open Channel (Run closingsIn sentIn answersIn linesOf)

namespace Link
variable {l m : Link} {t : Task} {id : Nat} {rest : List UInt8} {deadline : Nat}

/-- A command has been written for too long, or the one in flight is unanswered for too long. -/
def Due (l : Link) : Prop :=
  (∃ id rest deadline, l.writer = .writing id rest deadline ∧ deadline ≤ l.now) ∨
    ∃ id w, l.watchdogs.find? (·.id == id) = some w ∧ w.deadline ≤ l.now ∧
      l.channel.inFlight.any (·.id == id)

theorem due_of_cause {error : Error} (h : l.Cause error) (he : error = .timeout) : l.Due := by
  cases h with
  | closed | malformed | misplaced | broken => cases he
  | @ended part => cases part <;> cases he
  | stuck hw _ _ ht => exact .inl ⟨_, _, _, hw, ht⟩
  | silent hw ht hf => exact .inr ⟨_, _, hw, ht, hf⟩

/-- Where all tasks wait, nothing is overdue. -/
theorem Settled.not_due (h : Settled l) (ho : l.channel.closed = false) : ¬ Due l := by
  rintro (⟨id, rest, deadline, hw, ht⟩ | ⟨id, w, hw, ht, hf⟩)
  · exact Nat.not_le_of_lt (h.blocked hw).2.2 ht
  · have hstep := h (.watchdog id) nofun
    simp [step?, watchdogStep?, hw, ho, ht, hf] at hstep

/-- The tasks of an open link wait for nothing but the clock. -/
structure Resting (l : Link) : Prop where
  opened : l.channel.closed = false
  reader : l.readerStep? = none
  idle : l.writer = .idle → l.channel.signalled = false
  blocked : ∀ id rest deadline, l.writer = .writing id rest deadline →
    l.stream.debuggeeGone = false ∧ l.stream.room = 0

/-- The reader does not look at the clock or the watchdogs. -/
theorem readerStep_eq_none (h : l.readerStep? = none) (now : Nat)
    (watchdogs : List Channel.Watchdog) : { l with now, watchdogs }.readerStep? = none := by
  have hturn := readerTurn l
  rw [h] at hturn
  cases hturn with
  | stopped hr => exact (ReaderTurn.stopped (l := { l with now, watchdogs }) hr).eq
  | waits hr ho ha hf hg =>
    exact (ReaderTurn.waits (l := { l with now, watchdogs }) hr ho ha hf hg).eq

theorem Settled.resting (h : Settled l) (ho : l.channel.closed = false) (now : Nat) :
    Resting { l with now } where
  opened := ho
  reader := readerStep_eq_none (h .reader nofun) now l.watchdogs
  idle hw := h.looked ho hw
  blocked _ _ _ hw := ⟨(h.blocked hw).1, (h.blocked hw).2.1⟩

namespace Resting

/-- A watchdog that ends beside another command takes nothing with it. -/
theorem dismiss (h : Resting l) (hf : l.channel.inFlight.any (·.id == id) = false) :
    Resting (l.dismiss id) ∧ (Due (l.dismiss id) ↔ Due l) := by
  refine ⟨⟨h.opened, readerStep_eq_none h.reader l.now _, h.idle, h.blocked⟩, ?_⟩
  refine or_congr_right (exists_congr fun i => exists_congr fun w => ?_)
  by_cases hi : i = id
  · subst hi
    simp [Link.dismiss, hf]
  · have hfind : (l.watchdogs.filter (·.id != id)).find? (·.id == i) =
        l.watchdogs.find? (·.id == i) := by
      rw [List.find?_filter]
      congr 1
      funext w
      by_cases hw : w.id = i <;> simp [hw, hi]
    rw [Link.dismiss, hfind]

/-- What the tasks of a resting link do when the clock has moved: the writer or a watchdog times out,
or a watchdog ends that nothing depends on. -/
inductive Lapses (l : Link) : Link → Prop where
  | writer (hd : Due l) (hw : l.writer ≠ .stopped) : Lapses l (l.fail .timeout).stopWriting
  | reply {id : Nat} {w : Channel.Watchdog} (hd : Due l)
      (hw : l.watchdogs.find? (·.id == id) = some w) : Lapses l ((l.dismiss id).fail .timeout)
  | dismissed {id : Nat} {w : Channel.Watchdog}
      (hf : l.channel.inFlight.any (·.id == id) = false)
      (hw : l.watchdogs.find? (·.id == id) = some w) : Lapses l (l.dismiss id)

theorem step_lapses (h : Resting l) (hs : l.step? t = some m) (ht : t ≠ .debuggee) :
    Lapses l m := by
  cases t with
  | reader => exact absurd (h.reader.symm.trans hs) nofun
  | debuggee => exact absurd rfl ht
  | writer =>
    cases writerTurn_some hs with
    | leaves _ hc => exact absurd (h.opened.symm.trans hc) nofun
    | looks hw _ hsignal => exact absurd ((h.idle hw).symm.trans hsignal) nofun
    | breaks hw _ hg => exact absurd ((h.blocked _ _ _ hw).1.symm.trans hg) nofun
    | expires hw _ _ _ hd => exact .writer (.inl ⟨_, _, _, hw, hd⟩) (by simp [hw])
    | continues hw _ _ hroom | finishes hw _ _ hroom =>
      exact absurd (h.blocked _ _ _ hw).2 hroom
  | watchdog id =>
    cases watchdogTurn_some hs with
    | leaves _ hc => exact absurd (h.opened.symm.trans hc) nofun
    | expires hw _ hd hf => exact .reply (.inr ⟨id, _, hw, hd, hf⟩) hw
    | dismissed hw _ _ hf => exact .dismissed hf hw

theorem step (h : Resting l) (hs : l.step? t = some m) (ht : t ≠ .debuggee) :
    (Due l ∧ m.channel = l.channel.fail .timeout) ∨ (Resting m ∧ (Due m ↔ Due l)) := by
  cases h.step_lapses hs ht with
  | writer hd | reply hd => exact .inl ⟨hd, rfl⟩
  | dismissed hf => exact .inr (h.dismiss hf)

end Resting

/-- What the tasks of a link do by themselves, without the debuggee. -/
abbrev Works : Link → Link → Prop :=
  Relation.ReflTransGen fun l m => ∃ t, t ≠ .debuggee ∧ l.step? t = some m

theorem works_run (hw : Works l m) : Run (· ≠ .ask) l.channel m.channel := by
  induction hw with
  | refl => exact .refl
  | tail _ hs ih =>
    obtain ⟨t, -, hs⟩ := hs
    exact ih.trans (step_run hs)

/-- A resting link goes on resting, or it is overdue and times out. -/
theorem Resting.works (h : Resting l) (hl : l.channel.Ledger)
    (hc : closingsIn l.channel.journal = []) (hw : Works l m) :
    (Resting m ∧ (Due m ↔ Due l)) ∨
      Due l ∧ m.channel.closed ∧ closingsIn m.channel.journal = [.timeout] := by
  induction hw with
  | refl => exact .inl ⟨h, Iff.rfl⟩
  | @tail k m hw hs ih =>
    obtain ⟨t, ht, hs⟩ := hs
    have hk := works_run hw
    rcases ih with ⟨hrest, hdue⟩ | ⟨hd, hclosed, htold⟩
    · rcases hrest.step hs ht with ⟨hd, hm⟩ | ⟨hm, hiff⟩
      · refine .inr ⟨hdue.1 hd, hm ▸ Channel.fail_closed _ _, ?_⟩
        have hnone : closingsIn k.channel.journal = [] :=
          Channel.closings_run hk (fun _ => hc) hrest.opened
        rw [hm, Channel.fail_eq hrest.opened]
        exact Channel.told_append.trans
          (congrArg₂ (· ++ ·) hnone (Channel.closingsIn_ending _ _))
      · exact .inl ⟨hm, hiff.trans hdue⟩
    · have hstep := step_run hs
      exact .inr ⟨hd, Channel.closed_run hstep hclosed,
        (Channel.run_of_closed hstep (Channel.ledger_run hk hl) hclosed).2.2.trans htold⟩

/-- How many tasks are left. -/
def load (l : Link) : Nat :=
  l.watchdogs.length + (decide (l.writer ≠ .stopped)).toNat + l.reading.toNat

theorem load_dismiss {w : Channel.Watchdog} (h : l.watchdogs.find? (·.id == id) = some w) :
    (l.dismiss id).load < l.load := by
  have hid := List.find?_some h
  have hlt : (l.watchdogs.filter (·.id != id)).length < l.watchdogs.length :=
    List.length_filter_lt_length_iff_exists.2
      ⟨w, List.mem_of_find?_eq_some h, by simpa using hid⟩
  exact Nat.add_lt_add_right (Nat.add_lt_add_right hlt _) _

/-- The tasks of a closed link end, one in each step. -/
theorem load_of_closed (hc : l.channel.closed) (hs : l.step? t = some m) (ht : t ≠ .debuggee) :
    m.channel.closed ∧ m.load < l.load := by
  have hopen (ho : l.channel.closed = false) : m.channel.closed ∧ m.load < l.load :=
    absurd (ho.symm.trans hc) nofun
  cases t with
  | reader =>
    cases readerTurn_some hs with
    | leaves hr => exact ⟨hc, by simp [load, hr]⟩
    | takes _ ho | hands _ ho | misplaced _ ho | malformed _ ho | ended _ ho => exact hopen ho
  | writer =>
    cases writerTurn_some hs with
    | leaves hw => exact ⟨hc, by simp [load, stopWriting, hw]⟩
    | looks _ ho | breaks _ ho | expires _ ho | continues _ ho | finishes _ ho => exact hopen ho
  | watchdog id =>
    cases watchdogTurn_some hs with
    | leaves hw => exact ⟨hc, load_dismiss hw⟩
    | expires _ ho | dismissed _ ho => exact hopen ho
  | debuggee => exact absurd rfl ht

/-- A link that rests, or is closed, has one task less after each step. -/
theorem load_step (h : Resting l ∨ l.channel.closed) (hs : l.step? t = some m)
    (ht : t ≠ .debuggee) : (Resting m ∨ m.channel.closed) ∧ m.load < l.load := by
  rcases h with h | hc
  · cases h.step_lapses hs ht with
    | writer _ hw =>
      exact ⟨.inr (Channel.fail_closed _ _), by simp [load, stopWriting, fail, hw]⟩
    | reply _ hw => exact ⟨.inr (Channel.fail_closed _ _), load_dismiss hw⟩
    | dismissed hf hw => exact ⟨.inl (h.dismiss hf).1, load_dismiss hw⟩
  · obtain ⟨hm, hlt⟩ := load_of_closed hc hs ht
    exact ⟨.inr hm, hlt⟩

/-- The tasks of a link that rests, or is closed, come to an end. -/
theorem exists_settled (h : Resting l ∨ l.channel.closed) : ∃ m, Works l m ∧ m.Settled := by
  induction hn : l.load using Nat.strong_induction_on generalizing l with
  | _ n ih =>
    by_cases hsettled : l.Settled
    · exact ⟨l, .refl, hsettled⟩
    obtain ⟨t, ht, hstep⟩ : ∃ t, t ≠ .debuggee ∧ l.step? t ≠ none := by
      simpa [Settled] using hsettled
    obtain ⟨k, hk⟩ := Option.ne_none_iff_exists'.1 hstep
    obtain ⟨hnext, hlt⟩ := load_step h hk ht
    obtain ⟨m, hm, hend⟩ := ih k.load (hn ▸ hlt) hnext rfl
    exact ⟨m, .head ⟨t, ht, hk⟩ hm, hend⟩

/-- The reader has no part in what is timed. -/
theorem readerStep_keeps (h : l.readerStep? = some m) :
    m.now = l.now ∧ m.timeout = l.timeout ∧ m.watchdogs = l.watchdogs := by
  cases readerTurn_some h <;> exact ⟨rfl, rfl, rfl⟩

/-- A watchdog ends by itself or with the channel, but only beside another command or at its
deadline. -/
theorem watchdogStep_keeps (h : l.watchdogStep? id = some m) :
    m.now = l.now ∧ m.timeout = l.timeout ∧ m.watchdogs = (l.dismiss id).watchdogs ∧
      (m.channel.closed = false → l.channel.inFlight.any (·.id == id) = false) := by
  cases watchdogTurn_some h with
  | leaves _ hc => exact ⟨rfl, rfl, rfl, fun ho => absurd (ho.symm.trans hc) nofun⟩
  | expires =>
    exact ⟨rfl, rfl, rfl, fun ho => absurd (ho.symm.trans (Channel.fail_closed _ _)) nofun⟩
  | dismissed _ _ _ hf => exact ⟨rfl, rfl, rfl, fun _ => hf⟩

@[simp] theorem beginWriting_now (l : Link) : l.beginWriting.now = l.now := by
  rcases l.beginWriting_cases with ⟨-, h⟩ | ⟨r, c, -, h⟩ <;> rw [h]

@[simp] theorem beginWriting_timeout (l : Link) : l.beginWriting.timeout = l.timeout := by
  rcases l.beginWriting_cases with ⟨-, h⟩ | ⟨r, c, -, h⟩ <;> rw [h]

@[simp] theorem beginWriting_watchdogs (l : Link) : l.beginWriting.watchdogs = l.watchdogs := by
  rcases l.beginWriting_cases with ⟨-, h⟩ | ⟨r, c, -, h⟩ <;> rw [h]

/-- No task moves the clock. -/
theorem step_clock (h : l.step? t = some m) : m.now = l.now ∧ m.timeout = l.timeout := by
  cases t with
  | reader => exact ⟨(readerStep_keeps h).1, (readerStep_keeps h).2.1⟩
  | watchdog id => exact ⟨(watchdogStep_keeps h).1, (watchdogStep_keeps h).2.1⟩
  | debuggee =>
    obtain ⟨s, -, rfl⟩ := Option.map_eq_some_iff.1 h
    exact ⟨rfl, rfl⟩
  | writer =>
    cases writerTurn_some h with
    | leaves | breaks | expires | continues => exact ⟨rfl, rfl⟩
    | looks | finishes => exact ⟨beginWriting_now _, beginWriting_timeout _⟩

/-- What was written stays. -/
theorem step_written (h : l.step? t = some m) : l.stream.written <+: m.stream.written := by
  cases t with
  | reader => exact (readerStep_run h).2.2 ▸ List.prefix_rfl
  | watchdog id => exact (watchdogStep_run h).2.2 ▸ List.prefix_rfl
  | debuggee =>
    obtain ⟨s, hs, rfl⟩ := Option.map_eq_some_iff.1 h
    exact (debuggeeStep_keeps hs).1 ▸ List.prefix_rfl
  | writer =>
    cases writerTurn_some h with
    | leaves | breaks | expires => exact List.prefix_rfl
    | looks => exact (beginWriting_stream _).symm ▸ List.prefix_rfl
    | continues => exact List.prefix_append _ _
    | finishes =>
      rw [beginWriting_stream]
      exact List.prefix_append _ _

/-- Beside the writer's, no watchdog begins, and none ends but beside another command or with the
channel. -/
theorem step_watchdogs (h : l.step? t = some m) (ht : t ≠ .writer) :
    Run (· = .settle) l.channel m.channel ∧ m.writer = l.writer ∧ m.watchdogs ⊆ l.watchdogs ∧
      (m.channel.closed = false → ∀ w ∈ l.watchdogs,
        l.channel.inFlight.any (·.id == w.id) → w ∈ m.watchdogs) := by
  cases t with
  | reader =>
    rw [(readerStep_keeps h).2.2]
    obtain ⟨hr, hw, -⟩ := readerStep_run h
    exact ⟨hr, hw, List.Subset.refl _, fun _ _ hw _ => hw⟩
  | writer => exact absurd rfl ht
  | watchdog id =>
    obtain ⟨-, -, hrest, hother⟩ := watchdogStep_keeps h
    obtain ⟨hr, hw, -⟩ := watchdogStep_run h
    rw [hrest]
    refine ⟨hr, hw, List.filter_subset_self _, ?_⟩
    intro ho w hw hf
    refine List.mem_filter.2 ⟨hw, ?_⟩
    have hne : w.id ≠ id := by
      rintro rfl
      exact absurd (hf.symm.trans (hother ho)) nofun
    simpa using hne
  | debuggee =>
    obtain ⟨s, -, rfl⟩ := Option.map_eq_some_iff.1 h
    exact ⟨.refl, rfl, List.Subset.refl _, fun _ _ hw _ => hw⟩

/-- A command that the writer begins is new on the wire, and its time begins. -/
theorem begins (hl : l.channel.Ledger) (hw : l.beginWriting.writer = .writing id rest deadline) :
    deadline = l.now + l.timeout ∧ id ∈ sentIn l.beginWriting.channel.journal ∧
      id ∉ sentIn l.channel.journal := by
  rcases l.beginWriting_cases with ⟨-, h⟩ | ⟨r, c, hs, h⟩ <;> rw [h] at hw ⊢
  · cases hw
  · cases hw
    obtain ⟨others, ho, hf, hwaiting, rfl⟩ := Channel.sendNext?_eq_some hs
    refine ⟨rfl, by simp, ?_⟩
    rw [hl.slot ho, hf]
    simpa using (hl.waiting_fresh (r := r) (by simp [hwaiting])).1

/-- A writer that begins nothing leaves the channel as it is. -/
theorem beginWriting_idle (hw : l.beginWriting.writer = .idle) :
    l.beginWriting.channel = l.channel := by
  rcases l.beginWriting_cases with ⟨-, h⟩ | ⟨r, c, hs, h⟩ <;> rw [h] at hw ⊢
  cases hw

end Link

namespace Traffic
variable {t u s : Traffic} {past pre post : List Traffic} {id deadline : Nat}
  {p : Traffic → Prop}

/-- A run that goes through the moments of `past`, in order, and has come to `t`. -/
inductive History : List Traffic → Traffic → Prop where
  | opened {l : Link} (h : l.Opened) : History [] { link := l }
  | step {past : List Traffic} {t u : Traffic} (h : History past t) (hs : Step t u) :
      History (past ++ [t]) u

/-- The clock of a link has moved. -/
def elapse (t : Traffic) (now : Nat) : Traffic := { t with link := { t.link with now } }

/-- A command is stalled: it has not been all written though it was put on the wire `timeout` ago or
earlier, or it is in flight though it was all written `timeout` ago or earlier. -/
def Stalled (past : List Traffic) (t : Traffic) (id : Nat) : Prop :=
  (¬ t.Whole id ∧ ∃ s ∈ past ++ [t], s.Sent id ∧ s.link.now + t.link.timeout ≤ t.link.now) ∨
    (t.InFlight id ∧ ∃ s ∈ past ++ [t], s.Whole id ∧ s.link.now + t.link.timeout ≤ t.link.now)

/-- A command that was all written and answered is not stalled. -/
theorem Stalled.undone (h : Stalled past t id) : ¬ (t.Whole id ∧ (t.outcome? id).isSome) := by
  rintro ⟨hw, ho⟩
  rcases h with ⟨hn, -⟩ | ⟨⟨-, hn⟩, -⟩
  · exact hn hw
  · rw [hn] at ho
    cases ho

/-- A time ends `timeout` after the first moment of a run at which something was so. -/
structure Ends (past : List Traffic) (t : Traffic) (p : Traffic → Prop) (deadline : Nat) :
    Prop where
  since : ∃ s ∈ past ++ [t], p s ∧ s.link.now + t.link.timeout = deadline
  least : ∀ s ∈ past ++ [t], p s → deadline ≤ s.link.now + t.link.timeout

theorem clock_step (hs : Step t u) :
    t.link.now ≤ u.link.now ∧ u.link.timeout = t.link.timeout := by
  cases hs with
  | tick now h => exact ⟨h, rfl⟩
  | task _ hs =>
    obtain ⟨hnow, htimeout⟩ := Link.step_clock hs
    exact ⟨Nat.le_of_eq hnow.symm, htimeout⟩
  | _ => exact ⟨Nat.le_refl _, rfl⟩

theorem clock_future (hf : Future t u) : t.link.now ≤ u.link.now := by
  induction hf with
  | refl => exact Nat.le_refl _
  | tail _ hs ih => exact Nat.le_trans ih (clock_step hs).1

theorem Sent.future (h : t.Sent id) (hf : Future t u) : u.Sent id := by
  obtain ⟨k, hk⟩ := Channel.run_journal (future_run hf)
  rw [Sent, ← hk]
  simp only [Channel.told_append]
  exact List.mem_append_left _ h

theorem written_mono (hf : Future t u) : t.link.stream.written <+: u.link.stream.written := by
  induction hf with
  | refl => exact List.prefix_rfl
  | tail _ hs ih =>
    refine ih.trans ?_
    cases hs with
    | task _ hs => exact Link.step_written hs
    | outside _ hs => exact hs ▸ List.prefix_rfl
    | _ => exact List.prefix_rfl

theorem Whole.future (h : t.Whole id) (hb : Booked t) (hf : Future t u) : u.Whole id := by
  obtain ⟨pre, r, post, hwire, rfl, hle⟩ := h
  obtain ⟨more, hmore⟩ := Channel.onWire_run (future_run hf) hb.ledger
  refine ⟨pre, r, post ++ more, ?_, rfl, hle.trans (written_mono hf)⟩
  rw [← hmore, hwire]
  simp

namespace History

theorem reachable (h : History past t) : Reachable t := by
  induction h with
  | opened h => exact .opened h
  | step _ hs ih => exact ih.step hs

/-- Every moment that a run went through is where a run came to. -/
theorem parts (h : History past t) (hs : past ++ [t] = pre ++ s :: post) :
    History pre s ∧ Future s t := by
  induction h generalizing post with
  | opened h =>
    cases pre with
    | nil =>
      cases hs
      exact ⟨.opened h, .refl⟩
    | cons q pre => simp at hs
  | @step past t u h hstep ih =>
    rcases List.eq_nil_or_concat' post with rfl | ⟨post, q, rfl⟩
    · obtain ⟨rfl, hlast⟩ := List.append_inj' hs rfl
      cases hlast
      exact ⟨h.step hstep, .refl⟩
    · rw [← List.cons_append, ← List.append_assoc] at hs
      obtain ⟨hs, -⟩ := List.append_inj' hs rfl
      obtain ⟨hb, hf⟩ := ih hs
      exact ⟨hb, hf.tail hstep⟩

theorem moment (h : History past t) (hs : s ∈ past ++ [t]) : Reachable s ∧ Future s t := by
  obtain ⟨pre, post, hsplit⟩ := List.append_of_mem hs
  obtain ⟨hpre, hf⟩ := h.parts hsplit
  exact ⟨hpre.reachable, hf⟩

end History

namespace Ends

/-- A time that runs on. -/
theorem step (h : Ends past t p deadline) (hh : History past t) (hs : Step t u) :
    Ends (past ++ [t]) u p deadline := by
  obtain ⟨hnow, htimeout⟩ := clock_step hs
  obtain ⟨first, hfirst, hp, hd⟩ := h.since
  constructor
  · exact ⟨first, List.mem_append_left _ hfirst, hp, htimeout ▸ hd⟩
  · rw [htimeout]
    intro s hin hps
    rcases List.mem_append.1 hin with hin | hin
    · exact h.least s hin hps
    · obtain rfl := List.mem_singleton.1 hin
      have := clock_future (hh.moment hfirst).2
      omega

/-- A time that begins with a step. -/
theorem first (hh : History past t) (hs : Step t u) 
    (keep : ∀ s, Reachable s → Future s t → p s → p t) (ht : ¬ p t) (hu : p u)
    (hd : deadline = t.link.now + t.link.timeout)
    (hnow : u.link.now = t.link.now) : Ends (past ++ [t]) u p deadline := by
  obtain ⟨-, htimeout⟩ := clock_step hs
  constructor
  · exact ⟨u, by simp, hu, by rw [hnow, htimeout, hd]⟩
  · intro s hin hps
    rcases List.mem_append.1 hin with hin | hin
    · obtain ⟨hreach, hf⟩ := hh.moment hin
      exact absurd (keep s hreach hf hps) ht
    · obtain rfl := List.mem_singleton.1 hin
      rw [hnow, htimeout, hd]

theorem over_iff (h : Ends past t p deadline) :
    deadline ≤ t.link.now ↔
      ∃ s ∈ past ++ [t], p s ∧ s.link.now + t.link.timeout ≤ t.link.now := by
  constructor
  · intro hle
    obtain ⟨s, hs, hp, hd⟩ := h.since
    exact ⟨s, hs, hp, hd ▸ hle⟩
  · rintro ⟨s, hs, hp, hle⟩
    exact Nat.le_trans (h.least s hs hp) hle

end Ends

/-- The moments that the tasks of a link wait for, in terms of what has happened. -/
structure Timed (past : List Traffic) (t : Traffic) : Prop where
  writing : ∀ id rest deadline, t.link.writer = .writing id rest deadline →
    Ends past t (·.Sent id) deadline
  replies : ∀ w ∈ t.link.watchdogs, Ends past t (·.Whole w.id) w.deadline
  watched : t.link.channel.closed = false → t.link.writer = .idle → ∀ id, t.InFlight id →
    ∃ w ∈ t.link.watchdogs, w.id = id

/-- The command in flight is the last that was put on the wire. -/
theorem last_of_inFlight {pre : List Channel.Request} {r : Channel.Request} (hb : Booked t)
    (ho : t.link.channel.closed = false) (hi : t.InFlight id)
    (hwire : t.link.channel.onWire = pre ++ [r]) : r.id = id := by
  obtain ⟨q, hq, rfl⟩ := Option.map_eq_some_iff.1 (hb.inFlight_iff.1 hi)
  have hslot := hb.ledger.slot ho
  rw [← hb.ledger.onWire_ids, hwire, hq, List.map_append] at hslot
  exact List.singleton_inj.1 (List.append_inj' hslot rfl).2

theorem InFlight.of_run (h : u.InFlight id) (hb : Booked t) (hu : Booked u)
    (hr : Run (· ≠ .send) t.link.channel u.link.channel) : t.InFlight id := by
  refine ⟨by simpa only [Sent, Channel.run_sent hr] using h.1, ?_⟩
  rw [Option.eq_none_iff_forall_ne_some]
  intro o ho
  have hanswer := Channel.answersIn_mono (Channel.run_journal hr) (hb.ledger.outcome?_eq_some.1 ho)
  cases (hu.ledger.outcome?_eq_some.2 hanswer).symm.trans h.2

/-- Times go on in a step that puts nothing on the wire. -/
theorem Timed.keep (h : Timed past t) (hh : History past t) (hs : Step t u)
    (hr : Run (· ≠ .send) t.link.channel u.link.channel) (hw : u.link.writer = t.link.writer)
    (hsub : u.link.watchdogs ⊆ t.link.watchdogs)
    (hrest : u.link.channel.closed = false → ∀ w ∈ t.link.watchdogs,
      t.link.channel.inFlight.any (·.id == w.id) → w ∈ u.link.watchdogs) :
    Timed (past ++ [t]) u where
  writing id rest deadline hwriter := (h.writing id rest deadline (hw ▸ hwriter)).step hh hs
  replies w hin := (h.replies w (hsub hin)).step hh hs
  watched ho hidle id hi := by
    have hb := booked_reachable hh.reachable
    have hflight := hi.of_run hb (booked_step hs hb) hr
    obtain ⟨w, hin, rfl⟩ := h.watched (Channel.open_of_run hr ho) (hw ▸ hidle) id hflight
    exact ⟨w, hrest ho w hin (isInFlight_iff.2 (by simpa using hb.inFlight_iff.1 hflight)), rfl⟩

/-- A command that the writer begins. -/
theorem timed_begin {l : Link} (hh : History past t) (hs : Step t { t with link := l.beginWriting })
    (hl : l.channel.Ledger) (hsent : sentIn l.channel.journal = sentIn t.link.channel.journal)
    (hnow : l.now = t.link.now) (htimeout : l.timeout = t.link.timeout) (id : Nat)
    (rest : List UInt8) (deadline : Nat) (hw : l.beginWriting.writer = .writing id rest deadline) :
    Ends (past ++ [t]) { t with link := l.beginWriting } (·.Sent id) deadline := by
  obtain ⟨hd, hnew, hold⟩ := Link.begins hl hw
  refine Ends.first hh hs (fun s _ hf hp => hp.future hf) (fun ht => hold ?_) hnew ?_ ?_
  · exact hsent ▸ ht
  · rw [hd, hnow, htimeout]
  · exact (Link.beginWriting_now l).trans hnow

/-- A command is all written when the writer has nothing more of it in hand. -/
theorem whole_of_finishes {rest : List UInt8} {pre : List Channel.Request} {r : Channel.Request}
    (hb : Booked t) (hs : Step t { t with link := ((t.link.wrote rest).watch r.id).beginWriting })
    (hw : t.link.writer = .writing r.id rest deadline) (hd : rest.drop t.link.stream.room = [])
    (hwire : t.link.channel.onWire = pre ++ [r]) :
    Whole { t with link := ((t.link.wrote rest).watch r.id).beginWriting } r.id := by
  obtain ⟨more, hmore⟩ := Channel.onWire_run (step_run hs) hb.ledger
  refine ⟨pre, r, more, by rw [← hmore, hwire]; simp, rfl, ?_⟩
  have hwhole := hb.wired.whole (by simp [hw])
  rw [hw, Channel.Writer.inHand, hwire] at hwhole
  have hall : rest.take t.link.stream.room = rest := List.take_of_length_le (by simpa using hd)
  rw [← hwhole, Link.beginWriting_stream]
  simp [Link.watch, Link.wrote, Stream.write, hall]

theorem timed_writer {l : Link} (h : Timed past t) (hh : History past t)
    (hs : t.link.step? .writer = some l) : Timed (past ++ [t]) { t with link := l } := by
  have hstep : Step t { t with link := l } := .task .writer hs
  have hb := booked_reachable hh.reachable
  have hm := manned_reachable hh.reachable
  have same (w) (hin : w ∈ t.link.watchdogs) := (h.replies w hin).step hh hstep
  cases Link.writerTurn_some hs with
  | leaves | breaks | expires => exact ⟨nofun, same, fun _ => nofun⟩
  | continues hw =>
    refine ⟨?_, same, fun _ => nofun⟩
    rintro _ _ _ ⟨⟩
    exact (h.writing _ _ _ hw).step hh hstep
  | looks hw ho =>
    have hlook := Channel.ledger_step .look hb.ledger
    refine ⟨timed_begin hh hstep hlook rfl rfl rfl, ?_, ?_⟩
    · intro w hin
      rw [Link.beginWriting_watchdogs] at hin
      exact same w hin
    · intro hopen hidle id hi
      rw [InFlight, Sent, outcome?, Link.beginWriting_idle hidle] at hi
      rw [Link.beginWriting_watchdogs]
      exact h.watched ho hw id hi
  | finishes hw ho hg hroom hd =>
    -- the command in hand is written to its end, and from now on its reply is due
    obtain ⟨-, pre, r, hwire, rfl, -⟩ := hm.hand _ _ _ hw
    refine ⟨timed_begin hh hstep hb.ledger rfl rfl rfl, ?_, ?_⟩
    · intro w hin
      rw [Link.beginWriting_watchdogs] at hin
      rcases List.mem_append.1 hin with hin | hin
      · exact same w hin
      · obtain rfl := List.mem_singleton.1 hin
        refine Ends.first hh hstep (fun s hs hf hp => hp.future (booked_reachable hs) hf)
          (not_whole_of_writing hb hm hw) ?_ rfl (Link.beginWriting_now _)
        exact whole_of_finishes hb hstep hw hd hwire
    · intro hopen hidle id hi
      rw [InFlight, Sent, outcome?, Link.beginWriting_idle hidle] at hi
      refine ⟨⟨r.id, t.link.now + t.link.timeout⟩, ?_, last_of_inFlight hb ho hi hwire⟩
      rw [Link.beginWriting_watchdogs]
      exact List.mem_append_right _ (List.mem_singleton_self _)

theorem timed_step (h : Timed past t) (hh : History past t) (hs : Step t u) :
    Timed (past ++ [t]) u := by
  have hstep := hs
  cases hs with
  | submit _ hs =>
    exact h.keep hh hstep ((Channel.submit_step hs).run (by simp)) rfl (List.Subset.refl _)
      fun _ _ hw _ => hw
  | cancel _ _ hs =>
    exact h.keep hh hstep ((Channel.withdraw_step hs).run (by simp)) rfl (List.Subset.refl _)
      fun _ _ hw _ => hw
  | close =>
    exact h.keep hh hstep (Channel.run_mono (fun _ ha => by simp [ha]) (Channel.fail_run _)) rfl
      (List.Subset.refl _) fun _ _ hw _ => hw
  | forget | receive | outside | tick =>
    exact h.keep hh hstep .refl rfl (List.Subset.refl _) fun _ _ hw _ => hw
  | task task hs =>
    by_cases ht : task = .writer
    · subst ht
      exact timed_writer h hh hs
    · obtain ⟨hr, hw, hsub, hrest⟩ := Link.step_watchdogs hs ht
      exact h.keep hh hstep (Channel.run_mono (fun _ ha => by simp [ha]) hr) hw hsub hrest

theorem timed_history (h : History past t) : Timed past t := by
  induction h with
  | opened h =>
    obtain ⟨timeout, bodyLimit, stream, -, rfl⟩ := h
    refine ⟨nofun, nofun, fun _ _ id hi => ?_⟩
    exact absurd hi.1 List.not_mem_nil
  | step hh hs ih => exact timed_step ih hh hs

theorem exists_history (h : Reachable t) : ∃ past, History past t := by
  induction h with
  | opened h => exact ⟨[], .opened h⟩
  | step _ hs ih =>
    obtain ⟨past, h⟩ := ih
    exact ⟨_, h.step hs⟩

theorem Whole.sent (h : t.Whole id) (hb : Booked t) : t.Sent id := by
  obtain ⟨pre, r, post, hwire, rfl, -⟩ := h
  rw [Sent, ← hb.ledger.onWire_ids, hwire]
  simp

/-- A watchdog is for a command that was put on the wire. -/
theorem sent_of_watchdog (h : Reachable t) {w : Channel.Watchdog} (hw : w ∈ t.link.watchdogs) :
    t.Sent w.id := by
  obtain ⟨past, hh⟩ := exists_history h
  obtain ⟨s, hs, hwhole, -⟩ := ((timed_history hh).replies w hw).since
  obtain ⟨hreach, hf⟩ := hh.moment hs
  exact (hwhole.sent (booked_reachable hreach)).future hf

/-- What is not all written is what the writer has in hand. -/
theorem writing_of_not_whole (hb : Booked t) (hm : t.link.Manned)
    (ho : t.link.channel.closed = false) (hs : t.Sent id) (hw : ¬ t.Whole id) :
    ∃ rest deadline, t.link.writer = .writing id rest deadline := by
  cases hwriter : t.link.writer with
  | idle => exact absurd (whole_of_idle hb hwriter hs) hw
  | stopped => exact absurd hwriter (hm.stays ho)
  | writing i rest deadline =>
    by_cases hi : id = i
    · exact ⟨rest, deadline, by rw [hi]⟩
    · exact absurd (whole_of_writing hb hm hwriter hs hi) hw

/-- When the command in flight is all written, the writer has nothing in hand. -/
theorem idle_of_whole (hb : Booked t) (hm : t.link.Manned) (ho : t.link.channel.closed = false)
    (hi : t.InFlight id) (hw : t.Whole id) : t.link.writer = .idle := by
  cases hwriter : t.link.writer with
  | idle => rfl
  | stopped => exact absurd hwriter (hm.stays ho)
  | writing i rest deadline =>
    obtain ⟨-, pre, r, hwire, rfl, -⟩ := hm.hand _ _ _ hwriter
    have hlast := last_of_inFlight hb ho hi hwire
    exact absurd hw (not_whole_of_writing hb hm (hlast ▸ hwriter))

/-- The time of a task is up just when a command is stalled. -/
theorem stalled_iff_due (h : History past t) (ho : t.link.channel.closed = false) :
    (∃ id, Stalled past t id) ↔ t.link.Due := by
  have hb := booked_reachable h.reachable
  have hm := manned_reachable h.reachable
  have ht := timed_history h
  constructor
  · rintro ⟨id, ⟨hw, s, hs, hsent, hle⟩ | ⟨hi, s, hs, hwhole, hle⟩⟩
    · obtain ⟨rest, deadline, hwriter⟩ :=
        writing_of_not_whole hb hm ho (hsent.future (h.moment hs).2) hw
      exact .inl ⟨id, rest, deadline, hwriter, (ht.writing _ _ _ hwriter).over_iff.2 ⟨s, hs, hsent, hle⟩⟩
    · have hw := hwhole.future (booked_reachable (h.moment hs).1) (h.moment hs).2
      obtain ⟨w, hin, rfl⟩ := ht.watched ho (idle_of_whole hb hm ho hi hw) id hi
      obtain ⟨v, hv⟩ : ∃ v, t.link.watchdogs.find? (·.id == w.id) = some v :=
        Option.isSome_iff_exists.1 (List.find?_isSome.2 ⟨w, hin, by simp⟩)
      have hid : v.id = w.id := by simpa using List.find?_some hv
      refine .inr ⟨w.id, v, hv, ?_, isInFlight_iff.2 (by simpa using hb.inFlight_iff.1 hi)⟩
      exact (ht.replies v (List.mem_of_find?_eq_some hv)).over_iff.2 ⟨s, hs, hid ▸ hwhole, hle⟩
  · rintro (⟨id, rest, deadline, hw, hover⟩ | ⟨id, w, hw, hover, hi⟩)
    · exact ⟨id, .inl ⟨not_whole_of_writing hb hm hw, (ht.writing _ _ _ hw).over_iff.1 hover⟩⟩
    · have hid : w.id = id := by simpa using List.find?_some hw
      refine ⟨id, .inr ⟨hb.inFlight_iff.2 (by simpa using isInFlight_iff.1 hi), ?_⟩⟩
      exact hid ▸ (ht.replies w (List.mem_of_find?_eq_some hw)).over_iff.1 hover

/-- A step that ends an open channel with a time-out finds a command stalled. -/
theorem stalled_of_timeout (h : History past t) (ho : t.link.channel.closed = false)
    (hs : Step t u) (hu : closingsIn u.link.channel.journal = [.timeout]) :
    ∃ id, Stalled past t id := by
  have hnone := (open_reachable h.reachable ho).2
  have hc : u.link.channel.closed := by
    cases hopen : u.link.channel.closed with
    | true => rfl
    | false =>
      rw [Channel.closings_run (step_run hs) (fun _ => hnone) hopen] at hu
      cases hu
  obtain ⟨error, hcause, hfail⟩ := cause_of_step hs ho hc
  rw [hfail, Channel.fail_eq ho] at hu
  have htold : closingsIn (t.link.channel.journal ++
      Channel.ending t.link.channel.outstanding error) = [error] :=
    Channel.told_append.trans (congrArg₂ (· ++ ·) hnone (Channel.closingsIn_ending _ _))
  obtain rfl : error = .timeout := List.singleton_inj.1 (htold.symm.trans hu)
  exact (stalled_iff_due h ho).2 (Link.due_of_cause hcause rfl)

/-- A channel times out just when a command is stalled. A step that ends it with a time-out finds a
command stalled, never one that was all written and answered; at no moment before, when all its
tasks had come to rest, was there any; and when all have come to rest and the clock moves on, by
however much, they come to rest again, and the channel has timed out if a command is stalled and is
open if none is. -/
theorem times_out_iff_stalled (h : History past t) (ho : t.link.channel.closed = false) :
    (∀ u, Step t u → closingsIn u.link.channel.journal = [.timeout] →
      ∃ id, Stalled past t id ∧ ¬ (t.Whole id ∧ (t.outcome? id).isSome)) ∧
    (∀ pre s post, past ++ [t] = pre ++ s :: post → s.link.Settled → ∀ id, ¬ Stalled pre s id) ∧
    (t.link.Settled → ∀ now, t.link.now ≤ now →
      (∃ m, Link.Works (t.elapse now).link m ∧ m.Settled) ∧
      ∀ m, Link.Works (t.elapse now).link m → m.Settled →
        ((∃ id, Stalled (past ++ [t]) (t.elapse now) id) ∧
          closingsIn m.channel.journal = [.timeout]) ∨
        ((∀ id, ¬ Stalled (past ++ [t]) (t.elapse now) id) ∧ m.channel.closed = false)) := by
  refine ⟨?_, ?_, ?_⟩
  · intro u hs hu
    obtain ⟨id, hstalled⟩ := stalled_of_timeout h ho hs hu
    exact ⟨id, hstalled, hstalled.undone⟩
  · intro pre s post hsplit hsettled id hstalled
    obtain ⟨hpre, hf⟩ := h.parts hsplit
    have hopen := Channel.open_of_run (future_run hf) ho
    exact hsettled.not_due hopen ((stalled_iff_due hpre hopen).1 ⟨id, hstalled⟩)
  · intro hsettled now hnow
    have hrest := hsettled.resting ho now
    have hiff := stalled_iff_due (t := t.elapse now) (h.step (.tick now hnow)) ho
    refine ⟨Link.exists_settled (.inl hrest), ?_⟩
    intro m hw hm
    have hb := booked_reachable h.reachable
    rcases hrest.works hb.ledger (open_reachable h.reachable ho).2 hw with
      ⟨hrests, hdue⟩ | ⟨hdue, -, htold⟩
    · refine .inr ⟨fun id hstalled => ?_, hrests.opened⟩
      exact hm.not_due hrests.opened (hdue.2 (hiff.1 ⟨id, hstalled⟩))
    · exact .inl ⟨hiff.2 hdue, htold⟩

/-- The watchdog of a command that was answered ends without effect, and that of the next one, all
written five ticks later, ends the channel five ticks later. -/
theorem times_out_iff_stalled_second : ∃ past t, History past t ∧ t.link.Settled ∧
    t.link.now = 5 ∧ t.link.watchdogs = [⟨1, 10⟩, ⟨2, 15⟩] ∧
    (∀ m, Link.Works (t.elapse 10).link m → m.Settled → m.channel.closed = false) ∧
    ∀ m, Link.Works (t.elapse 15).link m → m.Settled →
      closingsIn m.channel.journal = [.timeout] := by
  obtain ⟨past, t, h, hs, ho, hnow, hwriter, hdogs, hflight⟩ : ∃ past t, History past t ∧
      t.link.Settled ∧ t.link.channel.closed = false ∧ t.link.now = 5 ∧ t.link.writer = .idle ∧
      t.link.watchdogs = [⟨1, 10⟩, ⟨2, 15⟩] ∧ t.link.channel.inFlight.map (·.id) = some 2 := by
    have h : History [] { link := { timeout := 10, bodyLimit := 100 } } :=
      .opened ⟨10, 100, {}, rfl, rfl⟩
    have h := h.step (.submit { name := .stack } rfl)
    have h := h.step (.task .writer rfl)
    have h := h.step (.task .writer rfl)
    have h := h.step (.outside
      { arriving := Text.bytes "200 OK 0\n", written := Text.bytes "STACK\n" } (by decide))
    have h := h.step (.task .reader rfl)
    have h := h.step (.task .reader rfl)
    have h := h.step (.submit { name := .run } rfl)
    have h := h.step (.tick 5 (by decide))
    have h := h.step (.task .writer rfl)
    have h := h.step (.task .writer rfl)
    refine ⟨_, _, h, Link.settled_of rfl rfl ?_, rfl, rfl, rfl, rfl, rfl⟩
    exact List.forall_mem_cons.2 ⟨rfl, List.forall_mem_singleton.2 rfl⟩
  have hall := (times_out_iff_stalled h ho).2.2 hs
  obtain ⟨r, hr, hid⟩ := Option.map_eq_some_iff.1 hflight
  refine ⟨past, t, h, hs, hnow, hdogs, fun m hw hm => ?_, fun m hw hm => ?_⟩
  · have hlater : t.link.now ≤ 10 := by omega
    rcases (hall 10 hlater).2 m hw hm with ⟨hstalled, -⟩ | ⟨-, hopen⟩
    · have hdue := (stalled_iff_due (h.step (.tick 10 hlater)) ho).1 hstalled
      rcases hdue with ⟨_, _, _, hwriting, -⟩ | ⟨id, w, hw, ht, hf⟩
      · exact absurd (hwriter.symm.trans hwriting) nofun
      · obtain rfl : 2 = id := by simpa [elapse, hr, hid] using hf
        simp only [hdogs] at hw ht
        cases hw
        exact absurd ht (by decide)
    · exact hopen
  · have hlater : t.link.now ≤ 15 := by omega
    rcases (hall 15 hlater).2 m hw hm with ⟨-, htold⟩ | ⟨hnone, -⟩
    · exact htold
    · have hdue : (t.elapse 15).link.Due := by
        refine .inr ⟨2, ⟨2, 15⟩, ?_, Nat.le_refl _, ?_⟩
        · simp [elapse, hdogs]
        · simp [elapse, hr, hid]
      obtain ⟨id, hid⟩ := (stalled_iff_due (h.step (.tick 15 hlater)) ho).2 hdue
      exact absurd hid (hnone id)

end Traffic
end MobDebug
