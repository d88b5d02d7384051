import MobDebug.Proofs.Channel.Failure
import MobDebug.Proofs.Channel.Tasks

/-! The writer of a link. It is told of every command that it could send, it stops only with the
channel, and the command that it writes is the last that was put in flight: so no command waits
without a cause. -/
namespace MobDebug
open Wire (Command CommandName)
open Channel (Request Run linesOf answersIn sentIn)

namespace Channel
variable {c d : Channel} {a : Act} {r : Request}

/-- Whatever could be sent, the writer has been told of. -/
def Alert (c : Channel) : Prop :=
  c.closed = false → c.waiting = [] ∨ c.inFlight.isSome ∨ c.signalled

theorem alert_initial : Alert {} := fun _ => .inl rfl

/-- Nobody but the writer puts its notice aside. -/
theorem alert_step (hs : Step c a d) (ha : a ≠ .send) (h : Alert c) : Alert d := by
  intro ho
  cases hs with
  | submit => exact .inr (.inr rfl)
  | @withdraw id _ =>
    rcases h ho with hw | hcause
    · exact .inl (by rw [hw]; rfl)
    · exact .inr hcause
  | look | send => exact absurd rfl ha
  | answer => exact .inr (.inr rfl)
  | event => exact h ho
  | fail => cases ho

theorem alert_run (hs : Run (· ≠ .send) c d) (h : Alert c) : Alert d := by
  induction hs with
  | refl => exact h
  | tail _ hs ih =>
    obtain ⟨a, ha, hs⟩ := hs
    exact alert_step hs ha ih

/-- Where nothing may be sent, nothing needs to be told. -/
theorem alert_of_none (h : c.sendNext? = none) : Alert c := by
  intro ho
  unfold sendNext? at h
  split at h
  · cases h
  · next hno =>
    cases hw : c.waiting with
    | nil => exact .inl rfl
    | cons r rest =>
      refine .inr (.inl (Option.isSome_iff_ne_none.2 fun hf => ?_))
      exact hno r rest ho hf hw

theorem alert_of_some (h : c.sendNext? = some (r, d)) : Alert d := by
  obtain ⟨rest, -, -, -, rfl⟩ := sendNext?_eq_some h
  exact fun _ => .inr (.inl rfl)

/-- The line of a command that was accepted is not empty. -/
theorem Ledger.line_ne_nil (h : Ledger c) (hr : r ∈ acceptedIn c.journal) :
    Text.bytes r.line ≠ [] := by
  obtain ⟨command, he, -⟩ := h.encoded r hr
  obtain ⟨text, htext, -⟩ := Wire.Command.bytes_of_encode he
  rw [htext]
  exact List.concat_ne_nil _ _

end Channel

namespace Link
variable {l m : Link} {t : Task} {id : Nat} {rest : List UInt8} {deadline : Nat}

/-- The writer of an open channel has not stopped, all that it could send it has been told of, and
what it has in hand belongs to the command that was put in flight last. -/
structure Manned (l : Link) : Prop where
  alert : l.channel.Alert
  stays : l.channel.closed = false → l.writer ≠ .stopped
  hand : ∀ id rest deadline, l.writer = .writing id rest deadline →
    rest ≠ [] ∧ ∃ pre r, l.channel.onWire = pre ++ [r] ∧ r.id = id ∧ rest <:+ Text.bytes r.line

/-- Nobody but the writer puts commands in flight and writes. -/
theorem Manned.of_run (h : Manned l) (hl : l.channel.Ledger)
    (hr : Run (· ≠ .send) l.channel m.channel) (hw : m.writer = l.writer) : Manned m where
  alert := Channel.alert_run hr h.alert
  stays ho := hw ▸ h.stays (Channel.open_of_run hr ho)
  hand := by
    rw [hw, Channel.onWire_eq_of_run hr hl]
    exact h.hand

/-- A writer that has stopped has nothing in hand. -/
theorem manned_stopped (ha : m.channel.Alert) (hc : m.channel.closed) (hw : m.writer = .stopped) :
    Manned m where
  alert := ha
  stays ho := absurd (ho.symm.trans hc) nofun
  hand id rest deadline hm := by cases hw.symm.trans hm

theorem manned_beginWriting (hl : l.channel.Ledger) : Manned l.beginWriting := by
  rcases l.beginWriting_cases with ⟨hn, h⟩ | ⟨r, c, hs, h⟩ <;> rw [h]
  · exact ⟨Channel.alert_of_none hn, fun _ => nofun, nofun⟩
  · have hd := Channel.ledger_step (Channel.send_step hs) hl
    have hwire := hl.onWire_send hs
    refine ⟨Channel.alert_of_some hs, fun _ => nofun, ?_⟩
    rintro _ _ _ ⟨⟩
    refine ⟨hd.line_ne_nil ?_, _, r, hwire, rfl, List.suffix_rfl⟩
    have hr : r ∈ c.onWire := by simp [hwire]
    exact (List.mem_filter.1 (Channel.onWire_prefix_kept.subset hr)).1

theorem manned_writer (h : l.writerStep? = some m) (hl : l.channel.Ledger) (hm : Manned l) :
    Manned m := by
  have hfail (error : Error) : (l.channel.fail error).Alert :=
    Channel.alert_run (Channel.run_mono (fun _ ha => by simp [ha]) (Channel.fail_run error)) hm.alert
  cases writerTurn_some h with
  | leaves _ hc => exact manned_stopped hm.alert hc rfl
  | looks => exact manned_beginWriting (Channel.ledger_step .look hl)
  | breaks | expires => exact manned_stopped (hfail _) (Channel.fail_closed _ _) rfl
  | continues hw _ _ _ hd =>
    refine ⟨hm.alert, fun _ => nofun, ?_⟩
    obtain ⟨-, pre, r, hwire, hid, hsuffix⟩ := hm.hand _ _ _ hw
    rintro _ _ _ ⟨⟩
    exact ⟨hd, pre, r, hwire, hid, (List.drop_suffix _ _).trans hsuffix⟩
  | finishes => exact manned_beginWriting hl

theorem manned_step (h : l.step? t = some m) (hl : l.channel.Ledger) (hm : Manned l) :
    Manned m := by
  have settle {m : Link} (hr : Run (· = .settle) l.channel m.channel)
      (hw : m.writer = l.writer) : Manned m :=
    hm.of_run hl (Channel.run_mono (fun _ ha => by simp [ha]) hr) hw
  cases t with
  | reader =>
    obtain ⟨hr, hw, -⟩ := readerStep_run h
    exact settle hr hw
  | writer => exact manned_writer h hl hm
  | watchdog id =>
    obtain ⟨hr, hw, -⟩ := watchdogStep_run h
    exact settle hr hw
  | debuggee =>
    obtain ⟨s, -, rfl⟩ := Option.map_eq_some_iff.1 h
    exact settle .refl rfl

/-- The tasks of the channel have nothing left to do before something else happens. -/
def Settled (l : Link) : Prop := ∀ t, t ≠ .debuggee → l.step? t = none

theorem settled_of (hr : l.readerStep? = none) (hw : l.writerStep? = none)
    (hd : ∀ w ∈ l.watchdogs, l.watchdogStep? w.id = none) : Settled l := by
  intro t ht
  cases t with
  | reader => exact hr
  | writer => exact hw
  | watchdog id =>
    cases hfind : l.watchdogs.find? (·.id == id) with
    | none => simp [step?, watchdogStep?, hfind]
    | some w =>
      obtain rfl : w.id = id := by simpa using List.find?_some hfind
      exact hd w (List.mem_of_find?_eq_some hfind)
  | debuggee => exact absurd rfl ht

namespace Settled

/-- Where all tasks wait, a writer that has nothing in hand has looked for commands. -/
theorem looked (h : Settled l) (ho : l.channel.closed = false) (hw : l.writer = .idle) :
    l.channel.signalled = false := by
  cases hs : l.channel.signalled with
  | false => rfl
  | true => exact absurd ((WriterTurn.looks hw ho hs).eq.symm.trans (h .writer nofun)) nofun

/-- Where all tasks wait, a writer that has something in hand waits for room, and for its time to
run out. -/
theorem blocked (h : Settled l) (hw : l.writer = .writing id rest deadline) :
    l.stream.debuggeeGone = false ∧ l.stream.room = 0 ∧ l.now < deadline := by
  have hturn := writerTurn l
  rw [show l.writerStep? = none from h .writer nofun] at hturn
  cases hturn with
  | stopped hw' | sleeps hw' => exact absurd (hw.symm.trans hw') nofun
  | blocked hw' _ hg hroom ht =>
    cases hw.symm.trans hw'
    exact ⟨hg, hroom, ht⟩

end Settled
end Link

namespace Traffic
variable {t u : Traffic} {id : Nat} {rest : List UInt8} {deadline : Nat}

theorem manned_step (hs : Step t u) (hb : Booked t) (h : t.link.Manned) : u.link.Manned := by
  have keep {l : Link} (hr : Run (· ≠ .send) t.link.channel l.channel)
      (hw : l.writer = t.link.writer) : l.Manned := h.of_run hb.ledger hr hw
  cases hs with
  | submit _ hs => exact keep ((Channel.submit_step hs).run (by simp)) rfl
  | cancel _ _ hs => exact keep ((Channel.withdraw_step hs).run (by simp)) rfl
  | close => exact keep (Channel.run_mono (fun _ ha => by simp [ha]) (Channel.fail_run _)) rfl
  | task _ hs => exact Link.manned_step hs hb.ledger h
  | forget | receive | outside | tick => exact keep .refl rfl

theorem manned_reachable (h : Reachable t) : t.link.Manned := by
  induction h with
  | opened h =>
    obtain ⟨timeout, bodyLimit, stream, -, rfl⟩ := h
    exact ⟨Channel.alert_initial, fun _ => nofun, nofun⟩
  | step hr hs ih => exact manned_step hs (booked_reachable hr) ih

/-- All bytes of a command have been written. -/
def Whole (t : Traffic) (id : Nat) : Prop :=
  ∃ pre r post, t.link.channel.onWire = pre ++ r :: post ∧ r.id = id ∧
    linesOf (pre ++ [r]) <+: t.link.stream.written

/-- Where the writer has nothing in hand, all that was put in flight is written. -/
theorem whole_of_idle (hb : Booked t) (hw : t.link.writer = .idle) (hs : t.Sent id) :
    t.Whole id := by
  have hwhole : t.link.stream.written = linesOf t.link.channel.onWire := by
    simpa [hw, Channel.Writer.inHand] using hb.wired.whole (by simp [hw])
  rw [Sent, ← hb.ledger.onWire_ids] at hs
  obtain ⟨r, hr, rfl⟩ := List.mem_map.1 hs
  obtain ⟨pre, post, hwire⟩ := List.append_of_mem hr
  refine ⟨pre, r, post, hwire, rfl, ?_⟩
  rw [hwhole, hwire]
  exact Channel.linesOf_prefix ⟨post, by simp⟩

/-- What the writer has in hand is missing. -/
theorem not_whole_of_writing (hb : Booked t) (hm : t.link.Manned)
    (hw : t.link.writer = .writing id rest deadline) : ¬ t.Whole id := by
  rintro ⟨pre, r, post, hwire, rfl, hle⟩
  obtain ⟨hne, pre', r', hlast, hid, -⟩ := hm.hand _ _ _ hw
  have hwhole := hb.wired.whole (by simp [hw])
  rw [hw, Channel.Writer.inHand] at hwhole
  -- ids on the wire go up, so the command in hand is the last one there, and nowhere else
  have hinc := hb.ledger.kept_ids.sublist (Channel.onWire_prefix_kept.map _).sublist
  obtain rfl : post = [] := by
    rcases List.eq_nil_or_concat' post with hnil | ⟨post, q, rfl⟩
    · exact hnil
    · rw [hwire] at hlast hinc
      rw [← List.cons_append, ← List.append_assoc] at hlast
      obtain rfl : q = r' := (List.append_singleton_inj.1 hlast).2
      rw [List.map_append, List.pairwise_append, List.map_cons, List.pairwise_cons] at hinc
      exact absurd (hinc.2.1.1 q.id (by simp)) (by simp [hid])
  have hlen := hle.length_le
  rw [← hwire, ← hwhole, List.length_append] at hlen
  have := List.length_pos_iff.2 hne
  omega

/-- All that was put in flight is written but what the writer has in hand. -/
theorem whole_of_writing {i : Nat} (hb : Booked t) (hm : t.link.Manned)
    (hw : t.link.writer = .writing id rest deadline) (hs : t.Sent i) (hi : i ≠ id) :
    t.Whole i := by
  obtain ⟨-, pre, r, hwire, rfl, start, hline⟩ := hm.hand _ _ _ hw
  have hwhole := hb.wired.whole (by simp [hw])
  rw [hw, Channel.Writer.inHand, hwire, linesOf, List.flatMap_append, List.flatMap_singleton,
    ← hline, ← List.append_assoc] at hwhole
  have hwritten := List.append_cancel_right hwhole
  rw [Sent, ← hb.ledger.onWire_ids, hwire] at hs
  obtain ⟨q, hq, rfl⟩ : ∃ q ∈ pre, q.id = i := by simpa [hi] using hs
  obtain ⟨before, after, rfl⟩ := List.append_of_mem hq
  refine ⟨before, q, after ++ [r], by simp [hwire], rfl, ?_⟩
  rw [hwritten]
  exact (Channel.linesOf_prefix ⟨after, by simp⟩).trans (List.prefix_append _ _)

/-- A command was put in flight before those that still wait. -/
theorem lt_of_waiting {i : Nat} (hb : Booked t) (hs : t.Sent i) (hw : t.isWaiting id) : i < id := by
  have hm := isWaiting_iff.1 hw
  obtain ⟨r, hr, rfl⟩ := List.mem_map.1 hm
  have ho := hb.ledger.open_of_outstanding (List.mem_append_right _ hr)
  rw [Sent, hb.ledger.slot ho] at hs
  have hinc := hb.ledger.ids_increasing
  rw [← List.append_assoc] at hinc
  exact (List.pairwise_append.1 hinc).2.2 _ hs _ hm

/-- No command waits without a cause. Once all tasks of an open channel wait, either an earlier
command is in flight, which is all written and has no reply, or the stream has no room for the rest
of an earlier one. -/
theorem waits_for_earlier (h : Reachable t) (hs : t.link.Settled)
    (ho : t.link.channel.closed = false) (hw : t.isWaiting id) :
    (∃ i, i < id ∧ t.InFlight i ∧ t.Whole i) ∨
      ∃ i, i < id ∧ t.Sent i ∧ ¬ t.Whole i ∧ t.link.stream.room = 0 := by
  have hb := booked_reachable h
  have hm := manned_reachable h
  cases hwriter : t.link.writer with
  | stopped => exact absurd hwriter (hm.stays ho)
  | writing i rest deadline =>
    obtain ⟨-, pre, r, hwire, rfl, -⟩ := hm.hand _ _ _ hwriter
    have hsent : t.Sent r.id := by
      rw [Sent, ← hb.ledger.onWire_ids, hwire]
      simp
    exact .inr ⟨r.id, lt_of_waiting hb hsent hw, hsent, not_whole_of_writing hb hm hwriter,
      (hs.blocked hwriter).2.1⟩
  | idle =>
    rcases hm.alert ho with hnone | hflight | hsignal
    · rw [isWaiting_iff, hnone] at hw
      cases hw
    · obtain ⟨r, hr⟩ := Option.isSome_iff_exists.1 hflight
      have hin : t.InFlight r.id := hb.inFlight_iff.2 (by rw [hr]; rfl)
      exact .inl ⟨r.id, lt_of_waiting hb hin.1 hw, hin, whole_of_idle hb hwriter hin.1⟩
    · cases (hs.looked ho hwriter).symm.trans hsignal

/-- One command is in flight, and the other waits for its reply. -/
theorem waits_for_earlier_unanswered : ∃ t, Reachable t ∧ t.link.Settled ∧
    t.link.channel.closed = false ∧ t.isWaiting 2 ∧ 0 < t.link.stream.room ∧
    ((∃ i, i < 2 ∧ t.InFlight i ∧ t.Whole i) ∨
      ∃ i, i < 2 ∧ t.Sent i ∧ ¬ t.Whole i ∧ t.link.stream.room = 0) := by
  have h : Reachable { link := { timeout := 10, bodyLimit := 100 } } :=
    .opened ⟨10, 100, {}, rfl, rfl⟩
  have h := h.step (.submit { name := .stack } rfl)
  have h := h.step (.submit { name := .run } rfl)
  have h := h.step (.task .writer rfl)
  have h := h.step (.task .writer rfl)
  refine ⟨_, h, ?settled, rfl, by decide, by decide, waits_for_earlier h ?settled rfl (by decide)⟩
  exact Link.settled_of rfl rfl (List.forall_mem_cons.2 ⟨rfl, by simp⟩)

end Traffic
end MobDebug
