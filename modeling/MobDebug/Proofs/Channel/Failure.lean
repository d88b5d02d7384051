import MobDebug.Proofs.Channel.Causes
import MobDebug.Proofs.Channel.Places
import MobDebug.Proofs.Channel.Replies

/-! The failure of a channel. Whatever has gone wrong, everything outstanding ends with the same
error, then the end is told, and nothing happens to a command from then on. -/
namespace MobDebug
open Channel (closingsIn sentIn answersIn)

namespace Link
variable {l m : Link} {t : Task} {error : Error}

/-- The reader of an open channel has not stopped. -/
def Reads (l : Link) : Prop := l.channel.closed = false → l.reading

theorem reads_of_fail (hm : m.channel = l.channel.fail error) : Reads m := by
  intro ho
  rw [hm, Channel.fail_closed] at ho
  cases ho

/-- The reader stops only with the channel. -/
theorem reads_reader (h : l.readerStep? = some m) : Reads m := by
  cases readerTurn_some h with
  | leaves _ hc => exact fun ho => absurd (ho.symm.trans hc) nofun
  | takes hr | hands hr => exact fun _ => hr
  | misplaced | malformed | ended => exact reads_of_fail rfl

theorem watchdogStep_reading {id : Nat} (h : l.watchdogStep? id = some m) :
    m.reading = l.reading := by
  cases watchdogTurn_some h <;> rfl

theorem reads_step (h : l.step? t = some m) (hl : Reads l) : Reads m := by
  have keep (hm : m.reading = l.reading) : Reads m := by
    intro ho
    rw [hm]
    exact hl (Channel.open_of_run (step_run h) ho)
  cases t with
  | reader => exact reads_reader h
  | writer => exact keep (writerStep_keeps h).1
  | watchdog id => exact keep (watchdogStep_reading h)
  | debuggee =>
    obtain ⟨s, -, rfl⟩ := Option.map_eq_some_iff.1 h
    exact hl

end Link

namespace Traffic
variable {t u v : Traffic} {error : Error}

/-- The channel fails: the command in flight and then those that wait, in order, end with the error,
which leaves none, and only then the end is told. -/
structure Fails (t u : Traffic) (error : Error) : Prop where
  closed : u.link.channel.closed
  journal : u.link.channel.journal = t.link.channel.journal ++
    (t.link.channel.inFlight.toList ++ t.link.channel.waiting).map
      (fun r => .answered r.id (.error error)) ++ [.event (.closed error)]
  pending : u.link.channel.pending = 0

/-- What a moment after the failure is like: the end has been told once, no command was put in
flight, written or answered since, none is outstanding, and none can be submitted or taken back. -/
structure Over (u v : Traffic) (error : Error) : Prop where
  told : closingsIn v.link.channel.journal = [error]
  sent : sentIn v.link.channel.journal = sentIn u.link.channel.journal
  written : v.link.stream.written = u.link.stream.written
  answers : answersIn v.link.channel.journal = answersIn u.link.channel.journal
  pending : v.link.channel.pending = 0
  refused : ∀ command line, Wire.Command.encode command = .ok line →
    v.link.channel.submit command = .error .channelClosed
  kept : ∀ id, v.link.channel.withdraw? id = none

theorem reads_step (hs : Step t u) (h : t.link.Reads) : u.link.Reads := by
  cases hs with
  | submit _ hs =>
    obtain ⟨_, -, ho, -, rfl⟩ := Channel.submit_eq_ok hs
    exact h
  | cancel _ _ hs =>
    obtain ⟨-, rfl⟩ := Channel.withdraw?_eq_some hs
    exact h
  | close => exact Link.reads_of_fail rfl
  | task _ hs => exact Link.reads_step hs h
  | forget | receive | outside | tick => exact h

/-- The reader of an open channel is at work, and the end of one is not told. -/
theorem open_reachable (h : Reachable t) (ho : t.link.channel.closed = false) :
    t.link.reading ∧ closingsIn t.link.channel.journal = [] := by
  suffices t.link.Reads ∧
      (t.link.channel.closed = false → closingsIn t.link.channel.journal = []) from
    ⟨this.1 ho, this.2 ho⟩
  clear ho
  induction h with
  | opened h =>
    obtain ⟨timeout, bodyLimit, stream, -, rfl⟩ := h
    exact ⟨fun _ => rfl, fun _ => rfl⟩
  | step _ hs ih => exact ⟨reads_step hs ih.1, Channel.closings_run (step_run hs) ih.2⟩

theorem cause_of_step (hs : Step t u) (ho : t.link.channel.closed = false)
    (hc : u.link.channel.closed) :
    ∃ error, t.link.Cause error ∧ u.link.channel = t.link.channel.fail error := by
  cases hs with
  | submit _ hs =>
    obtain ⟨_, -, -, -, rfl⟩ := Channel.submit_eq_ok hs
    exact absurd (ho.symm.trans hc) nofun
  | cancel _ _ hs =>
    obtain ⟨-, rfl⟩ := Channel.withdraw?_eq_some hs
    exact absurd (ho.symm.trans hc) nofun
  | close => exact ⟨_, .closed, rfl⟩
  | task _ hs =>
    cases Link.step_went hs with
    | quiet hr => exact absurd (((Channel.quiet_of_send hr).1.trans ho).symm.trans hc) nofun
    | handed _ _ hd => exact absurd (((Channel.dispatch_closed hd).trans ho).symm.trans hc) nofun
    | failed hcause hm => exact ⟨_, hcause, hm⟩
  | forget | receive | outside | tick => exact absurd (ho.symm.trans hc) nofun

theorem written_of_closed (hs : Step t u) (hc : t.link.channel.closed) :
    u.link.stream.written = t.link.stream.written := by
  cases hs with
  | task _ hs => exact Link.written_of_closed hs hc
  | outside _ hs => exact hs
  | _ => rfl

theorem future_closed (hf : Future t u) (hc : t.link.channel.closed) :
    u.link.channel.closed ∧ u.link.stream.written = t.link.stream.written := by
  induction hf with
  | refl => exact ⟨hc, rfl⟩
  | tail _ hs ih =>
    exact ⟨Channel.closed_run (step_run hs) ih.1, (written_of_closed hs ih.1).trans ih.2⟩

/-- Nothing happens to a command after the channel has failed. -/
theorem Fails.over (hf : Fails t u error) (hb : Booked u)
    (ht : closingsIn t.link.channel.journal = []) (hv : Future u v) : Over u v error := by
  have hl := hb.ledger
  obtain ⟨hsent, hanswers, htold⟩ := Channel.run_of_closed (future_run hv) hl hf.closed
  obtain ⟨hclosed, hwritten⟩ := future_closed hv hf.closed
  have hdrained := (Channel.ledger_run (future_run hv) hl).drained hclosed
  constructor
  · rw [htold, hf.journal, List.append_assoc]
    refine Channel.told_append.trans ?_
    rw [show Channel.told _ t.link.channel.journal = [] from ht]
    exact Channel.closingsIn_ending (t.link.channel.inFlight.toList ++ t.link.channel.waiting) error
  · exact hsent
  · exact hwritten
  · exact hanswers
  · rw [Channel.pending_eq, hdrained]
    rfl
  · intro command line he
    exact Channel.submit_of_closed hclosed he
  · exact Channel.withdraw?_of_drained hdrained

end Traffic
end MobDebug
