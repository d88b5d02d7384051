import MobDebug.Proofs.Channel.Wiring

/-! What a task of a link does to the channel: it sends, it hands a frame on, or it has a cause to
close the channel. -/
namespace MobDebug
open Channel (Entry Run Act sentIn answersIn eventsIn)

namespace Channel
variable {c d : Channel} {a : Act} {p : Act → Prop} {error : Error}

def Entry.closing? : Entry → Option Error
  | .event (.closed error) => some error
  | _ => none

attribute [simp] Entry.closing?

/-- The errors with which the end of the channel was told. -/
abbrev closingsIn (j : List Entry) : List Error := told Entry.closing? j

theorem closingsIn_ending (rs : List Request) (error : Error) :
    closingsIn (ending rs error) = [error] := by
  simp [ending, told_map, Function.comp_def]

theorem open_of_run (h : Run p c d) (ho : d.closed = false) : c.closed = false := by
  rw [Bool.eq_false_iff]
  intro hc
  exact absurd (ho.symm.trans (closed_run h hc)) nofun

/-- To send is to hand out nothing. -/
theorem quiet_of_send (h : Run (· = .send) c d) :
    d.closed = c.closed ∧ answersIn d.journal = answersIn c.journal ∧
      eventsIn d.journal = eventsIn c.journal := by
  induction h with
  | refl => exact ⟨rfl, rfl, rfl⟩
  | tail _ hs ih =>
    obtain ⟨a, rfl, hs⟩ := hs
    cases hs with
    | look => exact ih
    | send => simpa using ih

theorem answer_getD_closed {accepts : Wire.CommandName → Bool} {o : Outcome} {b : Channel}
    (hb : b.closed = c.closed) (hd : d.closed = c.closed) :
    ((b.answer? accepts o).getD d).closed = c.closed := by
  cases ha : b.answer? accepts o with
  | none => exact hd
  | some e =>
    obtain ⟨r, -, -, rfl⟩ := answer?_eq_some.1 ha
    exact hb

/-- A frame does not close the channel. -/
theorem dispatch_closed {response : Wire.Response} (h : c.dispatch response = .ok d) :
    d.closed = c.closed := by
  cases dispatched_of_eq h with
  | output => rfl
  | paused _ _ ht => exact answer_getD_closed (ht ▸ rfl) (ht ▸ rfl)
  | replied => exact answer_getD_closed rfl rfl
  | rejected _ _ ht => exact answer_getD_closed rfl (ht ▸ rfl)

/-- The end of an open channel is not told. -/
theorem closings_step (h : Step c a d) (hc : c.closed = false → closingsIn c.journal = []) :
    d.closed = false → closingsIn d.journal = [] := by
  cases h with
  | look => exact hc
  | fail => exact nofun
  | @event e _ hclosed =>
    intro ho
    cases e with
    | closed error => exact absurd rfl (hclosed error)
    | _ => simpa [record] using hc ho
  | _ => simpa using hc

theorem closings_run (h : Run p c d) (hc : c.closed = false → closingsIn c.journal = []) :
    d.closed = false → closingsIn d.journal = [] := by
  induction h with
  | refl => exact hc
  | tail _ hs ih =>
    obtain ⟨a, -, hs⟩ := hs
    exact closings_step hs ih

/-- On a closed channel nothing is sent or answered, and its end is not told again. -/
theorem step_of_closed (h : Step c a d) (hl : Ledger c) (hc : c.closed) :
    sentIn d.journal = sentIn c.journal ∧ answersIn d.journal = answersIn c.journal ∧
      closingsIn d.journal = closingsIn c.journal := by
  cases h with
  | submit _ ho | send ho | fail ho => exact absurd (ho.symm.trans hc) nofun
  | answer hf =>
    have hdrained := hl.drained hc
    simp [outstanding, hf] at hdrained
  | @event e _ hclosed =>
    cases e with
    | closed error => exact absurd rfl (hclosed error)
    | _ => simp [record]
  | withdraw | look => simp

theorem run_of_closed (h : Run p c d) (hl : Ledger c) (hc : c.closed) :
    sentIn d.journal = sentIn c.journal ∧ answersIn d.journal = answersIn c.journal ∧
      closingsIn d.journal = closingsIn c.journal := by
  induction h with
  | refl => exact ⟨rfl, rfl, rfl⟩
  | tail hr hs ih =>
    obtain ⟨a, -, hs⟩ := hs
    obtain ⟨hsent, hanswers, hclosings⟩ :=
      step_of_closed hs (ledger_run hr hl) (closed_run hr hc)
    exact ⟨hsent.trans ih.1, hanswers.trans ih.2.1, hclosings.trans ih.2.2⟩

theorem submit_of_closed (hc : c.closed) {command : Wire.Command} {line : String}
    (he : command.encode = .ok line) : c.submit command = .error .channelClosed := by
  simp [submit, he, hc]

theorem withdraw?_of_drained (h : c.outstanding = []) (id : Nat) : c.withdraw? id = none := by
  obtain ⟨-, hw⟩ := List.append_eq_nil_iff.1 h
  simp [withdraw?, hw]

end Channel

namespace Link
variable {l m : Link} {id : Nat} {error : Error} {t : Task}

/-- The bytes from the debuggee that have not been handed on. -/
def incoming (l : Link) : List UInt8 := l.received ++ l.stream.arriving

/-- Why the channel of a link may fail, and the error that is told: somebody closes it, the stream
has ended, a frame is malformed, the debuggee takes no more bytes, or time has run out. -/
inductive Cause (l : Link) : Error → Prop where
  | closed : Cause l .channelClosed
  | ended {part : Wire.Unfinished} (ha : l.stream.arriving = [])
      (hr : Wire.readFrame l.bodyLimit l.received = .short part) (hg : l.stream.debuggeeGone) :
      Cause l part.atEnd
  | malformed {fault : ProtocolFault} (ha : l.stream.arriving = [])
      (hr : Wire.readFrame l.bodyLimit l.received = .fault fault) : Cause l (.protocol fault)
  | misplaced {response : Wire.Response} {rest : List UInt8} {hlt : rest.length < l.received.length}
      {fault : ProtocolFault} (ha : l.stream.arriving = [])
      (hr : Wire.readFrame l.bodyLimit l.received = .frame response rest hlt)
      (hd : l.channel.dispatch response = .error fault) : Cause l (.protocol fault)
  | broken {id : Nat} {rest : List UInt8} {deadline : Nat}
      (hw : l.writer = .writing id rest deadline) (hg : l.stream.debuggeeGone) : Cause l (.stream .brokenPipe)
  | stuck {id : Nat} {rest : List UInt8} {deadline : Nat}
      (hw : l.writer = .writing id rest deadline) (hg : l.stream.debuggeeGone = false)
      (hroom : l.stream.room = 0) (ht : deadline ≤ l.now) : Cause l .timeout
  | silent {id : Nat} {watchdog : Channel.Watchdog}
      (hw : l.watchdogs.find? (·.id == id) = some watchdog) (ht : watchdog.deadline ≤ l.now)
      (hf : l.channel.inFlight.any (·.id == id)) : Cause l .timeout

/-- What a task does: it sends, or nothing that the channel learns of; it hands the next frame on;
or it closes the channel. -/
inductive Went (l m : Link) : Prop where
  | quiet (hr : Run (· = .send) l.channel m.channel) (hi : m.incoming = l.incoming)
  | handed {response : Wire.Response} {rest : List UInt8} {hlt : rest.length < l.received.length}
      (ha : l.stream.arriving = [])
      (hf : Wire.readFrame l.bodyLimit l.received = .frame response rest hlt)
      (hd : l.channel.dispatch response = .ok m.channel) (hi : m.incoming = rest)
  | failed {error : Error} (hc : l.Cause error) (hm : m.channel = l.channel.fail error)

theorem went_reader (h : l.readerStep? = some m) : Went l m := by
  cases readerTurn_some h with
  | leaves => exact .quiet .refl rfl
  | takes => exact .quiet .refl (by simp [incoming, takeArriving])
  | hands _ _ ha hf hd => exact .handed ha hf hd (by simp [incoming, ha])
  | misplaced _ _ ha hf hd => exact .failed (.misplaced ha hf hd) rfl
  | malformed _ _ ha hf => exact .failed (.malformed ha hf) rfl
  | ended _ _ ha hf hg => exact .failed (.ended ha hf hg) rfl

/-- The writer changes nothing that the reader goes by. -/
theorem writerStep_keeps (h : l.writerStep? = some m) :
    m.reading = l.reading ∧ m.bodyLimit = l.bodyLimit := by
  have hbegin (k : Link) :
      k.beginWriting.reading = k.reading ∧ k.beginWriting.bodyLimit = k.bodyLimit := by
    rcases k.beginWriting_cases with ⟨-, h⟩ | ⟨r, c, -, h⟩ <;> rw [h] <;> exact ⟨rfl, rfl⟩
  obtain ⟨c, -, rfl⟩ | ⟨-, -, rfl⟩ | ⟨id, rest, deadline, -, -, ⟨-, rfl⟩ | rfl⟩ :=
    writerStep_cases h
  · exact ⟨rfl, rfl⟩
  · exact hbegin l.looked
  · exact hbegin ((l.wrote rest).watch id)
  · exact ⟨rfl, rfl⟩

theorem went_beginWriting (l : Link) :
    Run (· = .send) l.channel l.beginWriting.channel ∧ l.beginWriting.incoming = l.incoming := by
  rcases l.beginWriting_cases with ⟨-, h⟩ | ⟨r, c, hs, h⟩ <;> rw [h]
  · exact ⟨.refl, rfl⟩
  · exact ⟨(Channel.send_step hs).run rfl, rfl⟩

theorem went_writer (h : l.writerStep? = some m) : Went l m := by
  cases writerTurn_some h with
  | leaves => exact .quiet .refl rfl
  | looks =>
    obtain ⟨hr, hi⟩ := went_beginWriting l.looked
    exact .quiet (.head ⟨_, rfl, .look⟩ hr) hi
  | breaks hw _ hg => exact .failed (.broken hw hg) rfl
  | expires hw _ hg hroom ht => exact .failed (.stuck hw hg hroom ht) rfl
  | continues => exact .quiet .refl rfl
  | finishes =>
    obtain ⟨hr, hi⟩ := went_beginWriting ((l.wrote _).watch _)
    exact .quiet hr hi

theorem went_watchdog (h : l.watchdogStep? id = some m) : Went l m := by
  cases watchdogTurn_some h with
  | leaves | dismissed => exact .quiet .refl rfl
  | expires hw _ ht hf => exact .failed (.silent hw ht hf) rfl

theorem went_debuggee {s : Stream} (h : l.stream.debuggeeStep? = some s) :
    Went l { l with stream := s } :=
  .quiet .refl (by simp [incoming, (debuggeeStep_keeps h).2])

theorem step_went (h : l.step? t = some m) : Went l m := by
  cases t with
  | reader => exact went_reader h
  | writer => exact went_writer h
  | watchdog id => exact went_watchdog h
  | debuggee =>
    obtain ⟨s, hs, rfl⟩ := Option.map_eq_some_iff.1 h
    exact went_debuggee hs

end Link
end MobDebug
