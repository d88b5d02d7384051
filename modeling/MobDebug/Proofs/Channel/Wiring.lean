import MobDebug.Proofs.Channel.Ledger
import MobDebug.Proofs.Channel.Tasks

/-! The bytes that a link writes are the lines of the commands put in flight, up to what the writer
still has in hand. -/
namespace MobDebug
open Channel (Request Writer Run)

variable {l m : Link} {id n : Nat} {rest : List UInt8}

/-- The bytes of commands, one after the other. -/
def Channel.linesOf (rs : List Request) : List UInt8 := rs.flatMap fun r => Text.bytes r.line

open Channel (linesOf)

theorem Channel.linesOf_prefix {rs qs : List Request} (h : rs <+: qs) :
    linesOf rs <+: linesOf qs := by
  obtain ⟨ts, rfl⟩ := h
  exact ⟨linesOf ts, by simp [linesOf]⟩

/-- What the writer still has to write of its command. -/
def Channel.Writer.inHand : Writer → List UInt8
  | .writing _ rest _ => rest
  | _ => []

namespace Link

theorem readerStep_run (h : l.readerStep? = some m) :
    Run (· = .settle) l.channel m.channel ∧ m.writer = l.writer ∧
      m.stream.written = l.stream.written := by
  cases readerTurn_some h with
  | leaves | takes => exact ⟨.refl, rfl, rfl⟩
  | hands _ _ _ _ hd => exact ⟨Channel.dispatch_run hd, rfl, rfl⟩
  | misplaced | malformed | ended => exact ⟨Channel.fail_run _, rfl, rfl⟩

theorem watchdogStep_run (h : l.watchdogStep? id = some m) :
    Run (· = .settle) l.channel m.channel ∧ m.writer = l.writer ∧
      m.stream.written = l.stream.written := by
  cases watchdogTurn_some h with
  | leaves | dismissed => exact ⟨.refl, rfl, rfl⟩
  | expires => exact ⟨Channel.fail_run _, rfl, rfl⟩

theorem beginWriting_cases (l : Link) :
    (l.channel.sendNext? = none ∧ l.beginWriting = { l with writer := .idle }) ∨
      ∃ r c, l.channel.sendNext? = some (r, c) ∧
        l.beginWriting =
          { l with
            channel := c
            writer := .writing r.id (Text.bytes r.line) (l.now + l.timeout) } := by
  unfold beginWriting
  cases h : l.channel.sendNext? with
  | none => exact .inl ⟨rfl, rfl⟩
  | some p => exact .inr ⟨p.1, p.2, rfl, rfl⟩

@[simp] theorem beginWriting_stream (l : Link) : l.beginWriting.stream = l.stream := by
  rcases l.beginWriting_cases with ⟨-, h⟩ | ⟨r, c, -, h⟩ <;> rw [h]

/-- What the writer can do: it stops, looks for a command, writes a part, or ends a command and
looks for the next. -/
theorem writerStep_cases (h : l.writerStep? = some m) :
    (∃ c, Run (· = .settle) l.channel c ∧ m = { l with channel := c }.stopWriting) ∨
    (l.writer = .idle ∧ l.channel.closed = false ∧
      m = l.looked.beginWriting) ∨
    ∃ id rest deadline, l.writer = .writing id rest deadline ∧ l.channel.closed = false ∧
      ((rest.drop l.stream.room = [] ∧ m = ((l.wrote rest).watch id).beginWriting) ∨
        m = { l.wrote rest with writer := .writing id (rest.drop l.stream.room) deadline }) := by
  cases writerTurn_some h with
  | leaves => exact .inl ⟨l.channel, .refl, rfl⟩
  | looks hw ho => exact .inr (.inl ⟨hw, ho, rfl⟩)
  | breaks | expires => exact .inl ⟨_, Channel.fail_run _, rfl⟩
  | continues hw ho => exact .inr (.inr ⟨_, _, _, hw, ho, .inr rfl⟩)
  | finishes hw ho _ _ hd => exact .inr (.inr ⟨_, _, _, hw, ho, .inl ⟨hd, rfl⟩⟩)

theorem beginWriting_run (l : Link) : Run (· ≠ .ask) l.channel l.beginWriting.channel := by
  rcases l.beginWriting_cases with ⟨-, h⟩ | ⟨r, c, hs, h⟩
  · rw [h]
  · rw [h]
    exact (Channel.send_step hs).run (by simp)

theorem step_run {t : Task} (h : l.step? t = some m) : Run (· ≠ .ask) l.channel m.channel := by
  have weaken {c d : Channel} (h : Run (· = .settle) c d) : Run (· ≠ .ask) c d :=
    Channel.run_mono (fun _ ha => by simp [ha]) h
  cases t with
  | reader => exact weaken (readerStep_run h).1
  | watchdog id => exact weaken (watchdogStep_run h).1
  | debuggee =>
    obtain ⟨s, -, rfl⟩ := Option.map_eq_some_iff.1 h
    exact .refl
  | writer =>
    obtain ⟨c, hc, rfl⟩ | ⟨-, -, rfl⟩ | ⟨id, rest, deadline, -, -, ⟨-, rfl⟩ | rfl⟩ :=
      writerStep_cases h
    · exact weaken hc
    · exact .head ⟨.send, by simp, .look⟩ (beginWriting_run l.looked)
    · exact beginWriting_run ((l.wrote rest).watch id)
    · exact .refl

/-- All that was put in flight has been written, except what the writer has in hand; a writer that
has stopped may leave some out. -/
structure Wired (l : Link) : Prop where
  ledger : l.channel.Ledger
  part : l.stream.written <+: linesOf l.channel.onWire
  whole : l.writer ≠ .stopped → l.stream.written ++ l.writer.inHand = linesOf l.channel.onWire

/-- Nothing changes for the bytes in a step that puts no command in flight and writes nothing. -/
theorem Wired.of_quiet (h : Wired l) (hr : Run (· ≠ .send) l.channel m.channel)
    (hw : m.writer = l.writer ∨ m.writer = .stopped)
    (hs : m.stream.written = l.stream.written) : Wired m := by
  have he := Channel.onWire_eq_of_run hr h.ledger
  constructor
  · exact Channel.ledger_run hr h.ledger
  · rw [hs, he]
    exact h.part
  · intro hn
    rcases hw with hw | hw
    · rw [hs, he, hw]
      exact h.whole (hw ▸ hn)
    · exact absurd hw hn

theorem Wired.beginWriting (hl : l.channel.Ledger)
    (hw : l.stream.written = linesOf l.channel.onWire) : Wired l.beginWriting := by
  rcases l.beginWriting_cases with ⟨-, h⟩ | ⟨r, c, hs, h⟩
  · rw [h]
    exact ⟨hl, hw ▸ List.prefix_rfl, fun _ => by simp [Writer.inHand, hw]⟩
  · have hnew := hl.onWire_send hs
    rw [h]
    constructor
    · exact Channel.ledger_step (Channel.send_step hs) hl
    · rw [hnew, hw]
      exact Channel.linesOf_prefix (List.prefix_append _ _)
    · intro _
      rw [hnew, hw]
      simp [linesOf, Writer.inHand]

theorem wired_step {t : Task} (h : l.step? t = some m) (hl : Wired l) :
    Wired m ∧ m.stream.written <+: linesOf l.channel.onWire := by
  have quiet {m : Link} (hr : Run (· = .settle) l.channel m.channel)
      (hw : m.writer = l.writer ∨ m.writer = .stopped)
      (hs : m.stream.written = l.stream.written) :
      Wired m ∧ m.stream.written <+: linesOf l.channel.onWire :=
    ⟨hl.of_quiet (Channel.run_mono (fun _ ha => by simp [ha]) hr) hw hs, hs ▸ hl.part⟩
  cases t with
  | reader =>
    obtain ⟨hr, hw, hs⟩ := readerStep_run h
    exact quiet hr (.inl hw) hs
  | watchdog id =>
    obtain ⟨hr, hw, hs⟩ := watchdogStep_run h
    exact quiet hr (.inl hw) hs
  | debuggee =>
    obtain ⟨s, hs, rfl⟩ := Option.map_eq_some_iff.1 h
    exact quiet .refl (.inl rfl) (debuggeeStep_keeps hs).1
  | writer =>
    rcases writerStep_cases h with ⟨c, hc, rfl⟩ | ⟨hw, -, rfl⟩ | ⟨id, rest, deadline, hw, -, h⟩
    · exact quiet hc (.inr rfl) rfl
    · have hwhole : l.stream.written = linesOf l.channel.onWire := by
        simpa [hw, Writer.inHand] using hl.whole (by simp [hw])
      refine ⟨Wired.beginWriting (Channel.ledger_step .look hl.ledger) hwhole, ?_⟩
      simpa [looked] using hl.part
    · have hwhole : l.stream.written ++ rest = linesOf l.channel.onWire := by
        simpa [hw, Writer.inHand] using hl.whole (by simp [hw])
      have hwrote : (l.wrote rest).stream.written ++ rest.drop l.stream.room =
          linesOf l.channel.onWire := by
        simp [wrote, Stream.write, hwhole]
      rcases h with ⟨hd, rfl⟩ | rfl
      · rw [hd, List.append_nil] at hwrote
        refine ⟨Wired.beginWriting hl.ledger hwrote, ?_⟩
        simpa [watch] using hwrote ▸ List.prefix_rfl
      · have hpart : (l.wrote rest).stream.written <+: linesOf l.channel.onWire :=
          hwrote ▸ List.prefix_append _ _
        exact ⟨⟨hl.ledger, hpart, fun _ => hwrote⟩, hpart⟩

/-- Nothing is written on a closed channel. -/
theorem written_of_closed (h : l.step? t = some m) (hc : l.channel.closed) :
    m.stream.written = l.stream.written := by
  cases t with
  | reader => exact (readerStep_run h).2.2
  | watchdog id => exact (watchdogStep_run h).2.2
  | debuggee =>
    obtain ⟨s, hs, rfl⟩ := Option.map_eq_some_iff.1 h
    exact (debuggeeStep_keeps hs).1
  | writer =>
    obtain ⟨c, -, rfl⟩ | ⟨-, ho, -⟩ | ⟨_, _, _, -, ho, -⟩ := writerStep_cases h
    · rfl
    · exact absurd (ho.symm.trans hc) nofun
    · exact absurd (ho.symm.trans hc) nofun

end Link
end MobDebug
