import MobDebug.Channel.Link

/-! What each task of a link does in its turn, with all that makes it do so, or wait. -/
namespace MobDebug.Link
open Wire (readFrame)

variable {l m : Link} {o : Option Link} {t : Task} {id : Nat}

/-- What the reader does. -/
inductive ReaderTurn (l : Link) : Option Link → Prop where
  | stopped (hr : l.reading = false) : ReaderTurn l none
  | leaves (hr : l.reading) (hc : l.channel.closed) :
      ReaderTurn l (some { l with reading := false })
  | takes (hr : l.reading) (ho : l.channel.closed = false) (ha : l.stream.arriving ≠ []) :
      ReaderTurn l (some l.takeArriving)
  | hands {response : Wire.Response} {rest : List UInt8} {hlt : rest.length < l.received.length}
      {c : Channel} (hr : l.reading) (ho : l.channel.closed = false) (ha : l.stream.arriving = [])
      (hf : readFrame l.bodyLimit l.received = .frame response rest hlt)
      (hd : l.channel.dispatch response = .ok c) :
      ReaderTurn l (some { l with channel := c, received := rest })
  | misplaced {response : Wire.Response} {rest : List UInt8}
      {hlt : rest.length < l.received.length} {fault : ProtocolFault} (hr : l.reading)
      (ho : l.channel.closed = false) (ha : l.stream.arriving = [])
      (hf : readFrame l.bodyLimit l.received = .frame response rest hlt)
      (hd : l.channel.dispatch response = .error fault) :
      ReaderTurn l (some { l.fail (.protocol fault) with reading := false })
  | malformed {fault : ProtocolFault} (hr : l.reading) (ho : l.channel.closed = false)
      (ha : l.stream.arriving = []) (hf : readFrame l.bodyLimit l.received = .fault fault) :
      ReaderTurn l (some { l.fail (.protocol fault) with reading := false })
  | ended {part : Wire.Unfinished} (hr : l.reading) (ho : l.channel.closed = false)
      (ha : l.stream.arriving = []) (hf : readFrame l.bodyLimit l.received = .short part)
      (hg : l.stream.debuggeeGone) : ReaderTurn l (some { l.fail part.atEnd with reading := false })
  | waits {part : Wire.Unfinished} (hr : l.reading) (ho : l.channel.closed = false)
      (ha : l.stream.arriving = []) (hf : readFrame l.bodyLimit l.received = .short part)
      (hg : l.stream.debuggeeGone = false) : ReaderTurn l none

theorem readerTurn (l : Link) : ReaderTurn l l.readerStep? := by
  unfold readerStep?
  split
  · next hr => exact .stopped (by simpa using hr)
  next hr =>
  have hr : l.reading := by simpa using hr
  split
  · next hc => exact .leaves hr hc
  next hc =>
  have ho : l.channel.closed = false := by simpa using hc
  split
  · next ha => exact .takes hr ho (by simpa using ha)
  next ha =>
  have ha : l.stream.arriving = [] := by simpa using ha
  split
  · next hf =>
    split
    · next hd => exact .hands hr ho ha hf hd
    · next hd => exact .misplaced hr ho ha hf hd
  · next hf => exact .malformed hr ho ha hf
  · next hf =>
    split
    · next hg => exact .ended hr ho ha hf hg
    · next hg => exact .waits hr ho ha hf (by simpa using hg)

theorem readerTurn_some (h : l.readerStep? = some m) : ReaderTurn l (some m) :=
  h ▸ readerTurn l

theorem ReaderTurn.eq (h : ReaderTurn l o) : l.readerStep? = o := by
  cases h with
  | stopped hr => simp [readerStep?, hr]
  | leaves hr hc => simp [readerStep?, hr, hc]
  | takes hr ho ha => simp [readerStep?, hr, ho, ha]
  | hands hr ho ha hf hd | misplaced hr ho ha hf hd => simp [readerStep?, hr, ho, ha, hf, hd]
  | malformed hr ho ha hf => simp [readerStep?, hr, ho, ha, hf]
  | ended hr ho ha hf hg | waits hr ho ha hf hg => simp [readerStep?, hr, ho, ha, hf, hg]

/-- The link after the writer has looked for a command. -/
def looked (l : Link) : Link :=
  { l with channel := { l.channel with signalled := false } }

/-- The link with as much of `rest` written as there is room for. -/
def wrote (l : Link) (rest : List UInt8) : Link :=
  { l with stream := l.stream.write (rest.take l.stream.room) }

/-- What the writer does. -/
inductive WriterTurn (l : Link) : Option Link → Prop where
  | stopped (hw : l.writer = .stopped) : WriterTurn l none
  | leaves (hw : l.writer ≠ .stopped) (hc : l.channel.closed) :
      WriterTurn l (some l.stopWriting)
  | sleeps (hw : l.writer = .idle) (ho : l.channel.closed = false)
      (hs : l.channel.signalled = false) : WriterTurn l none
  | looks (hw : l.writer = .idle) (ho : l.channel.closed = false) (hs : l.channel.signalled) :
      WriterTurn l (some l.looked.beginWriting)
  | breaks {id : Nat} {rest : List UInt8} {deadline : Nat}
      (hw : l.writer = .writing id rest deadline) (ho : l.channel.closed = false)
      (hg : l.stream.debuggeeGone) :
      WriterTurn l (some (l.fail (.stream .brokenPipe)).stopWriting)
  | expires {id : Nat} {rest : List UInt8} {deadline : Nat}
      (hw : l.writer = .writing id rest deadline) (ho : l.channel.closed = false)
      (hg : l.stream.debuggeeGone = false) (hroom : l.stream.room = 0) (ht : deadline ≤ l.now) :
      WriterTurn l (some (l.fail .timeout).stopWriting)
  | blocked {id : Nat} {rest : List UInt8} {deadline : Nat}
      (hw : l.writer = .writing id rest deadline) (ho : l.channel.closed = false)
      (hg : l.stream.debuggeeGone = false) (hroom : l.stream.room = 0) (ht : l.now < deadline) :
      WriterTurn l none
  | continues {id : Nat} {rest : List UInt8} {deadline : Nat}
      (hw : l.writer = .writing id rest deadline) (ho : l.channel.closed = false)
      (hg : l.stream.debuggeeGone = false) (hroom : l.stream.room ≠ 0)
      (hd : rest.drop l.stream.room ≠ []) :
      WriterTurn l
        (some { l.wrote rest with writer := .writing id (rest.drop l.stream.room) deadline })
  | finishes {id : Nat} {rest : List UInt8} {deadline : Nat}
      (hw : l.writer = .writing id rest deadline) (ho : l.channel.closed = false)
      (hg : l.stream.debuggeeGone = false) (hroom : l.stream.room ≠ 0)
      (hd : rest.drop l.stream.room = []) :
      WriterTurn l (some ((l.wrote rest).watch id).beginWriting)

theorem writerTurn (l : Link) : WriterTurn l l.writerStep? := by
  unfold writerStep?
  split
  · next hw => exact .stopped hw
  · next hw =>
    split
    · next hc => exact .leaves (by simp [hw]) hc
    next hc =>
    have ho : l.channel.closed = false := by simpa using hc
    split
    · next hs => exact .looks hw ho hs
    · next hs => exact .sleeps hw ho (by simpa using hs)
  · next id rest deadline hw =>
    split
    · next hc => exact .leaves (by simp [hw]) hc
    next hc =>
    have ho : l.channel.closed = false := by simpa using hc
    split
    · next hg => exact .breaks hw ho hg
    next hg =>
    have hg : l.stream.debuggeeGone = false := by simpa using hg
    split
    · next hroom =>
      split
      · next ht => exact .expires hw ho hg hroom ht
      · next ht => exact .blocked hw ho hg hroom (Nat.lt_of_not_le ht)
    · next hroom =>
      dsimp only
      split
      · next hd => exact .finishes hw ho hg hroom hd
      · next hd => exact .continues hw ho hg hroom hd

theorem WriterTurn.eq (h : WriterTurn l o) : l.writerStep? = o := by
  cases h with
  | stopped hw => simp [writerStep?, hw]
  | leaves hw hc =>
    cases hwriter : l.writer with
    | stopped => exact absurd hwriter hw
    | idle | writing => simp [writerStep?, hwriter, hc]
  | sleeps hw ho hs | looks hw ho hs => simp [writerStep?, hw, ho, hs, looked]
  | breaks hw ho hg => simp [writerStep?, hw, ho, hg]
  | expires hw ho hg hroom ht => simp [writerStep?, hw, ho, hg, hroom, ht]
  | blocked hw ho hg hroom ht => simp [writerStep?, hw, ho, hg, hroom, Nat.not_le_of_lt ht]
  | continues hw ho hg hroom hd =>
    simp only [writerStep?, hw, ho, hg, hroom, Bool.false_eq_true, if_false]
    rfl
  | finishes hw ho hg hroom hd =>
    simp only [writerStep?, hw, ho, hg, hroom, Bool.false_eq_true, if_false, hd]
    rfl

theorem writerTurn_some (h : l.writerStep? = some m) : WriterTurn l (some m) :=
  h ▸ writerTurn l

/-- The link without the watchdog of a command. -/
def dismiss (l : Link) (id : Nat) : Link :=
  { l with watchdogs := l.watchdogs.filter (·.id != id) }

/-- What the watchdog of a command does. -/
inductive WatchdogTurn (l : Link) (id : Nat) : Option Link → Prop where
  | absent (hw : l.watchdogs.find? (·.id == id) = none) : WatchdogTurn l id none
  | leaves {w : Channel.Watchdog} (hw : l.watchdogs.find? (·.id == id) = some w)
      (hc : l.channel.closed) : WatchdogTurn l id (some (l.dismiss id))
  | waits {w : Channel.Watchdog} (hw : l.watchdogs.find? (·.id == id) = some w)
      (ho : l.channel.closed = false) (ht : l.now < w.deadline) : WatchdogTurn l id none
  | expires {w : Channel.Watchdog} (hw : l.watchdogs.find? (·.id == id) = some w)
      (ho : l.channel.closed = false) (ht : w.deadline ≤ l.now)
      (hf : l.channel.inFlight.any (·.id == id)) :
      WatchdogTurn l id (some ((l.dismiss id).fail .timeout))
  | dismissed {w : Channel.Watchdog} (hw : l.watchdogs.find? (·.id == id) = some w)
      (ho : l.channel.closed = false) (ht : w.deadline ≤ l.now)
      (hf : l.channel.inFlight.any (·.id == id) = false) :
      WatchdogTurn l id (some (l.dismiss id))

theorem watchdogTurn (l : Link) (id : Nat) : WatchdogTurn l id (l.watchdogStep? id) := by
  unfold watchdogStep?
  cases hw : l.watchdogs.find? (·.id == id) with
  | none => exact .absent hw
  | some w =>
    dsimp only [Option.bind]
    split
    · next hc => exact .leaves hw hc
    next hc =>
    have ho : l.channel.closed = false := by simpa using hc
    split
    · next ht =>
      split
      · next hf => exact .expires hw ho ht hf
      · next hf => exact .dismissed hw ho ht (by simpa using hf)
    · next ht => exact .waits hw ho (Nat.lt_of_not_le ht)

theorem watchdogTurn_some (h : l.watchdogStep? id = some m) : WatchdogTurn l id (some m) :=
  h ▸ watchdogTurn l id

theorem WatchdogTurn.eq (h : WatchdogTurn l id o) : l.watchdogStep? id = o := by
  cases h with
  | absent hw => simp [watchdogStep?, hw]
  | leaves hw hc => simp [watchdogStep?, hw, hc, dismiss]
  | waits hw ho ht => simp [watchdogStep?, hw, ho, Nat.not_le_of_lt ht]
  | expires hw ho ht hf | dismissed hw ho ht hf => simp [watchdogStep?, hw, ho, ht, hf, dismiss]

/-- The debuggee takes back neither what was written nor what it has sent. -/
theorem debuggeeStep_keeps {s t : Stream} (h : s.debuggeeStep? = some t) :
    t.written = s.written ∧ t.arriving = s.arriving := by
  unfold Stream.debuggeeStep? at h
  split at h
  · cases h
  split at h
  · cases h
    exact ⟨rfl, rfl⟩
  split at h
  · cases h
  split at h
  · cases h
    exact ⟨rfl, rfl⟩
  split at h
  · cases h
    exact ⟨rfl, rfl⟩
  · cases h

end MobDebug.Link
