import MobDebug.Proofs.Channel.Actions
import MobDebug.Proofs.Channel.Stall
import Mathlib.Data.List.Find

/-! A channel as it would be had one of its commands never been submitted: the ids of those after it
are one less. As long as the command has been neither put in flight nor answered, whatever the
channel and its tasks do, they do without it as well. -/
namespace MobDebug
open Wire (Command CommandName Response)

namespace Channel
variable {c d : Channel} {x i : Nat} {s : Bool} {r : Request} {o : Outcome} {j : List Entry}

/-- The id of a command when there is none of id `x`. -/
def shift (x i : Nat) : Nat := if x < i then i - 1 else i

theorem shift_inj {k : Nat} (hi : i ≠ x) (hk : k ≠ x) : shift x i = shift x k ↔ i = k := by
  unfold shift
  split <;> split <;> omega

theorem shift_beq {k : Nat} (hi : i ≠ x) (hk : k ≠ x) : (shift x i == shift x k) = (i == k) := by
  rw [Bool.eq_iff_iff, beq_iff_eq, beq_iff_eq, shift_inj hi hk]

theorem shift_of_lt (h : i < x) : shift x i = i := if_neg (Nat.lt_asymm h)

def Request.shift (x : Nat) (r : Request) : Request := { r with id := Channel.shift x r.id }

def Event.shift (x : Nat) : Event → Event
  | .paused location after => .paused location (Channel.shift x after)
  | e => e

/-- What a journal tells when it does not tell of a command. -/
def Entry.without? (x : Nat) : Entry → Option Entry
  | .submitted r => if r.id = x then none else some (.submitted (r.shift x))
  | .withdrawn id => if id = x then none else some (.withdrawn (Channel.shift x id))
  | .sent id => some (.sent (Channel.shift x id))
  | .answered id o => some (.answered (Channel.shift x id) o)
  | .event e => some (.event (e.shift x))

/-- The channel without a command that may wait; `s` is whether its writer has been told of
others. -/
def without (x : Nat) (s : Bool) (c : Channel) : Channel where
  waiting := (c.waiting.filter (·.id != x)).map (·.shift x)
  inFlight := c.inFlight.map (·.shift x)
  lastSent := shift x c.lastSent
  nextId := c.nextId - 1
  closed := c.closed
  signalled := s
  journal := c.journal.filterMap (·.without? x)

theorem told_without {α β : Type} {f : Entry → Option α} {f' : Entry → Option β} {g : α → β}
    (h : ∀ e : Entry, (e.without? x).bind f' = (f e).map g) :
    told f' (j.filterMap (·.without? x)) = (told f j).map g := by
  simp only [told, List.filterMap_filterMap, List.map_filterMap, h]

theorem answersIn_without :
    answersIn (j.filterMap (·.without? x)) = (answersIn j).map (Prod.map (shift x) id) := by
  apply told_without
  rintro (r | i | i | ⟨i, o⟩ | e)
  · by_cases h : r.id = x <;> simp [Entry.without?, h]
  · by_cases h : i = x <;> simp [Entry.without?, h]
  all_goals rfl

theorem eventsIn_without :
    eventsIn (j.filterMap (·.without? x)) = (eventsIn j).map (·.shift x) := by
  apply told_without
  rintro (r | i | i | ⟨i, o⟩ | e)
  · by_cases h : r.id = x <;> simp [Entry.without?, h]
  · by_cases h : i = x <;> simp [Entry.without?, h]
  all_goals rfl

theorem lookup_shift {l : List (Nat × Outcome)} (hx : x ∉ l.map (·.1)) (hi : i ≠ x) :
    (l.map (Prod.map (shift x) id)).lookup (shift x i) = l.lookup i := by
  induction l with
  | nil => rfl
  | cons p l ih =>
    rw [List.map_cons, List.mem_cons, not_or] at hx
    simp only [List.map_cons, List.lookup_cons, Prod.map, shift_beq hi (Ne.symm hx.1), ih hx.2]
    rfl

/-- The other commands have the same outcomes. -/
theorem outcome?_without (hx : x ∉ (answersIn c.journal).map (·.1)) (hi : i ≠ x) :
    (c.without x s).outcome? (shift x i) = c.outcome? i := by
  rw [outcome?_eq_lookup, outcome?_eq_lookup, ← lookup_shift hx hi, ← answersIn_without]
  rfl

theorem submit_without (hx : x < c.nextId) (command : Command) :
    (c.without x s).submit command =
      (c.submit command).map fun p => (shift x p.1, p.2.without x true) := by
  have hnext : shift x c.nextId = c.nextId - 1 := if_pos hx
  have hne : c.nextId ≠ x := Nat.ne_of_gt hx
  unfold submit
  split
  · rfl
  · by_cases hc : c.closed
    · simp [without, hc, Except.map]
    · have hpos : c.nextId - 1 + 1 = c.nextId := by omega
      simp [without, hc, Except.map, hnext, Request.shift, Entry.without?, hne, hpos]

theorem withdraw?_without (hi : i ≠ x) :
    (c.without x s).withdraw? (shift x i) = (c.withdraw? i).map (·.without x s) := by
  have hbeq (r : Request) (hr : r.id ≠ x) : ((r.shift x).id == shift x i) = (r.id == i) :=
    shift_beq hr hi
  have hany : (c.without x s).waiting.any (·.id == shift x i) = c.waiting.any (·.id == i) := by
    rw [without, List.any_map, List.any_filter]
    congr 1
    funext r
    by_cases hr : r.id = x
    · simp [hr, Ne.symm hi]
    · simp [hr, hbeq r hr]
  have hrest : (c.without x s).waiting.filter (·.id != shift x i) =
      ((c.waiting.filter (·.id != i)).filter (·.id != x)).map (·.shift x) := by
    rw [without, List.filter_map, List.filter_filter, List.filter_filter]
    congr 1
    apply List.filter_congr
    intro r _
    by_cases hr : r.id = x
    · simp [hr]
    · simp [bne, hbeq r hr, Bool.and_comm]
  unfold withdraw?
  rw [hany, hrest]
  split
  · simp [without, Entry.without?, hi]
  · rfl

theorem withdraw?_self (h : c.withdraw? x = some d) : d.without x s = c.without x s := by
  obtain ⟨-, rfl⟩ := withdraw?_eq_some h
  simp [without, List.filter_filter, Entry.without?]

theorem sendNext?_without (h : c.sendNext? = some (r, d)) (hr : r.id ≠ x) :
    (c.without x s).sendNext? = some (r.shift x, d.without x s) := by
  obtain ⟨rest, ho, hf, hw, rfl⟩ := sendNext?_eq_some h
  simp [sendNext?, without, ho, hf, hw, hr, Request.shift, Entry.without?]

theorem sendNext?_without_of_none (h : c.sendNext? = none) : (c.without x s).sendNext? = none := by
  cases hc : c.closed with
  | true => simp [sendNext?, without, hc]
  | false =>
    cases hf : c.inFlight with
    | some r => simp [sendNext?, without, hc, hf]
    | none =>
      cases hw : c.waiting with
      | nil => simp [sendNext?, without, hc, hf, hw]
      | cons r rest => simp [sendNext?, hc, hf, hw] at h

theorem answer?_without {accepts : CommandName → Bool} :
    (c.without x s).answer? accepts o = (c.answer? accepts o).map (·.without x true) := by
  cases hf : c.inFlight with
  | none => simp [answer?, without, hf]
  | some r =>
    by_cases ha : accepts r.name <;>
      simp [answer?, without, hf, Request.shift, ha, Entry.without?]

theorem record_without (e : Event) :
    (c.without x s).record (.event (e.shift x)) = (c.record (.event e)).without x s := by
  simp [record, without, Entry.without?]

/-- The channel without the command after an operation: its writer has been told of no more than
the writer of the channel with the command. -/
def Follows (x : Nat) (d e : Channel) : Prop :=
  ∃ s, (s = true → d.signalled = true) ∧ e = d.without x s

/-- A command is neither in flight nor answered. -/
structure Spared (x : Nat) (c : Channel) : Prop where
  unsent : x ∉ sentIn c.journal
  unanswered : x ∉ (answersIn c.journal).map (·.1)

theorem answer_without {accepts : CommandName → Bool} (fallback : Channel)
    (hs : s = true → fallback.signalled = true) :
    Follows x ((c.answer? accepts o).getD fallback)
      (((c.without x s).answer? accepts o).getD (fallback.without x s)) := by
  rw [answer?_without]
  cases ha : c.answer? accepts o with
  | none => exact ⟨s, hs, rfl⟩
  | some d =>
    obtain ⟨r, -, -, rfl⟩ := answer?_eq_some.1 ha
    exact ⟨true, fun _ => rfl, rfl⟩

theorem dispatch_without_error {response : Response} {fault : ProtocolFault}
    (h : c.dispatch response = .error fault) :
    (c.without x s).dispatch response = .error fault := by
  cases dispatched_of_eq h with
  | garbled hs hl => exact (Dispatched.garbled hs hl).eq

theorem dispatch_without {response : Response} (h : c.dispatch response = .ok d)
    (hs : s = true → c.signalled = true) :
    ∃ e, (c.without x s).dispatch response = .ok e ∧ Follows x d e := by
  cases dispatched_of_eq h with
  | output hstatus =>
    exact ⟨_, (Dispatched.output hstatus).eq, s, hs, record_without (.output response.body)⟩
  | @paused location told hstatus hl ht =>
    refine ⟨_, (Dispatched.paused hstatus hl rfl).eq, ?_⟩
    have hrecord := record_without (c := c) (x := x) (s := s) (.paused location c.lastSent)
    rw [ht]
    exact hrecord ▸ answer_without (c.record _) hs
  | replied hstatus => exact ⟨_, (Dispatched.replied hstatus).eq, answer_without _ hs⟩
  | @rejected message told hstatus hm ht =>
    refine ⟨_, (Dispatched.rejected hstatus hm rfl).eq, ?_⟩
    have hrecord := record_without (c := c) (x := x) (s := s) (.debuggeeError message)
    rw [ht]
    exact hrecord ▸ answer_without (c.record _) hs

/-- A channel does not fail while a command waits that is never answered. -/
theorem Spared.not_waiting {error : Error} (h : Spared x (c.fail error)) (ho : c.closed = false) :
    ∀ r ∈ c.waiting, r.id ≠ x := by
  rintro r hr rfl
  apply h.unanswered
  rw [fail_eq ho]
  refine List.mem_map.2 ⟨(r.id, .error error), ?_, rfl⟩
  simp only [told_append]
  refine List.mem_append_right _ ?_
  change (r.id, .error error) ∈ answersIn (ending c.outstanding error)
  rw [answersIn_ending]
  exact List.mem_map.2 ⟨r, List.mem_append_right _ hr, rfl⟩

theorem fail_without {error : Error} (h : Spared x (c.fail error)) :
    (c.without x s).fail error = (c.fail error).without x s := by
  cases ho : c.closed with
  | true => simp [fail, without, ho]
  | false =>
    have hw : c.waiting.filter (·.id != x) = c.waiting :=
      List.filter_eq_self.2 fun r hr => by simpa using h.not_waiting ho r hr
    simp [fail, without, ho, hw, Entry.without?, Event.shift, Request.shift, Function.comp_def]
    cases c.inFlight <;> rfl

def Writer.shift (x : Nat) : Writer → Writer
  | .writing i rest deadline => .writing (Channel.shift x i) rest deadline
  | w => w

def Watchdog.shift (x : Nat) (w : Watchdog) : Watchdog := { w with id := Channel.shift x w.id }

end Channel

namespace Link
open Channel (Spared shift shift_beq)
variable {l m : Link} {x i : Nat} {s : Bool}

/-- The link without a command of its channel that may wait. -/
def without (x : Nat) (s : Bool) (l : Link) : Link :=
  { l with
    channel := l.channel.without x s
    writer := l.writer.shift x
    watchdogs := l.watchdogs.map (·.shift x) }

/-- The link without a command after something has happened. -/
def Follows (x : Nat) (m k : Link) : Prop :=
  ∃ s, (s = true → m.channel.signalled = true) ∧ k = m.without x s

theorem fail_signalled (c : Channel) (error : Error) : (c.fail error).signalled = c.signalled := by
  cases hc : c.closed <;> simp [Channel.fail, hc]

theorem follows_fail {error : Error} (h : Spared x (l.fail error).channel)
    (hs : s = true → l.channel.signalled = true) :
    Follows x (l.fail error) ((l.without x s).fail error) := by
  refine ⟨s, ?_, ?_⟩
  · rw [fail, fail_signalled]
    exact hs
  · have hc := Channel.fail_without (s := s) h
    simp only [without, fail, hc]

theorem act_eq {t : Task} {o : Option Link} (h : l.step? t = o) : l.act t = o.getD l := by
  rw [act, h]

theorem reader_without (h : Spared x (l.act .reader).channel)
    (hs : s = true → l.channel.signalled = true) :
    Follows x (l.act .reader) ((l.without x s).act .reader) := by
  have hturn := readerTurn l
  rw [act_eq (show l.step? .reader = l.readerStep? from rfl)] at h ⊢
  have hstep {o : Option Link} (hk : ReaderTurn (l.without x s) o) :
      (l.without x s).act .reader = o.getD (l.without x s) := act_eq hk.eq
  -- to fail is to give all commands their reply, with or without the one that is spared
  have failed {error : Error} (h : Spared x (l.fail error).channel) :
      Follows x { l.fail error with reading := false }
        { (l.without x s).fail error with reading := false } := by
    obtain ⟨s', hs', hk⟩ := follows_fail h hs
    exact ⟨s', hs', by rw [hk]; rfl⟩
  generalize l.readerStep? = o at h hturn ⊢
  cases hturn with
  | stopped hr =>
    rw [hstep (.stopped hr)]
    exact ⟨s, hs, rfl⟩
  | leaves hr hc =>
    rw [hstep (.leaves hr hc)]
    exact ⟨s, hs, rfl⟩
  | takes hr ho ha =>
    rw [hstep (.takes hr ho ha)]
    exact ⟨s, hs, rfl⟩
  | hands hr ho ha hf hd =>
    obtain ⟨_, hd', s', hs', rfl⟩ := Channel.dispatch_without (x := x) hd hs
    rw [hstep (.hands hr ho ha hf hd')]
    exact ⟨s', hs', rfl⟩
  | misplaced hr ho ha hf hd =>
    rw [hstep (.misplaced hr ho ha hf (Channel.dispatch_without_error hd))]
    exact failed h
  | malformed hr ho ha hf =>
    rw [hstep (.malformed hr ho ha hf)]
    exact failed h
  | ended hr ho ha hf hg =>
    rw [hstep (.ended hr ho ha hf hg)]
    exact failed h
  | waits hr ho ha hf hg =>
    rw [hstep (.waits hr ho ha hf hg)]
    exact ⟨s, hs, rfl⟩

theorem find?_shift {ws : List Channel.Watchdog} (hw : ∀ w ∈ ws, w.id ≠ x) (hi : i ≠ x) :
    (ws.map (·.shift x)).find? (·.id == shift x i) = (ws.find? (·.id == i)).map (·.shift x) := by
  rw [List.find?_map]
  exact congrArg _ (List.find?_congr fun w hin => shift_beq (hw w hin) hi)

/-- No watchdog is for a command that was not put in flight. -/
theorem watchdog_self (hw : ∀ w ∈ l.watchdogs, w.id ≠ x) : l.act (.watchdog x) = l := by
  have habsent : l.watchdogs.find? (·.id == x) = none :=
    List.find?_eq_none.2 fun w hin => by simpa using hw w hin
  rw [act, show l.step? (.watchdog x) = none from (WatchdogTurn.absent habsent).eq]
  rfl

theorem dismiss_without (hw : ∀ w ∈ l.watchdogs, w.id ≠ x) (hi : i ≠ x) :
    (l.without x s).dismiss (shift x i) = (l.dismiss i).without x s := by
  have hrest : (l.watchdogs.map (·.shift x)).filter (·.id != shift x i) =
      (l.watchdogs.filter (·.id != i)).map (·.shift x) := by
    rw [List.filter_map]
    congr 1
    exact List.filter_congr fun w hin => congrArg (!·) (shift_beq (hw w hin) hi)
  simp only [dismiss, without, hrest]

theorem inFlight_without (hf : ∀ r ∈ l.channel.inFlight, r.id ≠ x) (hi : i ≠ x) :
    (l.without x s).channel.inFlight.any (·.id == shift x i) =
      l.channel.inFlight.any (·.id == i) := by
  simp only [without, Channel.without]
  cases hr : l.channel.inFlight with
  | none => rfl
  | some r => exact shift_beq (hf r hr) hi

theorem watchdog_without (hw : ∀ w ∈ l.watchdogs, w.id ≠ x)
    (hf : ∀ r ∈ l.channel.inFlight, r.id ≠ x) (h : Spared x (l.act (.watchdog i)).channel)
    (hi : i ≠ x) (hs : s = true → l.channel.signalled = true) :
    Follows x (l.act (.watchdog i)) ((l.without x s).act (.watchdog (shift x i))) := by
  have hdismiss := dismiss_without (s := s) hw hi
  have hflight := inFlight_without (s := s) hf hi
  have hfind {o : Option Channel.Watchdog} (ho : l.watchdogs.find? (·.id == i) = o) :
      (l.without x s).watchdogs.find? (·.id == shift x i) = o.map (·.shift x) := by
    rw [without, find?_shift hw hi, ho]
  have hturn := watchdogTurn l i
  rw [act_eq (show l.step? (.watchdog i) = l.watchdogStep? i from rfl)] at h ⊢
  have hstep {o : Option Link} (hk : WatchdogTurn (l.without x s) (shift x i) o) :
      (l.without x s).act (.watchdog (shift x i)) = o.getD (l.without x s) := act_eq hk.eq
  generalize l.watchdogStep? i = o at h hturn ⊢
  cases hturn with
  | absent hw =>
    rw [hstep (.absent (hfind hw))]
    exact ⟨s, hs, rfl⟩
  | leaves hw hc =>
    rw [hstep (.leaves (hfind hw) hc), hdismiss]
    exact ⟨s, hs, rfl⟩
  | waits hw ho ht =>
    rw [hstep (.waits (hfind hw) ho ht)]
    exact ⟨s, hs, rfl⟩
  | expires hw ho ht hf =>
    rw [hstep (.expires (hfind hw) ho ht (hflight.trans hf)), hdismiss]
    exact follows_fail h hs
  | dismissed hw ho ht hf =>
    rw [hstep (.dismissed (hfind hw) ho ht (hflight.trans hf)), hdismiss]
    exact ⟨s, hs, rfl⟩

theorem beginWriting_without (h : Spared x l.beginWriting.channel)
    (hs : s = true → l.channel.signalled = true) :
    Follows x l.beginWriting (l.without x s).beginWriting := by
  rcases l.beginWriting_cases with ⟨hn, hl⟩ | ⟨r, c, hsend, hl⟩
  · have hn' := Channel.sendNext?_without_of_none (x := x) (s := s) hn
    have hl' : (l.without x s).beginWriting = { l.without x s with writer := .idle } := by
      rw [beginWriting, show (l.without x s).channel.sendNext? = none from hn']
    rw [hl, hl']
    exact ⟨s, hs, rfl⟩
  · obtain ⟨rest, -, -, -, rfl⟩ := Channel.sendNext?_eq_some hsend
    have hr : r.id ≠ x := by
      rintro rfl
      apply h.unsent
      simp [hl]
    have hsend' := Channel.sendNext?_without (s := s) hsend hr
    have hl' : (l.without x s).beginWriting = l.beginWriting.without x s := by
      rw [beginWriting, show (l.without x s).channel.sendNext? = _ from hsend', hl]
      rfl
    rw [hl', hl]
    exact ⟨s, hs, rfl⟩

/-- Whoever has been told of all that could be sent, and has not been told anew, sends nothing. -/
theorem sendNext?_of_alert {c : Channel} (h : c.Alert) (hs : c.signalled = false) :
    c.sendNext? = none := by
  cases hsend : c.sendNext? with
  | none => rfl
  | some p =>
    obtain ⟨rest, ho, hf, hw, -⟩ := Channel.sendNext?_eq_some hsend
    rcases h ho with hnone | hflight | hsignal
    · exact absurd (hw.symm.trans hnone) nofun
    · rw [hf] at hflight
      cases hflight
    · exact absurd (hs.symm.trans hsignal) nofun

/-- A writer that was told only of the command without which it is looks for nothing. -/
theorem looked_without (h : Spared x l.looked.beginWriting.channel)
    (ha : (l.without x false).channel.Alert) (hw : l.writer = .idle) :
    Follows x l.looked.beginWriting (l.without x false) := by
  obtain ⟨s, hs, hk⟩ := beginWriting_without (s := false) h nofun
  have hnone : (l.looked.without x false).channel.sendNext? = none := sendNext?_of_alert ha rfl
  rw [beginWriting, hnone] at hk
  refine ⟨s, hs, hk ▸ ?_⟩
  simp [without, looked, Channel.without, hw, Channel.Writer.shift]

theorem writer_without (h : Spared x (l.act .writer).channel)
    (ha : (l.without x s).channel.Alert) (hs : s = true → l.channel.signalled = true) :
    Follows x (l.act .writer) ((l.without x s).act .writer) := by
  have hturn := writerTurn l
  rw [act_eq (show l.step? .writer = l.writerStep? from rfl)] at h ⊢
  have hstep {o : Option Link} (hk : WriterTurn (l.without x s) o) :
      (l.without x s).act .writer = o.getD (l.without x s) := act_eq hk.eq
  have hwriter {w : Channel.Writer} (hw : l.writer = w) : (l.without x s).writer = w.shift x := by
    rw [without, hw]
  have failed {error : Error} (h : Spared x (l.fail error).channel) :
      Follows x (l.fail error).stopWriting ((l.without x s).fail error).stopWriting := by
    obtain ⟨s', hs', hk⟩ := follows_fail h hs
    exact ⟨s', hs', by rw [hk]; rfl⟩
  generalize l.writerStep? = o at h hturn ⊢
  cases hturn with
  | stopped hw =>
    rw [hstep (.stopped (hwriter hw))]
    exact ⟨s, hs, rfl⟩
  | leaves hw hc =>
    -- a writer does not stop by the renaming
    have hw' : (l.without x s).writer ≠ .stopped := by
      intro hstopped
      cases hwriting : l.writer with
      | stopped => exact hw hwriting
      | idle | writing => exact absurd ((hwriter hwriting).symm.trans hstopped) nofun
    rw [hstep (.leaves hw' hc)]
    exact ⟨s, hs, rfl⟩
  | sleeps hw ho hsignal =>
    -- a signal of the link without the command is one of the link with it
    have hs' : (l.without x s).channel.signalled = false := by
      cases s with
      | false => rfl
      | true => exact absurd (hsignal.symm.trans (hs rfl)) nofun
    rw [hstep (.sleeps (hwriter hw) ho hs')]
    exact ⟨s, hs, rfl⟩
  | looks hw ho hsignal =>
    cases s with
    | true =>
      rw [hstep (.looks (hwriter hw) ho rfl)]
      exact beginWriting_without (l := l.looked) h nofun
    | false =>
      rw [hstep (.sleeps (hwriter hw) ho rfl)]
      exact looked_without h ha hw
  | breaks hw ho hg =>
    rw [hstep (.breaks (hwriter hw) ho hg)]
    exact failed h
  | expires hw ho hg hroom ht =>
    rw [hstep (.expires (hwriter hw) ho hg hroom ht)]
    exact failed h
  | blocked hw ho hg hroom ht =>
    rw [hstep (.blocked (hwriter hw) ho hg hroom ht)]
    exact ⟨s, hs, rfl⟩
  | continues hw ho hg hroom hd =>
    rw [hstep (.continues (hwriter hw) ho hg hroom hd)]
    exact ⟨s, hs, rfl⟩
  | @finishes id rest deadline hw ho hg hroom hd =>
    rw [hstep (.finishes (hwriter hw) ho hg hroom hd)]
    have hwatch : (((l.without x s).wrote rest).watch (shift x id)) =
        ((l.wrote rest).watch id).without x s := by
      simp [watch, wrote, without, Channel.Watchdog.shift]
    rw [hwatch]
    exact beginWriting_without h hs

theorem debuggee_without (hs : s = true → l.channel.signalled = true) :
    Follows x (l.act .debuggee) ((l.without x s).act .debuggee) := by
  cases hd : l.stream.debuggeeStep? with
  | none =>
    rw [act_eq (show l.step? .debuggee = none by simp [step?, hd]),
      act_eq (show (l.without x s).step? .debuggee = none by simp [step?, without, hd])]
    exact ⟨s, hs, rfl⟩
  | some stream =>
    rw [act_eq (show l.step? .debuggee = some { l with stream } by simp [step?, hd]),
      act_eq (show (l.without x s).step? .debuggee = some { l.without x s with stream } by
        simp [step?, without, hd])]
    exact ⟨s, hs, rfl⟩

end Link
end MobDebug
