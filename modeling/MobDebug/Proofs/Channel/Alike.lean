import MobDebug.Proofs.Channel.Replies
import MobDebug.Proofs.Channel.Tasks
import MobDebug.Proofs.Wire.Stream
import Mathlib.Data.List.Forall2
import Mathlib.Data.Option.Basic

/-! Two connections on which the same frames arrive, but for the bodies of the replies that only
their callers read. What such a connection does is the same on both. -/
namespace MobDebug

/-- Both fail with the same error, or both give something, and the two are related. -/
inductive Agrees {ε α β : Type} (R : α → β → Prop) : Except ε α → Except ε β → Prop where
  | error (e : ε) : Agrees R (.error e) (.error e)
  | ok {a : α} {b : β} (h : R a b) : Agrees R (.ok a) (.ok b)

theorem isSome_of_rel {α β : Type} {R : α → β → Prop} {o : Option α} {o' : Option β}
    (h : Option.Rel R o o') : o'.isSome = o.isSome := by
  cases h <;> rfl

theorem rel_map {α β γ α' β' γ' : Type} {R : β → β' → Prop} {S : γ → γ' → Prop} {o : Option α}
    {o' : Option α'} {f : α → β} {f' : α' → β'} {g : β → γ} {g' : β' → γ'}
    (h : Option.Rel R (o.map f) (o'.map f')) (hRS : ∀ b b', R b b' → S (g b) (g' b')) :
    Option.Rel S (o.map fun a => g (f a)) (o'.map fun a => g' (f' a)) := by
  cases o <;> cases o' <;> cases h
  · exact .none
  · next h => exact .some (hRS _ _ h)

namespace Wire

/-- A command whose reply only its caller reads. -/
def CommandName.inquires : CommandName → Bool
  | .exec => true
  | .stack => true
  | _ => false

/-- The same response, but for the body of an `OK` reply. -/
def Response.Alike (r q : Response) : Prop :=
  q = r ∨ r.status = .ok ∧ q.status = .ok

/-- Less than a frame, which an `OK` reply may yet become. -/
def Opens (limit : Nat) (s : List UInt8) : Prop :=
  ∃ h b r, Carries limit h b r ∧ r.status = .ok ∧ s <+: h ++ b ∧ s ≠ h ++ b

/-- Two streams that begin with the same frames, but for the bodies of `OK` replies, and go on alike
or stop within such a reply both. -/
inductive Alike (limit : Nat) : List UInt8 → List UInt8 → Prop where
  | same (s : List UInt8) : Alike limit s s
  | within {s t : List UInt8} (hs : Opens limit s) (ht : Opens limit t) : Alike limit s t
  | frame {h b h' b' s t : List UInt8} {r q : Response} (hc : Carries limit h b r)
      (hc' : Carries limit h' b' q) (hr : r.Alike q) (hst : Alike limit s t) :
      Alike limit (h ++ (b ++ s)) (h' ++ (b' ++ t))

variable {limit : Nat} {s t : List UInt8}

/-- Two `OK` replies are alike. -/
theorem alike_replies (hl : limit < UInt64.size) {body body' : String}
    (hb : (Text.bytes body).length ≤ limit) (hb' : (Text.bytes body').length ≤ limit) :
    Alike limit (Response.frame ⟨.ok, body⟩) (Response.frame ⟨.ok, body'⟩) := by
  have hc := Response.carries ⟨.ok, body⟩ hl hb
  have hc' := Response.carries ⟨.ok, body'⟩ hl hb'
  have h := Alike.frame hc hc' (.inr ⟨rfl, rfl⟩) (.same [])
  rwa [List.append_nil, List.append_nil] at h

theorem Opens.cut (h : Opens limit s) : ∃ part, Cut limit s part := by
  obtain ⟨_, _, _, hc, -, hp, hne⟩ := h
  exact cut_of_prefix hc hp hne

/-- What is read on two streams. -/
inductive Reads (limit : Nat) (s t : List UInt8) : Prop where
  | frame {r q : Response} {rest rest' : List UInt8} {hlt : rest.length < s.length}
      {hlt' : rest'.length < t.length} (hs : readFrame limit s = .frame r rest hlt)
      (ht : readFrame limit t = .frame q rest' hlt') (hr : r.Alike q)
      (hrest : Alike limit rest rest') : Reads limit s t
  | fault {fault : ProtocolFault} (hs : readFrame limit s = .fault fault)
      (ht : readFrame limit t = .fault fault) : Reads limit s t
  | short {part part' : Unfinished} (hs : readFrame limit s = .short part)
      (ht : readFrame limit t = .short part') : Reads limit s t

theorem Alike.reads (h : Alike limit s t) : Reads limit s t := by
  cases h with
  | same =>
    cases hs : readFrame limit s with
    | frame r rest hlt => exact .frame hs hs (.inl rfl) (.same rest)
    | fault fault => exact .fault hs hs
    | short part => exact .short hs hs
  | within hs ht =>
    obtain ⟨_, hs⟩ := hs.cut
    obtain ⟨_, ht⟩ := ht.cut
    exact .short (readFrame_cut hs) (readFrame_cut ht)
  | frame hc hc' hr hst =>
    obtain ⟨_, hs⟩ := readFrame_carries hc _
    obtain ⟨_, ht⟩ := readFrame_carries hc' _
    exact .frame hs ht hr hst

end Wire

open Wire (Response readFrame)

namespace Channel
variable {c d : Channel} {i j k : List Entry} {id : Nat} {r : Request}

/-- The command of this id was accepted, and only its caller reads the reply. -/
def Inquired (j : List Entry) (id : Nat) : Prop :=
  ∃ r ∈ acceptedIn j, r.id = id ∧ r.name.inquires

theorem Inquired.mono (h : Inquired j id) (hjk : j <+: k) : Inquired k id := by
  obtain ⟨r, hr, hid, hn⟩ := h
  exact ⟨r, acceptedIn_mono hjk hr, hid, hn⟩

/-- The same entry, but for the body of a reply to one of these commands. -/
inductive Entry.Alike (p : Nat → Prop) : Entry → Entry → Prop where
  | same (e : Entry) : Alike p e e
  | replied {id : Nat} (body body' : String) (h : p id) :
      Alike p (.answered id (.ok body)) (.answered id (.ok body'))

/-- The same has happened, but for the bodies of the replies that only their callers read. -/
def Concur (j k : List Entry) : Prop :=
  List.Forall₂ (Entry.Alike (Inquired j)) j k

theorem Entry.Alike.mono {p q : Nat → Prop} {e f : Entry} (hpq : ∀ id, p id → q id)
    (h : Entry.Alike p e f) : Entry.Alike q e f := by
  cases h with
  | same => exact .same e
  | replied body body' h => exact .replied body body' (hpq _ h)

theorem concur_refl (j : List Entry) : Concur j j :=
  List.forall₂_same.2 fun e _ => .same e

theorem Concur.grow (h : Concur j k) {i' : List Entry}
    (hi : List.Forall₂ (Entry.Alike (Inquired (j ++ i))) i i') : Concur (j ++ i) (k ++ i') := by
  refine List.rel_append (List.Forall₂.imp ?_ h) hi
  intro _ _ he
  exact he.mono fun id hq => hq.mono (List.prefix_append j i)

theorem Concur.append (h : Concur j k) (i : List Entry) : Concur (j ++ i) (k ++ i) :=
  h.grow (List.forall₂_same.2 fun e _ => .same e)

theorem Concur.replied (h : Concur j k) (hq : Inquired j id) (body body' : String) :
    Concur (j ++ [.answered id (.ok body)]) (k ++ [.answered id (.ok body')]) :=
  h.grow (.cons (.replied body body' (hq.mono (List.prefix_append j _))) .nil)

theorem Concur.eventsIn_eq (h : Concur j k) : eventsIn k = eventsIn j := by
  unfold Concur at h
  generalize Inquired j = p at h
  induction h with
  | nil => rfl
  | cons he _ ih => cases he <;> simp [ih]

/-- The same channel, but for the bodies of the replies that only their callers read. -/
inductive Alike (c : Channel) : Channel → Prop where
  | mk {k : List Entry} (h : Concur c.journal k) : Alike c { c with journal := k }

/-- The same outcome, or two replies to one of these commands. -/
inductive Outcomes (p : Nat → Prop) (id : Nat) : Option Outcome → Option Outcome → Prop where
  | same (o : Option Outcome) : Outcomes p id o o
  | replied (body body' : String) (h : p id) : Outcomes p id (some (.ok body)) (some (.ok body'))

theorem alike_refl (c : Channel) : c.Alike c :=
  .mk (concur_refl c.journal)

namespace Alike

theorem outcome? (h : c.Alike d) (id : Nat) :
    Outcomes (Inquired c.journal) id (c.outcome? id) (d.outcome? id) := by
  obtain ⟨h⟩ := h
  unfold Channel.outcome? Concur at *
  dsimp only
  generalize Inquired c.journal = p at h ⊢
  generalize c.journal = j at h ⊢
  induction h with
  | nil => exact .same none
  | cons he _ ih =>
    rw [List.findSome?_cons, List.findSome?_cons]
    cases he with
    | same e =>
      split
      · exact .same _
      · exact ih
    | @replied other body body' hp =>
      by_cases ho : other = id
      · subst ho
        simpa using .replied body body' hp
      · simpa [ho] using ih

theorem events (h : c.Alike d) : d.events = c.events := by
  obtain ⟨h⟩ := h
  rw [events_eq, events_eq, h.eventsIn_eq]

theorem record (h : c.Alike d) (e : Entry) : (c.record e).Alike (d.record e) := by
  obtain ⟨h⟩ := h
  exact .mk (h.append [e])

theorem submit (h : c.Alike d) (command : Wire.Command) :
    Agrees (fun p q => q.1 = p.1 ∧ p.2.Alike q.2) (c.submit command) (d.submit command) := by
  obtain ⟨h⟩ := h
  unfold Channel.submit
  split
  · exact .error _
  split
  · exact .error _
  · exact .ok ⟨rfl, .mk (h.append _)⟩

theorem sendNext? (h : c.Alike d) :
    Option.Rel (fun p q => q.1 = p.1 ∧ p.2.Alike q.2) c.sendNext? d.sendNext? := by
  obtain ⟨h⟩ := h
  unfold Channel.sendNext?
  dsimp only
  split
  · exact .some ⟨rfl, .mk (h.append _)⟩
  · exact .none

theorem answer? (h : c.Alike d) (accepts : Wire.CommandName → Bool) (o : Outcome) :
    Option.Rel Alike (c.answer? accepts o) (d.answer? accepts o) := by
  obtain ⟨h⟩ := h
  unfold Channel.answer?
  dsimp only
  cases c.inFlight with
  | none => exact .none
  | some r =>
    dsimp only [Option.bind]
    split
    · exact .some (.mk (h.append _))
    · exact .none

theorem replied (h : c.Alike d) (hf : c.inFlight = some r) (hq : Inquired c.journal r.id)
    (body body' : String) :
    ((c.answer? (fun _ => true) (.ok body)).getD c).Alike
      ((d.answer? (fun _ => true) (.ok body')).getD d) := by
  obtain ⟨h⟩ := h
  simp only [Channel.answer?, hf, Option.bind_some, if_true, Option.getD_some]
  exact .mk (h.replied hq body body')

theorem fail (h : c.Alike d) (error : Error) : (c.fail error).Alike (d.fail error) := by
  obtain ⟨h⟩ := h
  unfold Channel.fail
  dsimp only
  split
  · exact .mk h
  · simp only [List.append_assoc]
    exact .mk (h.append _)

theorem getD {c' d' : Channel} {o o' : Option Channel} (ho : Option.Rel Alike o o')
    (h : c'.Alike d') : (o.getD c').Alike (o'.getD d') := by
  cases ho with
  | none => exact h
  | some ho => exact ho

/-- The same response does the same to both. -/
theorem dispatch (h : c.Alike d) (r : Response) :
    Agrees Alike (c.dispatch r) (d.dispatch r) := by
  have hlast : d.lastSent = c.lastSent := by
    cases h
    rfl
  unfold Channel.dispatch
  rw [hlast]
  split
  · exact .ok (h.record _)
  · split
    · exact .error _
    · exact .ok (getD ((h.record _).answer? _ _) (h.record _))
  · exact .ok (getD (h.answer? _ _) h)
  · exact .ok (getD (h.answer? _ _) h)
  · exact .ok (getD (h.answer? _ _) (h.record _))
  · exact .ok (getD (h.answer? _ _) (h.record _))

/-- So do two `OK` replies to a command whose reply only its caller reads. -/
theorem dispatch_replied (h : c.Alike d) {p q : Response} (hp : p.status = .ok)
    (hq : q.status = .ok) (hf : c.inFlight = some r) (hi : Inquired c.journal r.id) :
    Agrees Alike (c.dispatch p) (d.dispatch q) := by
  unfold Channel.dispatch
  rw [hp, hq]
  exact .ok (h.replied hf hi _ _)

end Alike

end Channel

namespace Link
open Channel (Ledger)

variable {l m : Link}

/-- The link with another channel and other bytes to read. -/
def altered (l : Link) (channel : Channel) (arriving received : List UInt8) : Link :=
  { l with channel, stream := { l.stream with arriving }, received }

/-- The same link, but for the bodies of the replies that only their callers read. -/
inductive Alike (l : Link) : Link → Prop where
  | mk {channel : Channel} {arriving received : List UInt8} (hc : l.channel.Alike channel)
      (hb : Wire.Alike l.bodyLimit (l.received ++ l.stream.arriving) (received ++ arriving)) :
      Alike l (l.altered channel arriving received)

theorem alike_refl (l : Link) : l.Alike l :=
  .mk (Channel.alike_refl l.channel) (.same _)

/-- The readers of both links have taken what has come. A reply that differs is one that only its
caller reads, and the streams do not end within such a reply. -/
structure Meets (l m : Link) : Prop where
  taken : l.channel.closed = false → l.stream.arriving = [] ∧ m.stream.arriving = []
  asked : ∀ {r q : Response} {rest rest' : List UInt8} {hlt : rest.length < l.received.length}
    {hlt' : rest'.length < m.received.length},
    readFrame l.bodyLimit l.received = .frame r rest hlt →
    readFrame m.bodyLimit m.received = .frame q rest' hlt' → r ≠ q →
    ∃ request, l.channel.inFlight = some request ∧ request.name.inquires
  whole : ∀ {part part' : Wire.Unfinished}, readFrame l.bodyLimit l.received = .short part →
    readFrame m.bodyLimit m.received = .short part' → l.stream.debuggeeGone → part = part'

theorem meets_self (ha : l.channel.closed = false → l.stream.arriving = []) : l.Meets l where
  taken ho := ⟨ha ho, ha ho⟩
  asked hr hq hne := by
    cases hr.symm.trans hq
    exact absurd rfl hne
  whole hp hq _ := by
    cases hp.symm.trans hq
    rfl

namespace Alike

theorem channel (h : l.Alike m) : l.channel.Alike m.channel := by
  obtain ⟨hc, -⟩ := h
  exact hc

theorem now (h : l.Alike m) : m.now = l.now := by
  cases h
  rfl

theorem closed (h : l.Alike m) : m.channel.closed = l.channel.closed := by
  obtain ⟨⟨-⟩, -⟩ := h
  rfl

theorem written (h : l.Alike m) : m.stream.written = l.stream.written := by
  cases h
  rfl

theorem fail (h : l.Alike m) (error : Error) : (l.fail error).Alike (m.fail error) := by
  obtain ⟨hc, hb⟩ := h
  exact .mk (hc.fail error) hb

theorem stopWriting (h : l.Alike m) : l.stopWriting.Alike m.stopWriting := by
  obtain ⟨hc, hb⟩ := h
  exact .mk hc hb

theorem watch (h : l.Alike m) (id : Nat) : (l.watch id).Alike (m.watch id) := by
  obtain ⟨hc, hb⟩ := h
  exact .mk hc hb

theorem dismiss (h : l.Alike m) (id : Nat) : (l.dismiss id).Alike (m.dismiss id) := by
  obtain ⟨hc, hb⟩ := h
  exact .mk hc hb

theorem looked (h : l.Alike m) : l.looked.Alike m.looked := by
  obtain ⟨⟨hk⟩, hb⟩ := h
  exact .mk (.mk hk) hb

theorem wrote (h : l.Alike m) (rest : List UInt8) : (l.wrote rest).Alike (m.wrote rest) := by
  obtain ⟨hc, hb⟩ := h
  exact .mk hc hb

theorem beginWriting (h : l.Alike m) : l.beginWriting.Alike m.beginWriting := by
  obtain @⟨d, _, _, hc, hb⟩ := h
  have hnext := hc.sendNext?
  unfold Link.beginWriting
  dsimp only [altered]
  generalize l.channel.sendNext? = o, d.sendNext? = o' at hnext ⊢
  cases hnext with
  | none => exact .mk hc hb
  | @some p q hpq =>
    obtain ⟨request, c⟩ := p
    obtain ⟨request', c'⟩ := q
    obtain ⟨rfl, hc'⟩ := hpq
    exact .mk hc' hb

theorem writer (h : l.Alike m) : Option.Rel Alike l.writerStep? m.writerStep? := by
  have hturn := writerTurn l
  generalize l.writerStep? = o at hturn ⊢
  have hsame {o' : Option Link} (ht : WriterTurn m o') (ho : Option.Rel Alike o o') :
      Option.Rel Alike o m.writerStep? := ht.eq ▸ ho
  have hlook := h.looked.beginWriting
  have hbreak := (h.fail (.stream .brokenPipe)).stopWriting
  have hexpire := (h.fail .timeout).stopWriting
  have hstop := h.stopWriting
  have hwrote := h.wrote
  obtain ⟨⟨hk⟩, hb⟩ := h
  cases hturn with
  | stopped hw => exact hsame (.stopped hw) .none
  | leaves hw hc => exact hsame (.leaves hw hc) (.some hstop)
  | sleeps hw ho hs => exact hsame (.sleeps hw ho hs) .none
  | looks hw ho hs => exact hsame (.looks hw ho hs) (.some hlook)
  | breaks hw ho hg => exact hsame (.breaks hw ho hg) (.some hbreak)
  | expires hw ho hg hroom ht => exact hsame (.expires hw ho hg hroom ht) (.some hexpire)
  | blocked hw ho hg hroom ht => exact hsame (.blocked hw ho hg hroom ht) .none
  | continues hw ho hg hroom hd =>
    exact hsame (.continues hw ho hg hroom hd) (.some (.mk (.mk hk) hb))
  | finishes hw ho hg hroom hd =>
    exact hsame (.finishes hw ho hg hroom hd) (.some ((hwrote _).watch _).beginWriting)

theorem watchdog (h : l.Alike m) (id : Nat) :
    Option.Rel Alike (l.watchdogStep? id) (m.watchdogStep? id) := by
  have hturn := watchdogTurn l id
  generalize l.watchdogStep? id = o at hturn ⊢
  have hsame {o' : Option Link} (ht : WatchdogTurn m id o') (ho : Option.Rel Alike o o') :
      Option.Rel Alike o (m.watchdogStep? id) := ht.eq ▸ ho
  have hdismiss := h.dismiss id
  obtain ⟨⟨hk⟩, hb⟩ := h
  cases hturn with
  | absent hw => exact hsame (.absent hw) .none
  | leaves hw hc => exact hsame (.leaves hw hc) (.some hdismiss)
  | waits hw ho ht => exact hsame (.waits hw ho ht) .none
  | expires hw ho ht hf => exact hsame (.expires hw ho ht hf) (.some (hdismiss.fail .timeout))
  | dismissed hw ho ht hf => exact hsame (.dismissed hw ho ht hf) (.some hdismiss)

/-- The other side does not look at what it has sent. -/
theorem debuggee (h : l.Alike m) : Option.Rel Alike (l.step? .debuggee) (m.step? .debuggee) := by
  obtain ⟨hc, hb⟩ := h
  change Option.Rel Alike (l.stream.debuggeeStep?.map _)
    (({ l.stream with arriving := _ } : Stream).debuggeeStep?.map _)
  unfold Stream.debuggeeStep?
  dsimp only
  split
  · exact .none
  split
  · exact .some (.mk hc hb)
  split
  · exact .none
  split
  · exact .some (.mk hc hb)
  split
  · exact .some (.mk hc hb)
  · exact .none

/-- What both links read becomes the same, for a command that was accepted. -/
theorem dispatch (h : l.Alike m) (hm : l.Meets m) (hl : Ledger l.channel) {r q : Response}
    {rest rest' : List UInt8} {hlt : rest.length < l.received.length}
    {hlt' : rest'.length < m.received.length}
    (hr : readFrame l.bodyLimit l.received = .frame r rest hlt)
    (hq : readFrame m.bodyLimit m.received = .frame q rest' hlt') (ha : r.Alike q) :
    Agrees Channel.Alike (l.channel.dispatch r) (m.channel.dispatch q) := by
  have hasked := hm.asked hr hq
  obtain ⟨hc, -⟩ := h
  rcases ha with rfl | ⟨hok, hok'⟩
  · exact hc.dispatch q
  by_cases he : r = q
  · subst he
    exact hc.dispatch r
  · obtain ⟨request, hf, hn⟩ := hasked he
    have hin : request ∈ l.channel.outstanding := List.mem_append_left _ (by simp [hf])
    exact hc.dispatch_replied hok hok' hf ⟨request, hl.accepted_of_outstanding hin, rfl, hn⟩

theorem reads (h : l.Alike m) (ha : l.stream.arriving = []) (ha' : m.stream.arriving = []) :
    Wire.Reads l.bodyLimit l.received m.received := by
  obtain @⟨_, arriving, _, -, hb⟩ := h
  obtain rfl : arriving = [] := ha'
  rw [ha, List.append_nil, List.append_nil] at hb
  exact hb.reads

/-- The readers of both links do the same where they meet. -/
theorem reader (h : l.Alike m) (hm : l.Meets m) (hl : Ledger l.channel) :
    Option.Rel Alike l.readerStep? m.readerStep? := by
  have hsame {o o' : Option Link} (ht : ReaderTurn l o) (ht' : ReaderTurn m o')
      (ho : Option.Rel Alike o o') : Option.Rel Alike l.readerStep? m.readerStep? := by
    rwa [ht.eq, ht'.eq]
  have hreads := h.reads
  have hdispatch {r q : Response} := @Alike.dispatch l m h hm hl r q
  have hend (error : Error) : Alike { l.fail error with reading := false }
      { m.fail error with reading := false } := by
    obtain ⟨hc, hb⟩ := h
    exact .mk (hc.fail error) hb
  have htaken := hm.taken
  have hwhole := @hm.whole
  obtain @⟨d, arriving, received, hc, hb⟩ := h
  cases hr : l.reading with
  | false => exact hsame (.stopped hr) (.stopped hr) .none
  | true =>
  have hclosed : d.closed = l.channel.closed := by
    cases hc
    rfl
  cases ho : l.channel.closed with
  | true =>
    exact hsame (.leaves hr ho) (.leaves hr (hclosed.trans ho)) (.some (.mk hc hb))
  | false =>
  have ho' : d.closed = false := hclosed.trans ho
  obtain ⟨ha, ha'⟩ := htaken ho
  cases hreads ha ha' with
  | frame hs ht hq hrest =>
    have hd : Agrees _ (l.channel.dispatch _) (d.dispatch _) := hdispatch hs ht hq
    -- the frames agree but for the body, and so does what is made of them
    generalize hl : l.channel.dispatch _ = e, hm : d.dispatch _ = e' at hd
    cases hd with
    | error fault =>
      exact hsame (.misplaced hr ho ha hs hl) (.misplaced hr ho' ha' ht hm) (.some (hend _))
    | ok hcd =>
      refine hsame (.hands hr ho ha hs hl) (.hands hr ho' ha' ht hm) (.some (.mk hcd ?_))
      obtain rfl : arriving = [] := ha'
      rwa [ha, List.append_nil, List.append_nil]
  | fault hs ht =>
    exact hsame (.malformed hr ho ha hs) (.malformed hr ho' ha' ht) (.some (hend _))
  | short hs ht =>
    cases hg : l.stream.debuggeeGone with
    | false => exact hsame (.waits hr ho ha hs hg) (.waits hr ho' ha' ht hg) .none
    | true =>
      -- at the end of both streams the same part of a frame is left
      cases hwhole hs ht hg
      exact hsame (.ended hr ho ha hs hg) (.ended hr ho' ha' ht hg) (.some (hend _))

/-- Each task of both links does the same. -/
theorem step (h : l.Alike m) (hl : Ledger l.channel) (t : Task) (hr : t = .reader → l.Meets m) :
    Option.Rel Alike (l.step? t) (m.step? t) := by
  cases t with
  | reader => exact h.reader (hr rfl) hl
  | writer => exact h.writer
  | watchdog id => exact h.watchdog id
  | debuggee => exact h.debuggee

theorem takes_left (h : l.Alike m) : l.takeArriving.Alike m := by
  obtain ⟨hc, hb⟩ := h
  refine .mk hc ?_
  simpa only [takeArriving, List.append_nil] using hb

theorem takes_right (h : l.Alike m) : l.Alike m.takeArriving := by
  obtain ⟨hc, hb⟩ := h
  refine .mk hc ?_
  simpa only [altered, List.append_nil] using hb

theorem submitted (h : l.Alike m) {c d : Channel} (hc : c.Alike d) :
    Alike { l with channel := c } { m with channel := d } := by
  obtain ⟨-, hb⟩ := h
  exact .mk hc hb

theorem outside (h : l.Alike m) (stream : Stream) {arriving : List UInt8}
    (hb : Wire.Alike l.bodyLimit (l.received ++ stream.arriving) (m.received ++ arriving)) :
    Alike { l with stream } { m with stream := { stream with arriving } } := by
  obtain ⟨hc, -⟩ := h
  exact .mk hc hb

theorem tick (h : l.Alike m) (now : Nat) : Alike { l with now } { m with now } := by
  obtain ⟨hc, hb⟩ := h
  exact .mk hc hb

end Alike
end Link
end MobDebug
