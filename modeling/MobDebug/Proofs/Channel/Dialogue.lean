import MobDebug.Proofs.Channel.Handed
import MobDebug.Proofs.Wire.Stream

/-! A channel and the debuggee at its other end. Nothing on the wire says which command a reply is
for: the replies come in the order of the commands, and whatever else the debuggee sends comes in
between. -/
namespace MobDebug
open Wire (Response Location)
open Channel (Request Run answersIn eventsIn linesOf)

/-- A frame that the debuggee sends, in answer to a command or of its own accord. -/
structure Frame (limit : Nat) where
  head : List UInt8
  body : List UInt8
  response : Response
  carries : Wire.Carries limit head body response
  reply : Bool

namespace Frame
variable {limit : Nat}

def bytes (f : Frame limit) : List UInt8 := f.head ++ f.body

/-- The body of a pause says where. -/
def Placed (f : Frame limit) : Prop :=
  f.response.status = .paused → ∃ location, Location.read f.response.body = .ok location

/-- Frames that answer a command: all but output, and a pause only if that is what the command
asks for. -/
structure Answers (f : Frame limit) (r : Request) : Prop where
  status : f.response.status ≠ .output
  pause : f.response.status = .paused → r.name = .suspend

/-- The frame that a response is written as. -/
def ofResponse (r : Response) (reply : Bool) (hl : limit < UInt64.size)
    (hb : (Text.bytes r.body).length ≤ limit) : Frame limit :=
  ⟨Text.bytes r.headerLine, Text.bytes r.body, r, r.carries hl hb, reply⟩

/-- The frames that answer a command. -/
def replies (fs : List (Frame limit)) : List (Frame limit) := fs.filter (·.reply)

theorem replies_append (fs gs : List (Frame limit)) :
    replies (fs ++ gs) = replies fs ++ replies gs :=
  List.filter_append ..

theorem replies_reply {f : Frame limit} (h : f.reply) : replies [f] = [f] := by
  simp [replies, h]

theorem replies_unasked {f : Frame limit} (h : f.reply = false) : replies [f] = [] := by
  simp [replies, h]

/-- The responses that are events. -/
def told (fs : List (Frame limit)) : List Response :=
  (fs.map (·.response)).filter (·.isEvent)

end Frame

/-- A channel and its debuggee: the frames that have been read, those that have been sent and not
been read, and the bytes of these that are not at the channel yet. -/
structure Dialogue (limit : Nat) where
  traffic : Traffic
  read : List (Frame limit) := []
  unread : List (Frame limit) := []
  transit : List UInt8 := []

namespace Dialogue
variable {limit : Nat} {e e' : Dialogue limit} {f : Frame limit}

abbrev channel (e : Dialogue limit) : Channel := e.traffic.link.channel

/-- When it matters that a pause of the debuggee's own accord does not meet a `SUSPEND` in flight:
when it is sent, or when it is read. -/
inductive Moment where
  | sending
  | reading

/-- What a debuggee may send: output and pauses of its own accord, and a reply to the next command
once it has the whole line of it. -/
inductive Sends (moment : Moment) (e : Dialogue limit) (f : Frame limit) : Prop where
  | output (hr : f.reply = false) (hs : f.response.status = .output)
  | paused (hr : f.reply = false) (hs : f.response.status = .paused)
      (hq : moment = .sending → ¬ e.channel.Suspending)
  | reply {r : Request} (hr : f.reply)
      (hw : e.channel.onWire[(Frame.replies (e.read ++ e.unread)).length]? = some r)
      (hline : linesOf (e.channel.onWire.take ((Frame.replies (e.read ++ e.unread)).length + 1)) <+:
        e.traffic.link.stream.written)
      (ha : f.Answers r)

/-- Callers, tasks and time go on, the reader hands a frame on, the debuggee sends one, or bytes of
it arrive. -/
inductive Step (moment : Moment) : Dialogue limit → Dialogue limit → Prop where
  | go {e : Dialogue limit} {t : Traffic} (hs : e.traffic.Step t)
      (hi : t.link.incoming = e.traffic.link.incoming) : Step moment e { e with traffic := t }
  | read {e : Dialogue limit} {f : Frame limit} {rest : List (Frame limit)} {l : Link}
      (hu : e.unread = f :: rest) (hs : e.traffic.link.step? .reader = some l)
      (hi : l.incoming ≠ e.traffic.link.incoming)
      (hq : moment = .reading → f.reply = false → f.response.status = .paused →
        ¬ e.channel.Suspending) :
      Step moment e
        { e with
          traffic := { e.traffic with link := l }
          read := e.read ++ [f]
          unread := rest }
  | send {e : Dialogue limit} (f : Frame limit) (hp : f.Placed) (hs : Sends moment e f) :
      Step moment e
        { e with unread := e.unread ++ [f], transit := e.transit ++ f.bytes }
  | arrive {e : Dialogue limit} (n : Nat) :
      Step moment e
        { e with
          traffic := { e.traffic with
            link := { e.traffic.link with
              stream := { e.traffic.link.stream with
                arriving := e.traffic.link.stream.arriving ++ e.transit.take n } } }
          transit := e.transit.drop n }

inductive Reachable (moment : Moment) : Dialogue limit → Prop where
  | opened {l : Link} (h : l.Opened) (hl : l.bodyLimit = limit) (hi : l.incoming = []) :
      Reachable moment { traffic := { link := l } }
  | step {e e' : Dialogue limit} (h : Reachable moment e) (hs : Step moment e e') :
      Reachable moment e'

variable {moment : Moment}

/-- What happens to the channel of a dialogue happens to it among its callers. -/
theorem step_traffic (hs : Step moment e e') :
    e.traffic.Step e'.traffic ∨ e'.traffic = e.traffic := by
  cases hs with
  | go hs => exact .inl hs
  | read _ hs => exact .inl (.task .reader hs)
  | send => exact .inr rfl
  | arrive => exact .inl (.outside _ rfl)

theorem reachable_traffic (h : Reachable moment e) :
    e.traffic.Reachable ∧ e.traffic.link.bodyLimit = limit := by
  induction h with
  | opened h hl => exact ⟨.opened h, hl⟩
  | step _ hs ih =>
    rcases step_traffic hs with ht | ht
    · exact ⟨ih.1.step ht, (Traffic.step_limit ht).trans ih.2⟩
    · rw [ht]
      exact ih

/-- What holds between the frames and the books of an open channel. -/
structure Kept (e : Dialogue limit) : Prop where
  bytes : e.traffic.link.incoming ++ e.transit = e.unread.flatMap Frame.bytes
  outcomes : (answersIn e.channel.journal).map (·.2) =
    (Frame.replies e.read).map (·.response.outcome)
  events : List.Forall₂ Channel.Tells (Frame.told e.read) (eventsIn e.channel.journal)
  answering : ∀ (k : Nat) (f : Frame limit), (Frame.replies (e.read ++ e.unread))[k]? = some f →
    ∃ r, e.channel.onWire[k]? = some r ∧ f.Answers r
  unasked : ∀ f ∈ e.unread, f.reply = false →
    f.response.status = .output ∨ f.response.status = .paused
  placed : ∀ f ∈ e.unread, f.Placed

namespace Kept
variable {rest : List (Frame limit)} {l : Link}

/-- What the reader has is the first frame or less than it. -/
theorem front (h : Kept e) (hl : e.traffic.link.bodyLimit = limit)
    (ha : e.traffic.link.stream.arriving = []) (hu : e.unread = f :: rest) :
    (∃ tail hlt, Wire.readFrame e.traffic.link.bodyLimit e.traffic.link.received =
        .frame f.response tail hlt ∧ tail ++ e.transit = rest.flatMap Frame.bytes) ∨
      ∃ part, Wire.readFrame e.traffic.link.bodyLimit e.traffic.link.received = .short part := by
  have hbytes := h.bytes
  rw [Link.incoming, ha, List.append_nil, hu, List.flatMap_cons] at hbytes
  rw [hl]
  have whole {tail : List UInt8} (hr : e.traffic.link.received = f.bytes ++ tail) :
      ∃ hlt, Wire.readFrame limit e.traffic.link.received = .frame f.response tail hlt := by
    rw [hr, Frame.bytes, List.append_assoc]
    exact Wire.readFrame_carries f.carries tail
  rcases List.append_eq_append_iff.1 hbytes with ⟨k, hf, ht⟩ | ⟨tail, hr, hrest⟩
  · by_cases he : e.traffic.link.received = f.bytes
    · obtain ⟨hlt, hread⟩ := whole (he.trans (List.append_nil _).symm)
      rw [he] at hf
      obtain rfl : k = [] := by simpa using hf
      exact .inl ⟨[], hlt, hread, by simpa using ht⟩
    · obtain ⟨part, hcut⟩ := Wire.cut_of_prefix f.carries ⟨k, hf.symm⟩ he
      exact .inr ⟨part, Wire.readFrame_cut hcut⟩
  · obtain ⟨hlt, hread⟩ := whole hr
    exact .inl ⟨tail, hlt, hread, hrest.symm⟩

/-- The reader hands on the first frame that is unread. -/
theorem handed (h : Kept e) (hl : e.traffic.link.bodyLimit = limit) (hu : e.unread = f :: rest)
    (hs : e.traffic.link.readerStep? = some l) (hi : l.incoming ≠ e.traffic.link.incoming)
    (ho : l.channel.closed = false) :
    e.channel.dispatch f.response = .ok l.channel ∧
      l.incoming ++ e.transit = rest.flatMap Frame.bytes := by
  cases Link.went_reader hs with
  | quiet _ hsame => exact absurd hsame hi
  | failed _ hm =>
    rw [hm, Channel.fail_closed] at ho
    cases ho
  | handed ha hf hd hrest =>
    rcases h.front hl ha hu with ⟨tail, hlt, hread, htail⟩ | ⟨part, hread⟩
    · cases hf.symm.trans hread
      exact ⟨hd, hrest ▸ htail⟩
    · cases hf.symm.trans hread

/-- As many commands as have been answered come before the one that the next reply is for, so it is
in flight. -/
theorem slot (h : Kept e) (hb : e.traffic.Booked) (ho : e.channel.closed = false)
    (hu : e.unread = f :: rest) (hr : f.reply) :
    ∃ q, e.channel.inFlight = some q ∧ f.Answers q := by
  obtain ⟨done, hdone, hids⟩ := hb.ledger.account
  have hlen : done.length = (Frame.replies e.read).length := by
    have := congrArg List.length h.outcomes
    rw [List.length_map, List.length_map] at this
    rw [← this, ← List.length_map (f := Request.id), hids, List.length_map]
  obtain ⟨q, hq, ha⟩ := h.answering (Frame.replies e.read).length f (by
    simp [Frame.replies, hu, hr])
  rw [channel, hb.ledger.onWire_eq ho hdone hids, List.getElem?_append_right (by omega), hlen,
    Nat.sub_self] at hq
  cases hf : e.channel.inFlight with
  | none => simp [hf] at hq
  | some q' =>
    obtain rfl : q' = q := by simpa [hf] using hq
    exact ⟨q', rfl, ha⟩

/-- A frame is handed on where it belongs: a reply to the command in flight, all else to none. -/
theorem belongs (h : Kept e) (hb : e.traffic.Booked) (ho : e.channel.closed = false)
    (hu : e.unread = f :: rest) (hd : e.channel.dispatch f.response = .ok l.channel)
    (hq : f.reply = false → f.response.status = .paused → ¬ e.channel.Suspending) :
    ∃ answers, Channel.Handed e.channel l.channel f.response answers ∧
      answers.map (·.2) = (Frame.replies [f]).map (·.response.outcome) := by
  cases hr : f.reply with
  | true =>
    obtain ⟨q, hf, ha⟩ := h.slot hb ho hu hr
    exact ⟨_, Channel.handed_reply hd hf ha.status ha.pause, by rw [Frame.replies_reply hr]; rfl⟩
  | false =>
    have hs := h.unasked f (hu ▸ List.mem_cons_self) hr
    refine ⟨[], Channel.handed_unasked hd (hs.imp_right fun hp => ⟨hp, hq hr hp⟩), ?_⟩
    rw [Frame.replies_unasked hr]
    rfl

theorem read (h : Kept e) (hb : e.traffic.Booked) (hl : e.traffic.link.bodyLimit = limit)
    (hu : e.unread = f :: rest) (hs : e.traffic.link.readerStep? = some l)
    (hi : l.incoming ≠ e.traffic.link.incoming) (ho : l.channel.closed = false)
    (hq : f.reply = false → f.response.status = .paused → ¬ e.channel.Suspending) :
    Kept { e with
      traffic := { e.traffic with link := l }
      read := e.read ++ [f]
      unread := rest } := by
  obtain ⟨hd, hbytes⟩ := h.handed hl hu hs hi ho
  have hrun : Run (· = .settle) e.channel l.channel := Channel.dispatch_run hd
  obtain ⟨answers, hhanded, hanswers⟩ := h.belongs hb (Channel.open_of_run hrun ho) hu hd hq
  obtain ⟨es, hevents, hes⟩ := hhanded.events
  have hwire : l.channel.onWire = e.channel.onWire :=
    Channel.onWire_eq_of_run (Channel.run_mono (fun _ ha => by simp [ha]) hrun) hb.ledger
  have hall : e.read ++ [f] ++ rest = e.read ++ e.unread := by simp [hu]
  constructor
  · exact hbytes
  · change (answersIn l.channel.journal).map (·.2) = _
    rw [hhanded.answers, List.map_append, h.outcomes, hanswers, Frame.replies_append,
      List.map_append]
  · change List.Forall₂ _ _ (eventsIn l.channel.journal)
    rw [hevents, Frame.told, List.map_append, List.filter_append]
    exact List.rel_append h.events hes
  · intro k g hg
    change _ = _ at hg
    rw [hall] at hg
    simpa only [channel, hwire] using h.answering k g hg
  · intro g hg
    exact h.unasked g (hu ▸ List.mem_cons_of_mem _ hg)
  · intro g hg
    exact h.placed g (hu ▸ List.mem_cons_of_mem _ hg)

theorem go (h : Kept e) {t : Traffic} (hb : e.traffic.Booked) (hs : e.traffic.Step t)
    (hi : t.link.incoming = e.traffic.link.incoming) (ho : t.link.channel.closed = false) :
    Kept { e with traffic := t } := by
  have hstill := Traffic.still_step hs hb hi ho
  constructor
  · exact hi ▸ h.bytes
  · exact hstill.answers ▸ h.outcomes
  · exact hstill.events ▸ h.events
  · intro k f hf
    obtain ⟨r, hr, ha⟩ := h.answering k f hf
    obtain ⟨new, hnew⟩ := hstill.onWire
    refine ⟨r, ?_, ha⟩
    rw [channel, ← hnew, List.getElem?_append_left (List.getElem?_eq_some_iff.1 hr).1]
    exact hr
  · exact h.unasked
  · exact h.placed

/-- A reply that is sent is for the command behind those that have one. -/
theorem answering_send (h : Kept e) (hs : Sends moment e f) (k : Nat) (g : Frame limit)
    (hg : (Frame.replies (e.read ++ (e.unread ++ [f])))[k]? = some g) :
    ∃ r, e.channel.onWire[k]? = some r ∧ g.Answers r := by
  rw [← List.append_assoc, Frame.replies_append] at hg
  cases hs with
  | output hr | paused hr =>
    rw [Frame.replies_unasked hr, List.append_nil] at hg
    exact h.answering k g hg
  | reply hr hw _ ha =>
    rw [Frame.replies_reply hr] at hg
    rcases Nat.lt_or_ge k (Frame.replies (e.read ++ e.unread)).length with hlt | hge
    · rw [List.getElem?_append_left hlt] at hg
      exact h.answering k g hg
    · rw [List.getElem?_append_right hge, List.getElem?_singleton] at hg
      split at hg
      · next hz =>
        obtain rfl : k = (Frame.replies (e.read ++ e.unread)).length := by omega
        cases hg
        exact ⟨_, hw, ha⟩
      · cases hg

theorem send (h : Kept e) (hp : f.Placed) (hs : Sends moment e f) :
    Kept { e with unread := e.unread ++ [f], transit := e.transit ++ f.bytes } := by
  have hunread : ∀ {p : Frame limit → Prop}, (∀ g ∈ e.unread, p g) → p f →
      ∀ g ∈ e.unread ++ [f], p g := by
    intro p hg hf g hm
    rcases List.mem_append.1 hm with hm | hm
    · exact hg g hm
    · exact List.mem_singleton.1 hm ▸ hf
  constructor
  · simp [← h.bytes]
  · exact h.outcomes
  · exact h.events
  · intro k g hg
    exact h.answering_send hs k g hg
  · refine hunread h.unasked fun hr => ?_
    cases hs with
    | output _ hs => exact .inl hs
    | paused _ hs => exact .inr hs
    | reply hr' => exact absurd (hr.symm.trans hr') nofun
  · exact hunread h.placed hp

theorem arrive (h : Kept e) (n : Nat) :
    Kept { e with
      traffic := { e.traffic with
        link := { e.traffic.link with
          stream := { e.traffic.link.stream with
            arriving := e.traffic.link.stream.arriving ++ e.transit.take n } } }
      transit := e.transit.drop n } where
  bytes := by
    have hbytes := h.bytes
    simp only [Link.incoming] at hbytes ⊢
    simpa using hbytes
  outcomes := h.outcomes
  events := h.events
  answering := h.answering
  unasked := h.unasked
  placed := h.placed

end Kept

theorem kept_step (hs : Step .reading e e') (hb : e.traffic.Booked)
    (hl : e.traffic.link.bodyLimit = limit) (h : Kept e) (ho : e'.channel.closed = false) :
    Kept e' := by
  cases hs with
  | go hs hi => exact h.go hb hs hi ho
  | read hu hs hi hq => exact h.read hb hl hu hs hi ho (hq rfl)
  | send f hp hs => exact h.send hp hs
  | arrive n => exact h.arrive n

theorem kept_reachable (h : Reachable .reading e) (ho : e.channel.closed = false) : Kept e := by
  induction h with
  | opened h _ hi =>
    obtain ⟨timeout, bodyLimit, stream, -, rfl⟩ := h
    exact ⟨by simp [hi], rfl, .nil, by simp [Frame.replies], by simp, by simp⟩
  | @step e e' h hs ih =>
    obtain ⟨ht, hl⟩ := reachable_traffic h
    have hopen : e.channel.closed = false := by
      rcases step_traffic hs with hs | hs
      · exact Channel.open_of_run (Traffic.step_run hs) ho
      · rw [channel, ← hs]
        exact ho
    exact kept_step hs (Traffic.booked_reachable ht) hl (ih hopen) ho

/-- Replies and commands are matched: what was written begins the commands that were put in flight,
each of these has the outcome that the reply at its place says, and none without one; all output and
all pauses are events, in the order of the frames, and there are no others. The bytes that are under
way are the frames that have not been read, and none of them is at fault. -/
structure Matched (e : Dialogue limit) : Prop where
  written : e.traffic.link.stream.written <+: linesOf e.channel.onWire
  outcomes : ∀ (k : Nat) (r : Request), e.channel.onWire[k]? = some r →
    e.traffic.outcome? r.id = ((Frame.replies e.read)[k]?).map (·.response.outcome)
  replied : (Frame.replies e.read).length ≤ e.channel.onWire.length
  events : List.Forall₂ Channel.Tells (Frame.told e.read) e.channel.events
  bytes : e.traffic.link.incoming ++ e.transit = e.unread.flatMap Frame.bytes
  faultless : ∀ fault, ¬ e.traffic.link.Cause (.protocol fault)

namespace Kept

theorem replied (h : Kept e) :
    (Frame.replies e.read).length = (answersIn e.channel.journal).length := by
  have hlen := congrArg List.length h.outcomes
  rw [List.length_map, List.length_map] at hlen
  exact hlen.symm

theorem outcome (h : Kept e) (hb : e.traffic.Booked) (ho : e.channel.closed = false) {k : Nat}
    {r : Request} (hr : e.channel.onWire[k]? = some r) :
    e.traffic.outcome? r.id = ((Frame.replies e.read)[k]?).map (·.response.outcome) := by
  have hsent : ((answersIn e.channel.journal).map (·.1) ++
      e.channel.inFlight.toList.map (·.id))[k]? = some r.id := by
    rw [← hb.ledger.slot ho, ← hb.ledger.onWire_ids, List.getElem?_map]
    simpa using ⟨r, hr, rfl⟩
  rw [← List.getElem?_map, ← h.outcomes, List.getElem?_map]
  rcases Nat.lt_or_ge k (answersIn e.channel.journal).length with hlt | hge
  · rw [List.getElem?_append_left (by simpa using hlt), List.getElem?_map,
      List.getElem?_eq_getElem hlt] at hsent
    rw [List.getElem?_eq_getElem hlt]
    refine hb.ledger.outcome?_eq_some.2 ?_
    have hid := Option.some.inj hsent
    exact hid ▸ List.getElem_mem hlt
  · rw [List.getElem?_append_right (by simpa using hge)] at hsent
    have hfresh := hb.ledger.inFlight_fresh (List.mem_of_getElem? hsent)
    rw [List.getElem?_eq_none hge, Option.map_none]
    simpa [Traffic.outcome?] using mt hb.ledger.outcome?_isSome.1 hfresh

/-- No frame of the debuggee closes the channel. -/
theorem faultless (h : Kept e) (hl : e.traffic.link.bodyLimit = limit) (fault : ProtocolFault) :
    ¬ e.traffic.link.Cause (.protocol fault) := by
  have empty (ha : e.traffic.link.stream.arriving = []) (hu : e.unread = []) :
      Wire.readFrame e.traffic.link.bodyLimit e.traffic.link.received = .short .nothing := by
    have hbytes := h.bytes
    rw [hu, Link.incoming, ha, List.flatMap_nil, List.append_nil, List.append_eq_nil_iff] at hbytes
    exact Wire.readFrame_cut (.nothing hbytes.1)
  generalize he : Error.protocol fault = error
  intro hc
  cases hc with
  | @ended part => cases part <;> cases he
  | @malformed _ ha hr =>
    cases hu : e.unread with
    | nil => cases hr.symm.trans (empty ha hu)
    | cons f rest =>
      rcases h.front hl ha hu with ⟨tail, hlt, hread, -⟩ | ⟨part, hread⟩
      · cases hr.symm.trans hread
      · cases hr.symm.trans hread
  | @misplaced _ _ _ _ ha hr hd =>
    cases hu : e.unread with
    | nil => cases hr.symm.trans (empty ha hu)
    | cons f rest =>
      rcases h.front hl ha hu with ⟨tail, hlt, hread, -⟩ | ⟨part, hread⟩
      · cases hr.symm.trans hread
        obtain ⟨hs, hbad⟩ := Channel.dispatch_location hd
        obtain ⟨location, hgood⟩ := h.placed f (hu ▸ List.mem_cons_self) hs
        cases hbad.symm.trans hgood
      · cases hr.symm.trans hread
  | closed | broken | stuck | silent => cases he

end Kept

/-- Commands and replies are matched, in whatever order callers and tasks do what they do, if a
pause of the debuggee's own accord is never read while a `SUSPEND` is in flight. -/
theorem replies_matched (h : Reachable .reading e) (ho : e.channel.closed = false) : Matched e := by
  obtain ⟨ht, hl⟩ := reachable_traffic h
  have hb := Traffic.booked_reachable ht
  have hk := kept_reachable h ho
  refine ⟨hb.wired.part, fun k r hr => hk.outcome hb ho hr, ?_, ?_, hk.bytes, hk.faultless hl⟩
  · have hlen := congrArg List.length (hb.ledger.slot ho)
    rw [← hb.ledger.onWire_ids, List.length_append, List.length_map, List.length_map] at hlen
    rw [hk.replied, hlen]
    exact Nat.le_add_right _ _
  · rw [Channel.events_eq]
    exact hk.events

/-- A pause while another command is in flight, and the reply to that command. -/
theorem replies_matched_paused : ∃ e : Dialogue 100, Reachable .reading e ∧ Matched e ∧
    e.traffic.outcome? 1 = some (.ok "[]") ∧ e.channel.events.length = 1 := by
  have h := @Reachable.opened 100 .reading _ ⟨10, 100, {}, rfl, rfl⟩ rfl rfl
  have h := h.step (.go (.submit { name := .stack } rfl) rfl)
  have h := h.step (.go (.task .writer rfl) rfl)
  have h := h.step (.go (.task .writer rfl) rfl)
  have h := h.step (.send (.ofResponse ⟨.paused, "a.lua 1"⟩ false (by decide) (by decide))
    (fun _ => ⟨⟨"a.lua", 1⟩, by rfl⟩) (.paused rfl rfl nofun))
  have h := h.step (.send (.ofResponse ⟨.ok, "[]"⟩ true (by decide) (by decide))
    nofun (.reply (r := ⟨1, .stack, "STACK\n"⟩) rfl rfl (by decide) ⟨nofun, nofun⟩))
  have h := h.step (.arrive 100)
  have h := h.step (.go (.task .reader rfl) rfl)
  have h := h.step (.read rfl rfl (by decide) (by rintro - - - ⟨r, ⟨⟩, hn⟩; cases hn))
  have h := h.step (.read rfl rfl (by decide) nofun)
  exact ⟨_, h, replies_matched h rfl, by decide, by decide⟩

/-- That a pause is sent while no `SUSPEND` is in flight is not enough: it may be read later, and
then it answers the `SUSPEND`, whose own reply goes to the command behind it. -/
theorem replies_mismatched : ∃ e : Dialogue 100, Reachable .sending e ∧
    e.channel.closed = false ∧ e.traffic.outcome? 2 = some (.ok "suspended") ∧
    (Frame.replies e.read).map (·.response) = [⟨.ok, "suspended"⟩] ∧ ¬ Matched e := by
  have h := @Reachable.opened 100 .sending _ ⟨10, 100, {}, rfl, rfl⟩ rfl rfl
  have h := h.step (.go (.submit { name := .suspend } rfl) rfl)
  have h := h.step (.go (.submit { name := .stack } rfl) rfl)
  have h := h.step (.send (.ofResponse ⟨.paused, "a.lua 1"⟩ false (by decide) (by decide))
    (fun _ => ⟨⟨"a.lua", 1⟩, by rfl⟩) (.paused rfl rfl (by rintro - ⟨r, ⟨⟩, -⟩)))
  have h := h.step (.go (.task .writer rfl) rfl)
  have h := h.step (.arrive 100)
  have h := h.step (.go (.task .reader rfl) rfl)
  have h := h.step (.read rfl rfl (by decide) nofun)
  have h := h.step (.go (.task .writer rfl) rfl)
  have h := h.step (.send (.ofResponse ⟨.ok, "suspended"⟩ true (by decide) (by decide))
    nofun (.reply (r := ⟨1, .suspend, "SUSPEND\n"⟩) rfl rfl (by decide) ⟨nofun, nofun⟩))
  have h := h.step (.arrive 100)
  have h := h.step (.go (.task .reader rfl) rfl)
  have h := h.step (.read rfl rfl (by decide) nofun)
  refine ⟨_, h, rfl, by decide, by decide, ?_⟩
  intro hm
  have ho := hm.outcomes 1 ⟨2, .stack, "STACK\n"⟩ (by decide)
  exact absurd ho (by decide)

end Dialogue
end MobDebug
