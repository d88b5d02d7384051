import MobDebug.Proofs.Channel.Handed
import MobDebug.Proofs.Channel.Writer
import MobDebug.Proofs.Session.Alone

/-! A call and the debuggee alone with each other. The debuggee answers the commands that it is
told, one at a time, and what it sends of its own accord is output and pauses. -/
namespace MobDebug
open Wire (Command Response)
open Channel (Event Ledger Outcome Request Tells acceptedIn answersIn eventsIn keptIn linesOf
  withdrawnIn)

/-- The responses that answer a command, where none waits for a pause. -/
def Wire.replies (rs : List Response) : List Response := rs.filter (!·.isEvent)

open Wire (replies)

theorem Wire.replies_concat (rs : List Response) (r : Response) :
    replies (rs ++ [r]) = if r.isEvent then replies rs else replies rs ++ [r] := by
  cases h : r.isEvent <;> simp [replies, h]

namespace Channel
variable {c d : Channel} {ps : List Command} {rs : List Response} {p : Command} {r : Response}
  {id : Nat} {o : Outcome}

/-- These commands have been accepted, in order, and these responses have been handed on: each reply
is the outcome of the next command, and whatever else came has become an event. -/
structure Conversed (c : Channel) (ps : List Command) (rs : List Response) : Prop where
  ledger : c.Ledger
  untaken : withdrawnIn c.journal = []
  asked : (acceptedIn c.journal).map (fun q => (q.name, .ok q.line)) =
    ps.map fun p => (p.name, p.encode)
  answered : (answersIn c.journal).map (·.2) = (replies rs).map (·.outcome)
  told : List.Forall₂ Tells (rs.filter (·.isEvent)) (eventsIn c.journal)

theorem conversed_initial : Conversed {} [] [] :=
  ⟨ledger_initial, rfl, rfl, rfl, .nil⟩

namespace Conversed

/-- Commands are answered from the first on. -/
theorem account (h : Conversed c ps rs) : ∃ done, acceptedIn c.journal = done ++ c.outstanding ∧
    done.map (·.id) = (answersIn c.journal).map (·.1) := by
  obtain ⟨done, hdone, hids⟩ := h.ledger.account
  exact ⟨done, by rw [← hdone, keptIn_of_untaken h.untaken], hids⟩

theorem length (h : Conversed c ps rs) :
    ps.length = (replies rs).length + c.outstanding.length := by
  obtain ⟨done, hdone, hids⟩ := h.account
  have hasked := congrArg List.length h.asked
  have hanswered := congrArg List.length h.answered
  have hlen := congrArg List.length hids
  rw [hdone] at hasked
  simp only [List.length_map, List.length_append] at hasked hanswered hlen
  omega

/-- A moment at which nothing has been handed on since, and no command submitted. -/
theorem still (h : Conversed c ps rs) (hl : d.Ledger) (hw : withdrawnIn d.journal = [])
    (hq : acceptedIn d.journal = acceptedIn c.journal)
    (ha : answersIn d.journal = answersIn c.journal)
    (he : eventsIn d.journal = eventsIn c.journal) : Conversed d ps rs where
  ledger := hl
  untaken := hw
  asked := hq ▸ h.asked
  answered := ha ▸ h.answered
  told := he ▸ h.told

theorem submit (h : Conversed c ps rs) (hs : c.submit p = .ok (id, d)) :
    Conversed d (ps ++ [p]) rs := by
  obtain ⟨line, he, -, -, rfl⟩ := submit_eq_ok hs
  have hl := ledger_step (submit_step hs) h.ledger
  constructor
  · exact hl
  · simpa using h.untaken
  · simpa [he] using h.asked
  · simpa using h.answered
  · simpa using h.told

theorem not_suspending (h : Conversed c ps rs) (hps : ∀ p ∈ ps, p.name ≠ .suspend) :
    ¬ c.Suspending := by
  rintro ⟨q, hf, hname⟩
  have hout : q ∈ c.outstanding := List.mem_append_left _ (by rw [hf]; simp)
  have hq : (q.name, .ok q.line) ∈ ps.map fun p => (p.name, p.encode) := by
    rw [← h.asked]
    exact List.mem_map_of_mem (h.ledger.accepted_of_outstanding hout)
  obtain ⟨p, hp, he⟩ := List.mem_map.1 hq
  exact hps p hp ((congrArg (·.1) he).trans hname)

/-- A response is handed on. -/
theorem heard (h : Conversed c ps rs) (hps : ∀ p ∈ ps, p.name ≠ .suspend)
    (hd : c.dispatch r = .ok d) (hr : r.isEvent = false → c.inFlight.isSome) :
    Conversed d ps (rs ++ [r]) := by
  have hrun := dispatch_run hd
  have hask := run_mono (q := (· ≠ .ask)) (fun _ ha => by simp [ha]) hrun
  obtain ⟨haccepted, hwithdrawn⟩ := run_accepted hask
  have hhanded : ∃ answers, Handed c d r answers ∧
      answers.map (·.2) = (replies [r]).map (·.outcome) := by
    cases he : r.isEvent with
    | true =>
      have hs : r.status = .output ∨ r.status = .paused := by
        simpa [Response.isEvent] using he
      exact ⟨[], handed_unasked hd (hs.imp_right fun hp => ⟨hp, h.not_suspending hps⟩), by
        simp [replies, he]⟩
    | false =>
      obtain ⟨q, hq⟩ := Option.isSome_iff_exists.1 (hr he)
      have hs : r.status ≠ .output ∧ r.status ≠ .paused := by
        simpa [Response.isEvent] using he
      exact ⟨_, handed_reply hd hq hs.1 fun hp => absurd hp hs.2, by simp [replies, he]⟩
  obtain ⟨answers, hhanded, houtcomes⟩ := hhanded
  obtain ⟨es, hevents, htells⟩ := hhanded.events
  constructor
  · exact ledger_run hrun h.ledger
  · exact hwithdrawn.trans h.untaken
  · exact haccepted ▸ h.asked
  · rw [hhanded.answers, List.map_append, h.answered, houtcomes, replies, replies, replies,
      List.filter_append, List.map_append]
  · rw [hevents, List.filter_append]
    exact List.rel_append h.told htells

/-- All commands that were accepted fit on a line. -/
theorem encoded (h : Conversed c ps rs) (hp : p ∈ ps) : ∃ line, p.encode = .ok line := by
  have hp : (p.name, p.encode) ∈ (acceptedIn c.journal).map fun q => (q.name, .ok q.line) :=
    h.asked ▸ List.mem_map_of_mem hp
  obtain ⟨q, -, hq⟩ := List.mem_map.1 hp
  exact ⟨q.line, (congrArg (·.2) hq).symm⟩

/-- The lines of the commands. -/
theorem lines (h : Conversed c ps rs) (k : Nat) :
    linesOf ((acceptedIn c.journal).take k) =
      (ps.take k).flatMap fun p => Text.bytes (p.text ++ "\n") := by
  have hlines : (acceptedIn c.journal).map (·.line) = ps.map (·.text ++ "\n") := by
    have hline (p : Command) (hp : p ∈ ps) : Traffic.line p = p.text ++ "\n" := by
      obtain ⟨line, hencode⟩ := h.encoded hp
      rw [Session.line?_eq_some (Session.encode_eq_ok hencode), Traffic.line, hencode]
      rfl
    have hasked := congrArg (List.map fun q => q.2.toOption.getD "") h.asked
    rw [List.map_map, List.map_map] at hasked
    exact hasked.trans (List.map_congr_left hline)
  rw [linesOf, ← List.flatMap_map (f := Request.line), List.map_take, hlines, ← List.map_take,
    List.flatMap_map]

/-- What has been put in flight are the commands that have a reply, and the one that waits for its
reply. -/
theorem onWire (h : Conversed c ps rs) (ho : c.closed = false) :
    c.onWire = (acceptedIn c.journal).take ((replies rs).length + c.inFlight.toList.length) := by
  have hanswered := congrArg List.length h.answered
  have hsent := congrArg List.length (h.ledger.slot ho)
  simp only [List.length_map, List.length_append] at hanswered hsent
  rw [Channel.onWire, hsent, hanswered, keptIn_of_untaken h.untaken]

/-- Where nothing is left to put in flight, one command more has been put in flight than there are
replies, or all of them have. -/
theorem onWire_of_rest (h : Conversed c ps rs) (ho : c.closed = false)
    (hrest : c.waiting = [] ∨ c.inFlight.isSome) :
    c.onWire = (acceptedIn c.journal).take ((replies rs).length + 1) := by
  rw [h.onWire ho]
  cases hf : c.inFlight with
  | some q => rfl
  | none =>
    have hwaiting : c.waiting = [] := hrest.resolve_right (by simp [hf])
    have hasked := congrArg List.length h.asked
    have hlength := h.length
    simp only [List.length_map] at hasked
    rw [outstanding, hf, hwaiting, Option.toList_none, List.append_nil, List.length_nil] at hlength
    rw [List.take_of_length_le (by simp; omega), List.take_of_length_le (by omega)]

theorem told_of_event (h : Conversed c ps rs) {e : Event} (he : e ∈ eventsIn c.journal) :
    ∃ r, Tells r e := by
  have htold := h.told
  generalize rs.filter (·.isEvent) = es, eventsIn c.journal = events at htold he
  induction htold with
  | nil => cases he
  | cons ht _ ih =>
    rcases List.mem_cons.1 he with rfl | he
    · exact ⟨_, ht⟩
    · exact ih he

/-- Where the last command has an outcome, that is the last reply, and all have theirs. -/
theorem last (h : Conversed c (ps ++ [p]) rs) {qs : List Request} {q : Request}
    (hq : acceptedIn c.journal = qs ++ [q]) (ho : c.outcome? q.id = some o) :
    ∃ before r, replies rs = before ++ [r] ∧ before.length = ps.length ∧ o = r.outcome := by
  obtain ⟨done, hdone, hids⟩ := h.account
  -- the last command is not outstanding, so none is
  have hnone : c.outstanding = [] := by
    rcases List.eq_nil_or_concat' c.outstanding with hnil | ⟨out, q', hout⟩
    · exact hnil
    · rw [hq, hout, ← List.append_assoc] at hdone
      obtain rfl : q = q' := (List.append_singleton_inj.1 hdone).2
      have hmem : q ∈ c.outstanding := by rw [hout]; simp
      rw [h.ledger.outcome?_outstanding hmem] at ho
      cases ho
  rw [hnone, List.append_nil, hq] at hdone
  rw [← hdone, List.map_append, List.map_singleton] at hids
  obtain ⟨as, bs, hsplit, -, hbs⟩ := List.map_eq_append_iff.1 hids.symm
  obtain ⟨⟨id, o'⟩, rfl, hid⟩ := List.map_eq_singleton_iff.1 hbs
  obtain rfl : id = q.id := hid
  have hlast : c.outcome? q.id = some o' := h.ledger.outcome?_eq_some.2 (by rw [hsplit]; simp)
  obtain rfl : o = o' := Option.some.inj (ho.symm.trans hlast)
  have hanswered := h.answered
  rw [hsplit, List.map_append, List.map_singleton] at hanswered
  obtain ⟨before, last, hreplies, -, hlast⟩ := List.map_eq_append_iff.1 hanswered.symm
  obtain ⟨r, rfl, hr⟩ := List.map_eq_singleton_iff.1 hlast
  refine ⟨before, r, hreplies, ?_, hr.symm⟩
  have hlength := h.length
  rw [hnone, hreplies] at hlength
  simpa using hlength.symm

/-- Where there are as many replies as commands, the last command has an outcome. -/
theorem last_answered (h : Conversed c ps rs) {qs : List Request} {q : Request}
    (hq : acceptedIn c.journal = qs ++ [q]) (hlen : (replies rs).length = ps.length) :
    (c.outcome? q.id).isSome := by
  obtain ⟨done, hdone, hids⟩ := h.account
  have hlength := h.length
  have hnone : c.outstanding = [] := List.length_eq_zero_iff.1 (by omega)
  rw [h.ledger.outcome?_isSome, ← hids]
  rw [hnone, List.append_nil, hq] at hdone
  rw [← hdone]
  simp

end Conversed
end Channel

namespace Link
variable {l : Link} {ps : List Command} {rs : List Response}

/-- Of a command nothing is written before the one before it has its reply. -/
theorem written_of_conversed (h : l.channel.Conversed ps rs) (hw : l.Wired)
    (ho : l.channel.closed = false) : l.stream.written <+:
      (ps.take ((replies rs).length + 1)).flatMap fun p => Text.bytes (p.text ++ "\n") := by
  rw [← h.lines]
  refine hw.part.trans (Channel.linesOf_prefix ?_)
  rw [h.onWire ho]
  refine List.take_prefix_take_left ?_
  cases l.channel.inFlight <;> simp

/-- Where all tasks wait and there is room, no command waits that could be put in flight. -/
theorem Settled.rest (hs : l.Settled) (hm : l.Manned) (ho : l.channel.closed = false)
    (hroom : 0 < l.stream.room) : l.channel.waiting = [] ∨ l.channel.inFlight.isSome := by
  cases hwriter : l.writer with
  | stopped => exact absurd hwriter (hm.stays ho)
  | writing id rest deadline => exact absurd (hs.blocked hwriter).2.1 (Nat.ne_of_gt hroom)
  | idle =>
    rcases hm.alert ho with hnone | hflight | hsignal
    · exact .inl hnone
    · exact .inr hflight
    · exact absurd ((hs.looked ho hwriter).symm.trans hsignal) nofun

/-- Where all tasks wait and there is room, the next command has been written. -/
theorem written_of_settled (h : l.channel.Conversed ps rs) (hw : l.Wired) (hm : l.Manned)
    (ho : l.channel.closed = false) (hs : l.Settled) (hroom : 0 < l.stream.room) :
    l.stream.written =
      (ps.take ((replies rs).length + 1)).flatMap fun p => Text.bytes (p.text ++ "\n") := by
  cases hwriter : l.writer with
  | stopped => exact absurd hwriter (hm.stays ho)
  | writing id rest deadline => exact absurd (hs.blocked hwriter).2.1 (Nat.ne_of_gt hroom)
  | idle =>
    have hwhole : l.stream.written = linesOf l.channel.onWire := by
      simpa [hwriter, Channel.Writer.inHand] using hw.whole (by simp [hwriter])
    rw [hwhole, h.onWire_of_rest ho (hs.rest hm ho hroom), h.lines]

end Link

namespace Session
variable {s t : Session} {l m : Link}

/-- Nothing has been handed on between two moments. -/
structure Unheard (s t : Session) : Prop where
  answers : answersIn t.journal = answersIn s.journal
  brought : t.brought = s.brought

theorem unheard_of_channel (h : t.link.map (·.channel) = s.link.map (·.channel)) :
    s.Unheard t := by
  have hj : t.journal = s.journal := by
    have hmap (k : Session) : k.journal = ((k.link.map (·.channel)).map (·.journal)).getD [] := by
      rw [journal, Option.map_map]
      rfl
    rw [hmap, hmap, h]
  exact ⟨by rw [hj], congrArg eventsIn hj⟩

end Session

namespace Link
variable {l m : Link} {t : Task}

/-- A task that closes the channel tells its end. -/
theorem closed_of_unheard (h : l.step? t = some m)
    (he : eventsIn m.channel.journal = eventsIn l.channel.journal) :
    m.channel.closed = l.channel.closed := by
  cases step_went h with
  | quiet hr => exact (Channel.quiet_of_send hr).1
  | handed _ _ hd => exact Channel.dispatch_closed hd
  | failed _ hm =>
    cases ho : l.channel.closed with
    | true => rw [hm, Channel.fail, ho, if_pos rfl, ho]
    | false =>
      rw [hm, Channel.fail_eq ho] at he
      simp [Channel.ending] at he

end Link

namespace Debugger
variable {s u v : Debugger} {n : Nat} {job : Job} {rs : List Response} {l m : Link}

/-- Nobody lets go of a session that somebody has afterwards. -/
theorem release_kept (h : s.release.gone = false) : s.release = s := by
  unfold release at h ⊢
  split
  · rfl
  · next hn =>
    rw [if_neg hn] at h
    cases h

theorem not_gone_before (hs : Step s u) (hg : u.gone = false) : s.gone = false := by
  rw [Bool.eq_false_iff]
  intro hgone
  cases step_pumps hs with
  | job _ _ _ _ h | drift _ _ _ _ h => exact absurd (hg.symm.trans (h hgone)) nofun
  | brings _ _ h => exact absurd (h.symm.trans hgone) nofun

/-- What a job does in its own step. -/
theorem own_session (hj : s.jobs.lookup n = some job) (hs : s.step? (.job n) = some u)
    (hg : u.gone = false) : ∃ job' text,
      s.jobStep? job = some (u.session, job', text) ∧ u.jobs.lookup n = some job' := by
  obtain ⟨old, session, job', text, hold, hstep, rfl⟩ := jobStep_eq_some hs
  cases hj.symm.trans hold
  rw [release_kept hg]
  exact ⟨job', text, hstep, (lookup_setJob (by rw [hj]; rfl) _ _).trans (if_pos rfl)⟩

/-- Where no task of the connection hands anything on, nothing else does. -/
theorem Alone.unheard (h : Alone n s u) (hg : u.gone = false)
    (hown : s.step? (.job n) ≠ some u)
    (hk : ∀ t, s.step? (.link t) = some u → s.session.Unheard u.session) :
    s.session.Unheard u.session ∧ u.isClosed = s.isClosed := by
  have hsame (hl : u.session.link.map (·.channel) = s.session.link.map (·.channel)) :
      s.session.Unheard u.session ∧ u.isClosed = s.isClosed := by
    have hany (k : Debugger) : k.isClosed = (k.session.link.map (·.channel)).any (·.closed) := by
      rw [isClosed, Option.any_map]
    exact ⟨Session.unheard_of_channel hl, by rw [hany, hany, hl]⟩
  obtain ⟨hs, hothers⟩ := h
  cases hs with
  | task task hs =>
    cases taskTurn hs with
    | link hl hm =>
      -- what closes a connection is told in its journal
      have hunheard := hk _ hs
      have hclosed := Link.closed_of_unheard hm (by
        rw [← Session.journal_of_link hl]
        exact hunheard.brought)
      exact ⟨hunheard, by simp [isClosed, hl, hclosed]⟩
    | refused | stops => exact hsame rfl
    | @brings _ e =>
      exact hsame (congrArg (Option.map (·.channel)) (s.session.receive_link e))
    | @job m =>
      by_cases hm : m = n
      · exact absurd (hm ▸ hs) hown
      · exact hsame (by rw [hothers m hm hs])
  | begin | type | endInput | outsideRefused => exact hsame rfl
  | drop =>
    have hkept : s.drop = { s with held := false } := release_kept hg
    exact hsame (by rw [hkept])
  | outside stream hl | tick now hl => exact hsame (by rw [hl]; rfl)

/-- A call and the debuggee are alone with each other. The debuggee has sent these responses, each
reply while a command was in flight, and the connection has not failed. -/
inductive Exchange (n : Nat) (s : Debugger) : List Response → Debugger → Prop where
  | start : Exchange n s [] s
  | own {rs : List Response} {u v : Debugger} (h : Exchange n s rs u)
      (hs : u.step? (.job n) = some v) : Exchange n s rs v
  | go {rs : List Response} {u v : Debugger} (h : Exchange n s rs u) (hs : Alone n u v)
      (hk : ∀ t, u.step? (.link t) = some v → u.session.Unheard v.session) : Exchange n s rs v
  | read {rs : List Response} {u v : Debugger} {l : Link} {r : Response} {rest : List UInt8}
      {hlt : rest.length < l.received.length} (h : Exchange n s rs u)
      (hs : u.step? (.link .reader) = some v) (hl : u.session.link = some l)
      (ha : l.stream.arriving = [])
      (hf : Wire.readFrame l.bodyLimit l.received = .frame r rest hlt)
      (hr : r.isEvent = false → l.channel.inFlight.isSome) (ho : v.isClosed = false) :
      Exchange n s (rs ++ [r]) v

theorem Exchange.future (h : Exchange n s rs u) : Future s u := by
  induction h with
  | start => exact .refl
  | own _ hs ih => exact ih.tail (.task _ hs)
  | go _ hs _ ih => exact ih.tail hs.1
  | read _ hs _ _ _ _ _ ih => exact ih.tail (.task _ hs)

/-- Nobody else does anything where all other jobs have ended. -/
theorem Exchange.next (h : Exchange n s rs u) (hs : Step u v)
    (hj : u.jobs.all fun j => j.1 == n || j.2 matches .ended _)
    (hk : u.session.Unheard v.session) : Exchange n s rs v :=
  h.go (alone_of_ended hs hj) fun _ _ => hk

end Debugger
end MobDebug
