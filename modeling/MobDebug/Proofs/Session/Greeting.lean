import MobDebug.Proofs.Channel.Writer
import MobDebug.Proofs.Session.Breakpoints
import MobDebug.Proofs.Session.Exchange
import MobDebug.Proofs.Session.Refusal
import MobDebug.Proofs.Wire.Lines

/-! The greeting of a session that attaches. The debuggee is told the base directory, if there is
one, and each breakpoint, one command after the reply to the one before. What it rejects is dropped,
and the greeting goes on. -/
namespace MobDebug
open Wire (Command CommandName Response SingleLine replies)
open Channel (Outcome Request acceptedIn answersIn linesOf)
open Session (Answer Awaiting Breakpoint Event Guarded Progress)

/-- What the debuggee says where it rejects a command. -/
def Wire.Response.rejection? (r : Response) : Option String :=
  if r.status.isError then some (String.ofList (Text.trimEnd r.body.toList)) else none

/-- A reply either accepts its command, or rejects it with what it says. -/
theorem Wire.Response.judged (r : Response) :
    (r.status.isError = false ∧ r.rejection? = none ∧ r.outcome = .ok r.body) ∨
      ∃ message, r.status.isError ∧ r.rejection? = some message ∧
        r.outcome = .error (.debuggee r.status.code message) := by
  cases he : r.status.isError <;> simp [rejection?, outcome, he]

/-- What a session says that has told the debuggee something that was rejected. -/
def Session.Event.rejection? : Event → Option String
  | .debuggeeError message => some message
  | _ => none

namespace Session
variable {s t u : Session} {ps : List Command} {rs qs : List Response} {r : Response}
  {bs rest : List Breakpoint} {ms : List String} {b : Breakpoint} {p : Progress} {l : Link}
  {id : Nat} {o : Outcome} {message : String}

/-- A breakpoint and the command that tells it. -/
def Breakpoint.introduction (b : Breakpoint) : Option Breakpoint × Command :=
  (some b, b.command true)

/-- A breakpoint in a file with a single-line name is set and cleared by a line. -/
theorem Breakpoint.encode_command (b : Breakpoint) (on : Bool) (h : SingleLine b.file) :
    (b.command on).encode = .ok ((b.command on).text ++ "\n") := by
  have hargs : SingleLine (b.command on).args := by
    intro ch hch
    have hch : ch ∈ b.file.toList ∨ ch = ' ' ∨ ch ∈ Nat.toDigits 10 b.line := by
      cases on <;>
        simpa [Breakpoint.command, Command.setBreakpoint, Command.deleteBreakpoint] using hch
    rcases hch with hch | rfl | hch
    · exact h ch hch
    · rfl
    · exact Wire.isLineEnd_digit (Text.isDigit_toDigits hch)
  cases on <;> exact Command.encode_single hargs rfl rfl

/-- The commands that the debuggee is told when the session attaches, each with the breakpoint that
it tells, if it tells one. -/
def greeting (s : Session) : List (Option Breakpoint × Command) :=
  (s.config.baseDir.map fun dir => (none, { name := .baseDir, args := dir })).toList ++
    s.core.breakpoints.map Breakpoint.introduction

/-- The breakpoints that are told by these commands and have not been rejected by these replies. -/
def acceptedOf (told : List (Option Breakpoint × Command)) (rs : List Response) : List Breakpoint :=
  (told.zip rs).filterMap fun (p, r) => if r.status.isError then none else p.1

variable {told : List (Option Breakpoint × Command)} {entry : Option Breakpoint × Command}

theorem acceptedOf_append (h : told.length ≤ rs.length) :
    acceptedOf told (rs ++ qs) = acceptedOf told rs := by
  have hzip : told.zip (rs ++ qs) = told.zip rs := by
    induction told generalizing rs with
    | nil => rfl
    | cons p told ih =>
      cases rs with
      | nil => cases h
      | cons r rs => simp [ih (Nat.le_of_succ_le_succ h)]
  rw [acceptedOf, hzip, acceptedOf]

theorem acceptedOf_concat (h : told.length = rs.length) :
    acceptedOf (told ++ [entry]) (rs ++ [r]) =
      acceptedOf told rs ++ (if r.status.isError then none else entry.1).toList := by
  rw [acceptedOf, List.zip_append h, List.filterMap_append]
  cases he : r.status.isError <;> cases hb : entry.1 <;> simp [acceptedOf, he, hb]

theorem mem_greeting : entry ∈ s.greeting ↔
    (∃ dir ∈ s.config.baseDir, (none, { name := .baseDir, args := dir }) = entry) ∨
      ∃ b ∈ s.core.breakpoints, b.introduction = entry := by
  simp [greeting]

/-- No command of the greeting waits for a pause. -/
theorem not_suspend_of_told (h : told <+: s.greeting) :
    ∀ p ∈ told.map (·.2), p.name ≠ .suspend := by
  intro p hp
  obtain ⟨entry, hentry, rfl⟩ := List.mem_map.1 hp
  rcases mem_greeting.1 (h.subset hentry) with ⟨dir, -, rfl⟩ | ⟨b, -, rfl⟩ <;> exact nofun

theorem told_upto {before more : List (Option Breakpoint × Command)}
    (hg : s.greeting = before ++ entry :: more) : before ++ [entry] <+: s.greeting :=
  ⟨more, by rw [hg, ← List.append_cons]⟩

/-- The bytes of the first commands of the greeting, one on each line. -/
def spoken (s : Session) (k : Nat) : List UInt8 :=
  (s.greeting.take k).flatMap fun entry => Text.bytes (entry.2.text ++ "\n")

theorem spoken_eq (s : Session) (k : Nat) : s.spoken k =
    ((s.greeting.map (·.2)).take k).flatMap fun p => Text.bytes (p.text ++ "\n") := by
  rw [spoken, ← List.map_take, List.flatMap_map]

/-- All commands of the greeting fit on a line. -/
def Plain (s : Session) : Prop :=
  ∀ entry ∈ s.greeting, entry.2.encode = .ok (entry.2.text ++ "\n")

theorem plain_of_single (hfiles : ∀ b ∈ s.core.breakpoints, SingleLine b.file)
    (hdir : ∀ dir ∈ s.config.baseDir, SingleLine dir) : s.Plain := by
  intro entry h
  rcases mem_greeting.1 h with ⟨dir, hd, rfl⟩ | ⟨b, hb, rfl⟩
  · exact Command.encode_single (hdir dir hd) rfl rfl
  · exact b.encode_command true (hfiles b hb)

/-- What becomes of a session `s` that has told these commands and heard these responses: its
connection is open, it has these breakpoints, and it has told its subscribers these rejections. -/
structure Hears (s t : Session) (ps : List Command) (rs : List Response) (bs : List Breakpoint)
    (ms : List String) : Prop where
  link : ∃ l, t.link = some l ∧ l.channel.closed = false ∧ l.channel.Conversed ps rs
  live : t.core.ended = false
  breakpoints : t.core.breakpoints = bs
  rejections : ∃ es, t.events.sent = s.events.sent ++ es ∧ es.filterMap Event.rejection? = ms

namespace Hears

theorem emit (h : s.Hears t ps rs bs ms) (e : Event) :
    s.Hears (t.emit e) ps rs bs (ms ++ e.rejection?.toList) := by
  obtain ⟨es, hes, hms⟩ := h.rejections
  refine ⟨h.link, h.live, h.breakpoints, es ++ [e], ?_, ?_⟩
  · simp [Session.emit, Broadcast.send, hes]
  · rw [List.filterMap_append, hms, List.filterMap_cons, List.filterMap_nil]
    cases e.rejection? <;> rfl

theorem emit_other {e : Event} (h : s.Hears t ps rs bs ms) (he : e.rejection? = none) :
    s.Hears (t.emit e) ps rs bs ms := by
  have hemit := h.emit e
  rwa [he, Option.toList_none, List.append_nil] at hemit

theorem publish (h : s.Hears t ps rs bs ms) : s.Hears t.publish ps rs bs ms := h.emit_other rfl

theorem drifts (h : s.Hears t ps rs bs ms) (hg : Guarded u) (hd : t.Drifts u) (hu : t.Unheard u)
    (hc : u.link.any (·.channel.closed) = t.link.any (·.channel.closed)) :
    s.Hears u ps rs bs ms := by
  obtain ⟨l, hl, ho, hconv⟩ := h.link
  obtain ⟨m, hm, -⟩ := hd.link_some hl
  have haccepted := accepted_drifts hd
  have hanswers := hu.answers
  have hbrought := hu.brought
  rw [Session.brought, Session.brought] at hbrought
  rw [journal_of_link hl, journal_of_link hm] at haccepted hanswers hbrought
  rw [hl, hm] at hc
  constructor
  · exact ⟨m, hm, hc.trans ho,
      hconv.still (hg m hm).ledger (hg m hm).untaken haccepted hanswers hbrought⟩
  · rw [hd.core]
    exact h.live
  · rw [hd.core]
    exact h.breakpoints
  · rw [hd.events]
    exact h.rejections

/-- The events of the connection are output and pauses. -/
theorem receive (h : s.Hears t ps rs bs ms) {e : Channel.Event} (he : e ∈ t.brought) :
    s.Hears (t.receive e) ps rs bs ms := by
  obtain ⟨l, hl, -, hconv⟩ := h.link
  rw [brought, journal_of_link hl] at he
  obtain ⟨r, htells⟩ := hconv.told_of_event he
  cases htells with
  | output => exact h.emit_other rfl
  | @paused body location after =>
    change s.Hears (t.enterPaused location after) ps rs bs ms
    rcases t.enterPaused_cases location after with hsame | ⟨-, -, hent⟩
    · rw [hsame]
      exact h
    · rw [hent]
      exact publish (t := { t with
        core := { t.core with state := .paused, frame := 0, location := some location } })
        ⟨h.link, h.live, h.breakpoints, h.rejections⟩

theorem heard (h : s.Hears t ps rs bs ms) (hps : ∀ p ∈ ps, p.name ≠ .suspend) {m : Link}
    (hl : t.link = some l) (hd : l.channel.dispatch r = .ok m.channel)
    (hr : r.isEvent = false → l.channel.inFlight.isSome) :
    s.Hears { t with link := some m } ps (rs ++ [r]) bs ms := by
  obtain ⟨l', hl', ho, hconv⟩ := h.link
  cases hl.symm.trans hl'
  exact ⟨⟨m, rfl, (Channel.dispatch_closed hd).trans ho, hconv.heard hps hd hr⟩, h.live,
    h.breakpoints, h.rejections⟩

theorem submit {operation : Operation} {command : Command} (h : s.Hears t ps rs bs ms)
    (hs : t.submit operation command = .ok (id, u)) :
    s.Hears u (ps ++ [command]) rs bs ms := by
  obtain ⟨l, c, hl, hsub, rfl⟩ := submit_eq_ok hs
  obtain ⟨l', hl', ho, hconv⟩ := h.link
  cases hl.symm.trans hl'
  refine ⟨⟨{ l with channel := c }, rfl, ?_, hconv.submit hsub⟩, h.live, h.breakpoints,
    h.rejections⟩
  obtain ⟨line, -, -, -, rfl⟩ := Channel.submit_eq_ok hsub
  exact ho

theorem dropping {current : Option Breakpoint}
    (h : s.Hears t ps rs (bs ++ current.toList ++ rest) ms)
    (hn : (bs ++ current.toList ++ rest).Nodup) (message : String) :
    s.Hears (t.dropping current message) ps rs (bs ++ rest) (ms ++ [message]) := by
  have hkept : (t.dropping current message).core.breakpoints = bs ++ rest := by
    cases current with
    | none =>
      change t.core.breakpoints = bs ++ rest
      simpa using h.breakpoints
    | some b =>
      change t.core.breakpoints.erase b = bs ++ rest
      rw [Option.toList_some, List.append_assoc, List.singleton_append] at hn
      have hb : b ∉ bs := fun hm => (List.nodup_append.1 hn).2.2 b hm b List.mem_cons_self rfl
      rw [h.breakpoints, Option.toList_some, List.append_assoc, List.singleton_append,
        List.erase_append_right _ hb, List.erase_cons_head]
  have hpublished := publish (t := { t with core := (t.dropping current message).core })
    ⟨h.link, h.live, hkept, h.rejections⟩
  exact hpublished.emit (.debuggeeError message)

end Hears

/-- A command either gets the next place on an open connection, or does not fit on a line. -/
theorem submit_of_open (hl : t.link = some l) (ho : l.channel.closed = false)
    (operation : Operation) (command : Command) : (∃ id u, t.submit operation command = .ok (id, u)) ∨
      ∃ fault, command.encode = .error fault ∧
        t.submit operation command = .error (.protocol fault) := by
  rw [Session.submit, hl]
  cases he : command.encode with
  | error fault => exact .inr ⟨fault, rfl, by simp [Channel.submit, he, Except.map]⟩
  | ok line => exact .inl ⟨_, _, by simp only [Channel.submit, he, ho]; rfl⟩

/-- How far a call is that greets the debuggee, which has sent these responses. The breakpoints are
those accepted so far, with those that still are to be told or have no reply. -/
inductive Talk (s : Session) (rs : List Response) (t : Session) : Progress → Prop where
  | telling {before : List (Option Breakpoint × Command)} {entry : Option Breakpoint × Command}
      {rest : List Breakpoint} {qs : List Request} {q : Request}
      (hg : s.greeting = before ++ entry :: rest.map Breakpoint.introduction)
      (hlen : before.length ≤ (replies rs).length) (hq : acceptedIn t.journal = qs ++ [q])
      (h : s.Hears t ((before ++ [entry]).map (·.2)) rs
        (acceptedOf before (replies rs) ++ entry.1.toList ++ rest)
        (((replies rs).take before.length).filterMap (·.rejection?))) :
      Talk s rs t (.waiting q.id (.attach entry.1 rest))
  | done (hlen : (replies rs).length = s.greeting.length)
      (h : s.Hears t (s.greeting.map (·.2)) rs (acceptedOf s.greeting (replies rs))
        ((replies rs).filterMap (·.rejection?))) :
      Talk s rs t (.finished (.ok .unit))
  | broken {fault : ProtocolFault} (hf : ∃ entry ∈ s.greeting, entry.2.encode = .error fault)
      (he : t.core.ended) (hs : t.core.state = .terminated)
      (hl : ∃ l, t.link = some l ∧ l.channel.closed) :
      Talk s rs t (.finished (.error (.protocol fault)))

namespace Talk

theorem drifts (h : Talk s rs t p) (hg : Guarded u) (hd : t.Drifts u) (hu : t.Unheard u)
    (hc : u.link.any (·.channel.closed) = t.link.any (·.channel.closed)) : Talk s rs u p := by
  cases h with
  | telling hgreet hlen hq h =>
    exact .telling hgreet hlen ((accepted_drifts hd).trans hq) (h.drifts hg hd hu hc)
  | done hlen h => exact .done hlen (h.drifts hg hd hu hc)
  | broken hf he hs hl =>
    obtain ⟨l, hl, hclosed⟩ := hl
    obtain ⟨m, hm, hmoves⟩ := hd.link_some hl
    exact .broken hf (hd.core ▸ he) (hd.core ▸ hs) ⟨m, hm, (Link.moves_closed hmoves hclosed).1⟩

theorem receive (h : Talk s rs t p) {e : Channel.Event} (he : e ∈ t.brought) :
    Talk s rs (t.receive e) p := by
  have hlink : (t.receive e).link = t.link := receive_link t e
  cases h with
  | telling hgreet hlen hq h =>
    have hjournal : (t.receive e).journal = t.journal := by rw [journal, hlink, journal]
    exact .telling hgreet hlen (hjournal ▸ hq) (h.receive he)
  | done hlen h => exact .done hlen (h.receive he)
  | broken hf hend hs hl =>
    have hcore : (t.receive e).core = t.core := by
      cases e with
      | paused location after =>
        rcases t.enterPaused_cases location after with hsame | ⟨-, hlive, -⟩
        · exact congrArg (·.core) hsame
        · rw [hs] at hlive
          cases hlive
      | output | debuggeeError => rfl
      | closed =>
        rcases t.connectionLost_cases with ⟨-, hsame⟩ | ⟨hopen, -⟩
        · exact congrArg (·.core) hsame
        · exact absurd (hopen.symm.trans hend) Bool.false_ne_true
    exact .broken hf (hcore ▸ hend) (hcore ▸ hs) (hlink ▸ hl)

theorem heard (h : Talk s rs t p) {m : Link} (hl : t.link = some l)
    (ho : l.channel.closed = false) (hd : l.channel.dispatch r = .ok m.channel)
    (hr : r.isEvent = false → l.channel.inFlight.isSome) :
    Talk s (rs ++ [r]) { t with link := some m } p := by
  -- a frame adds one reply at most
  have hextends : ∃ more, replies (rs ++ [r]) = replies rs ++ more := by
    rw [Wire.replies_concat]
    split
    · exact ⟨[], (List.append_nil _).symm⟩
    · exact ⟨[r], rfl⟩
  obtain ⟨more, hmore⟩ := hextends
  cases h with
  | @telling before entry rest qs q hg hlen hq h =>
    have haccepted : acceptedIn m.channel.journal = acceptedIn l.channel.journal :=
      (Channel.run_accepted
        (Channel.run_mono (fun _ ha => by simp [ha]) (Channel.dispatch_run hd))).1
    have hq' : acceptedIn ({ t with link := some m } : Session).journal = qs ++ [q] := by
      rw [journal_of_link rfl, haccepted, ← journal_of_link hl]
      exact hq
    refine .telling hg ?_ hq' ?_
    · rw [hmore, List.length_append]
      omega
    · rw [hmore, acceptedOf_append hlen, List.take_append_of_le_length hlen]
      exact h.heard (not_suspend_of_told (told_upto hg)) hl hd hr
  | done hlen h =>
    have hheard := h.heard (not_suspend_of_told List.prefix_rfl) hl hd hr
    -- all commands have their reply, so this was none
    have hnone : replies (rs ++ [r]) = replies rs := by
      obtain ⟨m', hm', -, hconv⟩ := hheard.link
      have hle := hconv.length
      rw [List.length_map, ← hlen, hmore, List.length_append] at hle
      rw [hmore, List.length_eq_zero_iff.1 (show more.length = 0 by omega), List.append_nil]
    exact .done (hnone ▸ hlen) (hnone.symm ▸ hheard)
  | broken _ _ _ hc =>
    obtain ⟨l', hl', hclosed⟩ := hc
    cases hl.symm.trans hl'
    exact absurd (ho.symm.trans hclosed) nofun

theorem attached (h : Talk s rs t p) : ∃ l, t.link = some l := by
  cases h with
  | telling _ _ _ h | done _ h =>
    obtain ⟨l, hl, -⟩ := h.link
    exact ⟨l, hl⟩
  | broken _ _ _ hl =>
    obtain ⟨l, hl, -⟩ := hl
    exact ⟨l, hl⟩

/-- Where all commands fit on a line, the connection is open, and the commands told are the first of
the greeting. -/
theorem hears (h : Talk s rs t p) (hok : s.Plain) :
    ∃ told bs ms, told <+: s.greeting ∧ s.Hears t (told.map (·.2)) rs bs ms := by
  cases h with
  | telling hg _ _ h => exact ⟨_, _, _, told_upto hg, h⟩
  | done _ h => exact ⟨_, _, _, List.prefix_rfl, h⟩
  | broken hf =>
    obtain ⟨entry, hm, he⟩ := hf
    cases he.symm.trans (hok entry hm)

/-- A call that has ended. -/
theorem complete {result : Except Error Answer} (h : Talk s rs t (.finished result)) (hok : s.Plain) :
    result = .ok .unit ∧ (replies rs).length = s.greeting.length ∧
      s.Hears t (s.greeting.map (·.2)) rs (acceptedOf s.greeting (replies rs))
        ((replies rs).filterMap (·.rejection?)) := by
  cases h with
  | done hlen h => exact ⟨rfl, hlen, h⟩
  | broken hf =>
    obtain ⟨entry, hm, he⟩ := hf
    cases he.symm.trans (hok entry hm)

/-- A call that waits without a reply has told one command more than have been answered. -/
theorem waits {awaiting : Awaiting} (h : Talk s rs t (.waiting id awaiting))
    (ho : t.outcome? id = none) : ∃ told bs ms, told <+: s.greeting ∧
      told.length = (replies rs).length + 1 ∧ s.Hears t (told.map (·.2)) rs bs ms := by
  cases h with
  | @telling before entry rest qs q hg hlen hq h =>
    refine ⟨_, _, _, told_upto hg, ?_, h⟩
    obtain ⟨l, hl, -, hconv⟩ := h.link
    rw [outcome?_of_link hl] at ho
    rw [journal_of_link hl] at hq
    have hlength := hconv.length
    have hne : (replies rs).length ≠ ((before ++ [entry]).map (·.2)).length := by
      intro he
      have hsome := hconv.last_answered hq he
      rw [ho] at hsome
      cases hsome
    simp only [List.length_map, List.length_append, List.length_singleton] at hlength hne ⊢
    omega

end Talk

/-- The call tells the debuggee the next command, or finds that it does not fit on a line. -/
theorem talk_submit {before : List (Option Breakpoint × Command)}
    (hg : s.greeting = before ++ entry :: rest.map Breakpoint.introduction)
    (hlen : before.length = (replies rs).length)
    (h : s.Hears t (before.map (·.2)) rs (acceptedOf before (replies rs) ++ entry.1.toList ++ rest)
      ((replies rs).filterMap (·.rejection?))) :
    (∃ id u, t.submit .attach entry.2 = .ok (id, u) ∧
      Talk s rs u (.waiting id (.attach entry.1 rest))) ∨
    ∃ e, t.submit .attach entry.2 = .error e ∧ Talk s rs t.terminate (.finished (.error e)) := by
  obtain ⟨l, hl, ho, -⟩ := h.link
  rcases submit_of_open hl ho .attach entry.2 with ⟨id, u, hs⟩ | ⟨fault, hencode, hs⟩
  · obtain ⟨line, -, haccepted⟩ := accepted_submit hs
    refine .inl ⟨id, u, hs, .telling (q := ⟨id, entry.2.name, line⟩) hg hlen.le haccepted ?_⟩
    rw [hlen, List.take_length, List.map_append, List.map_singleton]
    exact h.submit hs
  · refine .inr ⟨_, hs, .broken ⟨entry, by simp [hg], hencode⟩ rfl rfl ?_⟩
    exact ⟨_, by rw [terminate, Session.close, publish_link, hl]; rfl, Channel.fail_closed _ _⟩

theorem talk_greet {before : List (Option Breakpoint × Command)}
    (hg : s.greeting = before ++ rest.map Breakpoint.introduction)
    (hlen : before.length = (replies rs).length)
    (h : s.Hears t (before.map (·.2)) rs (acceptedOf before (replies rs) ++ rest)
      ((replies rs).filterMap (·.rejection?))) :
    Talk s rs (t.greet rest).1 (t.greet rest).2 := by
  cases rest with
  | nil =>
    rw [List.map_nil, List.append_nil] at hg
    rw [List.append_nil, ← hg] at h
    exact .done (hg ▸ hlen.symm) h
  | cons b rest =>
    have h : s.Hears t (before.map (·.2)) rs
        (acceptedOf before (replies rs) ++ b.introduction.1.toList ++ rest)
        ((replies rs).filterMap (·.rejection?)) := by
      simpa [Breakpoint.introduction] using h
    rcases talk_submit hg hlen h with ⟨id, u, hs, htalk⟩ | ⟨e, hs, htalk⟩
    · have hgreet : t.greet (b :: rest) = (u, .waiting id (.attach (some b) rest)) := by
        rw [greet, show t.submit .attach (.setBreakpoint b.file b.line) = .ok (id, u) from hs]
      rw [hgreet]
      exact htalk
    · have hgreet : t.greet (b :: rest) = (t.terminate, .finished (.error e)) := by
        rw [greet, show t.submit .attach (.setBreakpoint b.file b.line) = .error e from hs]
      rw [hgreet]
      exact htalk

/-- The call has the reply to its command. -/
theorem talk_continued {current : Option Breakpoint} (hsort : t.Sorted)
    (h : Talk s rs t (.waiting id (.attach current rest))) (ho : t.outcome? id = some o) :
    Talk s rs (t.continueAttach current rest o).1 (t.continueAttach current rest o).2 := by
  cases h with
  | @telling before entry _ qs q hg hlen hq h =>
    obtain ⟨l, hl, -, hconv⟩ := h.link
    rw [outcome?_of_link hl] at ho
    rw [journal_of_link hl] at hq
    rw [List.map_append, List.map_singleton] at hconv
    obtain ⟨done, r, hreplies, hdone, rfl⟩ := hconv.last hq ho
    rw [List.length_map] at hdone
    have hg : s.greeting = before ++ [entry] ++ rest.map Breakpoint.introduction := by
      rw [hg, List.append_cons]
    have hlen : (before ++ [entry]).length = (replies rs).length := by simp [hreplies, hdone]
    have hn := hsort.nodup
    rw [h.breakpoints] at hn
    rw [hreplies, acceptedOf_append hdone.ge, ← hdone, List.take_left] at h
    rw [hreplies, acceptedOf_append hdone.ge] at hn
    have haccepted : acceptedOf (before ++ [entry]) (done ++ [r]) =
        acceptedOf before done ++ (if r.status.isError then none else entry.1).toList :=
      acceptedOf_concat hdone.symm
    rcases r.judged with ⟨he, hnone, hok⟩ | ⟨message, he, hsome, herr⟩
    · rw [hok]
      refine talk_greet hg hlen ?_
      rw [he, if_neg Bool.false_ne_true] at haccepted
      rw [hreplies, haccepted, List.filterMap_append]
      simpa [hnone] using h
    · rw [herr]
      refine talk_greet (t := t.dropping entry.1 message) hg hlen ?_
      rw [if_pos he, Option.toList_none, List.append_nil] at haccepted
      rw [hreplies, haccepted, List.filterMap_append]
      simpa [hsome] using h.dropping hn message

/-- A call takes a session that is new, and begins to greet. -/
theorem talk_attach (hl : t.link = none) (he : t.core.ended = false) (hconfig : t.config = s.config)
    (hcore : t.core = s.core) (hevents : t.events = s.events) (stream : Stream) :
    Talk s [] (t.attach stream).1 (t.attach stream).2 := by
  have hinstalled : s.Hears (t.installed stream) [] [] s.core.breakpoints [] := by
    refine Hears.publish (t := { t with
      link := some (t.opened stream), core := { t.core with state := .running } }) ?_
    refine ⟨⟨_, rfl, rfl, Channel.conversed_initial⟩, he, congrArg (·.breakpoints) hcore, [], ?_,
      rfl⟩
    rw [hevents, List.append_nil]
  rw [attach_new hl he stream, hconfig, hcore]
  cases hdir : s.config.baseDir with
  | none =>
    have hg : s.greeting = [] ++ s.core.breakpoints.map Breakpoint.introduction := by
      rw [greeting, hdir]; rfl
    exact talk_greet hg rfl hinstalled
  | some dir =>
    have hg : s.greeting = [] ++ (none, { name := .baseDir, args := dir }) ::
        s.core.breakpoints.map Breakpoint.introduction := by rw [greeting, hdir]; rfl
    dsimp only
    rcases talk_submit hg rfl hinstalled with ⟨id, u, hs, htalk⟩ | ⟨e, hs, htalk⟩
    · have hbs : u.core.breakpoints = s.core.breakpoints := by
        rw [(link_of_submit hs).2.2]
        exact hinstalled.breakpoints
      rw [hs]
      dsimp only
      rw [hbs]
      exact htalk
    · rw [hs]
      exact htalk

end Session

/-- What a connection comes to is a state of a link with callers. -/
theorem Link.Future.traffic {l m : Link} (hf : l.Future m) (ho : l.Opened) :
    ∃ t : Traffic, t.Reachable ∧ t.link = m := by
  induction hf with
  | refl => exact ⟨{ link := l }, .opened ho, rfl⟩
  | tail _ hs ih =>
    obtain ⟨t, ht, rfl⟩ := ih
    cases hs with
    | submit hs => exact ⟨_, ht.step (.submit _ hs), rfl⟩
    | move hm =>
      cases hm with
      | stay => exact ⟨t, ht, rfl⟩
      | task task hs => exact ⟨_, ht.step (.task task hs), rfl⟩
      | outside stream hs => exact ⟨_, ht.step (.outside stream hs), rfl⟩
      | tick now hs => exact ⟨_, ht.step (.tick now hs), rfl⟩
      | close => exact ⟨_, ht.step .close, rfl⟩

namespace Debugger
variable {s u v : Debugger} {n : Nat} {stream : Stream} {keeps : Bool} {rs : List Response}

/-- How far a job is that attaches to a debuggee which has sent these responses. -/
inductive Talks (n : Nat) (stream : Stream) (keeps : Bool) (s : Debugger) (rs : List Response)
    (u : Debugger) : Prop where
  | called (hj : u.jobs.lookup n = some (.call (.attach stream) keeps))
      (hl : u.session.link = none) (hconfig : u.session.config = s.session.config)
      (hcore : u.session.core = s.session.core) (hevents : u.session.events = s.session.events)
      (hrs : rs = [])
  | begun {p : Progress} (hj : u.jobs.lookup n = some (callJob keeps p))
      (h : Session.Talk s.session rs u.session p)
      (hopened : ∃ m, u.session.link = some m ∧ (s.session.opened stream).Future m)

theorem opened_step {l : Link} (hs : Step u v) (h : ∃ m, u.session.link = some m ∧ l.Future m) :
    ∃ m, v.session.link = some m ∧ l.Future m := by
  obtain ⟨k, hk, hf⟩ := h
  obtain ⟨m, hm, hf'⟩ := carries_turn (step_turn hs) k hk
  exact ⟨m, hm, hf.trans hf'⟩

/-- The job does its next part. -/
theorem Talks.own (h : Talks n stream keeps s rs u) (hr : Reachable u)
    (hs : u.step? (.job n) = some v) (hg : v.gone = false) : Talks n stream keeps s rs v := by
  cases h with
  | called hj hl hconfig hcore hevents hrs =>
    subst hrs
    obtain ⟨job', text, hjob, hv⟩ := own_session hj hs hg
    have he : u.session.core.ended = false := ((standing_reachable hr).phase.new_iff.2 hl).2
    obtain rfl : _ = job' := congrArg (·.2.1) (Option.some.inj hjob)
    have hsession : (u.session.attach stream).1 = v.session := congrArg (·.1) (Option.some.inj hjob)
    refine .begun hv ?_ ?_
    · rw [← hsession]
      exact Session.talk_attach hl he hconfig hcore hevents stream
    · rw [← hsession, Session.opened, ← hconfig]
      exact Session.attach_opened hl he stream
  | @begun p hj h hopened =>
    have hopened := opened_step (.task _ hs) hopened
    cases p with
    | finished result =>
      obtain ⟨job', text, hnone, -⟩ := own_session hj hs hg
      cases hnone
    | waiting id awaiting =>
      obtain ⟨job', text, hjob, hv⟩ := own_session hj hs hg
      obtain ⟨o, ho, hjob⟩ := Option.map_eq_some_iff.1 hjob
      obtain rfl : _ = job' := congrArg (·.2.1) hjob
      have hsession : (u.session.continueWith id awaiting o).1 = v.session := congrArg (·.1) hjob
      cases awaiting with
      | attach current rest =>
        refine .begun hv ?_ hopened
        rw [← hsession]
        exact Session.talk_continued (sorted_reachable hr) h ho
      | _ => cases h

/-- Nothing is handed on, and the job does nothing. -/
theorem Talks.waits (h : Talks n stream keeps s rs u) (hr : Reachable u) (hs : Alone n u v)
    (hg : v.gone = false) (hown : u.step? (.job n) ≠ some v)
    (hk : ∀ t, u.step? (.link t) = some v → u.session.Unheard v.session) :
    Talks n stream keeps s rs v := by
  obtain ⟨hunheard, hclosed⟩ := hs.unheard hg hown hk
  cases h with
  | called hj hl hconfig hcore hevents hrs =>
    obtain ⟨hj, hp⟩ := (hs.cases hj (by simp)).resolve_left hown
    cases hp with
    | drift hd =>
      have hnone : v.session.link = none := by
        have hlink := hd.link
        rw [hl] at hlink
        generalize v.session.link = m at hlink ⊢
        cases hlink
        rfl
      exact .called hj hnone (hd.config.trans hconfig) (hd.core.trans hcore)
        (hd.events.trans hevents) hrs
    | brings he => simp [Session.brought, Session.journal, hl] at he
  | @begun p hj h hopened =>
    obtain ⟨hj, hp⟩ := (hs.cases hj (by cases p <;> simp [callJob])).resolve_left hown
    have hopened := opened_step hs.1 hopened
    cases hp with
    | drift hd =>
      exact .begun hj (h.drifts (guarded_reachable (hr.step hs.1)) hd hunheard hclosed) hopened
    | brings he hv => exact .begun hj (hv ▸ h.receive he) hopened

/-- A response is handed on. -/
theorem Talks.heard {l : Link} {r : Response} {rest : List UInt8}
    {hlt : rest.length < l.received.length} (h : Talks n stream keeps s rs u)
    (hs : u.step? (.link .reader) = some v) (hl : u.session.link = some l)
    (ha : l.stream.arriving = [])
    (hf : Wire.readFrame l.bodyLimit l.received = .frame r rest hlt)
    (hr : r.isEvent = false → l.channel.inFlight.isSome) (ho : v.isClosed = false) :
    Talks n stream keeps s (rs ++ [r]) v := by
  cases h with
  | called _ hnone => cases hl.symm.trans hnone
  | @begun p hj h hopened =>
    have hopened := opened_step (.task _ hs) hopened
    obtain @⟨_, _, m, hl', hm⟩ := taskTurn hs
    cases hl.symm.trans hl'
    replace ho : m.channel.closed = false := ho
    cases Link.readerTurn_some hm with
    | leaves _ hc => exact absurd (ho.symm.trans hc) nofun
    | takes _ _ hne => exact absurd ha hne
    | hands _ hopen _ hf' hd =>
      cases hf.symm.trans hf'
      exact .begun hj (h.heard hl hopen hd hr) hopened
    | misplaced | malformed | ended => exact absurd (ho.symm.trans (Channel.fail_closed _ _)) nofun

theorem talks_exchange (hr : Reachable s) (h : Talks n stream keeps s [] s)
    (hx : Exchange n s rs u) (hg : u.gone = false) : Talks n stream keeps s rs u := by
  induction hx with
  | start => exact h
  | own hx hs ih =>
    exact (ih (not_gone_before (.task _ hs) hg)).own (hr.future hx.future) hs hg
  | @go rs u v hx hs hk ih =>
    have ih := ih (not_gone_before hs.1 hg)
    have hu := hr.future hx.future
    by_cases hown : u.step? (.job n) = some v
    · exact ih.own hu hown hg
    · exact ih.waits hu hs hg hown hk
  | read hx hs hl ha hf hreply ho ih =>
    exact (ih (not_gone_before (.task _ hs) hg)).heard hs hl ha hf hreply ho

/-- Of the greeting nothing is written but the commands that have been answered and the next one. -/
theorem Talks.written (h : Talks n stream keeps s rs u) (hw : stream.written = [])
    (hplain : s.session.Plain) {m : Link} (hm : u.session.link = some m) :
    m.stream.written <+: s.session.spoken ((replies rs).length + 1) := by
  cases h with
  | called _ hnone => cases hnone.symm.trans hm
  | begun _ h hopened =>
    obtain ⟨k, hk, hf⟩ := hopened
    cases hm.symm.trans hk
    obtain ⟨t, ht, rfl⟩ := hf.traffic ⟨_, _, stream, hw, rfl⟩
    obtain ⟨told, bs, ms, hupto, hhears⟩ := h.hears hplain
    obtain ⟨l, hl, ho, hconv⟩ := hhears.link
    cases hm.symm.trans hl
    refine (Link.written_of_conversed hconv (Traffic.booked_reachable ht).wired ho).trans ?_
    rw [Session.spoken_eq]
    exact ((hupto.map (·.2)).take _).flatMap _

theorem Talks.complete (h : Talks n stream keeps s rs u) (hplain : s.session.Plain) {result : JobResult}
    (hend : u.jobs.lookup n = some (.ended result)) : result = .answer (.ok .unit) ∧
      (replies rs).length = s.session.greeting.length ∧
      s.session.Hears u.session (s.session.greeting.map (·.2)) rs
        (Session.acceptedOf s.session.greeting (replies rs))
        ((replies rs).filterMap (·.rejection?)) := by
  cases h with
  | called hj => cases hend.symm.trans hj
  | @begun p hj h =>
    have hp := hend.symm.trans hj
    cases p with
    | waiting => cases hp
    | finished =>
      cases hp
      obtain ⟨rfl, hlen, hhears⟩ := h.complete hplain
      exact ⟨rfl, hlen, hhears⟩

/-- Where all tasks wait, the job has begun to greet, and has no reply to go on with. -/
theorem Talks.rest (h : Talks n stream keeps s rs u) (hw : stream.written = []) (hq : u.Quiet) :
    ∃ (p : Progress) (t : Traffic), u.jobs.lookup n = some (callJob keeps p) ∧
      Session.Talk s.session rs u.session p ∧
      (∀ id awaiting, p = .waiting id awaiting → u.session.outcome? id = none) ∧
      u.session.link = some t.link ∧ t.Reachable ∧ t.link.Settled := by
  have hwaits := hq (.job n)
  cases h with
  | called hj =>
    rw [step?, hj] at hwaits
    cases hwaits
  | @begun p hj h hopened =>
    obtain ⟨m, hm, hf⟩ := hopened
    obtain ⟨t, ht, rfl⟩ := hf.traffic ⟨_, _, stream, hw, rfl⟩
    refine ⟨p, t, hj, h, ?_, hm, ht, ?_⟩
    · rintro id awaiting rfl
      rw [step?, hj, Option.bind_some, Option.map_eq_none_iff] at hwaits
      exact Option.map_eq_none_iff.1 hwaits
    · intro task _
      have htask := hq (.link task)
      rwa [step?, hm, Option.bind_some, Option.map_eq_none_iff] at htask

/-- Where all tasks wait, the next command has been written if there is room, and the job has ended
if there is none. -/
theorem Talks.quiet (h : Talks n stream keeps s rs u) (hw : stream.written = [])
    (hplain : s.session.Plain) (hq : u.Quiet) : ∃ m, u.session.link = some m ∧
      (0 < m.stream.room → m.stream.written = s.session.spoken ((replies rs).length + 1)) ∧
      ((replies rs).length = s.session.greeting.length →
        u.jobs.lookup n = some (.ended (.answer (.ok .unit)))) := by
  obtain ⟨p, t, hj, htalk, hwaits, hm, ht, hsettled⟩ := h.rest hw hq
  have hwritten {told : List (Option Breakpoint × Command)} {bs : List Breakpoint}
      {ms : List String} (htold : told.take ((replies rs).length + 1) =
        s.session.greeting.take ((replies rs).length + 1))
      (hhears : s.session.Hears u.session (told.map (·.2)) rs bs ms)
      (hroom : 0 < t.link.stream.room) :
      t.link.stream.written = s.session.spoken ((replies rs).length + 1) := by
    obtain ⟨l, hl, ho, hconv⟩ := hhears.link
    cases hm.symm.trans hl
    rw [Link.written_of_settled hconv (Traffic.booked_reachable ht).wired
      (Traffic.manned_reachable ht) ho hsettled hroom, Session.spoken, ← htold, ← List.map_take,
      List.flatMap_map]
  refine ⟨t.link, hm, ?_⟩
  cases p with
  | finished result =>
    obtain ⟨rfl, -, hhears⟩ := htalk.complete hplain
    exact ⟨hwritten rfl hhears, fun _ => hj⟩
  | waiting id awaiting =>
    obtain ⟨told, bs, ms, hupto, hlen, hhears⟩ := htalk.waits (hwaits id awaiting rfl)
    refine ⟨hwritten ?_ hhears, fun hall => ?_⟩
    · rw [← hlen, List.take_length]
      exact List.prefix_iff_eq_take.1 hupto
    · have hle := hupto.length_le
      omega

/-- A call attaches a new session, alone with the debuggee, which answers each command by accepting
or rejecting it and sends output and pauses as it likes. Of the greeting nothing is ever written but
the commands that have been answered and the next one. The call ends only when all have been
answered, and ends well; then the session has just the breakpoints that were accepted, and has told
its subscribers each rejection, in order. Where all tasks wait, the next command has been written,
and after the last reply the call has ended. -/
theorem greeting_outcome (h : Reachable s)
    (hj : s.jobs.lookup n = some (.call (.attach stream) keeps)) (hl : s.session.link = none)
    (hw : stream.written = []) (hfiles : ∀ b ∈ s.session.core.breakpoints, SingleLine b.file)
    (hdir : ∀ dir ∈ s.session.config.baseDir, SingleLine dir) (hx : Exchange n s rs u)
    (hg : u.gone = false) :
    s.session.Sorted ∧
    (∀ m, u.session.link = some m →
      m.stream.written <+: s.session.spoken ((replies rs).length + 1)) ∧
    (∀ result, u.jobs.lookup n = some (.ended result) → result = .answer (.ok .unit) ∧
      (replies rs).length = s.session.greeting.length ∧
      u.session.core.breakpoints = Session.acceptedOf s.session.greeting (replies rs) ∧
      ∃ es, u.session.events.sent = s.session.events.sent ++ es ∧
        es.filterMap (·.rejection?) = (replies rs).filterMap (·.rejection?)) ∧
    (u.Quiet → ∃ m, u.session.link = some m ∧
      (0 < m.stream.room → m.stream.written = s.session.spoken ((replies rs).length + 1)) ∧
      ((replies rs).length = s.session.greeting.length →
        u.jobs.lookup n = some (.ended (.answer (.ok .unit))))) := by
  have htalks := talks_exchange h (.called hj hl rfl rfl rfl rfl) hx hg
  have hplain := Session.plain_of_single hfiles hdir
  refine ⟨sorted_reachable h, fun m hm => htalks.written hw hplain hm, ?_, htalks.quiet hw hplain⟩
  intro result hend
  obtain ⟨hresult, hlen, hhears⟩ := htalks.complete hplain hend
  exact ⟨hresult, hlen, hhears.breakpoints, hhears.rejections⟩

/-- One of two breakpoints is rejected, and the program says something and pauses meanwhile. -/
theorem greeting_outcome_rejected : ∃ s u rs, Reachable s ∧ Exchange 2 s rs u ∧ u.Quiet ∧
    s.session.core.breakpoints = [⟨"a.lua", 1⟩, ⟨"b.lua", 2⟩] ∧
    rs = [⟨.error, "no such file \n"⟩, ⟨.output, "hi"⟩, ⟨.paused, "a.lua 1"⟩, ⟨.ok, ""⟩] ∧
    u.jobs.lookup 2 = some (.ended (.answer (.ok .unit))) ∧
    u.session.core.breakpoints = [⟨"b.lua", 2⟩] ∧
    (∃ es, u.session.events.sent = s.session.events.sent ++ es ∧
      es.filterMap (·.rejection?) = ["no such file"]) ∧
    ∃ m, u.session.link = some m ∧
      m.stream.written = Text.bytes "SETB a.lua 1\nSETB b.lua 2\n" := by
  have h : Reachable (.new {}) := .new {}
  have h := h.step (.begin 0 rfl rfl (.call (.setBreakpoint ⟨"b.lua", 2⟩) true))
  have h := h.step (.task (.job 0) rfl)
  have h := h.step (.begin 1 rfl rfl (.call (.setBreakpoint ⟨"a.lua", 1⟩) true))
  have h := h.step (.task (.job 1) rfl)
  have h := h.step (.begin 2 rfl rfl (.call (.attach {}) true))
  have hstay {s : Debugger} (_ : Reachable s) : Exchange 2 s [] s := .start
  have hx := (hstay h).own rfl
  have hx := hx.next (.task (.link .writer) rfl) (by decide) ⟨rfl, rfl⟩
  have hx := hx.next (.task (.link .writer) rfl) (by decide) ⟨rfl, rfl⟩
  have hx := hx.next (.outside
    { arriving := Text.bytes "401 Error 14\nno such file \n204 Output 2\nhi202 Paused 7\na.lua 1"
      written := Text.bytes "SETB a.lua 1\n" } rfl (by decide)) (by decide) ⟨rfl, rfl⟩
  have hx := hx.next (.task (.link .reader) rfl) (by decide) ⟨rfl, rfl⟩
  have hx := hx.read (r := ⟨.error, "no such file \n"⟩) rfl rfl rfl rfl (fun _ => rfl) rfl
  have hx := hx.own rfl
  have hx := hx.read (r := ⟨.output, "hi"⟩) rfl rfl rfl rfl nofun rfl
  have hx := hx.read (r := ⟨.paused, "a.lua 1"⟩) rfl rfl rfl rfl nofun rfl
  have hx := hx.next (.task .pump rfl) (by decide) ⟨rfl, rfl⟩
  have hx := hx.next (.task .pump rfl) (by decide) ⟨rfl, rfl⟩
  have hx := hx.next (.task (.link .writer) rfl) (by decide) ⟨rfl, rfl⟩
  have hx := hx.next (.task (.link .writer) rfl) (by decide) ⟨rfl, rfl⟩
  have hx := hx.next (.outside
    { arriving := Text.bytes "200 OK 0\n"
      written := Text.bytes "SETB a.lua 1\nSETB b.lua 2\n" } rfl (by decide)) (by decide) ⟨rfl, rfl⟩
  have hx := hx.next (.task (.link .reader) rfl) (by decide) ⟨rfl, rfl⟩
  have hx := hx.read (r := ⟨.ok, ""⟩) rfl rfl rfl rfl (fun _ => rfl) rfl
  have hx := hx.own rfl
  have hx := hx.next (.task (.link .writer) rfl) (by decide) ⟨rfl, rfl⟩
  obtain ⟨-, -, hended, hquiet⟩ := greeting_outcome h rfl rfl rfl (by decide) nofun hx rfl
  obtain ⟨m, hm, hwritten, hends⟩ :=
    hquiet (quiet_of_waits rfl rfl rfl rfl rfl (by decide) rfl rfl (by decide))
  obtain ⟨-, -, hbreakpoints, hrejections⟩ := hended _ (hends rfl)
  refine ⟨_, _, _, h, hx, quiet_of_waits rfl rfl rfl rfl rfl (by decide) rfl rfl (by decide), rfl,
    rfl, hends rfl, hbreakpoints, hrejections, m, hm, ?_⟩
  cases hm
  exact (hwritten (by decide)).trans (by decide)

end Debugger
end MobDebug
