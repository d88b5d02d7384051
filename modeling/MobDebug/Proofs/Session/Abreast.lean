import MobDebug.Proofs.Session.AlikeTurns

/-! Two runs side by side. What the users do is the same in both, and so are the frames of the
debuggee, but for the bodies of its replies to the commands that evaluate an expression or ask for
the stack. -/
namespace MobDebug.Debugger
open Session (Config)
open Channel (Inquired)
open Wire (Response)

variable {asked : List Nat} {s u s' u' : Debugger} {l m : Link} {n id : Nat}

/-- The session goes on with another state of its connection. -/
def withLink (s : Debugger) (l : Link) : Debugger :=
  { s with session := { s.session with link := some l } }

/-- Two runs go abreast. The users, the clock and the other side do the same in both, and the same
tasks take their turns. Only the bytes that arrive may differ, within the bodies of `OK` replies,
and a reader may take them in more turns than the other. Listed are the jobs that evaluate an
expression or ask for the stack. -/
inductive Abreast : List Nat → Debugger → Debugger → Prop where
  | new (config : Config) : Abreast [] (.new config) (.new config)
  | task {asked : List Nat} {s u s' u' : Debugger} (h : Abreast asked s u) (t : Task)
      (hs : s.step? t = some s') (hu : u.step? t = some u')
      (hr : t = .link .reader → s.Meets u) : Abreast asked s' u'
  | takesLeft {asked : List Nat} {s u : Debugger} {l : Link} (h : Abreast asked s u)
      (hl : s.session.link = some l) (ht : l.readerStep? = some l.takeArriving) :
      Abreast asked (s.withLink l.takeArriving) u
  | takesRight {asked : List Nat} {s u : Debugger} {m : Link} (h : Abreast asked s u)
      (hm : u.session.link = some m) (ht : m.readerStep? = some m.takeArriving) :
      Abreast asked s (u.withLink m.takeArriving)
  | begin {asked : List Nat} {s u : Debugger} (h : Abreast asked s u) (n : Nat) {job : Job}
      (hs : s.held = true) (hn : s.jobs.lookup n = none) (hj : job.New s.session) :
      Abreast (if job.inquires then n :: asked else asked) (s.begin n job) (u.begin n job)
  | type {asked : List Nat} {s u : Debugger} (h : Abreast asked s u) (bytes : List UInt8) :
      Abreast asked (s.onConsole fun l => { l with typed := l.typed ++ bytes })
        (u.onConsole fun l => { l with typed := l.typed ++ bytes })
  | endInput {asked : List Nat} {s u : Debugger} (h : Abreast asked s u) :
      Abreast asked (s.onConsole fun l => { l with closed := true })
        (u.onConsole fun l => { l with closed := true })
  | drop {asked : List Nat} {s u : Debugger} (h : Abreast asked s u) :
      Abreast asked s.drop u.drop
  | outside {asked : List Nat} {s u : Debugger} {l m : Link} (h : Abreast asked s u)
      (stream : Stream) (arriving : List UInt8) (hl : s.session.link = some l)
      (hm : u.session.link = some m) (hw : stream.written = l.stream.written)
      (hb : Wire.Alike l.bodyLimit (l.received ++ stream.arriving) (m.received ++ arriving)) :
      Abreast asked (s.withLink { l with stream })
        (u.withLink { m with stream := { stream with arriving } })
  | outsideRefused {asked : List Nat} {s u : Debugger} {l : Link} (h : Abreast asked s u)
      (i : Nat) (stream : Stream) (hl : s.session.refused[i]? = some l)
      (hw : stream.written = l.stream.written) :
      Abreast asked
        { s with
          session := { s.session with refused := s.session.refused.set i { l with stream } } }
        { u with
          session := { u.session with refused := u.session.refused.set i { l with stream } } }
  | tick {asked : List Nat} {s u : Debugger} {l m : Link} (h : Abreast asked s u) (now : Nat)
      (hl : s.session.link = some l) (hm : u.session.link = some m) (ht : l.now ≤ now) :
      Abreast asked (s.withLink { l with now }) (u.withLink { m with now })

/-- Every run goes abreast with itself. -/
theorem abreast_self (h : Reachable s) : ∃ asked, Abreast asked s s := by
  induction h with
  | new config => exact ⟨[], .new config⟩
  | step _ hs ih =>
    obtain ⟨asked, h⟩ := ih
    cases hs with
    | task t ht =>
      by_cases hr : t = .link .reader
      · subst hr
        obtain ⟨l, hl, hlink⟩ := Option.bind_eq_some_iff.1 ht
        obtain ⟨m, hm, rfl⟩ := Option.map_eq_some_iff.1 hlink
        -- a reader with bytes to take takes them, in one run and then in the other
        by_cases ha : l.channel.closed = false → l.stream.arriving = []
        · refine ⟨asked, h.task _ ht ht fun _ => ?_⟩
          rintro k k' hk hk'
          cases hl.symm.trans hk
          cases hl.symm.trans hk'
          exact Link.meets_self ha
        · have hturn : l.ReaderTurn (some m) := Link.readerTurn_some hm
          cases hturn with
          | takes hr ho hne =>
            have htakes := (Link.ReaderTurn.takes hr ho hne).eq
            exact ⟨asked, (h.takesLeft hl htakes).takesRight hl htakes⟩
          | leaves _ hc =>
            refine absurd (fun ho => ?_) ha
            cases hc.symm.trans ho
          | hands _ _ he | misplaced _ _ he | malformed _ _ he | ended _ _ he =>
            exact absurd (fun _ => he) ha
      · exact ⟨asked, h.task t ht ht fun he => absurd he hr⟩
    | begin n hs hn hj => exact ⟨_, h.begin n hs hn hj⟩
    | type bytes => exact ⟨asked, h.type bytes⟩
    | endInput => exact ⟨asked, h.endInput⟩
    | drop => exact ⟨asked, h.drop⟩
    | outside stream hl hw => exact ⟨asked, h.outside stream _ hl hl hw (.same _)⟩
    | outsideRefused i stream hl hw => exact ⟨asked, h.outsideRefused i stream hl hw⟩
    | tick now hl ht => exact ⟨asked, h.tick now hl hl ht⟩

/-- Two readers meet while a command that inquires is in flight, on streams that go on. -/
theorem meets_inquired {request : Channel.Request}
    (hs : s.session.link.map (·.stream.arriving) = some [])
    (hu : u.session.link.map (·.stream.arriving) = some [])
    (hf : s.session.link.bind (·.channel.inFlight) = some request) (hn : request.name.inquires)
    (hg : s.session.link.map (·.stream.debuggeeGone) = some false) : s.Meets u := by
  intro l m hl hm
  rw [hl] at hs hf hg
  rw [hm] at hu
  refine ⟨fun _ => ⟨Option.some.inj hs, Option.some.inj hu⟩, fun _ _ _ => ⟨request, hf, hn⟩, ?_⟩
  intro _ _ _ _ hgone
  cases (Option.some.inj hg).symm.trans hgone

namespace Alike

/-- The connections of both go on alike. -/
theorem moved (h : Alike asked s u) (hl : s.session.link = some l) {k k' : Link}
    (hk : k.Alike k') (hm : l.Moves k) : Alike asked (s.withLink k) (u.withLink k') :=
  h.withSession (h.session.withLink (.some hk)) (.drifts (.moved hl hm))

theorem takes_left (h : Alike asked s u) (hl : s.session.link = some l)
    (ht : l.readerStep? = some l.takeArriving) : Alike asked (s.withLink l.takeArriving) u :=
  { h with
    session := h.session.takes_left hl
    jobs := jobsAlike_mono h.jobs (fun _ hn => hn) (.drifts (.moved hl (.task .reader ht))) }

theorem takes_right (h : Alike asked s u) (hm : u.session.link = some m) :
    Alike asked s (u.withLink m.takeArriving) :=
  { h with session := h.session.takes_right hm }

end Alike

/-- Both are runs, and they stay alike. -/
theorem abreast_alike (h : Abreast asked s u) :
    Reachable s ∧ Reachable u ∧ Alike asked s u := by
  induction h with
  | new config =>
    refine ⟨.new config, .new config, ⟨Session.alike_refl _, rfl, rfl, rfl, rfl, .nil⟩⟩
  | @task asked s u _ _ _ t hs hu hr ih =>
    obtain ⟨hreach, hreach', h⟩ := ih
    have hstep := h.step (guarded_reachable hreach) t hr
    rw [hs, hu] at hstep
    cases hstep with
    | some hnext => exact ⟨hreach.step (.task t hs), hreach'.step (.task t hu), hnext⟩
  | @takesLeft _ s _ l _ hl ht ih =>
    obtain ⟨hreach, hreach', h⟩ := ih
    refine ⟨hreach.step (.task (.link .reader) ?_), hreach', h.takes_left hl ht⟩
    -- only one run takes a step, and what its reader has taken it has not read
    simp [step?, hl, Link.step?, ht, withLink]
  | @takesRight _ _ u m _ hm ht ih =>
    obtain ⟨hreach, hreach', h⟩ := ih
    refine ⟨hreach, hreach'.step (.task (.link .reader) ?_), h.takes_right hm⟩
    simp [step?, hm, Link.step?, ht, withLink]
  | @begin asked s u _ n job hs hn hj ih =>
    obtain ⟨hreach, hreach', h⟩ := ih
    -- the other run has no job of this name either, and may begin the same one
    have hn' : u.jobs.lookup n = none := by
      have hlookup := jobsAlike_lookup h.jobs n
      rw [hn] at hlookup
      generalize u.jobs.lookup n = o at hlookup ⊢
      cases hlookup
      rfl
    have hj' : job.New u.session := by
      cases hj with
      | call call keeps => exact .call call keeps
      | delivery frame expression => exact .delivery frame expression
      | command json line => exact .command json line
      | console json => exact .console json
      | printer json ht => exact .printer json (by rwa [h.session.events])
    refine ⟨hreach.step (.begin n hs hn hj), hreach'.step (.begin n (h.held.trans hs) hn' hj'),
      h.begin ?_ n hj ?_⟩
    -- the list of those that inquire only grows
    · intro k hk
      split
      · exact List.mem_cons_of_mem n hk
      · exact hk
    · intro hq
      rw [if_pos hq]
      exact List.mem_cons_self
  | type _ bytes ih =>
    obtain ⟨hreach, hreach', h⟩ := ih
    exact ⟨hreach.step (.type bytes), hreach'.step (.type bytes), h.onConsole fun _ => rfl⟩
  | endInput _ ih =>
    obtain ⟨hreach, hreach', h⟩ := ih
    exact ⟨hreach.step .endInput, hreach'.step .endInput, h.onConsole fun _ => rfl⟩
  | drop _ ih =>
    obtain ⟨hreach, hreach', h⟩ := ih
    exact ⟨hreach.step .drop, hreach'.step .drop, h.drop⟩
  | @outside _ s u l m _ stream arriving hl hm hw hb ih =>
    obtain ⟨hreach, hreach', h⟩ := ih
    have hlm := h.session.link_some hl hm
    refine ⟨hreach.step (.outside stream hl hw), hreach'.step (.outside _ hm ?_),
      h.moved hl (hlm.outside stream hb) (.outside stream hw)⟩
    exact hw.trans hlm.written.symm
  | @outsideRefused _ s u l _ i stream hl hw ih =>
    obtain ⟨hreach, hreach', h⟩ := ih
    have hl' : u.session.refused[i]? = some l := by rw [h.session.refused, hl]
    refine ⟨hreach.step (.outsideRefused i stream hl hw),
      hreach'.step (.outsideRefused i stream hl' hw), ?_⟩
    rw [h.session.refused]
    exact h.withSession (h.session.withRefused _)
      (.drifts (.refusedMoved hl (.outside stream hw)))
  | @tick _ s u l m _ now hl hm ht ih =>
    obtain ⟨hreach, hreach', h⟩ := ih
    have hlm := h.session.link_some hl hm
    refine ⟨hreach.step (.tick now hl ht), hreach'.step (.tick now hm ?_),
      h.moved hl (hlm.tick now) (.tick now ht)⟩
    rwa [hlm.now]

/-- A job is the same in both runs, or it has inquired and has ended with another result. -/
theorem Alike.lookup (h : Alike asked s u) (n : Nat) :
    u.jobs.lookup n = s.jobs.lookup n ∨
      n ∈ asked ∧ ∃ result result', s.jobs.lookup n = some (.ended result) ∧
        u.jobs.lookup n = some (.ended result') := by
  have hlookup := jobsAlike_lookup h.jobs n
  generalize s.jobs.lookup n = o, u.jobs.lookup n = o' at hlookup ⊢
  cases hlookup with
  | none => exact .inl rfl
  | some hj =>
    cases hj with
    | same => exact .inl rfl
    | ended result result' hn => exact .inr ⟨hn, result, result', rfl, rfl⟩

/-- A command has ended alike in both runs, or it has inquired and its replies differ. -/
theorem Alike.outcome? (h : Alike asked s u) (id : Nat) :
    u.session.outcome? id = s.session.outcome? id ∨
      Inquired s.session.journal id ∧ ∃ body body', s.session.outcome? id = some (.ok body) ∧
        u.session.outcome? id = some (.ok body') := by
  have ho := h.session.outcome? id
  generalize s.session.outcome? id = o, u.session.outcome? id = o' at ho ⊢
  cases ho with
  | same => exact .inl rfl
  | replied body body' hi => exact .inr ⟨hi, body, body', rfl, rfl⟩

/-- The bodies of the replies to the commands that evaluate an expression or ask for the stack reach
the callers of these commands, and nothing else. Where two runs that differ in such bodies go
abreast, the session knows the same and has told its subscribers the same, the same bytes were
written and the connection is open in both or closed in both. All other commands have ended alike,
and so have all other jobs; those that have inquired have come as far. And every task can go on in
one run if it can in the other. -/
theorem replies_stay_local (h : Abreast asked s u) :
    u.session.core = s.session.core ∧ u.session.events = s.session.events ∧
    u.session.link.map (·.stream.written) = s.session.link.map (·.stream.written) ∧
    u.session.link.map (·.channel.closed) = s.session.link.map (·.channel.closed) ∧
    u.session.refused = s.session.refused ∧
    (∀ id, u.session.outcome? id = s.session.outcome? id ∨
      Inquired s.session.journal id ∧ ∃ body body', s.session.outcome? id = some (.ok body) ∧
        u.session.outcome? id = some (.ok body')) ∧
    (∀ n, u.jobs.lookup n = s.jobs.lookup n ∨
      n ∈ asked ∧ ∃ result result', s.jobs.lookup n = some (.ended result) ∧
        u.jobs.lookup n = some (.ended result')) ∧
    ∀ t, (t = .link .reader → s.Meets u) → (u.step? t).isSome = (s.step? t).isSome := by
  obtain ⟨hreach, -, h⟩ := abreast_alike h
  refine ⟨h.session.core, h.session.events, ?_, ?_, h.session.refused, h.outcome?, h.lookup, ?_⟩
  · have hl := h.session.link
    generalize s.session.link = l, u.session.link = m at hl ⊢
    cases hl with
    | none => rfl
    | some hl => exact congrArg some hl.written
  · have hl := h.session.link
    generalize s.session.link = l, u.session.link = m at hl ⊢
    cases hl with
    | none => rfl
    | some hl => exact congrArg some hl.closed
  · intro t hr
    exact isSome_of_rel (h.step (guarded_reachable hreach) t hr)

/-- A reply that is the text of one value in one run, and no table in the other. -/
theorem replies_stay_local_garbled : ∃ s u r r', Abreast [1] s u ∧
    s.jobs.lookup 1 = some (.ended (.answer r)) ∧ u.jobs.lookup 1 = some (.ended (.answer r')) ∧
    r.isOk = true ∧ r'.isOk = false ∧ u.session.core = s.session.core ∧
    u.session.events = s.session.events ∧ s.session.core.state = .paused := by
  have h : Abreast [] (.new {}) (.new {}) := .new {}
  have h := h.begin 0 rfl rfl (.call (.attach {}) true)
  have h := h.task (.job 0) rfl rfl nofun
  have h := h.outside { arriving := Text.bytes "202 Paused 7\na.lua 1" } _ rfl rfl rfl (.same _)
  have h := (h.takesLeft rfl rfl).takesRight rfl rfl
  have h := h.task (.link .reader) rfl rfl fun _ => by
    rintro l m ⟨⟩ ⟨⟩
    exact Link.meets_self fun _ => rfl
  have h := h.task .pump rfl rfl nofun
  have h := h.begin 1 rfl rfl (.call (.evaluate none "x") true)
  have h := h.task (.job 1) rfl rfl nofun
  have h := h.task (.link .writer) rfl rfl nofun
  have h := h.task (.link .writer) rfl rfl nofun
  have hreplies : Wire.Alike 16777216 ([] ++ Response.frame ⟨.ok, "\x7b\"1\"\x7d"⟩)
      ([] ++ Response.frame ⟨.ok, "?"⟩) := by
    rw [List.nil_append, List.nil_append]
    exact Wire.alike_replies (by decide) (by decide) (by decide)
  have h := h.outside
    { arriving := Response.frame ⟨.ok, "\x7b\"1\"\x7d"⟩,
      written := Text.bytes "EXEC return x --\x7bstack=0; maxlevel=8\x7d\n" }
    (Response.frame ⟨.ok, "?"⟩) rfl rfl (by decide) hreplies
  have h := (h.takesLeft rfl rfl).takesRight rfl rfl
  have h := h.task (.link .reader) rfl rfl fun _ => meets_inquired rfl rfl rfl rfl rfl
  have h := h.task (.job 1) rfl rfl nofun
  obtain ⟨hcore, hevents, -⟩ := replies_stay_local h
  exact ⟨_, _, _, _, h, rfl, rfl, by decide +kernel, by decide +kernel, hcore, hevents, rfl⟩

end MobDebug.Debugger
