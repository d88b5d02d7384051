import MobDebug.Proofs.Session.Greeting

/-! Breakpoints that are set before the session attaches. They are recorded whatever their file is
called, though a session that is attached refuses one with a line end in the name of its file. The
call that attaches then cannot tell it, and ends the session. -/
namespace MobDebug
open Wire (SingleLine isLineEnd replies Response)
open Session (Breakpoint Progress)

namespace Session
variable {s t : Session} {b : Breakpoint} {l : Link} {rs : List Response} {p : Progress}

theorem Breakpoint.encode_of_lines (h : ¬ SingleLine b.file) :
    (b.command true).encode = .error (.multiLineCommand .setBreakpoint) := by
  refine Breakpoint.encode_multiLine ?_
  simpa [SingleLine] using h

/-- A session that has not attached records every breakpoint. -/
theorem setBreakpoint_recorded (hl : s.link = none) (he : s.core.ended = false) (b : Breakpoint) :
    (∃ flag, (s.setBreakpoint b).2 = .finished (.ok (.flag flag))) ∧
      b ∈ (s.setBreakpoint b).1.core.breakpoints := by
  unfold setBreakpoint
  dsimp only
  rw [he, hl, if_neg Bool.false_ne_true]
  split
  · next hb => exact ⟨⟨false, rfl⟩, by simpa using hb⟩
  · exact ⟨⟨true, rfl⟩, (mem_insertBreakpoint b _).2 (.inl rfl)⟩

/-- A session that is attached refuses just those breakpoints that it cannot tell. -/
theorem setBreakpoint_refused_iff (hl : s.link = some l) (ho : l.channel.closed = false)
    (he : s.core.ended = false) (hb : b ∉ s.core.breakpoints) :
    (∃ e, (s.setBreakpoint b).2 = .finished (.error e)) ↔ ¬ SingleLine b.file := by
  constructor
  · rintro ⟨e, hrefused⟩ hsingle
    have hencode : (Wire.Command.setBreakpoint b.file b.line).encode = _ :=
      b.encode_command true hsingle
    rcases submit_of_open hl ho .setBreakpoint (.setBreakpoint b.file b.line) with
      ⟨id, t, hs⟩ | ⟨fault, hfault, -⟩
    · simp [setBreakpoint, he, hb, hl, hs] at hrefused
    · cases hencode.symm.trans hfault
  · intro hlines
    refine ⟨.protocol (.multiLineCommand .setBreakpoint), ?_⟩
    rw [setBreakpoint_malformed he hb (by rw [hl]; rfl) (by simpa [SingleLine] using hlines)]

/-- A call that greets the debuggee ends well if all breakpoints can be told, and otherwise with the
first that cannot. -/
theorem Talk.result {result : Except Error Answer} (h : Talk s rs t (.finished result))
    (hdir : ∀ dir ∈ s.config.baseDir, SingleLine dir) :
    (result = .ok .unit ∧ ∀ b ∈ s.core.breakpoints, SingleLine b.file) ∨
      (result = .error (.protocol (.multiLineCommand .setBreakpoint)) ∧ t.core.state = .terminated ∧
        ∃ b ∈ s.core.breakpoints, ¬ SingleLine b.file) := by
  cases h with
  | done _ h =>
    refine .inl ⟨rfl, fun b hb => ?_⟩
    by_contra hlines
    obtain ⟨l, -, -, hconv⟩ := h.link
    have hmem := mem_greeting.2 (.inr ⟨b, hb, rfl⟩)
    obtain ⟨line, hencode⟩ := hconv.encoded (List.mem_map_of_mem hmem)
    cases hencode.symm.trans (Breakpoint.encode_of_lines hlines)
  | broken hf _ hs =>
    obtain ⟨entry, hm, hfault⟩ := hf
    rcases mem_greeting.1 hm with ⟨dir, hd, rfl⟩ | ⟨b, hb, rfl⟩
    · cases hfault.symm.trans (Wire.Command.encode_single (hdir dir hd) rfl rfl)
    · have hlines : ¬ SingleLine b.file := fun hsingle => by
        cases hfault.symm.trans (b.encode_command true hsingle)
      cases hfault.symm.trans (Breakpoint.encode_of_lines hlines)
      exact .inr ⟨rfl, hs, b, hb, hlines⟩

end Session

namespace Debugger
variable {s u : Debugger} {n : Nat} {stream : Stream} {keeps : Bool} {rs : List Response}

/-- Where all tasks wait, there is room and no command waits for a reply, the job has ended. -/
theorem Talks.ends (h : Talks n stream keeps s rs u) (hw : stream.written = []) (hq : u.Quiet) :
    ∃ m, u.session.link = some m ∧ (0 < m.stream.room → m.channel.inFlight = none →
      ∃ result, u.jobs.lookup n = some (.ended result)) := by
  obtain ⟨p, t, hj, htalk, hwaits, hm, ht, hsettled⟩ := h.rest hw hq
  refine ⟨t.link, hm, fun hroom hnone => ?_⟩
  cases p with
  | finished result => exact ⟨_, hj⟩
  | waiting id awaiting =>
    obtain ⟨told, bs, ms, -, hlen, hhears⟩ := htalk.waits (hwaits id awaiting rfl)
    obtain ⟨l, hl, ho, hconv⟩ := hhears.link
    cases hm.symm.trans hl
    have hwaiting := (hsettled.rest (Traffic.manned_reachable ht) ho hroom).resolve_right
      (by simp [hnone])
    -- nothing is outstanding, so all that was told has been answered
    have hlength := hconv.length
    rw [Channel.outstanding, hnone, hwaiting, List.length_map] at hlength
    simp only [Option.toList_none, List.append_nil, List.length_nil] at hlength
    omega

/-- A session that has not attached records every breakpoint, while one that is attached refuses
just those whose file has a line end in its name. When a call attaches, alone with a debuggee that
answers its commands, it ends well if all recorded breakpoints could have been set then; otherwise
it ends with the error that setting them would have given, and the session is terminated. -/
theorem recorded_unchecked (h : Reachable s)
    (hj : s.jobs.lookup n = some (.call (.attach stream) keeps)) (hl : s.session.link = none)
    (hw : stream.written = []) (hdir : ∀ dir ∈ s.session.config.baseDir, SingleLine dir)
    (hx : Exchange n s rs u) (hg : u.gone = false) :
    (∀ b, (∃ flag, (s.session.setBreakpoint b).2 = .finished (.ok (.flag flag))) ∧
      b ∈ (s.session.setBreakpoint b).1.core.breakpoints) ∧
    (∀ (t : Session) (l : Link) (b : Breakpoint), t.link = some l → l.channel.closed = false →
      t.core.ended = false → b ∉ t.core.breakpoints →
        ((∃ e, (t.setBreakpoint b).2 = .finished (.error e)) ↔ ¬ SingleLine b.file)) ∧
    (∀ result, u.jobs.lookup n = some (.ended result) →
      (result = .answer (.ok .unit) ∧ ∀ b ∈ s.session.core.breakpoints, SingleLine b.file) ∨
      (result = .answer (.error (.protocol (.multiLineCommand .setBreakpoint))) ∧
        u.session.core.state = .terminated ∧
        ∃ b ∈ s.session.core.breakpoints, ¬ SingleLine b.file)) ∧
    (u.Quiet → ∃ m, u.session.link = some m ∧ (0 < m.stream.room → m.channel.inFlight = none →
      ∃ result, u.jobs.lookup n = some (.ended result))) := by
  have htalks := talks_exchange h (.called hj hl rfl rfl rfl rfl) hx hg
  have hopen := ((standing_reachable h).phase.new_iff.2 hl).2
  refine ⟨Session.setBreakpoint_recorded hl hopen,
    fun t l b hl ho he hb => Session.setBreakpoint_refused_iff hl ho he hb, ?_, htalks.ends hw⟩
  intro result hend
  cases htalks with
  | called hj => cases hend.symm.trans hj
  | @begun p hj h =>
    have hp := hend.symm.trans hj
    cases p with
    | waiting => cases hp
    | finished =>
      cases hp
      rcases h.result hdir with ⟨rfl, hsingle⟩ | ⟨rfl, hstate, hlines⟩
      · exact .inl ⟨rfl, hsingle⟩
      · exact .inr ⟨rfl, hstate, hlines⟩

/-- The first of two breakpoints is accepted, and the second cannot be told. -/
theorem recorded_unchecked_second : ∃ s u, Reachable s ∧ Exchange 2 s [⟨.ok, ""⟩] u ∧
    s.session.core.breakpoints = [⟨"a.lua", 1⟩, ⟨"b\n.lua", 2⟩] ∧
    u.jobs.lookup 2 =
      some (.ended (.answer (.error (.protocol (.multiLineCommand .setBreakpoint))))) ∧
    u.session.core.state = .terminated := by
  have h : Reachable (.new {}) := .new {}
  have h := h.step (.begin 0 rfl rfl (.call (.setBreakpoint ⟨"b\n.lua", 2⟩) true))
  have h := h.step (.task (.job 0) rfl)
  have h := h.step (.begin 1 rfl rfl (.call (.setBreakpoint ⟨"a.lua", 1⟩) true))
  have h := h.step (.task (.job 1) rfl)
  have h := h.step (.begin 2 rfl rfl (.call (.attach {}) true))
  have hstay {s : Debugger} (_ : Reachable s) : Exchange 2 s [] s := .start
  have hx := (hstay h).own rfl
  have hx := hx.next (.task (.link .writer) rfl) (by decide) ⟨rfl, rfl⟩
  have hx := hx.next (.task (.link .writer) rfl) (by decide) ⟨rfl, rfl⟩
  have hx := hx.next (.outside
    { arriving := Text.bytes "200 OK 0\n", written := Text.bytes "SETB a.lua 1\n" } rfl (by decide))
    (by decide) ⟨rfl, rfl⟩
  have hx := hx.next (.task (.link .reader) rfl) (by decide) ⟨rfl, rfl⟩
  have hx := hx.read (r := ⟨.ok, ""⟩) rfl rfl rfl rfl (fun _ => rfl) rfl
  have hx := hx.own rfl
  obtain ⟨-, -, hended, -⟩ := recorded_unchecked h rfl rfl rfl nofun hx rfl
  rcases hended _ rfl with ⟨hresult, -⟩ | ⟨hresult, hstate, -⟩
  · cases hresult
  · exact ⟨_, _, h, hx, rfl, rfl, hstate⟩

/-- A breakpoint that an attached session refuses is recorded by one that has not attached. The call
that attaches this one then fails, though the debuggee is told nothing. -/
theorem recorded_and_refused :
    (∃ s, Reachable s ∧ s.isClosed = false ∧ s.session.core.state = .running ∧
      (s.session.setBreakpoint ⟨"a\n.lua", 1⟩).2 =
        .finished (.error (.protocol (.multiLineCommand .setBreakpoint)))) ∧
    ∃ s f u, Reachable s ∧ s.session.link = none ∧
      (s.session.setBreakpoint ⟨"a\n.lua", 1⟩).2 = .finished (.ok (.flag true)) ∧ Future s f ∧
      f.jobs.lookup 1 = some (.call (.attach {}) true) ∧ Exchange 1 f [] u ∧
      u.jobs.lookup 1 =
        some (.ended (.answer (.error (.protocol (.multiLineCommand .setBreakpoint))))) ∧
      u.session.core.state = .terminated := by
  have h : Reachable (.new {}) := .new {}
  refine ⟨?_, ?_⟩
  · have h := h.step (.begin 0 rfl rfl (.call (.attach {}) true))
    have h := h.step (.task (.job 0) rfl)
    exact ⟨_, h, rfl, rfl, rfl⟩
  · have hstay {s : Debugger} (_ : Reachable s) : Future s s := .refl
    have hf := (hstay h).tail (.begin 0 rfl rfl (.call (.setBreakpoint ⟨"a\n.lua", 1⟩) true))
    have hf := hf.tail (.task (.job 0) rfl)
    have hf := hf.tail (.begin 1 rfl rfl (.call (.attach {}) true))
    have hstart {f : Debugger} (_ : Future (.new {}) f) : Exchange 1 f [] f := .start
    have hx := (hstart hf).own rfl
    exact ⟨_, _, _, h, rfl, rfl, hf, rfl, hx, rfl, rfl⟩

end Debugger
end MobDebug
