import MobDebug.Proofs.Session.Alternation
import MobDebug.Proofs.Session.Rollback
import MobDebug.Proofs.Session.Untold

/-! Any number of calls that set and clear one breakpoint at once. A call that changes what the
session shows submits one command and returns true when the debuggee accepts it; a call that changes
nothing returns false at once and submits nothing. -/
namespace MobDebug
open Channel (Request)
open Session (Breakpoint Call Progress Edits Settled Spares)
open Wire (SingleLine)

/-- The call that sets the breakpoint or clears it. -/
def Session.Call.edit (b : Breakpoint) : Bool → Call
  | true => .setBreakpoint b
  | false => .clearBreakpoint b

namespace Session
variable {s : Session} {l : Link}

/-- What the first part of such a call does while the connection is open. -/
inductive Toggled (b : Breakpoint) (on : Bool) (s : Session) : Session → Progress → Prop where
  | same (hc : b ∈ s.core.breakpoints ↔ on = true) :
      Toggled b on s s (.finished (.ok (.flag false)))
  | unwritable (hc : b ∈ s.core.breakpoints ↔ on = false) {fault : ProtocolFault}
      (he : (b.command on).encode = .error fault) :
      Toggled b on s s (.finished (.error (.protocol fault)))
  | told {r : Request} {t : Session} (h : Edits b on r s t) :
      Toggled b on s t (.waiting r.id (.edit b on))

theorem start_edit (hl : s.link.isSome) (he : s.core.ended = false) (b : Breakpoint) (on : Bool) :
    s.start (.edit b on) =
      if s.core.breakpoints.contains b = on then (s, .finished (.ok (.flag false)))
      else match s.submit (Call.edit b on).operation (b.command on) with
        | .error e => (s, .finished (.error e))
        | .ok (id, t) => (t.marked b on, .waiting id (.edit b on)) := by
  have hnone : s.link.isNone = false := by simpa using hl
  cases on with
  | true =>
    simp only [Call.edit, start, setBreakpoint, he, hnone]
    rfl
  | false =>
    simp only [Call.edit, start, clearBreakpoint, he, hnone, Bool.not_eq_true']
    rfl

theorem toggled_start (hl : s.link = some l) (ho : l.channel.closed = false)
    (he : s.core.ended = false) (hsort : s.Sorted) (b : Breakpoint) (on : Bool) :
    Toggled b on s (s.start (.edit b on)).1 (s.start (.edit b on)).2 := by
  rw [start_edit (by rw [hl]; rfl) he]
  split
  · next hc => exact .same (by rw [← List.contains_iff_mem, hc])
  next hc =>
  have hc : s.core.breakpoints.contains b = !on := Bool.eq_not_of_ne hc
  rcases submit_of_open hl ho (Call.edit b on).operation (b.command on) with
    ⟨id, t, hs⟩ | ⟨fault, hfault, hs⟩
  · rw [hs]
    obtain ⟨r, rfl, hedits⟩ := edits_marked hsort hc hs
    exact .told hedits
  · rw [hs]
    refine .unwritable ?_ hfault
    rw [← List.contains_iff_mem, hc]
    cases on <;> simp

end Session

namespace Debugger
variable {s u v : Debugger} {b : Breakpoint} {n : Nat} {on : Bool} {m : Link}

/-- A call that sets the breakpoint or clears it: its job, which of the two it does, whether the
session showed the breakpoint before its first part, and the commands that it submitted in this. -/
structure Toggle where
  job : Nat
  on : Bool
  shown : Bool
  commands : List Request

/-- The call whose first part is this step. -/
def toggle (b : Breakpoint) (n : Nat) (on : Bool) (s u : Debugger) : Toggle where
  job := n
  on := on
  shown := b ∈ s.session.core.breakpoints
  commands := u.session.commands.drop s.session.commands.length

/-- A run with the calls that edit the breakpoint, in the order of their first parts. All else may
happen in between, if only nobody edits the breakpoint in another way. -/
inductive Toggling (b : Breakpoint) (s : Debugger) : List Toggle → Debugger → Prop where
  | start : Toggling b s [] s
  | call {es : List Toggle} {u v : Debugger} {n : Nat} {on keeps : Bool} (h : Toggling b s es u)
      (hj : u.jobs.lookup n = some (.call (.edit b on) keeps)) (hs : u.step? (.job n) = some v) :
      Toggling b s (es ++ [toggle b n on u v]) v
  | other {es : List Toggle} {u v : Debugger} (h : Toggling b s es u) (hs : Step u v)
      (hcalls : ∀ n on keeps, u.jobs.lookup n = some (.call (.edit b on) keeps) →
        u.step? (.job n) ≠ some v)
      (hnone : ∀ n id on, u.awaits n = none → v.awaits n ≠ some (id, .edit b on)) :
      Toggling b s es v

/-- How a call stands that has begun. Where it was to change what the session showed, it has
submitted a command and waits, or has returned true; or it has submitted nothing and returned an
error, as no line sets the breakpoint. Otherwise it has submitted nothing and returned false. -/
inductive Toggle.Stands (b : Breakpoint) (e : Toggle) (s : Debugger) : Prop where
  | waits {r : Request} {keeps : Bool} (hs : e.shown = !e.on) (hc : e.commands = [r])
      (he : b.edit? r = some e.on)
      (hj : s.jobs.lookup e.job = some (.waiting r.id (.edit b e.on) keeps))
  | told {r : Request} (hs : e.shown = !e.on) (hc : e.commands = [r]) (he : b.edit? r = some e.on)
      (hj : s.jobs.lookup e.job = some (.ended (.answer (.ok (.flag true)))))
  | same (hs : e.shown = e.on) (hc : e.commands = [])
      (hj : s.jobs.lookup e.job = some (.ended (.answer (.ok (.flag false)))))
  | unwritable (hs : e.shown = false) (hon : e.on = true) (hc : e.commands = [])
      (hb : ¬ SingleLine b.file)
      (hj : s.jobs.lookup e.job =
        some (.ended (.answer (.error (.protocol (.multiLineCommand .setBreakpoint))))))

/-- The call has returned true, or does so in its next step. -/
def Toggle.Confirms (e : Toggle) (s : Debugger) : Prop :=
  s.jobs.lookup e.job = some (.ended (.answer (.ok (.flag true)))) ∨
    ∃ u, s.step? (.job e.job) = some u ∧
      u.jobs.lookup e.job = some (.ended (.answer (.ok (.flag true))))

/-- The connection is open, the session has not ended, and all edits of the breakpoint that were
answered were accepted. -/
structure Serves (b : Breakpoint) (s : Debugger) : Prop where
  link : ∃ l, s.session.link = some l ∧ l.channel.closed = false
  live : s.session.core.ended = false
  accepting : s.session.Accepting b

/-- So it was before, if the session was attached. -/
theorem Serves.before (h : Serves b u) (hr : Reachable s) (hl : s.session.link.isSome)
    (hs : Step s u) : Serves b s := by
  have hcarries := carries_turn (step_turn hs)
  obtain ⟨m, hm, hopen⟩ := h.link
  obtain ⟨l, hl⟩ := Option.isSome_iff_exists.1 hl
  obtain ⟨m', hm', hfut⟩ := hcarries l hl
  cases hm.symm.trans hm'
  refine ⟨⟨l, hl, ?_⟩, not_ended_before hs hr h.live, h.accepting.before hcarries⟩
  rw [Bool.eq_false_iff]
  exact fun hclosed => absurd (hopen.symm.trans (Link.closed_future hfut hclosed)) nofun

/-- A call that edits the breakpoint and has its reply returns true. -/
theorem step_edit {id : Nat} {keeps : Bool} {body : String}
    (hj : s.jobs.lookup n = some (.waiting id (.edit b on) keeps))
    (ho : s.session.outcome? id = some (.ok body)) : ∃ u, s.step? (.job n) = some u ∧
      u.jobs.lookup n = some (.ended (.answer (.ok (.flag true)))) := by
  have hcont : s.session.continueWith id (.edit b on) (.ok body) =
      (s.session.publish, .finished (.ok (.flag true))) := by cases on <;> rfl
  have hjob : s.jobStep? (.waiting id (.edit b on) keeps) =
      some (s.session.publish, .ended (.answer (.ok (.flag true))), "") := by
    rw [jobStep?, ho, Option.map_some, hcont]
    rfl
  refine ⟨_, by rw [step?, hj, Option.bind_some, hjob, Option.map_some], ?_⟩
  rw [jobs_release]
  exact (lookup_setJob (by rw [hj]; rfl) _ n).trans (if_pos rfl)

namespace Toggle.Stands
variable {e : Toggle}

theorem step (h : e.Stands b s) (hr : Reachable s) (hs : Step s u)
    (hok : s.session.Accepting b) : e.Stands b u := by
  cases h with
  | @waits r keeps hshown hc he hj =>
    rcases lookup_step hs hj (by simp) with hstep | hkept
    · obtain ⟨o, ho, -⟩ := step_waiting hj hstep
      have hn : s.awaits e.job = some (r.id, .edit b e.on) := by
        rw [awaits, hj]
        rfl
      have hreply := hok.reply (attended_reachable hr) (guarded_reachable hr) hn ho
        (by rw [Channel.edit?_edit]; rfl)
      cases o with
      | error => cases hreply
      | ok body =>
        obtain ⟨v, hv, hended⟩ := step_edit hj ho
        cases hv.symm.trans hstep
        exact .told hshown hc he hended
    · exact .waits hshown hc he hkept
  | told hshown hc he hj => exact .told hshown hc he (lookup_ended hs hj)
  | same hshown hc hj => exact .same hshown hc (lookup_ended hs hj)
  | unwritable hshown hon hc hb hj => exact .unwritable hshown hon hc hb (lookup_ended hs hj)

/-- Once the command of a call has its reply, the call has returned true or is about to. -/
theorem confirms (h : e.Stands b s) (hr : Reachable s) (hok : s.session.Accepting b)
    (hm : s.session.link = some m) {r : Request} (hmem : r ∈ e.commands)
    (hreply : (m.channel.outcome? r.id).isSome) : e.Confirms s := by
  cases h with
  | @waits q keeps _ hc he hj =>
    rw [hc] at hmem
    obtain rfl := List.mem_singleton.1 hmem
    obtain ⟨o, ho⟩ := Option.isSome_iff_exists.1 hreply
    rw [← Session.outcome?_of_link hm] at ho
    have hn : s.awaits e.job = some (r.id, .edit b e.on) := by
      rw [awaits, hj]
      rfl
    have hisOk := hok.reply (attended_reachable hr) (guarded_reachable hr) hn ho
      (by rw [Channel.edit?_edit]; rfl)
    cases o with
    | error => cases hisOk
    | ok body => exact .inr (step_edit hj ho)
  | told _ _ _ hj => exact .inl hj
  | same _ hc | unwritable _ _ hc =>
    rw [hc] at hmem
    cases hmem

/-- Such a call is no longer to begin. -/
theorem ne_call (h : e.Stands b s) {call : Call} {keeps : Bool} :
    s.jobs.lookup e.job ≠ some (.call call keeps) := by
  cases h with
  | waits _ _ _ hj | told _ _ _ hj | same _ _ hj | unwritable _ _ _ _ hj =>
    rw [hj]
    nofun

end Toggle.Stands

/-- The first part of a call that edits the breakpoint. -/
theorem stands_call {keeps : Bool} (hr : Reachable u) (hset : Settled u.awaits)
    (h : Serves b u) (hj : u.jobs.lookup n = some (.call (.edit b on) keeps))
    (hs : u.step? (.job n) = some v) : (toggle b n on u v).Stands b v ∧
      b.orders v.session = b.orders u.session ++ (toggle b n on u v).commands := by
  obtain ⟨l, hl, hopen⟩ := h.link
  obtain ⟨hd, hjob⟩ := step_call hj hs
  have hstart := Session.toggled_start hl hopen h.live (sorted_reachable hr) b on
  generalize (u.session.start (.edit b on)).1 = t, (u.session.start (.edit b on)).2 = p
    at hd hjob hstart
  -- a call that leaves the session as it is has submitted nothing
  have hidle (hd : u.session.Drifts v.session) : (toggle b n on u v).commands = [] ∧
      b.orders v.session = b.orders u.session ++ (toggle b n on u v).commands := by
    have hnil : (toggle b n on u v).commands = [] := by
      rw [toggle, Session.commands_drifts hd]
      exact List.drop_length
    exact ⟨hnil, by rw [hnil, List.append_nil, Session.orders_drifts hd]⟩
  cases hstart with
  | same hc =>
    obtain ⟨hnil, horders⟩ := hidle hd
    have hshown : (toggle b n on u v).shown = on := by simp [toggle, hc]
    exact ⟨.same hshown hnil hjob, horders⟩
  | @unwritable hc fault hfault =>
    obtain ⟨hnil, horders⟩ := hidle hd
    -- the order could not be written, so the file has more than one line
    have hlines : ¬ SingleLine b.file := fun hsingle => by
      cases hfault.symm.trans (b.encode_command on hsingle)
    cases on with
    | true =>
      cases hfault.symm.trans (Session.Breakpoint.encode_of_lines hlines)
      have hshown : (toggle b n true u v).shown = false := by simp [toggle, hc]
      exact ⟨.unwritable hshown rfl hnil hlines hjob, horders⟩
    | false =>
      -- what the session shows it can also tell
      have hsingle := single_or_untold hr (by rw [hl]; rfl) h.live h.accepting (hc.2 rfl)
      exact absurd (hsingle.resolve_right (Session.not_untold hset)) hlines
  | @told r t hedits =>
    have hafter := hedits.drifts hd
    have hcommands : (toggle b n on u v).commands = [r] := by
      rw [toggle, hafter.commands]
      exact List.drop_left
    have hshown : (toggle b n on u v).shown = !on := by simp [toggle, hedits.before]
    rw [hcommands]
    exact ⟨.waits hshown hcommands hafter.edit hjob, hafter.orders⟩

/-- What the calls of a run have come to: all that was submitted about the breakpoint they have
submitted. -/
structure Tally (b : Breakpoint) (s : Debugger) (es : List Toggle) (u : Debugger) : Prop where
  settled : Settled u.awaits
  orders : b.orders u.session = b.orders s.session ++ es.flatMap (·.commands)
  distinct : (es.map (·.job)).Nodup
  stands : ∀ e ∈ es, e.Stands b u

namespace Tally
variable {es : List Toggle}

theorem call {keeps : Bool} (h : Tally b s es u) (hr : Reachable u) (hserves : Serves b u)
    (hj : u.jobs.lookup n = some (.call (.edit b on) keeps)) (hs : u.step? (.job n) = some v)
    (hset : Settled v.awaits) : Tally b s (es ++ [toggle b n on u v]) v := by
  have hstep : Step u v := .task (.job n) hs
  obtain ⟨hstands, horders⟩ := stands_call hr h.settled hserves hj hs
  refine ⟨hset, ?_, ?_, ?_⟩
  · rw [horders, h.orders, List.append_assoc, List.flatMap_append, List.flatMap_singleton]
  · rw [List.map_append, List.nodup_append]
    refine ⟨h.distinct, List.nodup_singleton _, ?_⟩
    rintro m hm _ hn rfl
    obtain ⟨e, he, rfl⟩ := List.mem_map.1 hm
    obtain rfl := List.mem_singleton.1 hn
    exact (h.stands e he).ne_call hj
  · intro e he
    rcases List.mem_append.1 he with he | he
    · exact (h.stands e he).step hr hstep hserves.accepting
    · rw [List.mem_singleton.1 he]
      exact hstands

theorem other (h : Tally b s es u) (hr : Reachable u) (hok : u.session.Accepting b)
    (hs : Step u v) (hset : Settled v.awaits) (hspares : Spares b u.session v.session) :
    Tally b s es v :=
  ⟨hset, hspares.orders.trans h.orders, h.distinct, fun e he => (h.stands e he).step hr hs hok⟩

end Tally

theorem Toggling.future {es : List Toggle} (h : Toggling b s es u) : Future s u := by
  induction h with
  | start => exact .refl
  | call _ _ hs ih => exact ih.tail (.task (.job _) hs)
  | other _ hs _ _ ih => exact ih.tail hs

/-- Every step goes on with such a run, unless the breakpoint is edited otherwise than by a call. -/
theorem Toggling.extend {es : List Toggle} (h : Toggling b s es u) (hs : Step u v)
    (hothers : ∀ n id on, u.awaits n = none → v.awaits n = some (id, .edit b on) →
      ∃ keeps, u.jobs.lookup n = some (.call (.edit b on) keeps)) : ∃ es', Toggling b s es' v := by
  by_cases hcall : ∃ n on keeps, u.jobs.lookup n = some (.call (.edit b on) keeps) ∧
      u.step? (.job n) = some v
  · obtain ⟨n, on, keeps, hj, hstep⟩ := hcall
    exact ⟨_, h.call hj hstep⟩
  · refine ⟨es, h.other hs (fun n on keeps hj hstep => hcall ⟨n, on, keeps, hj, hstep⟩) ?_⟩
    intro n id on hn hw
    obtain ⟨keeps, hj⟩ := hothers n id on hn hw
    rcases lookup_step hs hj (by simp) with hstep | hkept
    · exact hcall ⟨n, on, keeps, hj, hstep⟩
    · rw [awaits, hkept] at hw
      cases hw

theorem tally_toggling {es : List Toggle} (hr : Reachable s) (hl : s.session.link.isSome)
    (hset : Settled s.awaits) (ht : Toggling b s es u) (h : Serves b u) : Tally b s es u := by
  have hattached {v : Debugger} (hf : Future s v) : v.session.link.isSome := by
    obtain ⟨l, hl⟩ := Option.isSome_iff_exists.1 hl
    obtain ⟨m, hm, -⟩ := carries_future hf l hl
    rw [hm]
    rfl
  induction ht with
  | start => exact ⟨hset, (List.append_nil _).symm, List.nodup_nil, nofun⟩
  | call ht hj hs ih =>
    have hstep : Step _ _ := .task (.job _) hs
    have hu := hr.future ht.future
    have hlink := hattached ht.future
    have hserves := h.before hu hlink hstep
    have htally := ih hserves
    obtain ⟨hset', -⟩ := turn_edits (step_turn hstep) hu htally.settled hlink hserves.accepting
    exact htally.call hu hserves hj hs hset'
  | other ht hs _ hnone ih =>
    have hu := hr.future ht.future
    have hlink := hattached ht.future
    have hserves := h.before hu hlink hs
    have htally := ih hserves
    obtain ⟨hset', hspares | ⟨n, on, r, -, hn, hw⟩⟩ :=
      turn_edits (step_turn hs) hu htally.settled hlink hserves.accepting
    · exact htally.other hu hserves.accepting hs hset' hspares
    · exact absurd hw (hnone n _ on hn)

/-- What has been put on the wire is what was submitted first. -/
theorem onWire_prefix (hr : Reachable s) (hl : s.session.link = some m) :
    m.channel.onWire <+: s.session.commands := by
  have hkept := Channel.keptIn_of_untaken (guarded_reachable hr m hl).untaken
  rw [Session.commands_eq, Session.journal_of_link hl, ← hkept]
  exact Channel.onWire_prefix_kept

/-- Take a session whose attaching call has returned, and any run from there in which the debuggee
accepts all edits of a breakpoint. However the calls are interleaved, the commands submitted about
the breakpoint set and clear it in turn, beginning with what the session does not show; and from the
first command of the greeting on they do so, beginning with one that sets it, if the call that
attached was alone. The session shows the breakpoint as the last of them leaves it, and this is the
order in which they are put on the wire. While the connection is open and the session has not ended,
of the calls that edit the breakpoint each that changes what the session shows submits a command and
returns true once it has the reply, or returns an error if no line sets the breakpoint. Each other
call submits nothing and returns false at once. -/
theorem edited_in_turn (hr : Reachable s) (hl : s.session.link.isSome) (hset : ¬ s.Attaching)
    (hf : Future s u) (hm : u.session.link = some m) (hok : u.session.Accepting b) :
    (∃ later, b.orders u.session = b.orders s.session ++ later ∧
      b.Alternates (decide (b ∈ s.session.core.breakpoints))
        (decide (b ∈ u.session.core.breakpoints)) later) ∧
    (∀ t n call keeps, Reachable t → t.jobs.lookup n = some (.call call keeps) → call.attaches →
      Sole n t s → s.jobs.lookup n = some (.ended (.answer (.ok .unit))) →
      b.Alternates false (decide (b ∈ u.session.core.breakpoints)) (b.orders u.session)) ∧
    m.channel.onWire <+: u.session.commands ∧
    ∀ es, Toggling b s es u → m.channel.closed = false → u.session.core.ended = false →
      b.orders u.session = b.orders s.session ++ es.flatMap (·.commands) ∧
      (es.map (·.job)).Nodup ∧
      ∀ e ∈ es, e.Stands b u ∧
        ∀ r ∈ e.commands, (m.channel.outcome? r.id).isSome → e.Confirms u := by
  have hsettled := settled_of_unattaching hset
  have hu := hr.future hf
  refine ⟨?_, ?_, onWire_prefix hu hm, fun es ht hopen hlive => ?_⟩
  · obtain ⟨-, halt⟩ := alternating_future hr hsettled (.start hl) hf hok
    exact halt.orders
  · intro t n call keeps ht hj hc hsole hend
    have hbefore := hok.before (carries_future hf)
    have hfirst := alternating_attached ht hj hc hsole hend hbefore
    obtain ⟨-, halt⟩ := alternating_future hr hsettled hfirst hf hok
    obtain ⟨later, he, hturn⟩ := halt.orders
    rwa [he]
  · have htally := tally_toggling hr hl hsettled ht ⟨⟨m, hm, hopen⟩, hlive, hok⟩
    refine ⟨htally.orders, htally.distinct, fun e he => ⟨htally.stands e he, ?_⟩⟩
    exact fun r hmem hreply => (htally.stands e he).confirms hu hok hm hmem hreply

theorem Toggling.next {es : List Toggle} (h : Toggling b s es u) (hs : Step u v)
    (hcalls : u.jobs.all fun j =>
      !(j.2 matches .call _ _) || (v.jobs.lookup j.1).any (· matches .call _ _))
    (hwaits : v.jobs.all fun j =>
      j.2.awaiting?.isNone || (u.jobs.lookup j.1).any (·.awaiting?.isSome)) :
    Toggling b s es v := by
  refine h.other hs ?_ ?_
  · intro n on keeps hj hstep
    have hkept := List.all_eq_true.1 hcalls _ (mem_of_lookup hj)
    obtain ⟨-, hv⟩ := step_call hj hstep
    rw [hv] at hkept
    generalize (u.session.start (.edit b on)).2 = p at hkept
    cases p <;> cases hkept
  · intro n id on hn hw
    obtain ⟨job, hj, hw⟩ := Option.bind_eq_some_iff.1 hw
    have hwaited := List.all_eq_true.1 hwaits _ (mem_of_lookup hj)
    rw [hw, Option.isNone_some, Bool.false_or, Option.any_eq_true] at hwaited
    obtain ⟨old, hold, hsome⟩ := hwaited
    rw [awaits, hold, Option.bind_some] at hn
    rw [hn] at hsome
    cases hsome

/-- A session tells one breakpoint when it attaches. Then calls set it, clear it, set it and set it,
all at once. The debuggee has replied to the second of them, and is told to set it again. -/
theorem edited_in_turn_four : ∃ s u m es, Reachable s ∧ Toggling ⟨"a.lua", 1⟩ s es u ∧
    u.session.link = some m ∧
    es.map (fun e => (e.job, e.on)) = [(2, true), (3, false), (4, true), (5, true)] ∧
    m.channel.onWire.map (·.line) = ["SETB a.lua 1\n", "DELB a.lua 1\n", "SETB a.lua 1\n"] ∧
    u.jobs.lookup 2 = some (.ended (.answer (.ok (.flag false)))) ∧
    u.jobs.lookup 3 = some (.ended (.answer (.ok (.flag true)))) ∧
    u.jobs.lookup 5 = some (.ended (.answer (.ok (.flag false)))) ∧
    Breakpoint.Alternates ⟨"a.lua", 1⟩ false true (Breakpoint.orders ⟨"a.lua", 1⟩ u.session) ∧
    Breakpoint.orders ⟨"a.lua", 1⟩ u.session =
      Breakpoint.orders ⟨"a.lua", 1⟩ s.session ++ es.flatMap (·.commands) := by
  obtain ⟨t, s, u, m, es, h, hx, ht, hj, hend, hl, hjobs, hm, hopen, hlive, hanswers, hshown,
      htoggles, hlines, hsame, htold, hagain⟩ :
      ∃ t s u m es, Reachable t ∧ Sole 1 t s ∧ Toggling ⟨"a.lua", 1⟩ s es u ∧
        t.jobs.lookup 1 = some (.call (.attach {}) true) ∧
        s.jobs.lookup 1 = some (.ended (.answer (.ok .unit))) ∧ s.session.link.isSome ∧
        s.jobs.all (·.2.awaiting?.isNone) ∧ u.session.link = some m ∧
        m.channel.closed = false ∧ u.session.core.ended = false ∧
        (∀ p ∈ Channel.answersIn u.session.journal, p.2.isOk) ∧
        ⟨"a.lua", 1⟩ ∈ u.session.core.breakpoints ∧
        es.map (fun e => (e.job, e.on)) = [(2, true), (3, false), (4, true), (5, true)] ∧
        m.channel.onWire.map (·.line) =
          ["SETB a.lua 1\n", "DELB a.lua 1\n", "SETB a.lua 1\n"] ∧
        u.jobs.lookup 2 = some (.ended (.answer (.ok (.flag false)))) ∧
        u.jobs.lookup 3 = some (.ended (.answer (.ok (.flag true)))) ∧
        u.jobs.lookup 5 = some (.ended (.answer (.ok (.flag false)))) := by
    have h : Reachable (.new {}) := .new {}
    have h := h.step (.begin 0 rfl rfl (.call (.setBreakpoint ⟨"a.lua", 1⟩) true))
    have h := h.step (.task (.job 0) rfl)
    have h := h.step (.begin 1 rfl rfl (.call (.attach {}) true))
    have hstay {s : Debugger} (_ : Reachable s) : Sole 1 s s := .refl
    have hx := (hstay h).next (.task (.job 1) rfl) (by decide)
    have hx := hx.next (.task (.link .writer) rfl) (by decide)
    have hx := hx.next (.task (.link .writer) rfl) (by decide)
    have hx := hx.next (.outside
      { arriving := Text.bytes "200 OK 0\n", written := Text.bytes "SETB a.lua 1\n" } rfl
      (by decide)) (by decide)
    have hx := hx.next (.task (.link .reader) rfl) (by decide)
    have hx := hx.next (.task (.link .reader) rfl) (by decide)
    have hx := hx.next (.task (.job 1) rfl) (by decide)
    have hstart {s t : Debugger} (_ : Sole 1 s t) : Toggling ⟨"a.lua", 1⟩ t [] t := .start
    have ht := (hstart hx).next
      (.begin 2 rfl rfl (.call (.setBreakpoint ⟨"a.lua", 1⟩) true)) (by decide) (by decide)
    have ht := ht.next
      (.begin 3 rfl rfl (.call (.clearBreakpoint ⟨"a.lua", 1⟩) true)) (by decide) (by decide)
    have ht := ht.next
      (.begin 4 rfl rfl (.call (.setBreakpoint ⟨"a.lua", 1⟩) true)) (by decide) (by decide)
    have ht := ht.next
      (.begin 5 rfl rfl (.call (.setBreakpoint ⟨"a.lua", 1⟩) true)) (by decide) (by decide)
    have ht := @Toggling.call _ _ _ _ _ 2 true true ht rfl rfl
    have ht := @Toggling.call _ _ _ _ _ 3 false true ht rfl rfl
    have ht := @Toggling.call _ _ _ _ _ 4 true true ht rfl rfl
    have ht := @Toggling.call _ _ _ _ _ 5 true true ht rfl rfl
    have ht := ht.next (.task (.link .writer) rfl) (by decide) (by decide)
    have ht := ht.next (.task (.link .writer) rfl) (by decide) (by decide)
    have ht := ht.next (.outside
      { arriving := Text.bytes "200 OK 0\n",
        written := Text.bytes "SETB a.lua 1\nDELB a.lua 1\n" } rfl (by decide))
      (by decide) (by decide)
    have ht := ht.next (.task (.link .reader) rfl) (by decide) (by decide)
    have ht := ht.next (.task (.link .reader) rfl) (by decide) (by decide)
    have ht := ht.next (.task (.job 3) rfl) (by decide) (by decide)
    have ht := ht.next (.task (.link .writer) rfl) (by decide) (by decide)
    have ht := ht.next (.task (.link .writer) rfl) (by decide) (by decide)
    exact ⟨_, _, _, _, _, h, hx, ht, rfl, rfl, rfl, by decide, rfl, rfl, rfl, by decide, by decide,
      rfl, by decide, rfl, rfl, rfl⟩
  have hs := h.future hx.future
  obtain ⟨-, hgreeted, -, hcalls⟩ := edited_in_turn hs hl (not_attaching_of_jobs hjobs) ht.future
    hm (fun _ _ _ _ hp => hanswers _ hp)
  obtain ⟨horders, -, -⟩ := hcalls es ht hopen hlive
  have hturn := hgreeted t 1 _ _ h hj rfl hx hend
  rw [decide_eq_true hshown] at hturn
  exact ⟨s, u, m, es, hs, ht, hm, htoggles, hlines, hsame, htold, hagain, hturn, horders⟩

/-- A call sets a breakpoint in a file with a line end in its name. It submits nothing and returns
an error, not false. And where another call was made while the attaching call told a breakpoint, the
first command that is submitted after this call has returned may clear it. -/
theorem edited_not_in_turn :
    (∃ s u, Reachable s ∧ s.session.link.isSome ∧ s.isClosed = false ∧
      s.session.core.ended = false ∧ ¬ s.Attaching ∧
      Toggling ⟨"a\nb.lua", 1⟩ s [⟨1, true, false, []⟩] u ∧ u.session.commands = [] ∧
      u.jobs.lookup 1 =
        some (.ended (.answer (.error (.protocol (.multiLineCommand .setBreakpoint)))))) ∧
    ∃ s t v u, Reachable s ∧ s.Attaching ∧ s.jobs.lookup 2 = some (.call .stack true) ∧
      s.step? (.job 2) = some t ∧ Future t v ∧
      v.jobs.lookup 1 = some (.ended (.answer (.ok .unit))) ∧
      v.jobs.lookup 3 = some (.call (.clearBreakpoint ⟨"a.lua", 1⟩) true) ∧
      v.session.commands.map (·.line) = ["SETB a.lua 1\n"] ∧ v.step? (.job 3) = some u ∧
      u.session.commands.map (·.line) = ["SETB a.lua 1\n", "DELB a.lua 1\n"] := by
  have h : Reachable (.new {}) := .new {}
  have hstay {s : Debugger} (_ : Reachable s) : Future s s := .refl
  refine ⟨?_, ?_⟩
  · have h := h.step (.begin 0 rfl rfl (.call (.attach {}) true))
    have h := h.step (.task (.job 0) rfl)
    have hstart {s : Debugger} (_ : Reachable s) : Toggling ⟨"a\nb.lua", 1⟩ s [] s := .start
    have ht := (hstart h).next
      (.begin 1 rfl rfl (.call (.setBreakpoint ⟨"a\nb.lua", 1⟩) true)) (by decide) (by decide)
    have ht := @Toggling.call _ _ _ _ _ 1 true true ht rfl rfl
    exact ⟨_, _, h, rfl, rfl, rfl, not_attaching_of_jobs (by decide), ht, rfl, rfl⟩
  · have h := h.step (.begin 0 rfl rfl (.call (.setBreakpoint ⟨"a.lua", 1⟩) true))
    have h := h.step (.task (.job 0) rfl)
    have h := h.step (.begin 1 rfl rfl (.call (.attach {}) true))
    have h := h.step (.task (.job 1) rfl)
    have h := h.step (.begin 2 rfl rfl (.call .stack true))
    have hf := hstay (h.step (.task (.job 2) rfl))
    have hf := hf.tail (.task (.link .writer) rfl)
    have hf := hf.tail (.task (.link .writer) rfl)
    have hf := hf.tail (.outside
      { arriving := Text.bytes "200 OK 0\n", written := Text.bytes "SETB a.lua 1\n" } rfl
      (by decide))
    have hf := hf.tail (.task (.link .reader) rfl)
    have hf := hf.tail (.task (.link .reader) rfl)
    have hf := hf.tail (.task (.job 1) rfl)
    have hf := hf.tail (.begin 3 rfl rfl (.call (.clearBreakpoint ⟨"a.lua", 1⟩) true))
    exact ⟨_, _, _, _, h, ⟨1, _, rfl, rfl⟩, rfl, rfl, hf, rfl, rfl, by decide, rfl, by decide⟩

end Debugger
end MobDebug
