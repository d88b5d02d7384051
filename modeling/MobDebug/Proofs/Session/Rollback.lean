import MobDebug.Proofs.Session.Agreement
import MobDebug.Proofs.Session.Attachment

/-! A session and its debuggee agree on a breakpoint whenever no call is editing it, unless a
rejected edit was taken back after another had followed it. -/
namespace MobDebug
open Channel (Undoes acceptedIn answersIn repliesIn)
open Session (Awaiting Breakpoint)

namespace Debugger
variable {s u : Debugger} {b : Breakpoint} {before : Bool} {skip : Nat} {l m : Link}

/-- A command about the breakpoint is outstanding, or one that the debuggee has rejected is still to
be taken back. -/
def Editing (b : Breakpoint) (s : Debugger) : Prop :=
  ∃ l, s.session.link = some l ∧
    (Channel.edits b l.channel ≠ [] ∨ ∃ n id on, Undoes b l.channel s.awaits n id on)

/-- A rejected edit of the breakpoint is still to be taken back, and another has followed it. -/
def Overtaken (b : Breakpoint) (s : Debugger) : Prop := s.session.Overtaken b s.awaits

theorem idle_iff (hl : s.session.link = some l) : ¬ s.Editing b ↔
    Channel.edits b l.channel = [] ∧ ∀ n id on, ¬ Undoes b l.channel s.awaits n id on := by
  constructor
  · intro h
    refine ⟨?_, fun n id on hu => h ⟨l, hl, .inr ⟨n, id, on, hu⟩⟩⟩
    by_contra hne
    exact h ⟨l, hl, .inl hne⟩
  · rintro ⟨hnone, hundo⟩ ⟨k, hk, hedits | ⟨n, id, on, hu⟩⟩
    · cases hl.symm.trans hk
      exact hedits hnone
    · cases hl.symm.trans hk
      exact hundo n id on hu

/-- Runs in which no edit of the breakpoint follows one that is rejected and not yet taken back. -/
abbrev Careful (b : Breakpoint) : Debugger → Debugger → Prop :=
  Relation.ReflTransGen fun s u => Step s u ∧ ¬ Overtaken b u

theorem agreeing_turn (ht : Turn s u) (hr : Reachable s) (hcareful : ¬ Overtaken b u)
    (h : s.session.Agreeing b before skip s.awaits) :
    u.session.Agreeing b before skip u.awaits := by
  have hatt := attended_reachable hr
  have hg := guarded_reachable hr
  have hsort := sorted_reachable hr
  -- a part of a call, and then the connection goes on
  have hstep {t : Session} {a : Nat → Option (Nat × Awaiting)} (hd : t.Drifts u.session)
      (ha : u.awaits = a) (hatt : t.Attended a)
      (hledger : ∀ l, t.link = some l → l.channel.Ledger)
      (hagrees : ¬ t.Overtaken b a → t.Agreeing b before skip a) :
      u.session.Agreeing b before skip u.awaits := by
    rw [Overtaken, ha] at hcareful
    rw [ha]
    exact (hagrees fun hover => hcareful (hover.drifts hd hledger)).drifts hd hatt hledger hcareful
  cases ht with
  | drift ha hd => exact hstep hd ha hatt (fun l hl => (hg l hl).ledger) fun _ => h
  | receive ha _ _ hu =>
    rw [ha, hu]
    exact h.of_eq (Session.receive_link _ _) (Session.receive_breakpoints _ _)
  | begin n hn hb hd ha =>
    have huses := Session.uses_began hb
    have hatt' := hatt.uses hg (Session.free_of_none hn) huses
    exact hstep hd ha hatt' (fun l => Session.uses_ledger hg huses) (h.began hatt hg hsort hb hn)
  | resume n hn ho hc hd ha =>
    obtain ⟨l, hl⟩ := Option.isSome_iff_exists.1 h.attached
    have huses := Session.uses_continued hl hc
    have hatt' := hatt.uses hg (Session.free_of_outcome hn ho) huses
    exact hstep hd ha hatt' (fun l => Session.uses_ledger hg huses)
      (h.continued hatt hg hsort hc hn ho)

theorem agreeing_future (hr : Reachable s) (h : s.session.Agreeing b before skip s.awaits)
    (hf : Careful b s u) : Reachable u ∧ u.session.Agreeing b before skip u.awaits := by
  induction hf with
  | refl => exact ⟨hr, h⟩
  | tail _ hs ih =>
    obtain ⟨hs, hcareful⟩ := hs
    exact ⟨ih.1.step hs, agreeing_turn (step_turn hs) ih.1 hcareful ih.2⟩

theorem settled_of_unattaching (h : ¬ s.Attaching) : Session.Settled s.awaits := by
  intro n w hw
  by_contra hatt
  exact h ⟨n, w, hw, Bool.not_eq_false _ ▸ hatt⟩

/-- Take an attached session none of whose calls is telling breakpoints or editing this one, and let
the debuggee have it as the session shows it. In every run in which no edit of it follows one that
is rejected and not yet taken back, whenever the connection is open and no edit is under way, the
session shows the breakpoint exactly if the debuggee has it. -/
theorem breakpoint_agreed (hr : Reachable s) (hl : s.session.link = some l)
    (hset : ¬ s.Attaching) (hidle : ¬ s.Editing b) (hf : Careful b s u)
    (hm : u.session.link = some m) (hopen : m.channel.closed = false) (hidle' : ¬ u.Editing b) :
    b ∈ u.session.core.breakpoints ↔
      b.held (b ∈ s.session.core.breakpoints)
        ((repliesIn m.channel.journal).drop (repliesIn l.channel.journal).length) := by
  have hsettled := settled_of_unattaching hset
  obtain ⟨hnone, hundo⟩ := (idle_iff hl).1 hidle
  obtain ⟨hnone', hundo'⟩ := (idle_iff hm).1 hidle'
  have hstart : s.session.Agreeing b (b ∈ s.session.core.breakpoints)
      (repliesIn l.channel.journal).length s.awaits := by
    refine ⟨by rw [hl]; rfl, hsettled, ?_⟩
    intro k hk _
    cases hl.symm.trans hk
    rw [List.drop_length]
    refine ⟨Nat.le_refl _, .told hundo ?_ ?_⟩
    · rw [hnone]
      exact List.isChain_singleton _
    · rw [hnone]
      rfl
  obtain ⟨-, hend⟩ := agreeing_future hr hstart hf
  obtain ⟨-, haccord⟩ := hend.agrees m hm hopen
  cases haccord with
  | rejected hu => exact absurd hu (hundo' _ _ _)
  | told _ _ hs =>
    rw [hnone'] at hs
    have hheld : b.held (b ∈ s.session.core.breakpoints)
        ((repliesIn m.channel.journal).drop (repliesIn l.channel.journal).length) =
        decide (b ∈ u.session.core.breakpoints) := Option.some.inj hs
    rw [hheld, decide_eq_true_iff]

/-- A run is careful if, at its end, no command was accepted behind one answered with an error. -/
theorem careful_future (hr : Reachable s) (hf : Future s u) (hm : u.session.link = some m)
    (h : ∀ p ∈ answersIn m.channel.journal, ∀ r ∈ acceptedIn m.channel.journal, p.1 < r.id →
      p.2.isOk) : Careful b s u := by
  induction hf using Relation.ReflTransGen.head_induction_on with
  | refl => exact .refl
  | @head s v hs hf ih =>
    have hv := hr.step hs
    refine .head ⟨hs, ?_⟩ (ih hv)
    rintro ⟨k, hk, hover⟩
    obtain ⟨k', hk', hfut⟩ := carries_future hf k hk
    cases hm.symm.trans hk'
    have hledger := (guarded_reachable hv k hk).ledger
    obtain ⟨p, hp, hfalse, r, haccepted, hlt⟩ := Channel.overtaken_answer hledger hover
    have hok := h p (Channel.answersIn_mono hfut.journal hp) r
      (Channel.acceptedIn_mono hfut.journal haccepted) hlt
    rw [hfalse] at hok
    cases hok

theorem awaits_none (h : s.jobs.all (·.2.awaiting?.isNone)) (n : Nat) : s.awaits n = none := by
  rw [awaits]
  cases hj : s.jobs.lookup n with
  | none => rfl
  | some job =>
    have hm := List.all_eq_true.1 h _ (mem_of_lookup hj)
    exact Option.isNone_iff_eq_none.1 hm

theorem not_attaching_of_jobs (h : s.jobs.all (·.2.awaiting?.isNone)) : ¬ s.Attaching := by
  rintro ⟨n, w, hw, -⟩
  rw [awaits_none h] at hw
  cases hw

theorem idle_of_jobs (hl : s.session.link = some l) (he : Channel.edits b l.channel = [])
    (h : s.jobs.all (·.2.awaiting?.isNone)) : ¬ s.Editing b := by
  refine (idle_iff hl).2 ⟨he, ?_⟩
  rintro n id on ⟨hw, -⟩
  rw [awaits_none h] at hw
  cases hw

/-- Two calls set and clear a breakpoint at once. The debuggee sets it and does not clear it. -/
theorem breakpoint_agreed_kept : ∃ s u l m, Reachable s ∧ Future s u ∧
    s.session.link = some l ∧ u.session.link = some m ∧
    (repliesIn m.channel.journal).map (fun p => (p.1.line, p.2.isOk)) =
      [("SETB a.lua 1\n", true), ("DELB a.lua 1\n", false)] ∧
    ⟨"a.lua", 1⟩ ∈ u.session.core.breakpoints := by
  obtain ⟨s, u, l, m, h, hf, hl, hm, hcareful, hreplies, hjobs, hjobs', he, he', hopen, hheld⟩ :
      ∃ s u l m, Reachable s ∧ Future s u ∧ s.session.link = some l ∧ u.session.link = some m ∧
        (∀ p ∈ answersIn m.channel.journal, ∀ r ∈ acceptedIn m.channel.journal, p.1 < r.id →
          p.2.isOk) ∧
        (repliesIn m.channel.journal).map (fun p => (p.1.line, p.2.isOk)) =
          [("SETB a.lua 1\n", true), ("DELB a.lua 1\n", false)] ∧
        s.jobs.all (·.2.awaiting?.isNone) ∧ u.jobs.all (·.2.awaiting?.isNone) ∧
        Channel.edits ⟨"a.lua", 1⟩ l.channel = [] ∧ Channel.edits ⟨"a.lua", 1⟩ m.channel = [] ∧
        m.channel.closed = false ∧
        Breakpoint.held ⟨"a.lua", 1⟩ (⟨"a.lua", 1⟩ ∈ s.session.core.breakpoints)
          ((repliesIn m.channel.journal).drop (repliesIn l.channel.journal).length) := by
    have h : Reachable (.new {}) := .new {}
    have h := h.step (.begin 0 rfl rfl (.call (.attach {}) true))
    have h := h.step (.task (.job 0) rfl)
    have hstay {s : Debugger} (_ : Reachable s) : Future s s := .refl
    have hf := (hstay h).tail (.begin 1 rfl rfl (.call (.setBreakpoint ⟨"a.lua", 1⟩) true))
    have hf := hf.tail (.task (.job 1) rfl)
    have hf := hf.tail (.begin 2 rfl rfl (.call (.clearBreakpoint ⟨"a.lua", 1⟩) true))
    have hf := hf.tail (.task (.job 2) rfl)
    have hf := hf.tail (.task (.link .writer) rfl)
    have hf := hf.tail (.task (.link .writer) rfl)
    have hf := hf.tail (.outside
      { arriving := Text.bytes "200 OK 0\n", written := Text.bytes "SETB a.lua 1\n" } rfl
      (by decide))
    have hf := hf.tail (.task (.link .reader) rfl)
    have hf := hf.tail (.task (.link .reader) rfl)
    have hf := hf.tail (.task (.link .writer) rfl)
    have hf := hf.tail (.task (.link .writer) rfl)
    have hf := hf.tail (.outside
      { arriving := Text.bytes "400 No 0\n",
        written := Text.bytes "SETB a.lua 1\nDELB a.lua 1\n" } rfl (by decide))
    have hf := hf.tail (.task (.link .reader) rfl)
    have hf := hf.tail (.task (.link .reader) rfl)
    have hf := hf.tail (.task (.job 2) rfl)
    have hf := hf.tail (.task (.job 1) rfl)
    exact ⟨_, _, _, _, h, hf, rfl, rfl, by decide, by decide, by decide, by decide, by decide,
      by decide, rfl, by decide⟩
  refine ⟨s, u, l, m, h, hf, hl, hm, hreplies, ?_⟩
  exact (breakpoint_agreed h hl (not_attaching_of_jobs hjobs) (idle_of_jobs hl he hjobs)
    (careful_future h hf hm hcareful) hm hopen (idle_of_jobs hm he' hjobs')).2 hheld

/-- Two calls set and clear a breakpoint at once, and the debuggee rejects both. The first call
takes its edit back when the second has followed it, and then the second brings the breakpoint back:
the session shows one that the debuggee has not. -/
theorem breakpoint_disagreed : ∃ s u l m, Reachable s ∧ ¬ s.Attaching ∧
    ¬ s.Editing ⟨"a.lua", 1⟩ ∧ Future s u ∧ ¬ u.Editing ⟨"a.lua", 1⟩ ∧
    s.session.link = some l ∧ u.session.link = some m ∧ m.channel.closed = false ∧
    repliesIn l.channel.journal = [] ∧
    (repliesIn m.channel.journal).map (fun p => (p.1.line, p.2.isOk)) =
      [("SETB a.lua 1\n", false), ("DELB a.lua 1\n", false)] ∧
    s.session.core.breakpoints = [] ∧ u.session.core.breakpoints = [⟨"a.lua", 1⟩] ∧
    Breakpoint.held ⟨"a.lua", 1⟩ false (repliesIn m.channel.journal) = false := by
  have h : Reachable (.new {}) := .new {}
  have h := h.step (.begin 0 rfl rfl (.call (.attach {}) true))
  have h := h.step (.task (.job 0) rfl)
  have hstay {s : Debugger} (_ : Reachable s) : Future s s := .refl
  have hf := (hstay h).tail (.begin 1 rfl rfl (.call (.setBreakpoint ⟨"a.lua", 1⟩) true))
  have hf := hf.tail (.task (.job 1) rfl)
  have hf := hf.tail (.begin 2 rfl rfl (.call (.clearBreakpoint ⟨"a.lua", 1⟩) true))
  have hf := hf.tail (.task (.job 2) rfl)
  have hf := hf.tail (.task (.link .writer) rfl)
  have hf := hf.tail (.task (.link .writer) rfl)
  have hf := hf.tail (.outside
    { arriving := Text.bytes "400 No 0\n", written := Text.bytes "SETB a.lua 1\n" } rfl
    (by decide))
  have hf := hf.tail (.task (.link .reader) rfl)
  have hf := hf.tail (.task (.link .reader) rfl)
  have hf := hf.tail (.task (.job 1) rfl)
  have hf := hf.tail (.task (.link .writer) rfl)
  have hf := hf.tail (.task (.link .writer) rfl)
  have hf := hf.tail (.outside
    { arriving := Text.bytes "400 No 0\n",
      written := Text.bytes "SETB a.lua 1\nDELB a.lua 1\n" } rfl (by decide))
  have hf := hf.tail (.task (.link .reader) rfl)
  have hf := hf.tail (.task (.link .reader) rfl)
  have hf := hf.tail (.task (.job 2) rfl)
  exact ⟨_, _, _, _, h, not_attaching_of_jobs (by decide),
    idle_of_jobs rfl (by decide) (by decide), hf, idle_of_jobs rfl (by decide) (by decide),
    rfl, rfl, rfl, rfl, by decide, rfl, by decide, by decide⟩

end Debugger
end MobDebug
