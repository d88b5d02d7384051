import MobDebug.Proofs.Session.Phase
import Mathlib.Data.Prod.Lex
import Mathlib.Data.String.Basic

/-! The breakpoints of a session are kept in order, so each is there once, and setting or clearing
one leaves the others alone. -/
namespace MobDebug
open Channel (Outcome)

namespace Session
variable {s t : Session} {a b c : Breakpoint} {bs : List Breakpoint} {id : Nat} {p : Progress}
  {awaiting : Awaiting} {o : Outcome} {on : Bool}

theorem Breakpoint.before_iff : a.before b ↔ toLex (a.file, a.line) < toLex (b.file, b.line) := by
  simp [Breakpoint.before, Prod.Lex.toLex_lt_toLex]

theorem Breakpoint.before_trans (h : a.before b) (h' : b.before c) : a.before c :=
  before_iff.2 (lt_trans (before_iff.1 h) (before_iff.1 h'))

theorem Breakpoint.before_irrefl (a : Breakpoint) : a.before a = false := by
  rw [Bool.eq_false_iff, Ne, before_iff]
  exact lt_irrefl _

theorem Breakpoint.before_of_not (h : ¬ a.before b) (hne : a ≠ b) : b.before a := by
  rw [before_iff] at h ⊢
  refine lt_of_le_of_ne (le_of_not_gt h) fun he => hne ?_
  obtain ⟨hfile, hline⟩ := Prod.mk.inj (toLex.injective he)
  cases a
  cases b
  simp_all

/-- Breakpoints in order of file and line, each once. -/
def Ordered (bs : List Breakpoint) : Prop := bs.Pairwise (·.before ·)

theorem mem_insertBreakpoint (b : Breakpoint) (bs : List Breakpoint) :
    c ∈ insertBreakpoint b bs ↔ c = b ∨ c ∈ bs := by
  induction bs with
  | nil => simp [insertBreakpoint]
  | cons d bs ih =>
    rw [insertBreakpoint]
    split
    · exact List.mem_cons
    split
    · next he => simp [he]
    · rw [List.mem_cons, List.mem_cons, ih, or_left_comm]

theorem ordered_insertBreakpoint (h : Ordered bs) (b : Breakpoint) :
    Ordered (insertBreakpoint b bs) := by
  induction bs with
  | nil => exact List.pairwise_singleton _ _
  | cons d bs ih =>
    obtain ⟨hd, hbs⟩ := List.pairwise_cons.1 h
    rw [insertBreakpoint]
    split
    · next hb =>
      refine List.pairwise_cons.2 ⟨?_, h⟩
      intro c hc
      rcases List.mem_cons.1 hc with rfl | hc
      · exact hb
      · exact Breakpoint.before_trans hb (hd c hc)
    split
    · exact h
    · next hb hne =>
      refine List.pairwise_cons.2 ⟨?_, ih hbs⟩
      intro c hc
      rcases (mem_insertBreakpoint b bs).1 hc with rfl | hc
      · exact Breakpoint.before_of_not hb hne
      · exact hd c hc

theorem ordered_erase (h : Ordered bs) (b : Breakpoint) : Ordered (bs.erase b) :=
  h.sublist List.erase_sublist

theorem Ordered.nodup (h : Ordered bs) : bs.Nodup := by
  refine h.imp ?_
  rintro a b hab rfl
  exact absurd hab (by rw [Breakpoint.before_irrefl]; exact Bool.false_ne_true)

theorem ordered_mark (h : Ordered bs) (b : Breakpoint) (on : Bool) : Ordered (mark b bs on) := by
  cases on with
  | true => exact ordered_insertBreakpoint h b
  | false => exact ordered_erase h b

/-- A breakpoint that was set or cleared is there or is not, and the others are as they were. -/
theorem mem_mark (h : Ordered bs) (b : Breakpoint) (on : Bool) :
    c ∈ mark b bs on ↔ if c = b then on = true else c ∈ bs := by
  cases on with
  | true =>
    rw [mark, mem_insertBreakpoint]
    split <;> simp [*]
  | false =>
    rw [mark, h.nodup.mem_erase_iff]
    split <;> simp [*]

/-- The session keeps its breakpoints in order. -/
abbrev Sorted (s : Session) : Prop := Ordered s.core.breakpoints

/-- Each part of a call sets or clears one breakpoint at most. -/
def Marks (s t : Session) : Prop :=
  t.core.breakpoints = s.core.breakpoints ∨
    ∃ b on, t.core.breakpoints = mark b s.core.breakpoints on

theorem Sorted.marks (h : s.Sorted) (hm : s.Marks t) : t.Sorted := by
  rcases hm with he | ⟨b, on, he⟩
  · rw [Sorted, he]
    exact h
  · rw [Sorted, he]
    exact ordered_mark h b on

theorem greeted_breakpoints (hg : Greeted s bs t p) : t.core.breakpoints = s.core.breakpoints := by
  cases hg with
  | done | broken => rfl
  | told hs => rw [(link_of_submit hs).2.2]

theorem enterPaused_breakpoints (s : Session) (location : Wire.Location) (after : Nat) :
    (s.enterPaused location after).core.breakpoints = s.core.breakpoints := by
  rcases s.enterPaused_cases location after with he | ⟨-, -, he⟩
  · rw [he]
  · rw [he]
    rfl

theorem connectionLost_breakpoints (s : Session) :
    s.connectionLost.core.breakpoints = s.core.breakpoints := by
  rcases s.connectionLost_cases with ⟨-, he⟩ | ⟨-, he⟩
  · rw [he]
  · rw [he]
    rfl

theorem receive_breakpoints (s : Session) (e : Channel.Event) :
    (s.receive e).core.breakpoints = s.core.breakpoints := by
  cases e with
  | paused location after => exact enterPaused_breakpoints s location after
  | output | debuggeeError => rfl
  | closed => exact connectionLost_breakpoints s

theorem marks_began (hb : Began s t p) : s.Marks t := by
  have hsame {u : Session} (hu : u.core = s.core)
      (ht : t.core.breakpoints = u.core.breakpoints) : s.Marks t :=
    .inl (by rw [ht, hu])
  cases hb with
  | idle | refused | selected | left => exact .inl rfl
  | attached _ _ _ hg =>
    have hg := greeted_breakpoints hg
    exact .inl hg
  | introduced _ _ _ _ hs =>
    have hc := (link_of_submit hs).2.2
    exact .inl (congrArg (·.breakpoints) hc)
  | recorded b on => exact .inr ⟨b, on, rfl⟩
  | @edited b on _ _ u _ _ hs =>
    have hm : (u.marked b on).core.breakpoints = mark b u.core.breakpoints on := rfl
    rw [(link_of_submit hs).2.2] at hm
    exact .inr ⟨b, on, hm⟩
  | resumed _ _ _ hs | asked _ _ _ hs | leaving _ _ _ hs =>
    exact hsame (link_of_submit hs).2.2 rfl

theorem marks_continued (hc : Continued s id awaiting o t p) : s.Marks t := by
  cases hc with
  | greeted hg => exact .inl (greeted_breakpoints hg)
  | @dropped current _ _ message _ _ hg =>
    have hg := greeted_breakpoints hg
    cases current with
    | none => exact .inl hg
    | some b => exact .inr ⟨b, false, hg⟩
  | lost => exact .inl (connectionLost_breakpoints s)
  | paused => exact .inl (enterPaused_breakpoints s _ _)
  | undone b on => exact .inr ⟨b, !on, rfl⟩
  | _ => exact .inl rfl

end Session

namespace Debugger
variable {s u : Debugger}

theorem sorted_turn (ht : Turn s u) (h : s.session.Sorted) : u.session.Sorted := by
  have hdrifts {t : Session} (ht : t.Sorted) (hd : t.Drifts u.session) : u.session.Sorted := by
    rw [Session.Sorted, hd.core]
    exact ht
  cases ht with
  | drift _ hd => exact hdrifts h hd
  | receive _ _ _ hu =>
    rw [hu, Session.Sorted, Session.receive_breakpoints]
    exact h
  | begin _ _ hb hd => exact hdrifts (h.marks (Session.marks_began hb)) hd
  | resume _ _ _ hc hd => exact hdrifts (h.marks (Session.marks_continued hc)) hd

/-- At any moment the breakpoints are in order, each once. -/
theorem sorted_reachable (h : Reachable s) : s.session.Sorted := by
  induction h with
  | new config => exact List.Pairwise.nil
  | step _ hs ih => exact sorted_turn (step_turn hs) ih

end Debugger
end MobDebug
