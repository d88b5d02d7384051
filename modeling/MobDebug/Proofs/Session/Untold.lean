import MobDebug.Proofs.Session.Handshake
import MobDebug.Proofs.Session.Latest
import MobDebug.Proofs.Session.Recording

/-! The breakpoints that an attached session shows fit on a line, but for those that a call which
attaches has still to tell: it ends the session when it comes to one that does not. -/
namespace MobDebug
open Channel (Outcome)
open Session (Awaiting Breakpoint Progress Greeted Began Continued Settled)
open Wire (SingleLine)

namespace Session
variable {s t : Session} {b : Breakpoint} {id n : Nat} {rest : List Breakpoint}
  {awaiting : Awaiting} {o : Outcome} {p : Progress} {operation : Operation}
  {a : Nat → Option (Nat × Awaiting)} {w : Option (Nat × Awaiting)}

/-- The breakpoints that a call has still to tell. -/
def Awaiting.untold : Awaiting → List Breakpoint
  | .attach _ rest => rest
  | _ => []

/-- One of the calls has still to tell the breakpoint. -/
def Untold (b : Breakpoint) (a : Nat → Option (Nat × Awaiting)) : Prop :=
  ∃ n, ∃ w ∈ a n, b ∈ w.2.untold

theorem Untold.update (h : Untold b a) (hn : ∀ v ∈ a n, b ∉ v.2.untold) :
    Untold b (Function.update a n w) := by
  obtain ⟨m, v, hv, hb⟩ := h
  have hne : m ≠ n := by
    rintro rfl
    exact hn v hv hb
  exact ⟨m, v, by rwa [Function.update_of_ne hne], hb⟩

theorem untold_self (h : ∃ v ∈ w, b ∈ v.2.untold) : Untold b (Function.update a n w) := by
  obtain ⟨v, hv, hb⟩ := h
  exact ⟨n, v, by rwa [Function.update_self], hb⟩

theorem not_untold (h : Settled a) : ¬ Untold b a := by
  rintro ⟨n, ⟨id, awaiting⟩, hw, hb⟩
  have hatt := h n _ hw
  cases awaiting with
  | attach => cases hatt
  | _ => cases hb

theorem single_of_told (hs : s.submit operation (b.command true) = .ok (id, t)) :
    SingleLine b.file := by
  obtain ⟨line, hline, -⟩ := accepted_submit hs
  by_contra hlines
  cases hline.symm.trans (Breakpoint.encode_of_lines hlines)

theorem untold_greeted (hg : Greeted s rest t p) (he : t.core.ended = false) (hb : b ∈ rest) :
    SingleLine b.file ∨ ∃ v ∈ p.awaiting?, b ∈ v.2.untold := by
  cases hg with
  | done => cases hb
  | told hs =>
    rcases List.mem_cons.1 hb with rfl | hb
    · exact .inl (single_of_told hs)
    · exact .inr ⟨_, rfl, hb⟩
  | broken => cases he

/-- A call that begins on an open connection records only what it can tell, and one that attaches is
to tell all that was recorded before. -/
theorem untold_began (hbegan : Began s t p) (hsort : s.Sorted) (hl : t.link.isSome)
    (he : t.core.ended = false) (hb : b ∈ t.core.breakpoints) :
    (s.link.isSome ∧ b ∈ s.core.breakpoints) ∨ SingleLine b.file ∨
      ∃ v ∈ p.awaiting?, b ∈ v.2.untold := by
  cases hs : s.link with
  | some l =>
    rcases began_about hbegan (by rw [hs]; rfl) hsort b with
      ⟨hmem, -⟩ | ⟨on, _, id, u, -, hs, rfl, -⟩
    · exact .inl ⟨rfl, hmem.1 hb⟩
    · change b ∈ mark b u.core.breakpoints on at hb
      rw [(link_of_submit hs).2.2, mem_mark hsort, if_pos rfl] at hb
      subst hb
      exact .inr (.inl (single_of_told hs))
  | none =>
    cases hbegan with
    | attached stream _ _ hg =>
      rw [greeted_breakpoints hg] at hb
      exact .inr (untold_greeted hg he hb)
    | introduced stream _ _ _ hs' =>
      rw [(link_of_submit hs').2.2] at hb
      exact .inr (.inr ⟨_, rfl, hb⟩)
    | edited _ _ _ _ hs' | resumed _ _ _ hs' | asked _ _ _ hs' | leaving _ _ _ hs' =>
      obtain ⟨l, c, hl', -⟩ := submit_eq_ok hs'
      cases hs.symm.trans hl'
    | left _ _ _ hl' => cases hs ▸ hl'
    | idle | refused | recorded | selected => cases hs ▸ hl

theorem untold_continued (hc : Continued s id awaiting o t p) (hsort : s.Sorted)
    (hok : (awaiting.edit? b).isSome → o.isOk) (he : t.core.ended = false)
    (hb : b ∈ t.core.breakpoints) : b ∈ s.core.breakpoints ∧
      (b ∈ awaiting.untold → SingleLine b.file ∨ ∃ v ∈ p.awaiting?, b ∈ v.2.untold) := by
  cases ha : awaiting.isAttaching with
  | false =>
    obtain ⟨-, ⟨hmem, -⟩ | ⟨on, code, message, rfl, rfl, -⟩⟩ := continued_about hc ha hsort b
    · refine ⟨hmem.1 hb, fun huntold => ?_⟩
      cases awaiting with
      | attach => cases ha
      | _ => cases huntold
    · cases hok (by rw [Channel.edit?_edit]; rfl)
  | true =>
    cases awaiting with
    | attach current rest =>
      rcases continued_attach hc with
        ⟨body, rfl, hg⟩ | ⟨code, message, rfl, hg⟩ | ⟨e, rfl, rfl, rfl⟩
      · exact ⟨greeted_breakpoints hg ▸ hb, untold_greeted hg he⟩
      · have hmem := mem_dropping hsort (current_ne hok) message
        exact ⟨hmem.1 (greeted_breakpoints hg ▸ hb), untold_greeted hg he⟩
      · cases he
    | _ => cases ha

end Session

namespace Debugger
open Session (Untold)
variable {s u : Debugger} {b : Breakpoint}

theorem untold_turn (ht : Turn s u) (hr : Reachable s) (hok : s.session.Accepting b)
    (h : s.session.link.isSome → b ∈ s.session.core.breakpoints →
      SingleLine b.file ∨ Untold b s.awaits)
    (hl : u.session.link.isSome) (he : u.session.core.ended = false)
    (hb : b ∈ u.session.core.breakpoints) : SingleLine b.file ∨ Untold b u.awaits := by
  have hsort := sorted_reachable hr
  cases ht with
  | drift ha hd =>
    rw [hd.core] at hb
    rw [ha]
    exact h (hd.link_isSome ▸ hl) hb
  | receive ha hl' _ hu =>
    rw [hu, Session.receive_breakpoints] at hb
    rw [ha]
    exact h (by rw [hl']; rfl) hb
  | begin n hn hbegan hd ha =>
    rw [hd.core] at hb he
    rw [ha]
    rcases Session.untold_began hbegan hsort (hd.link_isSome ▸ hl) he hb with
      ⟨hl, hb⟩ | hsingle | huntold
    · refine (h hl hb).imp_right fun h => h.update ?_
      rw [hn]
      nofun
    · exact .inl hsingle
    · exact .inr (Session.untold_self huntold)
  | @resume n id awaiting o session p hn ho hc hd ha =>
    rw [hd.core] at hb he
    rw [ha]
    have hreply := hok.reply (attended_reachable hr) (guarded_reachable hr) hn ho
    obtain ⟨hb, hnext⟩ := Session.untold_continued hc hsort hreply he hb
    by_cases huntold : b ∈ awaiting.untold
    · exact (hnext huntold).imp_right Session.untold_self
    · refine (h (Session.link_of_outcome ho) hb).imp_right fun h => h.update ?_
      rw [hn]
      rintro _ ⟨⟩
      exact huntold

/-- A breakpoint that an attached session shows has been told, or a call is going to. -/
theorem single_or_untold (hr : Reachable s) (hl : s.session.link.isSome)
    (he : s.session.core.ended = false) (hok : s.session.Accepting b)
    (hb : b ∈ s.session.core.breakpoints) : SingleLine b.file ∨ Untold b s.awaits := by
  induction hr with
  | new => cases hl
  | step hr hs ih =>
    have hbefore := hok.before (carries_turn (step_turn hs))
    have hopen := not_ended_before hs hr he
    exact untold_turn (step_turn hs) hr hbefore (fun hl hb => ih hl hopen hbefore hb) hl he hb

end Debugger
end MobDebug
