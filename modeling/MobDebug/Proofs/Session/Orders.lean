import MobDebug.Proofs.Session.Agreement
import MobDebug.Proofs.Session.Ended

/-! The commands about one breakpoint. Each part of a call spares the breakpoint, or it sets or
clears it with one command. -/
namespace MobDebug
open Channel (Request Outcome)
open Session (Awaiting Breakpoint Progress Began Continued Uses)

/-- The commands about the breakpoint that the session has submitted, in order. -/
def Session.Breakpoint.orders (b : Breakpoint) (s : Session) : List Request :=
  s.commands.filter fun r => (b.edit? r).isSome

namespace Session
variable {s t u : Session} {b c : Breakpoint} {on : Bool} {id : Nat} {w : Option (Nat × Awaiting)}
  {awaiting : Awaiting} {o : Outcome} {p : Progress} {r : Request} {operation : Operation}

theorem orders_drifts (hd : s.Drifts t) : b.orders t = b.orders s := by
  rw [Breakpoint.orders, Breakpoint.orders, commands_drifts hd]

theorem orders_of_link (hl : t.link = s.link) : b.orders t = b.orders s := by
  rw [Breakpoint.orders, Breakpoint.orders, commands, commands, hl]

theorem orders_other (hc : t.commands = s.commands ++ [r]) (he : b.edit? r = none) :
    b.orders t = b.orders s := by
  rw [Breakpoint.orders, hc, List.filter_append, List.filter_singleton, he]
  exact List.append_nil _

theorem orders_edit (hc : t.commands = s.commands ++ [r]) (he : b.edit? r = some on) :
    b.orders t = b.orders s ++ [r] := by
  rw [Breakpoint.orders, hc, List.filter_append, List.filter_singleton, he]
  rfl

/-- Nothing is done to the breakpoint. -/
structure Spares (b : Breakpoint) (s t : Session) : Prop where
  attached : t.link.isSome
  shown : b ∈ t.core.breakpoints ↔ b ∈ s.core.breakpoints
  orders : b.orders t = b.orders s

/-- The breakpoint is set or cleared with one command. -/
structure Edits (b : Breakpoint) (on : Bool) (r : Request) (s t : Session) : Prop where
  attached : t.link.isSome
  before : b ∈ s.core.breakpoints ↔ on = false
  after : b ∈ t.core.breakpoints ↔ on = true
  edit : b.edit? r = some on
  commands : t.commands = s.commands ++ [r]

namespace Spares

theorem of_link (hl : t.link = s.link) (hs : s.link.isSome)
    (hb : b ∈ t.core.breakpoints ↔ b ∈ s.core.breakpoints) : Spares b s t :=
  ⟨hl ▸ hs, hb, orders_of_link hl⟩

theorem of_drifts (hd : s.Drifts t) (hl : s.link.isSome) : Spares b s t := by
  obtain ⟨l, hl⟩ := Option.isSome_iff_exists.1 hl
  obtain ⟨m, hm, -⟩ := hd.link_some hl
  exact ⟨hm ▸ rfl, by rw [hd.core], orders_drifts hd⟩

theorem receive (hl : s.link.isSome) (e : Channel.Event) : Spares b s (s.receive e) :=
  of_link (receive_link s e) hl (by rw [receive_breakpoints])

theorem trans (h : Spares b s t) (h' : Spares b t u) : Spares b s u :=
  ⟨h'.attached, h'.shown.trans h.shown, h'.orders.trans h.orders⟩

theorem drifts (h : Spares b s t) (hd : t.Drifts u) : Spares b s u :=
  h.trans (.of_drifts hd h.attached)

/-- A part of a call that is not about the breakpoint. -/
theorem uses (hl : s.link.isSome) (hu : Uses s t w)
    (hb : b ∈ t.core.breakpoints ↔ b ∈ s.core.breakpoints)
    (hw : ∀ v ∈ w, v.2.edit? b = none) : Spares b s t := by
  obtain ⟨l, hl⟩ := Option.isSome_iff_exists.1 hl
  refine ⟨hu.link_isSome (by rw [hl]; rfl), hb, ?_⟩
  cases hu with
  | unopened hs => cases hs.symm.trans hl
  | moved hl' hm ht =>
    cases hl'.eq hl
    rw [Breakpoint.orders, Breakpoint.orders, commands_eq, commands_eq, journal_of_link hl,
      journal_of_link ht, (Channel.run_accepted hm.run).1]
  | asked hl' hs ht ha =>
    cases hl'.eq hl
    obtain ⟨line, hline, hsub⟩ := Channel.submitted_of_submit hs
    refine orders_other ?_ ((ha line hline b).trans (hw _ rfl))
    rw [commands_eq, commands_eq, journal_of_link hl, journal_of_link ht]
    exact hsub.accepted

end Spares

namespace Edits

theorem orders (h : Edits b on r s t) : b.orders t = b.orders s ++ [r] :=
  orders_edit h.commands h.edit

theorem drifts (h : Edits b on r s t) (hd : t.Drifts u) : Edits b on r s u := by
  have hspares : Spares b t u := .of_drifts hd h.attached
  exact ⟨hspares.attached, h.before, hspares.shown.trans h.after, h.edit,
    (commands_drifts hd).trans h.commands⟩

end Edits

/-- A breakpoint is told by one command, which is not about the others. -/
theorem commands_told (hs : s.submit operation (c.command on) = .ok (id, t)) :
    ∃ r, r.id = id ∧ t.commands = s.commands ++ [r] ∧
      ∀ b : Breakpoint, b.edit? r = if c = b then some on else none := by
  obtain ⟨line, hline, he⟩ := accepted_submit hs
  rw [← commands_eq, ← commands_eq] at he
  exact ⟨_, rfl, he, edit?_command (encode_eq_ok hline)⟩

theorem edits_marked (hsort : s.Sorted) (hc : s.core.breakpoints.contains b = !on)
    (hs : s.submit operation (b.command on) = .ok (id, u)) :
    ∃ r, r.id = id ∧ Edits b on r s (u.marked b on) := by
  obtain ⟨-, hl, hcore⟩ := link_of_submit hs
  obtain ⟨r, hid, he, hedit⟩ := commands_told hs
  refine ⟨r, hid, hl, ?_, ?_, (hedit b).trans (if_pos rfl), he⟩
  · rw [← List.contains_iff_mem, hc]
    cases on <;> simp
  · change b ∈ mark b u.core.breakpoints on ↔ _
    rw [hcore, mem_mark hsort, if_pos rfl]

/-- The first part of a call spares the breakpoint, or it edits it and waits for the reply. -/
theorem began_edits (hb : Began s t p) (hl : s.link.isSome) (hsort : s.Sorted) (b : Breakpoint) :
    Spares b s t ∨ ∃ on r, Edits b on r s t ∧ p.awaiting? = some (r.id, .edit b on) := by
  rcases began_about hb hl hsort b with ⟨hmem, hw⟩ | ⟨on, _, id, u, hc, hs, rfl, hw⟩
  · exact .inl (.uses hl (uses_began hb) hmem hw)
  · obtain ⟨r, rfl, hr⟩ := edits_marked hsort hc hs
    exact .inr ⟨on, r, hr, hw⟩

/-- The next part of a call spares the breakpoint, as long as no edit of it is rejected. -/
theorem continued_spares (hc : Continued s id awaiting o t p) (ha : awaiting.isAttaching = false)
    (hl : s.link.isSome) (hsort : s.Sorted) (hok : (awaiting.edit? b).isSome → o.isOk) :
    Spares b s t ∧ p.awaiting? = none := by
  obtain ⟨l, hlink⟩ := Option.isSome_iff_exists.1 hl
  have huses := uses_continued hlink hc
  obtain ⟨hw, ⟨hmem, -⟩ | ⟨on, code, message, rfl, rfl, -⟩⟩ := continued_about hc ha hsort b
  · rw [hw] at huses
    exact ⟨.uses hl huses hmem nofun, hw⟩
  · cases hok (by rw [Channel.edit?_edit]; rfl)

end Session
end MobDebug
