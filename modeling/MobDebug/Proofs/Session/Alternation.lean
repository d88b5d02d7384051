import MobDebug.Proofs.Session.Alone
import MobDebug.Proofs.Session.Handshake

/-! The commands about one breakpoint set and clear it in turn. A call looks whether the session
shows it, submits the command and records the edit, all in one part, so this is so however many
calls are made at once. A call that attaches tells what was recorded before: with no other call,
each breakpoint once. -/
namespace MobDebug
open Channel (Request Outcome)
open Session (Awaiting Breakpoint Call Progress Greeted Began Continued Settled)

/-- The commands set the breakpoint and clear it in turn. Each changes what was there before. -/
structure Session.Breakpoint.Alternates (b : Breakpoint) (before after : Bool)
    (rs : List Request) : Prop where
  chain : (before :: rs.filterMap b.edit?).IsChain (· ≠ ·)
  last : (before :: rs.filterMap b.edit?).getLast? = some after

namespace Session
variable {s t : Session} {b : Breakpoint} {on before after : Bool} {id : Nat}
  {rest : List Breakpoint} {current : Option Breakpoint} {o : Outcome} {p : Progress}
  {rs past : List Request} {r : Request}

namespace Breakpoint.Alternates

theorem nil (b : Breakpoint) (has : Bool) : b.Alternates has has [] :=
  ⟨List.isChain_singleton _, rfl⟩

theorem concat (h : b.Alternates before (!on) rs) (he : b.edit? r = some on) :
    b.Alternates before on (rs ++ [r]) := by
  have hrow : before :: (rs ++ [r]).filterMap b.edit? =
      (before :: rs.filterMap b.edit?) ++ [on] := by
    rw [List.filterMap_append, List.filterMap_cons_some he]
    rfl
  constructor
  · rw [hrow, List.isChain_append]
    refine ⟨h.chain, List.isChain_singleton _, ?_⟩
    rw [h.last]
    rintro _ ⟨⟩ _ ⟨⟩
    exact Bool.not_ne_self on
  · rw [hrow]
    exact List.getLast?_concat

end Breakpoint.Alternates

/-- What was submitted after `past` sets and clears the breakpoint in turn, and the session shows it
as the last of these commands has left it. -/
structure Alternating (b : Breakpoint) (before : Bool) (past : List Request) (s : Session) :
    Prop where
  attached : s.link.isSome
  orders : ∃ later, b.orders s = past ++ later ∧
    b.Alternates before (decide (b ∈ s.core.breakpoints)) later

namespace Alternating

theorem start (hl : s.link.isSome) :
    s.Alternating b (decide (b ∈ s.core.breakpoints)) (b.orders s) :=
  ⟨hl, [], (List.append_nil _).symm, .nil _ _⟩

theorem spares (h : s.Alternating b before past) (hs : Spares b s t) :
    t.Alternating b before past := by
  obtain ⟨later, he, halt⟩ := h.orders
  refine ⟨hs.attached, later, hs.orders.trans he, ?_⟩
  simpa only [hs.shown] using halt

theorem edits (h : s.Alternating b before past) (hs : Edits b on r s t) :
    t.Alternating b before past := by
  obtain ⟨later, he, halt⟩ := h.orders
  have hbefore : decide (b ∈ s.core.breakpoints) = !on := by simp [hs.before]
  have hafter : decide (b ∈ t.core.breakpoints) = on := by simp [hs.after]
  rw [hbefore] at halt
  refine ⟨hs.attached, later ++ [r], ?_, ?_⟩
  · rw [hs.orders, he, List.append_assoc]
  · rw [hafter]
    exact halt.concat hs.edit

end Alternating

/-! ### The greeting -/

/-- What is to be told of the breakpoint, where these are still to be told: if it is among them,
it was recorded before and no command has been about it. -/
structure Due (b : Breakpoint) (rest : List Breakpoint) (s : Session) : Prop where
  attached : s.link.isSome
  distinct : rest.Nodup
  untold : b ∈ rest → b ∈ s.core.breakpoints ∧ b.orders s = []
  told : b ∉ rest → s.Alternating b false []

theorem Due.spares (h : s.Due b rest) (hs : Spares b s t) : t.Due b rest where
  attached := hs.attached
  distinct := h.distinct
  untold hb := ⟨hs.shown.2 (h.untold hb).1, hs.orders.trans (h.untold hb).2⟩
  told hb := (h.told hb).spares hs

/-- How far a call is that tells breakpoints, with no other. -/
inductive Introduces (b : Breakpoint) (s : Session) : Progress → Prop where
  | telling {id : Nat} {current : Option Breakpoint} {rest : List Breakpoint} (h : s.Due b rest) :
      Introduces b s (.waiting id (.attach current rest))
  | done (h : s.Alternating b false []) : Introduces b s (.finished (.ok .unit))
  | broken (e : Error) : Introduces b s (.finished (.error e))

theorem Introduces.spares (h : s.Introduces b p) (hs : s.link.isSome → Spares b s t) :
    t.Introduces b p := by
  cases h with
  | telling h => exact .telling (h.spares (hs h.attached))
  | done h => exact .done (h.spares (hs h.attached))
  | broken e => exact .broken e

theorem introduces_greeted (hg : Greeted s rest t p) (h : s.Due b rest) : t.Introduces b p := by
  cases hg with
  | done => exact .done (h.told List.not_mem_nil)
  | broken e => exact .broken e
  | @told c rest id _ hs =>
    obtain ⟨-, hl, hcore⟩ := link_of_submit hs
    obtain ⟨hc, hdistinct⟩ := List.nodup_cons.1 h.distinct
    obtain ⟨r, -, he, hedit⟩ := commands_told hs
    by_cases hcb : c = b
    · subst hcb
      have hedit := (hedit c).trans (if_pos rfl)
      obtain ⟨hshown, hnone⟩ := h.untold List.mem_cons_self
      refine .telling ⟨hl, hdistinct, fun hb => absurd hb hc, fun _ => ⟨hl, [r], ?_, ?_⟩⟩
      · rw [orders_edit he hedit, hnone]
      · rw [hcore, decide_eq_true hshown]
        exact (Breakpoint.Alternates.nil c false).concat hedit
    · have hother := (hedit b).trans (if_neg hcb)
      have hspares : Spares b s t := ⟨hl, by rw [hcore], orders_other he hother⟩
      refine .telling ⟨hl, hdistinct, fun hb => ?_, fun hb => ?_⟩
      · exact (h.spares hspares).untold (List.mem_cons_of_mem c hb)
      · exact (h.spares hspares).told (List.not_mem_cons_of_ne_of_not_mem (Ne.symm hcb) hb)

/-- The session as it is taken is still to tell all of its breakpoints. -/
theorem due_installed (hsort : s.Sorted) (stream : Stream) :
    (s.installed stream).Due b s.core.breakpoints where
  attached := rfl
  distinct := hsort.nodup
  untold hb := ⟨hb, rfl⟩
  told hb := by
    refine ⟨rfl, [], rfl, ?_⟩
    have hshown : decide (b ∈ (s.installed stream).core.breakpoints) = false := decide_eq_false hb
    rw [hshown]
    exact .nil b false

theorem introduces_attach (hsort : s.Sorted) (stream : Stream) (b : Breakpoint) :
    (s.attach stream).1.Introduces b (s.attach stream).2 := by
  have hdue : (s.installed stream).Due b s.core.breakpoints := due_installed hsort stream
  unfold attach
  dsimp only
  split
  · exact .broken _
  split
  · exact introduces_greeted (greet_greeted _ _) hdue
  · split
    · next id t hs =>
      have hrest : t.core.breakpoints = s.core.breakpoints := by rw [(link_of_submit hs).2.2]; rfl
      rw [hrest]
      exact .telling (hdue.spares (spares_directory hs))
    · exact .broken _

theorem introduces_start {call : Call} (hc : call.attaches) (hsort : s.Sorted) (b : Breakpoint) :
    (s.start call).1.Introduces b (s.start call).2 := by
  cases call with
  | attach stream => exact introduces_attach hsort stream b
  | connect connection =>
    change (s.connect connection).1.Introduces b (s.connect connection).2
    unfold connect
    split
    · exact .broken _
    · split
      · exact .broken _
      · exact introduces_attach hsort _ b
  | _ => cases hc

/-- The call has a reply, and goes on to the next breakpoint. -/
theorem introduces_continued (hc : Continued s id (.attach current rest) o t p)
    (h : s.Due b rest) (hsort : s.Sorted)
    (hok : ((Awaiting.attach current rest).edit? b).isSome → o.isOk) : t.Introduces b p := by
  rcases continued_attach hc with ⟨body, rfl, hg⟩ | ⟨code, message, rfl, hg⟩ | ⟨e, -, -, rfl⟩
  · exact introduces_greeted hg h
  · have hspares := spares_dropping h.attached hsort (current_ne hok) message
    exact introduces_greeted hg (h.spares hspares)
  · exact .broken e

end Session

namespace Debugger
open Session (Alternating Edits Spares)
variable {s u : Debugger} {b : Breakpoint} {before : Bool} {past : List Request} {n : Nat}
  {call : Call} {keeps : Bool}

/-- Where no call tells breakpoints, a step spares the breakpoint, or a call begins with an edit of
it. -/
theorem turn_edits (ht : Turn s u) (hr : Reachable s) (hset : Settled s.awaits)
    (hl : s.session.link.isSome) (hok : s.session.Accepting b) : Settled u.awaits ∧
      (Spares b s.session u.session ∨ ∃ n on r, Edits b on r s.session u.session ∧
        s.awaits n = none ∧ u.awaits n = some (r.id, .edit b on)) := by
  have hsort := sorted_reachable hr
  cases ht with
  | drift ha hd => exact ⟨ha ▸ hset, .inl (.of_drifts hd hl)⟩
  | receive ha _ _ hu =>
    rw [hu]
    exact ⟨ha ▸ hset, .inl (.receive hl _)⟩
  | begin n hn hb hd ha =>
    rw [ha]
    refine ⟨hset.update (Session.settled_began hb hl) n, ?_⟩
    rcases Session.began_edits hb hl hsort b with hspares | ⟨on, r, hedits, hw⟩
    · exact .inl (hspares.drifts hd)
    · exact .inr ⟨n, on, r, hedits.drifts hd, hn, by rw [Function.update_self, hw]⟩
  | resume n hn ho hc hd ha =>
    have hreply := hok.reply (attended_reachable hr) (guarded_reachable hr) hn ho
    obtain ⟨hspares, hw⟩ := Session.continued_spares hc (hset n _ hn) hl hsort hreply
    rw [ha, hw]
    exact ⟨hset.update (w := none) nofun n, .inl (hspares.drifts hd)⟩

theorem alternating_turn (ht : Turn s u) (hr : Reachable s) (hset : Settled s.awaits)
    (hok : s.session.Accepting b) (h : s.session.Alternating b before past) :
    Settled u.awaits ∧ u.session.Alternating b before past := by
  obtain ⟨hset', hspares | ⟨n, on, r, hedits, -⟩⟩ := turn_edits ht hr hset h.attached hok
  · exact ⟨hset', h.spares hspares⟩
  · exact ⟨hset', h.edits hedits⟩

theorem alternating_future (hr : Reachable s) (hset : Settled s.awaits)
    (h : s.session.Alternating b before past) (hf : Future s u) (hok : u.session.Accepting b) :
    Settled u.awaits ∧ u.session.Alternating b before past := by
  induction hf with
  | refl => exact ⟨hset, h⟩
  | tail hf hs ih =>
    have ht := step_turn hs
    have hbefore := hok.before (carries_turn ht)
    obtain ⟨hset', halt⟩ := ih hbefore
    exact alternating_turn ht (hr.future hf) hset' hbefore halt

theorem Passes.spares (h : Passes s u) (hl : s.session.link.isSome) :
    Spares b s.session u.session := by
  cases h with
  | drift hd => exact .of_drifts hd hl
  | brings _ hu =>
    rw [hu]
    exact .receive hl _

/-- How far the call is that attaches, with no other. -/
inductive Introduction (b : Breakpoint) (n : Nat) (s : Debugger) : Prop where
  | called {call : Call} {keeps : Bool} (hj : s.jobs.lookup n = some (.call call keeps))
      (hc : call.attaches) : Introduction b n s
  | begun {p : Progress} {keeps : Bool} (hj : s.jobs.lookup n = some (callJob keeps p))
      (h : s.session.Introduces b p) : Introduction b n s

theorem introduction_step (hs : Alone n s u) (hr : Reachable s) (hok : s.session.Accepting b)
    (h : Introduction b n s) : Introduction b n u := by
  have hsort := sorted_reachable hr
  cases h with
  | called hj hc =>
    rcases hs.cases hj (by simp) with hstep | ⟨hkept, -⟩
    · obtain ⟨hd, hu⟩ := step_call hj hstep
      exact .begun hu ((Session.introduces_start hc hsort b).spares (.of_drifts hd))
    · exact .called hkept hc
  | @begun p keeps hj h =>
    rcases hs.cases hj (by cases p <;> simp [callJob]) with hstep | ⟨hkept, hpasses⟩
    · cases h with
      | @telling id current rest hdue =>
        obtain ⟨o, ho, hd, hu⟩ := step_waiting hj hstep
        have hn : s.awaits n = some (id, .attach current rest) := by
          rw [awaits, hj]
          rfl
        have hreply := hok.reply (attended_reachable hr) (guarded_reachable hr) hn ho
        have hcont := Session.continueWith_continued s.session id (.attach current rest) o
        have hnext := Session.introduces_continued hcont hdue hsort hreply
        exact .begun hu (hnext.spares (.of_drifts hd))
      | done | broken =>
        obtain ⟨session, job', text, hnone, -⟩ := jobStep_own hj hstep
        cases hnone
    · exact .begun hkept (h.spares hpasses.spares)

theorem introduction_future (hr : Reachable s) (h : Introduction b n s) (hf : Sole n s u)
    (hok : u.session.Accepting b) : Introduction b n u := by
  induction hf with
  | refl => exact h
  | tail hf hs ih =>
    have hbefore := hok.before (carries_turn (step_turn hs.1))
    exact introduction_step hs (hr.future (Sole.future hf)) hbefore (ih hbefore)

/-- A call that attaches with no other tells the breakpoint if it was recorded, and once. -/
theorem alternating_attached (hr : Reachable s) (hj : s.jobs.lookup n = some (.call call keeps))
    (hc : call.attaches) (hf : Sole n s u)
    (hend : u.jobs.lookup n = some (.ended (.answer (.ok .unit))))
    (hok : u.session.Accepting b) : u.session.Alternating b false [] := by
  cases introduction_future hr (.called hj hc) hf hok with
  | called hj' => cases hend.symm.trans hj'
  | begun hj' h =>
    have hjob := Option.some.inj (hend.symm.trans hj')
    cases h with
    | telling => cases hjob
    | done h => exact h
    | broken => cases hjob

end Debugger
end MobDebug
