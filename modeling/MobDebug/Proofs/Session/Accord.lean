import MobDebug.Proofs.Session.Breakpoints
import MobDebug.Proofs.Session.Pairing
import Mathlib.Data.List.Chain

/-! One breakpoint on both sides of a connection. The session records an edit before the debuggee
has replied and takes it back when the debuggee rejects it. The edits that are outstanding
alternate, beginning with what the debuggee has not, and the last of them is what the session has: a
rejection leaves a gap in this row, which the session closes only if nothing has followed the
rejected edit. -/
namespace MobDebug
open Channel (Request Outcome Ledger acceptedIn answersIn Paired)
open Session (Awaiting Breakpoint)

/-- Whether the debuggee has the breakpoint after its replies: it does what it accepts. -/
def Session.Breakpoint.held (b : Breakpoint) (before : Bool) (replies : List (Request × Outcome)) :
    Bool :=
  replies.foldl (fun has p =>
    match p.2, b.edit? p.1 with
    | .ok _, some on => on
    | _, _ => has) before

namespace Channel
variable {b : Breakpoint} {c d : Channel} {a a' : Nat → Option (Nat × Awaiting)} {r : Request}
  {o : Outcome} {n id : Nat} {on has shown : Bool} {awaiting : Awaiting}

/-- What the outstanding commands will do with a breakpoint. -/
def edits (b : Breakpoint) (c : Channel) : List Bool := c.outstanding.filterMap b.edit?

/-- The call has edited the breakpoint, and is about to take this back: the debuggee has rejected
its command. -/
def Undoes (b : Breakpoint) (c : Channel) (a : Nat → Option (Nat × Awaiting)) (n id : Nat)
    (on : Bool) : Prop :=
  a n = some (id, .edit b on) ∧
    ∃ code message, c.outcome? id = some (.error (.debuggee code message))

/-- A call is about to take back an edit that another has followed. -/
def Overtaken (b : Breakpoint) (c : Channel) (a : Nat → Option (Nat × Awaiting)) : Prop :=
  ∃ n id on, Undoes b c a n id on ∧ ∃ r ∈ acceptedIn c.journal, id < r.id ∧ (b.edit? r).isSome

/-- Then a command has been accepted behind one that was answered with an error. -/
theorem overtaken_answer (hl : Ledger c) (h : Overtaken b c a) :
    ∃ p ∈ answersIn c.journal, p.2.isOk = false ∧ ∃ r ∈ acceptedIn c.journal, p.1 < r.id := by
  obtain ⟨n, id, on, ⟨-, code, message, ho⟩, r, hr, hlt, -⟩ := h
  exact ⟨_, hl.outcome?_eq_some.1 ho, rfl, r, hr, hlt⟩

/-- The debuggee has the breakpoint or not, and the session shows it or not: they differ by the
edits that are outstanding, or by one that is rejected and not yet taken back. -/
inductive Accord (b : Breakpoint) (has shown : Bool) (c : Channel)
    (a : Nat → Option (Nat × Awaiting)) : Prop where
  | told (hu : ∀ n id on, ¬ Undoes b c a n id on) (hc : (has :: edits b c).IsChain (· ≠ ·))
      (hs : (has :: edits b c).getLast? = some shown) : Accord b has shown c a
  | rejected {n id : Nat} {on : Bool} (hu : Undoes b c a n id on)
      (honce : ∀ m id' on', Undoes b c a m id' on' → m = n) (he : edits b c = [])
      (hh : has = !on) (hs : shown = on) : Accord b has shown c a

/-- Nothing happens that has to do with the breakpoint. -/
theorem Accord.congr (h : Accord b has shown c a) (he : edits b d = edits b c)
    (hu : ∀ n id on, Undoes b d a' n id on ↔ Undoes b c a n id on) : Accord b has shown d a' := by
  cases h with
  | told hn hc hs =>
    refine .told ?_ (by rwa [he]) (by rwa [he])
    intro n id on hu'
    exact hn n id on ((hu n id on).1 hu')
  | @rejected n id on hn honce hnil hh hs =>
    refine .rejected ((hu n id on).2 hn) ?_ (by rwa [he]) hh hs
    intro m id' on' hu'
    exact honce m id' on' ((hu m id' on').1 hu')

theorem undoes_of_outcomes (h : ∀ id, d.outcome? id = c.outcome? id) (n id : Nat) (on : Bool) :
    Undoes b d a n id on ↔ Undoes b c a n id on := by
  rw [Undoes, Undoes, h]

theorem outcome?_of_answers (h : answersIn d.journal = answersIn c.journal) (id : Nat) :
    d.outcome? id = c.outcome? id := by
  rw [outcome?_eq_lookup, outcome?_eq_lookup, h]

/-- A job that does not wait for an edit of the breakpoint takes nothing back. -/
theorem undoes_update (w : Option (Nat × Awaiting)) (hw : ∀ id on, w ≠ some (id, .edit b on))
    (hn : ∀ id on, ¬ Undoes b c a n id on) (m id : Nat) (on : Bool) :
    Undoes b c (Function.update a n w) m id on ↔ Undoes b c a m id on := by
  by_cases he : m = n
  · subst he
    refine iff_of_false ?_ (hn id on)
    rintro ⟨h, -⟩
    rw [Function.update_self] at h
    exact hw id on h
  · rw [Undoes, Undoes, Function.update_of_ne he]

/-- The call that waits for a command has asked for it. -/
theorem Paired.asks (h : Paired c a) (hl : Ledger c) (hr : r ∈ acceptedIn c.journal)
    (hn : a n = some (r.id, awaiting)) : awaiting.Asks r := by
  obtain ⟨q, hq, hid, hasks⟩ := h.known n _ hn
  have hfind := find?_id hl.increasing hq
  rw [hid, find?_id hl.increasing hr] at hfind
  rw [Option.some.inj hfind]
  exact hasks

theorem edit?_edit (b : Breakpoint) (on : Bool) : (Awaiting.edit b on).edit? b = some on := by
  cases on <;> exact if_pos rfl

theorem edit_of_edit? (h : awaiting.edit? b = some on) (hatt : awaiting.isAttaching = false) :
    awaiting = .edit b on := by
  cases awaiting with
  | setBreakpoint c | clearBreakpoint c =>
    rw [Awaiting.edit?] at h
    split at h
    · next hc =>
      cases h
      rw [hc]
      rfl
    · cases h
  | attach => cases hatt
  | _ => cases h

namespace Replied

theorem mem (h : Replied c d r o) : r ∈ c.outstanding := h.outstanding ▸ List.mem_cons_self

theorem edits_eq (h : Replied c d r o) (b : Breakpoint) :
    edits b c = (b.edit? r).toList ++ edits b d := by
  rw [edits, edits, h.outstanding, List.filterMap_cons]
  cases b.edit? r <;> rfl

theorem undoes_iff (h : Replied c d r o) (hl : Ledger c) (hl' : Ledger d) :
    Undoes b d a n id on ↔ Undoes b c a n id on ∨
      (id = r.id ∧ a n = some (r.id, .edit b on) ∧
        ∃ code message, o = .error (.debuggee code message)) := by
  have houtcome (o' : Outcome) :
      d.outcome? id = some o' ↔ c.outcome? id = some o' ∨ (id = r.id ∧ o' = o) := by
    rw [hl'.outcome?_eq_some, hl.outcome?_eq_some, h.answers, List.mem_append, List.mem_singleton,
      Prod.mk.injEq]
  constructor
  · rintro ⟨hn, code, message, hd⟩
    rcases (houtcome _).1 hd with hc | ⟨rfl, he⟩
    · exact .inl ⟨hn, code, message, hc⟩
    · exact .inr ⟨rfl, hn, code, message, he.symm⟩
  · rintro (⟨hn, code, message, hc⟩ | ⟨rfl, hn, code, message, he⟩)
    · exact ⟨hn, code, message, (houtcome _).2 (.inl hc)⟩
    · exact ⟨hn, code, message, (houtcome _).2 (.inr ⟨rfl, he.symm⟩)⟩

/-- An edit behind a rejected one would have overtaken it. -/
theorem edits_eq_nil (h : Replied c d r o) (hl : Ledger c) (hu : Undoes b d a n r.id on)
    (hcareful : ¬ Overtaken b d a) : edits b d = [] := by
  by_contra hne
  obtain ⟨off, hoff⟩ := List.exists_mem_of_ne_nil _ hne
  obtain ⟨q, hq, he⟩ := List.mem_filterMap.1 hoff
  have hlater := hl.outstanding_increasing
  rw [h.outstanding] at hlater
  have haccepted := hl.accepted_of_outstanding (h.outstanding ▸ List.mem_cons_of_mem r hq)
  rw [← h.accepted] at haccepted
  have hlt := (List.pairwise_cons.1 hlater).1 q hq
  exact hcareful ⟨n, r.id, on, hu, q, haccepted, hlt, Option.isSome_of_eq_some he⟩

/-- A reply to a command about something else. -/
theorem accord_other (h : Replied c d r o) (hp : Paired c a) (hl : Ledger c) (hl' : Ledger d)
    (he : b.edit? r = none) (ha : Accord b has shown c a) : Accord b has shown d a := by
  refine ha.congr (by rw [h.edits_eq, he]; rfl) fun n id on => ?_
  rw [h.undoes_iff hl hl']
  refine or_iff_left ?_
  rintro ⟨-, hn, -⟩
  have hasks := hp.asks hl (hl.accepted_of_outstanding h.mem) hn b
  rw [he, edit?_edit] at hasks
  cases hasks

/-- The debuggee accepts an edit. -/
theorem accord_accepted {body : String} (h : Replied c d r (.ok body)) (hl : Ledger c)
    (hl' : Ledger d) (he : b.edit? r = some on) (ha : Accord b has shown c a) :
    Accord b on shown d a := by
  have hedits : edits b c = on :: edits b d := by
    rw [h.edits_eq, he]
    rfl
  cases ha with
  | rejected _ _ hnil =>
    rw [hnil] at hedits
    cases hedits
  | told hn hc hs =>
    rw [hedits, List.isChain_cons_cons] at hc
    rw [hedits, List.getLast?_cons_cons] at hs
    refine .told (fun n id on' hu => ?_) hc.2 hs
    rcases (h.undoes_iff hl hl').1 hu with hu | ⟨-, -, code, message, he⟩
    · exact hn n id on' hu
    · cases he

/-- The debuggee rejects an edit. -/
theorem accord_rejected {code : Nat} {message : String}
    (h : Replied c d r (.error (.debuggee code message))) (hp : Paired c a) (hl : Ledger c)
    (hl' : Ledger d) (hatt : ∀ n, ∀ w ∈ a n, w.2.isAttaching = false)
    (he : b.edit? r = some on) (hcareful : ¬ Overtaken b d a) (ha : Accord b has shown c a) :
    Accord b has shown d a := by
  have hedits : edits b c = on :: edits b d := by
    rw [h.edits_eq, he]
    rfl
  obtain ⟨n, w, hw⟩ := hp.awaited r h.mem
  have hasks := hp.asks hl (hl.accepted_of_outstanding h.mem) hw b
  rw [he] at hasks
  obtain rfl := edit_of_edit? hasks.symm (hatt n _ hw)
  have hu : Undoes b d a n r.id on :=
    (h.undoes_iff hl hl').2 (.inr ⟨rfl, hw, code, message, rfl⟩)
  have hnil := h.edits_eq_nil hl hu hcareful
  -- it was the only edit under way, so the debuggee has not what the session shows
  cases ha with
  | rejected _ _ hnil =>
    rw [hnil] at hedits
    cases hedits
  | told hn hc hs =>
    rw [hedits, hnil, List.isChain_cons_cons] at hc
    rw [hedits, hnil] at hs
    refine .rejected hu ?_ hnil (Bool.eq_not_of_ne hc.1) (Option.some.inj hs).symm
    intro m id' on' hu'
    rcases (h.undoes_iff hl hl').1 hu' with hu' | ⟨-, hm, -⟩
    · exact absurd hu' (hn m id' on')
    · exact hp.once m n _ hm _ hw rfl

/-- The debuggee replies to the first command that is outstanding. -/
theorem accord (h : Replied c d r o) (hp : Paired c a) (hl : Ledger c) (hl' : Ledger d)
    (hatt : ∀ n, ∀ w ∈ a n, w.2.isAttaching = false) (hcareful : ¬ Overtaken b d a)
    (ha : Accord b has shown c a) : Accord b (b.held has [(r, o)]) shown d a := by
  cases he : b.edit? r with
  | none =>
    have hheld : b.held has [(r, o)] = has := by cases o <;> simp [Session.Breakpoint.held, he]
    rw [hheld]
    exact h.accord_other hp hl hl' he ha
  | some on =>
    cases o with
    | ok body =>
      have hheld : b.held has [(r, .ok body)] = on := by simp [Session.Breakpoint.held, he]
      rw [hheld]
      exact h.accord_accepted hl hl' he ha
    | error e =>
      have hheld : b.held has [(r, .error e)] = has := rfl
      have hkind := h.said e rfl
      rw [hheld]
      cases e with
      | debuggee code message => exact h.accord_rejected hp hl hl' hatt he hcareful ha
      | _ => cases hkind

end Replied

namespace Submitted

theorem edits_eq (h : Submitted c d r) (b : Breakpoint) :
    edits b d = edits b c ++ (b.edit? r).toList := by
  rw [edits, edits, h.outstanding, List.filterMap_append, List.filterMap_cons]
  cases b.edit? r <;> rfl

/-- A call about something else submits its command. -/
theorem accord_other (h : Submitted c d r) (he : b.edit? r = none)
    (hw : ∀ on, awaiting ≠ .edit b on) (hn : ∀ id on, ¬ Undoes b c a n id on)
    (ha : Accord b has shown c a) :
    Accord b has shown d (Function.update a n (some (id, awaiting))) := by
  refine ha.congr ?_ fun m id on => ?_
  · rw [h.edits_eq, he]
    exact List.append_nil _
  · rw [undoes_of_outcomes (outcome?_of_answers h.answers)]
    refine undoes_update _ (fun id' on' he => ?_) hn m id on
    cases he
    exact hw on' rfl

/-- The session edits the breakpoint. -/
theorem accord_edit (h : Submitted c d r) (hp : Paired c a) (hl : Ledger c)
    (he : b.edit? r = some on) (hn : a n = none)
    (hcareful : ¬ Overtaken b d (Function.update a n (some (r.id, .edit b on))))
    (ha : Accord b has (!on) c a) :
    Accord b has on d (Function.update a n (some (r.id, .edit b on))) := by
  -- the new edit has no reply, so nothing is to be taken back but what was before
  have hold {m id' : Nat} {on' : Bool} (hne : m ≠ n) :
      Undoes b d (Function.update a n (some (r.id, .edit b on))) m id' on' ↔
        Undoes b c a m id' on' := by
    rw [undoes_of_outcomes (outcome?_of_answers h.answers), Undoes, Undoes,
      Function.update_of_ne hne]
  cases ha with
  | told hu hc hs =>
    refine .told ?_ ?_ ?_
    · intro m id' on' hu'
      by_cases hm : m = n
      · subst hm
        obtain ⟨hw, code, message, ho⟩ := hu'
        rw [Function.update_self] at hw
        obtain ⟨rfl, -⟩ := Prod.mk.inj (Option.some.inj hw)
        rw [outcome?_of_answers h.answers, h.id, hl.outcome?_next] at ho
        cases ho
      · exact hu m id' on' ((hold hm).1 hu')
    · rw [h.edits_eq, he, ← List.cons_append, List.isChain_append]
      refine ⟨hc, List.isChain_singleton _, ?_⟩
      rw [hs]
      rintro _ ⟨⟩ _ ⟨⟩
      exact Bool.not_ne_self on
    · rw [h.edits_eq, he, ← List.cons_append]
      exact List.getLast?_concat
  | @rejected m id' on' hu =>
    have hne : m ≠ n := by
      rintro rfl
      cases hn.symm.trans hu.1
    obtain ⟨q, hq, hid, -⟩ := hp.known m _ hu.1
    have hlt := hl.fresh q hq
    rw [hid, ← h.id] at hlt
    -- a rejection that is not taken back yet is overtaken by the new edit
    refine absurd ⟨m, id', on', (hold hne).2 hu, r, ?_, hlt, by rw [he]; rfl⟩ hcareful
    rw [h.accepted]
    exact List.mem_concat_self

end Submitted

/-- The session takes an edit back. -/
theorem accord_undo (hu : Undoes b c a n id on) (ha : Accord b has shown c a) :
    Accord b has (!on) c (Function.update a n none) := by
  cases ha with
  | told hn => exact absurd hu (hn n id on)
  | @rejected m id' on' hu' honce hnil hh =>
    obtain rfl := honce n id on hu
    obtain ⟨rfl, hon⟩ := Prod.mk.inj (Option.some.inj (hu.1.symm.trans hu'.1))
    obtain ⟨-, rfl⟩ := Awaiting.edit_inj hon
    refine .told (fun k id' on' hk => ?_) ?_ ?_
    · have hne : k ≠ n := by
        rintro rfl
        have := hk.1
        rw [Function.update_self] at this
        cases this
      rw [Undoes, Function.update_of_ne hne] at hk
      exact hne (honce k id' on' hk)
    · rw [hnil]
      exact List.isChain_singleton _
    · rw [hnil, hh]
      rfl

end Channel
end MobDebug
