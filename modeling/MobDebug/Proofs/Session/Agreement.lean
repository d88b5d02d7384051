import MobDebug.Proofs.Session.Accord

/-! A session and its debuggee stay in accord on a breakpoint through the parts of the calls, as
long as none takes an edit back that another has followed. -/
namespace MobDebug
open Channel (Request Outcome Accord Undoes repliesIn)
open Session (Awaiting Breakpoint Progress Began Continued Guarded Uses)

namespace Session
variable {b : Breakpoint} {before shown : Bool} {skip : Nat} {s t : Session} {l m : Link}
  {a : Nat → Option (Nat × Awaiting)} {n id : Nat} {w : Option (Nat × Awaiting)}
  {awaiting : Awaiting} {o : Outcome} {p : Progress}

theorem Breakpoint.held_append (b : Breakpoint) (before : Bool) (xs ys : List (Request × Outcome)) :
    b.held before (xs ++ ys) = b.held (b.held before xs) ys :=
  List.foldl_append

/-- None of the calls is telling breakpoints. -/
def Settled (a : Nat → Option (Nat × Awaiting)) : Prop :=
  ∀ n, ∀ w ∈ a n, w.2.isAttaching = false

theorem Settled.update (h : Settled a) (hw : ∀ v ∈ w, v.2.isAttaching = false) (n : Nat) :
    Settled (Function.update a n w) := by
  intro m v hv
  rw [Function.update_apply] at hv
  split at hv
  · exact hw v hv
  · exact h m v hv

/-- A call is about to take back an edit of the breakpoint that another has followed. -/
def Overtaken (b : Breakpoint) (s : Session) (a : Nat → Option (Nat × Awaiting)) : Prop :=
  ∃ l, s.link = some l ∧ Channel.Overtaken b l.channel a

theorem overtaken_moves (hm : l.Moves m) (hl : l.channel.Ledger)
    (h : Channel.Overtaken b l.channel a) : Channel.Overtaken b m.channel a := by
  obtain ⟨n, id, on, ⟨hn, code, message, ho⟩, r, hr, hlater⟩ := h
  have hl' := Channel.ledger_run hm.run hl
  refine ⟨n, id, on, ⟨hn, code, message, ?_⟩, r, ?_, hlater⟩
  · rw [hl'.outcome?_eq_some]
    exact Channel.answersIn_mono (Channel.run_journal hm.run) (hl.outcome?_eq_some.1 ho)
  · rw [(Channel.run_accepted hm.run).1]
    exact hr

theorem Overtaken.drifts (h : s.Overtaken b a) (hd : s.Drifts t)
    (hledger : ∀ l, s.link = some l → l.channel.Ledger) : t.Overtaken b a := by
  obtain ⟨l, hl, hover⟩ := h
  obtain ⟨m, hm, hmoves⟩ := hd.link_some hl
  exact ⟨m, hm, overtaken_moves hmoves (hledger l hl) hover⟩

/-- What the debuggee has of a breakpoint, which it had `before` it gave the replies behind the
first `skip`, is in accord with what the session shows. -/
def LinkAgrees (b : Breakpoint) (before : Bool) (skip : Nat) (l : Link) (shown : Bool)
    (a : Nat → Option (Nat × Awaiting)) : Prop :=
  l.channel.closed = false → skip ≤ (repliesIn l.channel.journal).length ∧
    Accord b (b.held before ((repliesIn l.channel.journal).drop skip)) shown l.channel a

/-- The connection goes on without the session. -/
theorem LinkAgrees.moves (h : LinkAgrees b before skip l shown a) (hm : l.Moves m)
    (hp : l.channel.Paired a) (hl : l.channel.Ledger) (ha : Settled a)
    (hcareful : ¬ Channel.Overtaken b m.channel a) : LinkAgrees b before skip m shown a := by
  intro hopen
  have hopen' : l.channel.closed = false := by
    by_contra hne
    have := Channel.closed_run hm.run (Bool.not_eq_false _ ▸ hne)
    rw [hopen] at this
    cases this
  obtain ⟨hskip, haccord⟩ := h hopen'
  -- while the connection stays open, one reply comes at most
  rcases hm.heard.cases hm.run hl hopen with ⟨hanswers, hout, hreplies⟩ | ⟨r, o, hr⟩
  · rw [hreplies]
    refine ⟨hskip, haccord.congr ?_ ?_⟩
    · rw [Channel.edits, Channel.edits, hout]
    · exact Channel.undoes_of_outcomes (Channel.outcome?_of_answers hanswers)
  · have hl' := Channel.ledger_run hm.run hl
    rw [hr.replies, List.drop_append_of_le_length hskip, Breakpoint.held_append]
    refine ⟨?_, hr.accord hp hl hl' ha hcareful haccord⟩
    rw [List.length_append]
    exact Nat.le_add_right_of_le hskip

/-- The session and the debuggee are in accord on a breakpoint. -/
def Agrees (b : Breakpoint) (before : Bool) (skip : Nat) (s : Session)
    (a : Nat → Option (Nat × Awaiting)) : Prop :=
  ∀ l, s.link = some l → LinkAgrees b before skip l (decide (b ∈ s.core.breakpoints)) a

theorem Agrees.drifts (h : Agrees b before skip s a) (hd : s.Drifts t) (hatt : s.Attended a)
    (hledger : ∀ l, s.link = some l → l.channel.Ledger) (ha : Settled a)
    (hcareful : ¬ t.Overtaken b a) : Agrees b before skip t a := by
  intro m hm
  have hr := hd.link
  rw [hm] at hr
  generalize hl : s.link = k at hr
  cases hr with
  | some hmoves =>
    rw [hd.core]
    exact (h _ hl).moves hmoves (hatt _ (.inl hl)) (hledger _ hl) ha
      fun hover => hcareful ⟨m, hm, hover⟩

/-- A part of a call that is not about the breakpoint. -/
theorem Agrees.uses (h : Agrees b before skip s a) (hatt : s.Attended a) (hg : Guarded s)
    (ha : Settled a) (hl : s.link = some l) (hu : Uses s t w)
    (hmem : b ∈ t.core.breakpoints ↔ b ∈ s.core.breakpoints)
    (hw : ∀ v ∈ w, v.2.edit? b = none) (hn : s.Free a n)
    (hundo : ∀ id on, ¬ Undoes b l.channel a n id on)
    (hcareful : ¬ t.Overtaken b (Function.update a n w)) :
    Agrees b before skip t (Function.update a n w) := by
  have hshown : decide (b ∈ t.core.breakpoints) = decide (b ∈ s.core.breakpoints) := by
    simp only [hmem]
  have hp := hatt l (.inl hl)
  have hledger := (hg l hl).ledger
  intro k hk
  rw [hshown]
  cases hu with
  | unopened _ ht => cases hk.symm.trans ht
  | @moved l' _ hl' hm ht =>
    obtain rfl := hl'.eq hl
    cases hk.symm.trans ht
    have hdone : LinkAgrees b before skip l' (decide (b ∈ s.core.breakpoints))
        (Function.update a n none) := by
      intro hopen
      obtain ⟨hskip, haccord⟩ := h _ hl hopen
      exact ⟨hskip, haccord.congr rfl (Channel.undoes_update none nofun hundo)⟩
    refine hdone.moves hm (Channel.paired_done hp hledger ?_) hledger
      (ha.update (w := none) nofun n) fun hover => hcareful ⟨_, ht, hover⟩
    intro v hv
    rw [← outcome?_of_link hl]
    exact hn v hv
  | @asked l' c command id awaiting hl' hs ht hasks =>
    obtain rfl := hl'.eq hl
    cases hk.symm.trans ht
    intro hopen
    obtain ⟨line, hline, hsub⟩ := Channel.submitted_of_submit hs
    obtain ⟨hskip, haccord⟩ := h _ hl (hsub.closed.symm.trans hopen)
    have hedit := hw _ rfl
    -- a new command has no reply, so it adds none
    rw [hsub.replies hledger]
    refine ⟨hskip, hsub.accord_other ?_ ?_ hundo haccord⟩
    · rw [hasks line hline b, hedit]
    · rintro on rfl
      rw [Channel.edit?_edit] at hedit
      cases hedit

/-- A call edits the breakpoint. -/
theorem Agrees.edit {operation : Operation} {on : Bool} {u : Session}
    (h : Agrees b before skip s a) (hatt : s.Attended a) (hg : Guarded s) (hsort : s.Sorted)
    (hc : s.core.breakpoints.contains b = !on)
    (hs : s.submit operation (b.command on) = .ok (id, u)) (hn : a n = none)
    (hcareful : ¬ u.Overtaken b (Function.update a n (some (id, .edit b on)))) :
    Agrees b before skip (u.marked b on) (Function.update a n (some (id, .edit b on))) := by
  obtain ⟨l, c, hl, hsub, rfl⟩ := submit_eq_ok hs
  obtain ⟨line, hline, hsubmitted⟩ := Channel.submitted_of_submit hsub
  have hbefore : decide (b ∈ s.core.breakpoints) = !on := by
    rw [← hc, List.contains_eq_mem]
  have hafter : decide (b ∈ mark b s.core.breakpoints on) = on := by
    simp [mem_mark hsort]
  have hledger := (hg l hl).ledger
  rintro _ ⟨⟩ hopen
  obtain ⟨hskip, haccord⟩ := h l hl (hsubmitted.closed.symm.trans hopen)
  rw [hbefore] at haccord
  have hedit : b.edit? ⟨id, (b.command on).name, line⟩ = some on :=
    Breakpoint.edit?_eq_some.2 ⟨rfl, encode_eq_ok hline⟩
  change skip ≤ (repliesIn c.journal).length ∧
    Accord b (b.held before ((repliesIn c.journal).drop skip))
      (decide (b ∈ mark b s.core.breakpoints on)) c _
  rw [hafter, hsubmitted.replies hledger]
  refine ⟨hskip, hsubmitted.accord_edit (hatt l (.inl hl)) hledger hedit hn ?_ haccord⟩
  exact fun hover => hcareful ⟨_, rfl, hover⟩

/-- A call takes its edit of the breakpoint back. -/
theorem Agrees.undo {on : Bool} (h : Agrees b before skip s a) (hsort : s.Sorted)
    (hl : s.link = some l) (hu : Undoes b l.channel a n id on) :
    Agrees b before skip (s.marked b !on) (Function.update a n none) := by
  have hafter : decide (b ∈ mark b s.core.breakpoints !on) = !on := by
    simp [mem_mark hsort]
  intro k hk hopen
  cases hl.symm.trans hk
  obtain ⟨hskip, haccord⟩ := h l hl hopen
  change skip ≤ _ ∧ Accord b _ (decide (b ∈ mark b s.core.breakpoints !on)) l.channel _
  rw [hafter]
  exact ⟨hskip, Channel.accord_undo hu haccord⟩

/-- A call that begins either edits the breakpoint or has nothing to do with it. -/
theorem began_about (hb : Began s t p) (hl : s.link.isSome) (hsort : s.Sorted) (b : Breakpoint) :
    ((b ∈ t.core.breakpoints ↔ b ∈ s.core.breakpoints) ∧
      ∀ v ∈ p.awaiting?, v.2.edit? b = none) ∨
    ∃ on operation id u, s.core.breakpoints.contains b = !on ∧
      s.submit operation (b.command on) = .ok (id, u) ∧ t = u.marked b on ∧
      p.awaiting? = some (id, .edit b on) := by
  have hnone {α : Prop} (h : s.link = none) : α := by
    rw [h] at hl
    cases hl
  have hsubmit {operation : Operation} {command : Wire.Command} {id : Nat} {u : Session}
      (hs : s.submit operation command = .ok (id, u))
      (ht : t.core.breakpoints = u.core.breakpoints) :
      b ∈ t.core.breakpoints ↔ b ∈ s.core.breakpoints := by
    rw [ht, (link_of_submit hs).2.2]
  cases hb with
  | idle | refused | selected | left => exact .inl ⟨.rfl, nofun⟩
  | attached _ _ h | introduced _ _ h | recorded _ _ _ _ h => exact hnone h
  | @edited c on operation id u _ hc hs =>
    by_cases he : b = c
    · subst he
      exact .inr ⟨on, operation, id, u, hc, hs, rfl, rfl⟩
    · refine .inl ⟨?_, ?_⟩
      · change b ∈ mark c u.core.breakpoints on ↔ _
        rw [(link_of_submit hs).2.2, mem_mark hsort, if_neg he]
      · rintro _ ⟨⟩
        cases on <;> exact if_neg (Ne.symm he)
  | resumed _ _ _ hs | leaving _ _ _ hs =>
    refine .inl ⟨hsubmit hs rfl, ?_⟩
    rintro _ ⟨⟩
    rfl
  | asked _ ha _ hs =>
    refine .inl ⟨hsubmit hs rfl, ?_⟩
    rintro _ ⟨⟩
    exact Awaiting.edit?_of_asks ha b

/-- No call that begins on an attached session tells breakpoints. -/
theorem settled_began (hb : Began s t p) (hl : s.link.isSome) :
    ∀ v ∈ p.awaiting?, v.2.isAttaching = false := by
  cases hb with
  | attached _ _ h | introduced _ _ h =>
    rw [h] at hl
    cases hl
  | @edited c on =>
    rintro _ ⟨⟩
    cases on <;> rfl
  | @asked _ _ awaiting _ _ _ ha =>
    rintro _ ⟨⟩
    cases awaiting with
    | attach => cases ha
    | _ => rfl
  | resumed | leaving =>
    rintro _ ⟨⟩
    rfl
  | idle | refused | recorded | selected | left => nofun

/-- A call that has its reply either takes its edit of the breakpoint back or has nothing to do with
it. -/
theorem continued_about (hc : Continued s id awaiting o t p) (ha : awaiting.isAttaching = false)
    (hsort : s.Sorted) (b : Breakpoint) :
    p.awaiting? = none ∧
    (((b ∈ t.core.breakpoints ↔ b ∈ s.core.breakpoints) ∧
      ∀ on code message, awaiting = .edit b on → o ≠ .error (.debuggee code message)) ∨
    ∃ on code message, awaiting = .edit b on ∧ o = .error (.debuggee code message) ∧
      t = s.marked b !on) := by
  have hother {on : Bool} {α : Prop} (h : awaiting = .edit b on) (hne : awaiting.edit? b = none) :
      α := by
    rw [h, Channel.edit?_edit] at hne
    cases hne
  cases hc with
  | greeted | dropped | broken => cases ha
  | resumed | moved | spoilt | reverted => exact ⟨rfl, .inl ⟨.rfl, fun on _ _ h => hother h rfl⟩⟩
  | lost =>
    refine ⟨rfl, .inl ⟨?_, fun on _ _ h => hother h rfl⟩⟩
    rw [connectionLost_breakpoints]
  | paused =>
    refine ⟨rfl, .inl ⟨?_, fun on _ _ h => hother h rfl⟩⟩
    rw [enterPaused_breakpoints]
  | finished => exact ⟨rfl, .inl ⟨.rfl, fun on _ _ h => hother h rfl⟩⟩
  | asked hask => exact ⟨rfl, .inl ⟨.rfl, fun on _ _ h => hother h (Awaiting.edit?_of_asks hask b)⟩⟩
  | confirmed => exact ⟨rfl, .inl ⟨.rfl, fun _ _ _ _ => nofun⟩⟩
  | @undone c on e he =>
    refine ⟨rfl, ?_⟩
    by_cases hbc : b = c
    · subst hbc
      cases e with
      | debuggee code message => exact .inr ⟨on, code, message, rfl, rfl, rfl⟩
      | _ => cases he
    · refine .inl ⟨?_, fun off _ _ h => absurd (Awaiting.edit_inj h).1.symm hbc⟩
      change b ∈ mark c s.core.breakpoints (!on) ↔ _
      rw [mem_mark hsort, if_neg hbc]
  | failed _ _ he =>
    refine ⟨rfl, .inl ⟨.rfl, ?_⟩⟩
    rintro _ _ _ _ ⟨⟩
    exact he rfl

/-- What holds of an attached session between the parts of its calls. -/
structure Agreeing (b : Breakpoint) (before : Bool) (skip : Nat) (s : Session)
    (a : Nat → Option (Nat × Awaiting)) : Prop where
  attached : s.link.isSome
  settled : Settled a
  agrees : s.Agrees b before skip a

namespace Agreeing

theorem of_eq (h : Agreeing b before skip s a) (hl : t.link = s.link)
    (hb : t.core.breakpoints = s.core.breakpoints) : Agreeing b before skip t a := by
  refine ⟨hl ▸ h.attached, h.settled, fun l ht => ?_⟩
  rw [hb]
  exact h.agrees l (hl ▸ ht)

/-- The connection goes on. -/
theorem drifts (h : Agreeing b before skip s a) (hd : s.Drifts t) (hatt : s.Attended a)
    (hledger : ∀ l, s.link = some l → l.channel.Ledger) (hcareful : ¬ t.Overtaken b a) :
    Agreeing b before skip t a := by
  obtain ⟨l, hl⟩ := Option.isSome_iff_exists.1 h.attached
  obtain ⟨m, hm, -⟩ := hd.link_some hl
  exact ⟨hm ▸ rfl, h.settled, h.agrees.drifts hd hatt hledger h.settled hcareful⟩

/-- The first part of a call. -/
theorem began (h : Agreeing b before skip s a) (hatt : s.Attended a) (hg : Guarded s)
    (hsort : s.Sorted) (hb : Began s t p) (hn : a n = none)
    (hcareful : ¬ t.Overtaken b (Function.update a n p.awaiting?)) :
    Agreeing b before skip t (Function.update a n p.awaiting?) := by
  obtain ⟨l, hl⟩ := Option.isSome_iff_exists.1 h.attached
  have huses := uses_began hb
  have hset := h.settled.update (settled_began hb h.attached) n
  refine ⟨huses.link_isSome h.attached, hset, ?_⟩
  rcases began_about hb h.attached hsort b with ⟨hmem, hw⟩ | ⟨on, _, id, u, hc, hs, rfl, hw⟩
  · refine h.agrees.uses hatt hg h.settled hl huses hmem hw (free_of_none hn) ?_ hcareful
    rintro id on ⟨hw, -⟩
    cases hn.symm.trans hw
  · rw [hw] at hcareful ⊢
    exact h.agrees.edit hatt hg hsort hc hs hn hcareful

/-- The next part of a call, which has its reply. -/
theorem continued (h : Agreeing b before skip s a) (hatt : s.Attended a) (hg : Guarded s)
    (hsort : s.Sorted) (hc : Continued s id awaiting o t p) (hn : a n = some (id, awaiting))
    (ho : s.outcome? id = some o)
    (hcareful : ¬ t.Overtaken b (Function.update a n p.awaiting?)) :
    Agreeing b before skip t (Function.update a n p.awaiting?) := by
  obtain ⟨l, hl⟩ := Option.isSome_iff_exists.1 h.attached
  have huses := uses_continued hl hc
  have houtcome := (outcome?_of_link hl id).symm.trans ho
  obtain ⟨hw, habout⟩ := continued_about hc (h.settled n _ hn) hsort b
  rw [hw] at huses hcareful ⊢
  refine ⟨huses.link_isSome h.attached, h.settled.update (w := none) nofun n, ?_⟩
  rcases habout with ⟨hmem, hkeeps⟩ | ⟨on, code, message, rfl, rfl, rfl⟩
  · have hfree := free_of_outcome hn ho
    refine h.agrees.uses hatt hg h.settled hl huses hmem nofun hfree ?_ hcareful
    rintro id' on ⟨hw', code, message, ho'⟩
    obtain ⟨rfl, rfl⟩ := Prod.mk.inj (Option.some.inj (hn.symm.trans hw'))
    exact hkeeps on code message rfl (Option.some.inj (houtcome.symm.trans ho'))
  · exact h.agrees.undo hsort hl ⟨hn, code, message, houtcome⟩

end Agreeing

end Session
end MobDebug
