import MobDebug.Proofs.Channel.Replies
import MobDebug.Proofs.Session.Edits
import MobDebug.Proofs.Session.Phase

/-! Calls and commands belong together: every call that waits has a command of its own, and every
command that is outstanding has a call that waits for it. -/
namespace MobDebug
open Channel (Outcome Run Ledger acceptedIn)
open Session (Awaiting Breakpoint Progress Greeted Began Continued Guarded)

theorem Link.Moves.heard {l m : Link} (h : l.Moves m) : l.channel.Heard m.channel := by
  cases h with
  | task t h => exact heard_step h
  | close => exact Channel.heard_fail _ _
  | stay | outside | tick => exact Channel.heard_of_answers rfl

namespace Channel
variable {c d : Channel} {a : Nat → Option (Nat × Awaiting)} {n id : Nat} {awaiting : Awaiting}
  {command : Wire.Command}

/-- The calls that wait, each with the id of its command, and the commands of the channel. -/
structure Paired (c : Channel) (a : Nat → Option (Nat × Awaiting)) : Prop where
  known : ∀ n, ∀ w ∈ a n, ∃ r ∈ acceptedIn c.journal, r.id = w.1 ∧ w.2.Asks r
  once : ∀ m n, ∀ v ∈ a m, ∀ w ∈ a n, v.1 = w.1 → m = n
  awaited : ∀ r ∈ c.outstanding, ∃ n w, a n = some (r.id, w)

theorem paired_run (hs : Run (· ≠ .ask) c d) (h : Paired c a) : Paired d a where
  known := by
    rw [(run_accepted hs).1]
    exact h.known
  once := h.once
  awaited := by
    obtain ⟨replies, -, hout⟩ := run_answers hs
    intro r hr
    exact h.awaited r (hout ▸ List.mem_append_right _ hr)

/-- A call ends when its command has been answered. -/
theorem paired_done (h : Paired c a) (hl : Ledger c)
    (hn : ∀ w ∈ a n, (c.outcome? w.1).isSome) : Paired c (Function.update a n none) := by
  have hkept {m : Nat} {w : Nat × Awaiting} (hw : w ∈ Function.update a n none m) : w ∈ a m := by
    rw [Function.update_apply] at hw
    split at hw
    · cases hw
    · exact hw
  refine ⟨fun m w hw => h.known m w (hkept hw), ?_, ?_⟩
  · intro m k v hv w hw
    exact h.once m k v (hkept hv) w (hkept hw)
  · intro r hr
    obtain ⟨m, w, hw⟩ := h.awaited r hr
    have hne : m ≠ n := by
      rintro rfl
      have hsome := hn _ hw
      rw [hl.outcome?_outstanding hr] at hsome
      cases hsome
    exact ⟨m, w, by rw [Function.update_of_ne hne, hw]⟩

/-- A call submits its command and waits. -/
theorem paired_submit (h : Paired c a) (hl : Ledger c) (hn : a n = none)
    (hs : c.submit command = .ok (id, d))
    (ha : ∀ line, command.encode = .ok line → awaiting.Asks ⟨id, command.name, line⟩) :
    Paired d (Function.update a n (some (id, awaiting))) := by
  obtain ⟨line, hline, -, rfl, rfl⟩ := submit_eq_ok hs
  have hasks := ha line hline
  -- nobody waits for the new id yet
  have hfresh : ∀ m, ∀ w ∈ a m, w.1 ≠ c.nextId := by
    intro m w hw
    obtain ⟨r, hr, hid, -⟩ := h.known m w hw
    rw [← hid]
    exact Nat.ne_of_lt (hl.fresh r hr)
  have hcases {m : Nat} {w : Nat × Awaiting}
      (hw : w ∈ Function.update a n (some (c.nextId, awaiting)) m) :
      (m = n ∧ w = (c.nextId, awaiting)) ∨ w ∈ a m := by
    rw [Function.update_apply] at hw
    split at hw
    · next he =>
      cases hw
      exact .inl ⟨he, rfl⟩
    · exact .inr hw
  refine ⟨?_, ?_, ?_⟩
  · intro m w hw
    rcases hcases hw with ⟨-, rfl⟩ | hw
    · exact ⟨_, by simp, rfl, hasks⟩
    · obtain ⟨r, hr, hid⟩ := h.known m w hw
      exact ⟨r, by simp [hr], hid⟩
  · intro m k v hv w hw he
    rcases hcases hv with ⟨rfl, rfl⟩ | hold
    · rcases hcases hw with ⟨rfl, rfl⟩ | hw
      · rfl
      · exact absurd he.symm (hfresh k w hw)
    · rcases hcases hw with ⟨rfl, rfl⟩ | hw
      · exact absurd he (hfresh m v hold)
      · exact h.once m k v hold w hw he
  · intro r hr
    -- the commands under way are those of before and the new one
    rw [outstanding, ← List.append_assoc, List.mem_append, List.mem_singleton] at hr
    rcases hr with hr | rfl
    · obtain ⟨m, w, hw⟩ := h.awaited r hr
      have hne : m ≠ n := by
        rintro rfl
        rw [hn] at hw
        cases hw
      exact ⟨m, w, by rw [Function.update_of_ne hne, hw]⟩
    · exact ⟨n, awaiting, Function.update_self ..⟩

end Channel

namespace Session
variable {s t u : Session} {l m : Link} {id n : Nat} {bs : List Breakpoint} {awaiting : Awaiting}
  {o : Outcome} {p : Progress} {a : Nat → Option (Nat × Awaiting)} {w : Option (Nat × Awaiting)}

/-- The connection of a session, or the one that it may open. -/
def Holds (s : Session) (l : Link) : Prop :=
  s.link = some l ∨ (s.link = none ∧ l.channel = {})

theorem Holds.eq (h : s.Holds m) (hl : s.link = some l) : m = l := by
  rcases h with h | ⟨h, -⟩
  · exact Option.some.inj (h.symm.trans hl)
  · cases h.symm.trans hl

/-- How a part of a call uses the connection: not at all, or it closes it, or it submits the command
that the call waits for then. -/
inductive Uses (s t : Session) : Option (Nat × Awaiting) → Prop where
  | unopened (hs : s.link = none) (ht : t.link = none) : Uses s t none
  | moved {l m : Link} (hl : s.Holds l) (hm : l.Moves m) (ht : t.link = some m) : Uses s t none
  | asked {l : Link} {c : Channel} {command : Wire.Command} {id : Nat} {awaiting : Awaiting}
      (hl : s.Holds l) (hs : l.channel.submit command = .ok (id, c))
      (ht : t.link = some { l with channel := c })
      (ha : ∀ line, command.encode = .ok line → awaiting.Asks ⟨id, command.name, line⟩) :
      Uses s t (some (id, awaiting))

theorem Uses.same (h : t.link = s.link) : Uses s t none := by
  cases hl : s.link with
  | none => exact .unopened hl (h.trans hl)
  | some l => exact .moved (.inl hl) .stay (h.trans hl)

theorem uses_close (hl : s.link = some l) (h : u.Holds l) : Uses u s.close none := by
  refine .moved h .close ?_
  rw [close, hl]
  rfl

theorem uses_submit {operation : Operation} {command : Wire.Command}
    (hs : s.submit operation command = .ok (id, t)) (hl : s.link = some l) (h : u.Holds l)
    (ha : ∀ line, command.encode = .ok line → awaiting.Asks ⟨id, command.name, line⟩) :
    Uses u t (some (id, awaiting)) := by
  obtain ⟨l', c, hl', hc, rfl⟩ := submit_eq_ok hs
  cases hl'.symm.trans hl
  exact .asked h hc rfl ha

theorem uses_greeted (hl : s.link = some l) (h : u.Holds l) (hg : Greeted s bs t p) :
    Uses u t p.awaiting? := by
  cases hg with
  | done => exact .moved h .stay hl
  | @told b rest id t hs =>
    exact uses_submit hs hl h fun line hline => asks_attach (encode_eq_ok hline)
  | broken => exact uses_close (s := s.ending .terminated) hl h

theorem Awaiting.edit?_of_asks (h : awaiting.asks) (b : Breakpoint) : awaiting.edit? b = none := by
  cases awaiting with
  | pause | evaluate | evaluateAll | stack | setOutput => rfl
  | attach | resume | setBreakpoint | clearBreakpoint | finish => cases h

theorem uses_began (hb : Began s t p) : Uses s t p.awaiting? := by
  have hother {name : Wire.CommandName}
      (hn : name.resumes ∨ name.asks ∨ name = .done ∨ name = .exit) :
      name ≠ .setBreakpoint ∧ name ≠ .deleteBreakpoint := by
    constructor <;> (rintro rfl; revert hn; decide)
  cases hb with
  | idle | refused | recorded | selected => exact .same rfl
  | attached stream _ hl hg => exact uses_greeted rfl (.inr ⟨hl, rfl⟩) hg
  | introduced stream _ hl _ hs =>
    exact uses_submit hs rfl (.inr ⟨hl, rfl⟩) fun line _ => asks_other nofun nofun fun _ => rfl
  | edited b on _ _ hs =>
    obtain ⟨l, c, hl, hc, rfl⟩ := submit_eq_ok hs
    exact .asked (.inl hl) hc rfl fun line hline => asks_edit (encode_eq_ok hline)
  | resumed hn _ _ hs =>
    obtain ⟨l, c, hl, hc, rfl⟩ := submit_eq_ok hs
    obtain ⟨hset, hdel⟩ := hother (.inl hn)
    exact .asked (.inl hl) hc rfl fun line _ => asks_other hset hdel fun _ => rfl
  | asked hn ha _ hs =>
    obtain ⟨l, c, hl, hc, rfl⟩ := submit_eq_ok hs
    obtain ⟨hset, hdel⟩ := hother (.inr (.inl hn))
    exact .asked (.inl hl) hc rfl fun line _ => asks_other hset hdel (Awaiting.edit?_of_asks ha)
  | leaving hn _ _ hs =>
    obtain ⟨l, c, hl, hc, rfl⟩ := submit_eq_ok hs
    obtain ⟨hset, hdel⟩ := hother (.inr (.inr hn))
    exact .asked (.inl hl) hc rfl fun line _ => asks_other hset hdel fun _ => rfl
  | @left last e _ _ hl =>
    obtain ⟨l, hl⟩ := Option.isSome_iff_exists.1 hl
    exact uses_close (s := s.ending last) hl (.inl hl)

theorem uses_continued (hl : s.link = some l) (hc : Continued s id awaiting o t p) :
    Uses s t p.awaiting? := by
  cases hc with
  | greeted hg => exact uses_greeted hl (.inl hl) hg
  | @dropped current _ _ message _ _ hg =>
    exact uses_greeted (s := s.dropping current message) hl (.inl hl) hg
  | broken => exact uses_close (s := s.ending .terminated) hl (.inl hl)
  | lost =>
    refine .same ?_
    rcases s.connectionLost_cases with ⟨-, he⟩ | ⟨-, he⟩ <;> rw [he]
    rfl
  | paused =>
    refine .same ?_
    rcases s.enterPaused_cases _ _ with he | ⟨-, -, he⟩ <;> rw [he]
    rfl
  | finished => exact uses_close hl (.inl hl)
  | _ => exact .same rfl

theorem Guarded.ledger (hg : Guarded s) (hl : s.Holds l) : l.channel.Ledger := by
  rcases hl with hl | ⟨-, hc⟩
  · exact (hg l hl).ledger
  · rw [hc]
    exact Channel.ledger_initial

theorem uses_ledger (hg : Guarded s) (hu : Uses s t w) (ht : t.link = some m) :
    m.channel.Ledger := by
  cases hu with
  | unopened _ ht' => cases ht.symm.trans ht'
  | moved hl hm ht' =>
    cases ht.symm.trans ht'
    exact Channel.ledger_run hm.run (hg.ledger hl)
  | asked hl hs ht' =>
    cases ht.symm.trans ht'
    exact Channel.ledger_step (Channel.submit_step hs) (hg.ledger hl)

theorem Uses.link_isSome (hu : Uses s t w) (hl : s.link.isSome) : t.link.isSome := by
  cases hu with
  | unopened hs =>
    rw [hs] at hl
    cases hl
  | moved _ _ ht | asked _ _ ht =>
    rw [ht]
    rfl

theorem outcome?_of_link (hl : s.link = some l) (id : Nat) :
    s.outcome? id = l.channel.outcome? id := by
  rw [outcome?, hl]
  rfl

/-- The call does not wait, or its reply is in. -/
def Free (s : Session) (a : Nat → Option (Nat × Awaiting)) (n : Nat) : Prop :=
  ∀ v ∈ a n, (s.outcome? v.1).isSome

theorem free_of_none (hn : a n = none) : s.Free a n := by
  rw [Free, hn]
  nofun

theorem free_of_outcome (hn : a n = some (id, awaiting)) (ho : s.outcome? id = some o) :
    s.Free a n := by
  rw [Free, hn]
  rintro _ ⟨⟩
  rw [ho]
  rfl

/-- The calls that wait and the commands of the connection belong together. -/
def Attended (s : Session) (a : Nat → Option (Nat × Awaiting)) : Prop :=
  ∀ l, s.Holds l → l.channel.Paired a

theorem Holds.drifts (hd : s.Drifts t) (hm : t.Holds m) : ∃ l, s.Holds l ∧ l.Moves m := by
  have hr := hd.link
  rcases hm with hm | ⟨hm, hc⟩
  · rw [hm] at hr
    generalize hs : s.link = k at hr
    cases hr with
    | some hmoves => exact ⟨_, .inl hs, hmoves⟩
  · rw [hm] at hr
    generalize hs : s.link = k at hr
    cases hr with
    | none => exact ⟨m, .inr ⟨hs, hc⟩, .stay⟩

namespace Attended

theorem drifts (h : s.Attended a) (hd : s.Drifts t) : t.Attended a := by
  intro m hm
  obtain ⟨l, hl, hmoves⟩ := hm.drifts hd
  exact Channel.paired_run hmoves.run (h l hl)

theorem of_link (h : s.Attended a) (ht : t.link = s.link) : t.Attended a := by
  intro l hl
  apply h l
  unfold Holds at hl ⊢
  rw [← ht]
  exact hl

/-- One part of the call `n`, which does not wait or whose reply is in. -/
theorem uses (h : s.Attended a) (hg : Guarded s) (hn : s.Free a n) (hu : Uses s t w) :
    t.Attended (Function.update a n w) := by
  have hdone (l : Link) (hl : s.Holds l) : l.channel.Paired (Function.update a n none) := by
    apply Channel.paired_done (h l hl) (hg.ledger hl)
    intro v hv
    rcases hl with hl | ⟨hs, hc⟩
    · rw [← outcome?_of_link hl]
      exact hn v hv
    · obtain ⟨r, hr, -⟩ := (h l (.inr ⟨hs, hc⟩)).known n v hv
      rw [hc] at hr
      cases hr
  cases hu with
  | unopened hs ht =>
    intro l hl
    rcases hl with hl | ⟨-, hc⟩
    · cases hl.symm.trans ht
    · exact hdone l (.inr ⟨hs, hc⟩)
  | moved hl hm ht =>
    rintro m (hm' | ⟨hm', -⟩)
    · cases hm'.symm.trans ht
      exact Channel.paired_run hm.run (hdone _ hl)
    · cases hm'.symm.trans ht
  | asked hl hs ht ha =>
    rintro m (hm' | ⟨hm', -⟩)
    · cases hm'.symm.trans ht
      have hpaired :=
        Channel.paired_submit (hdone _ hl) (hg.ledger hl) (Function.update_self ..) hs ha
      rwa [Function.update_idem] at hpaired
    · cases hm'.symm.trans ht

end Attended

theorem receive_link (s : Session) (e : Channel.Event) : (s.receive e).link = s.link := by
  cases e with
  | paused location after =>
    change (s.enterPaused location after).link = s.link
    rcases s.enterPaused_cases location after with he | ⟨-, -, he⟩ <;> rw [he]
    rfl
  | output | debuggeeError => rfl
  | closed =>
    change s.connectionLost.link = s.link
    rcases s.connectionLost_cases with ⟨-, he⟩ | ⟨-, he⟩ <;> rw [he]
    rfl

end Session

namespace Debugger
open Session (Attended)
variable {s u : Debugger}

theorem attended_turn (ht : Turn s u) (hg : Guarded s.session)
    (h : s.session.Attended s.awaits) : u.session.Attended u.awaits := by
  cases ht with
  | drift ha hd =>
    rw [ha]
    exact h.drifts hd
  | receive ha _ _ hu =>
    rw [ha, hu]
    exact h.of_link (Session.receive_link _ _)
  | begin n hn hb hd ha =>
    rw [ha]
    exact (h.uses hg (Session.free_of_none hn) (Session.uses_began hb)).drifts hd
  | resume n hn ho hc hd ha =>
    obtain ⟨l, hl, -⟩ := Option.bind_eq_some_iff.1 ho
    rw [ha]
    exact (h.uses hg (Session.free_of_outcome hn ho) (Session.uses_continued hl hc)).drifts hd

/-- Each call that waits has a command of its own, and each outstanding command has its call. -/
theorem attended_reachable (h : Reachable s) : s.session.Attended s.awaits := by
  induction h with
  | new config =>
    rintro l (hl | ⟨-, hc⟩)
    · cases hl
    · rw [hc]
      exact ⟨nofun, nofun, nofun⟩
  | step hr hs ih => exact attended_turn (step_turn hs) (guarded_reachable hr) ih

end Debugger
end MobDebug
