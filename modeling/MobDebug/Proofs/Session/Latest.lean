import MobDebug.Proofs.Session.Pause
import MobDebug.Proofs.Session.Pump
import MobDebug.Proofs.Session.Rooted

/-! The latest pause. Behind the last pause that the pump has brought the session is where that pause
says, unless the program was resumed since, or a `SUSPEND` was answered with another location since,
or a caller of `pause` has come late with an older one. -/
namespace MobDebug
open Wire (Location)
open Session (Awaiting Began Continued Greeted Guarded Progress Tended Operation Breakpoint)
open Channel (Entry Outcome Request acceptedIn answersIn sentIn eventsIn)

namespace Channel
variable {j k pre post : List Entry} {e : Entry} {id : Nat}

/-- Where a split of a journal falls that has grown since. -/
theorem split_before {α : Type} {f : Entry → Option α} (h : j ++ k = pre ++ e :: post)
    (hlt : (told f pre).length < (told f j).length) :
    ∃ mid, j = pre ++ e :: mid ∧ post = mid ++ k := by
  rcases List.append_eq_append_iff.1 h with ⟨i, rfl, -⟩ | ⟨i, rfl, hi⟩
  · rw [told_append, List.length_append] at hlt
    omega
  · cases i with
    | nil =>
      rw [List.append_nil] at hlt
      omega
    | cons x mid =>
      obtain ⟨rfl, rfl⟩ := List.cons.inj hi
      exact ⟨mid, rfl, rfl⟩

theorem eventsIn_append : eventsIn (j ++ k) = eventsIn j ++ eventsIn k := told_append

theorem eventsIn_split {e : Event} :
    eventsIn (pre ++ .event e :: post) = eventsIn pre ++ e :: eventsIn post := by
  simp

variable {c : Channel}

theorem Ledger.sent_lt_next (h : Ledger c) (hid : id ∈ sentIn c.journal) : id < c.nextId := by
  obtain ⟨r, hr, rfl⟩ := List.mem_map.1 (h.wire.subset hid)
  exact h.fresh r (List.mem_filter.1 hr).1

end Channel

namespace Session
variable {s t u : Session} {id : Nat} {bs : List Breakpoint} {awaiting : Awaiting} {o : Outcome}
  {p : Progress} {j k pre post rest : List Entry} {location there : Location} {after : Nat}

/-- The session is in the same state, at the same place, and nothing was resumed. -/
structure Stays (s t : Session) : Prop where
  state : t.core.state = s.core.state
  location : t.core.location = s.core.location
  resumedAt : t.core.resumedAt = s.core.resumedAt

theorem Stays.drifts (h : s.Stays t) (hd : t.Drifts u) : s.Stays u := by
  have hc := hd.core
  exact ⟨by rw [hc, h.state], by rw [hc, h.location], by rw [hc, h.resumedAt]⟩

theorem fresh_submit (hg : Guarded s) {operation : Operation} {command : Wire.Command}
    (hs : s.submit operation command = .ok (id, t)) : id ∉ sentIn s.journal := by
  obtain ⟨l, c, hl, hc, rfl⟩ := submit_eq_ok hs
  obtain ⟨line, -, -, rfl, rfl⟩ := Channel.submit_eq_ok hc
  rw [journal_of_link hl]
  intro hsent
  exact absurd ((hg l hl).ledger.sent_lt_next hsent) (Nat.lt_irrefl _)

/-- Where the program may be behind a pause: at its location, or at one with which a `SUSPEND` has
been answered since. -/
inductive Located (j : List Entry) (location : Location) (post : List Entry) : Location → Prop where
  | paused : Located j location post location
  | answered {q : Request} {body : String} {there : Location} (hq : q ∈ acceptedIn j)
      (hs : q.name = .suspend) (ha : .answered q.id (.ok body) ∈ post)
      (hr : Location.read body = .ok there) : Located j location post there

theorem Located.mono (h : Located j location post there) (hj : j <+: k) (hp : post <+: rest) :
    Located k location rest there := by
  cases h with
  | paused => exact .paused
  | answered hq hs ha hr => exact .answered (Channel.acceptedIn_mono hj hq) hs (hp.subset ha) hr

end Session

namespace Debugger
variable {s u : Debugger} {n after : Nat} {location : Location} {pre post : List Entry}

/-- The latest pause that the pump has brought, with what was in the journal before it and behind. -/
structure Latest (s : Debugger) (pre : List Entry) (location : Location) (after : Nat)
    (post : List Entry) : Prop where
  split : s.session.journal = pre ++ .event (.paused location after) :: post
  brought : (eventsIn pre).length < s.pumped
  last : ∀ l n, .paused l n ∉ (eventsIn post).take (s.pumped - (eventsIn pre).length - 1)

/-- A caller of `pause` has its reply, which is older than a pause elsewhere that the pump has
brought, and is about to bring the session back to where the reply says. -/
def Late (s : Debugger) (n : Nat) : Prop :=
  ∃ id body there pre mid location after post, s.awaits n = some (id, .pause) ∧
    s.session.core.resumedAt ≤ id ∧ Location.read body = .ok there ∧ there ≠ location ∧
    s.session.journal =
      pre ++ .answered id (.ok body) :: mid ++ .event (.paused location after) :: post ∧
    (eventsIn (pre ++ .answered id (.ok body) :: mid)).length < s.pumped

/-- A step in which no caller of `pause` comes late. -/
def PromptStep (s u : Debugger) : Prop :=
  Step s u ∧ ∀ n, s.step? (.job n) = some u → ¬ Late s n

abbrev Prompt : Debugger → Debugger → Prop := Relation.ReflTransGen PromptStep

/-- The session is where the latest pause has left it, unless the program was resumed since. -/
def Held (s : Debugger) : Prop :=
  ∀ pre location after post, Latest s pre location after post →
    s.session.core.resumedAt ≤ after → s.session.core.ended = false →
    s.session.core.state = .paused ∧
      ∃ l, s.session.core.location = some l ∧ Session.Located s.session.journal location post l

/-- While the pump brings nothing, the latest pause is the one before. -/
theorem Latest.before (h : Latest u pre location after post) (hp : Pumped s)
    (hj : s.session.journal <+: u.session.journal) (hpumped : u.pumped = s.pumped) :
    ∃ mid, Latest s pre location after mid ∧ mid <+: post := by
  obtain ⟨k, hk⟩ := hj
  have hbrought := h.brought
  rw [hpumped] at hbrought
  have hcount : s.pumped ≤ (eventsIn s.session.journal).length := hp.count
  obtain ⟨mid, hmid, rfl⟩ :=
    Channel.split_before (hk.trans h.split) (Nat.lt_of_lt_of_le hbrought hcount)
  refine ⟨mid, ⟨hmid, hbrought, ?_⟩, List.prefix_append _ _⟩
  have hlast := h.last
  have hlen : s.pumped - (eventsIn pre).length - 1 ≤ (eventsIn mid).length := by
    rw [hmid, Channel.eventsIn_split, List.length_append, List.length_cons] at hcount
    omega
  rwa [hpumped, Channel.eventsIn_append, List.take_append_of_le_length hlen] at hlast

theorem not_ended_before (hs : Step s u) (hr : Reachable s) (he : u.session.core.ended = false) :
    s.session.core.ended = false := by
  rw [Bool.eq_false_iff]
  exact fun hended => absurd (he.symm.trans (ended_step hs hr hended)) nofun

/-- Where the session stays and nothing is brought, it is held as before. -/
theorem Held.stays (h : Held s) (hr : Reachable s) (hs : Step s u) (hpumped : u.pumped = s.pumped)
    (hstays : s.session.Stays u.session) : Held u := by
  intro pre location after post hl ha he
  have hj := (carries_turn (step_turn hs)).journal
  obtain ⟨mid, hl, hmid⟩ := hl.before (pumped_reachable hr) hj hpumped
  obtain ⟨hpaused, l, hlocation, hlocated⟩ :=
    h _ _ _ _ hl (hstays.resumedAt ▸ ha) (not_ended_before hs hr he)
  exact ⟨hstays.state.trans hpaused, l, hstays.location.trans hlocation, hlocated.mono hj hmid⟩

theorem takeWhile_prefix {p : Entry → Bool} {e : Entry} (he : p e = false)
    (pre post : List Entry) : (pre ++ e :: post).takeWhile p <+: pre := by
  induction pre with
  | nil => simp [he]
  | cons x pre ih =>
    rw [List.cons_append, List.takeWhile_cons]
    split
    · exact List.cons_prefix_cons.2 ⟨rfl, ih⟩
    · exact List.nil_prefix

/-- A caller of `pause` does not come late if the pump has brought nothing from behind its reply. -/
theorem Prompt.next {v : Debugger} (hf : Prompt s u) (hs : Step u v)
    (h : u.jobs.all fun j => j.2.awaiting?.all fun w => !w.2 matches .pause ||
      decide (u.pumped ≤ (eventsIn (u.session.journal.takeWhile fun e =>
        !e.answer?.any (·.1 == w.1))).length)) : Prompt s v := by
  refine hf.tail ⟨hs, ?_⟩
  rintro n - ⟨id, body, there, pre, mid, location, after, post, hw, -, -, -, hj, hbrought⟩
  obtain ⟨job, hjob, hw⟩ := Option.bind_eq_some_iff.1 hw
  have hbehind := List.all_eq_true.1 h _ (mem_of_lookup hjob)
  rw [hw, Option.all_some, hj, List.append_assoc, List.cons_append] at hbehind
  have hprefix : (pre ++ .answered id (.ok body) :: (mid ++ .event (.paused location after) ::
      post)).takeWhile (fun e => !e.answer?.any (·.1 == id)) <+: pre :=
    takeWhile_prefix (by simp) pre _
  obtain ⟨k, hk⟩ := hprefix
  have hle : u.pumped ≤ (eventsIn pre).length := by
    rw [← hk, Channel.eventsIn_append, List.length_append]
    exact Nat.le_add_right_of_le (of_decide_eq_true hbehind)
  rw [Channel.eventsIn_append, List.length_append] at hbrought
  omega

end Debugger
end MobDebug
