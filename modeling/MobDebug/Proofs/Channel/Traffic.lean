import MobDebug.Proofs.Channel.Wiring
import Mathlib.Data.List.Perm.Basic

/-! A link with its callers. A run is any order of what callers do, what the tasks of the link do,
what happens to the stream from the other side, and the passing of time. -/
namespace MobDebug
open Wire (Command)
open Channel (Request Outcome Run Act acceptedIn withdrawnIn sentIn answersIn)

/-- A link that has just been opened on a stream. -/
def Link.Opened (l : Link) : Prop :=
  ∃ timeout bodyLimit stream, stream.written = [] ∧ l = { timeout, bodyLimit, stream }

/-- What the callers know beside the link: the commands that they had accepted, with the ids they
got, the ids of those they took back, the handles they still hold, and the outcomes that their
handles gave them. -/
structure Traffic where
  link : Link
  submitted : List (Nat × Command) := []
  withdrawn : List Nat := []
  handles : List Nat := []
  received : List (Nat × Outcome) := []

namespace Traffic

inductive Step : Traffic → Traffic → Prop where
  | submit {t : Traffic} (command : Command) {id : Nat} {c : Channel}
      (h : t.link.channel.submit command = .ok (id, c)) :
      Step t
        { t with
          link := { t.link with channel := c }
          submitted := t.submitted ++ [(id, command)]
          handles := t.handles ++ [id] }
  | cancel {t : Traffic} (id : Nat) {c : Channel} (hh : id ∈ t.handles)
      (h : t.link.channel.withdraw? id = some c) :
      Step t
        { t with
          link := { t.link with channel := c }
          withdrawn := t.withdrawn ++ [id]
          handles := t.handles.erase id }
  | forget {t : Traffic} (id : Nat) : Step t { t with handles := t.handles.erase id }
  | receive {t : Traffic} (id : Nat) {o : Outcome} (hh : id ∈ t.handles)
      (h : t.link.channel.outcome? id = some o) :
      Step t { t with handles := t.handles.erase id, received := t.received ++ [(id, o)] }
  | close {t : Traffic} : Step t { t with link := t.link.fail .channelClosed }
  | task {t : Traffic} (task : Link.Task) {l : Link} (h : t.link.step? task = some l) :
      Step t { t with link := l }
  -- the other side may do anything to the stream but take back what was written
  | outside {t : Traffic} (s : Stream) (h : s.written = t.link.stream.written) :
      Step t { t with link := { t.link with stream := s } }
  | tick {t : Traffic} (now : Nat) (h : t.link.now ≤ now) :
      Step t { t with link := { t.link with now } }

/-- What may follow a state, in any number of steps. -/
abbrev Future : Traffic → Traffic → Prop := Relation.ReflTransGen Step

inductive Reachable : Traffic → Prop where
  | opened {l : Link} (h : l.Opened) : Reachable { link := l }
  | step {t u : Traffic} (h : Reachable t) (hs : Step t u) : Reachable u

variable {t u : Traffic} {id : Nat} {o : Outcome}

/-- The line of a command; nothing, if it is not a single one. -/
def line (command : Command) : String := command.encode.toOption.getD ""

/-- The bytes that a command is written as. -/
def encoding (command : Command) : List UInt8 := Text.bytes (line command)

def request (p : Nat × Command) : Request := ⟨p.1, p.2.name, line p.2⟩

/-- The commands that were accepted and not taken back, in the order of submission. -/
def kept (t : Traffic) : List (Nat × Command) :=
  t.submitted.filter fun p => p.1 ∉ t.withdrawn

/-- The bytes of the commands that were accepted and not taken back. -/
def script (ps : List (Nat × Command)) : List UInt8 :=
  ps.flatMap fun p => encoding p.2

/-- The outcome that a command has got. -/
def outcome? (t : Traffic) (id : Nat) : Option Outcome := t.link.channel.outcome? id

/-- A command has been put on the wire. -/
def Sent (t : Traffic) (id : Nat) : Prop := id ∈ sentIn t.link.channel.journal

/-- What the callers know agrees with the journal, and every handle is for one command. -/
structure Booked (t : Traffic) : Prop where
  wired : t.link.Wired
  accepted : acceptedIn t.link.channel.journal = t.submitted.map request
  taken : withdrawnIn t.link.channel.journal = t.withdrawn
  held : ∀ id ∈ t.handles, id < t.link.channel.nextId
  given : ∀ p ∈ t.received, p ∈ answersIn t.link.channel.journal
  once : (t.handles ++ t.received.map (·.1)).Nodup

theorem request_eq {command : Command} {line : String} (h : command.encode = .ok line) :
    request (id, command) = ⟨id, command.name, line⟩ := by
  simp [request, Traffic.line, h, Except.toOption]

theorem booked_opened {l : Link} (h : l.Opened) : Booked { link := l } := by
  obtain ⟨timeout, bodyLimit, stream, hs, rfl⟩ := h
  refine ⟨⟨Channel.ledger_initial, ?_, ?_⟩, rfl, rfl, ?_, ?_, .nil⟩
  · rw [hs]
    exact List.nil_prefix
  · intro _
    rw [hs]
    rfl
  · intro id hid
    cases hid
  · intro p hp
    cases hp

namespace Booked

theorem ledger (h : Booked t) : t.link.channel.Ledger := h.wired.ledger

/-- Ids that are held, or whose outcome was received, have been given. -/
theorem fresh (h : Booked t) : t.link.channel.nextId ∉ t.handles ++ t.received.map (·.1) := by
  rw [List.mem_append]
  rintro (hh | hr)
  · exact Nat.lt_irrefl _ (h.held _ hh)
  · obtain ⟨p, hp, he⟩ := List.mem_map.1 hr
    have hk := h.ledger.answers_kept (List.mem_map_of_mem (h.given p hp))
    exact Nat.lt_irrefl _ (he ▸ h.ledger.kept_fresh hk)

/-- The books agree after what callers have no part in. -/
theorem of_run (h : Booked t) {l : Link} (hr : Run (· ≠ .ask) t.link.channel l.channel)
    (hw : l.Wired) : Booked { t with link := l } := by
  obtain ⟨ha, hd⟩ := Channel.run_accepted hr
  constructor
  · exact hw
  · exact ha.trans h.accepted
  · exact hd.trans h.taken
  · intro id hid
    exact Nat.lt_of_lt_of_le (h.held id hid) (Channel.run_nextId hr)
  · intro p hp
    exact Channel.answersIn_mono (Channel.run_journal hr) (h.given p hp)
  · exact h.once

theorem submit (h : Booked t) {command : Command} {c : Channel}
    (hs : t.link.channel.submit command = .ok (id, c)) :
    Booked
      { t with
        link := { t.link with channel := c }
        submitted := t.submitted ++ [(id, command)]
        handles := t.handles ++ [id] } := by
  have hfresh := h.fresh
  obtain ⟨line, he, ho, rfl, rfl⟩ := Channel.submit_eq_ok hs
  constructor
  · exact h.wired.of_quiet ((Channel.submit_step hs).run (by simp)) (.inl rfl) rfl
  · simp [h.accepted, request_eq he]
  · simp [h.taken]
  · simp only [List.mem_append, List.mem_singleton]
    rintro id (hid | rfl)
    · exact Nat.lt_succ_of_lt (h.held id hid)
    · exact Nat.lt_succ_self _
  · intro p hp
    exact Channel.answersIn_mono (List.prefix_append _ _) (h.given p hp)
  · have hp : (t.handles ++ [t.link.channel.nextId] ++ t.received.map (·.1)).Perm
        (t.link.channel.nextId :: (t.handles ++ t.received.map (·.1))) := by
      rw [List.append_assoc]
      exact List.perm_middle
    exact hp.nodup_iff.2 (List.nodup_cons.2 ⟨hfresh, h.once⟩)

/-- A handle that is let go. -/
theorem erase (h : Booked t) (id : Nat) : Booked { t with handles := t.handles.erase id } where
  wired := h.wired
  accepted := h.accepted
  taken := h.taken
  held i hi := h.held i (List.mem_of_mem_erase hi)
  given := h.given
  once := h.once.sublist (List.erase_sublist.append_right _)

theorem cancel (h : Booked t) {c : Channel} (hs : t.link.channel.withdraw? id = some c) :
    Booked
      { t with
        link := { t.link with channel := c }
        withdrawn := t.withdrawn ++ [id]
        handles := t.handles.erase id } := by
  have he := h.erase id
  obtain ⟨-, rfl⟩ := Channel.withdraw?_eq_some hs
  constructor
  · exact h.wired.of_quiet ((Channel.withdraw_step hs).run (by simp)) (.inl rfl) rfl
  · simp [h.accepted]
  · simp [h.taken]
  · exact he.held
  · intro p hp
    exact Channel.answersIn_mono (List.prefix_append _ _) (h.given p hp)
  · exact he.once

theorem receive (h : Booked t) (hh : id ∈ t.handles) (ho : t.outcome? id = some o) :
    Booked { t with handles := t.handles.erase id, received := t.received ++ [(id, o)] } := by
  have he := h.erase id
  constructor
  · exact h.wired
  · exact h.accepted
  · exact h.taken
  · exact he.held
  · simp only [List.mem_append, List.mem_singleton]
    rintro p (hp | rfl)
    · exact h.given p hp
    · exact h.ledger.outcome?_eq_some.1 ho
  · have hp : (t.handles.erase id ++ (t.received ++ [(id, o)]).map (·.1)).Perm
        (t.handles ++ t.received.map (·.1)) := by
      rw [List.map_append, ← List.append_assoc]
      refine (List.perm_append_singleton id _).trans ?_
      exact (List.perm_cons_erase hh).symm.append_right _
    exact hp.nodup_iff.2 h.once

end Booked

theorem booked_step (hs : Step t u) (h : Booked t) : Booked u := by
  cases hs with
  | submit _ hs => exact h.submit hs
  | cancel _ _ hs => exact h.cancel hs
  | forget => exact h.erase _
  | receive _ hh ho => exact h.receive hh ho
  | close =>
    have hr := Channel.fail_run (c := t.link.channel) .channelClosed
    refine h.of_run (Channel.run_mono (fun _ ha => by simp [ha]) hr) ?_
    exact h.wired.of_quiet (Channel.run_mono (fun _ ha => by simp [ha]) hr) (.inl rfl) rfl
  | task _ hs => exact h.of_run (Link.step_run hs) (Link.wired_step hs h.wired).1
  | outside _ hs => exact h.of_run .refl (h.wired.of_quiet .refl (.inl rfl) hs)
  | tick => exact h.of_run .refl (h.wired.of_quiet .refl (.inl rfl) rfl)

theorem booked_reachable (h : Reachable t) : Booked t := by
  induction h with
  | opened h => exact booked_opened h
  | step _ hs ih => exact booked_step hs ih

theorem step_run (hs : Step t u) : Run (fun _ => True) t.link.channel u.link.channel := by
  have weaken {p : Act → Prop} {c d : Channel} (h : Run p c d) : Run (fun _ => True) c d :=
    Channel.run_mono (fun _ _ => trivial) h
  cases hs with
  | submit _ h => exact (Channel.submit_step h).run trivial
  | cancel _ _ h => exact (Channel.withdraw_step h).run trivial
  | close => exact weaken (Channel.fail_run _)
  | task _ h => exact weaken (Link.step_run h)
  | forget | receive | outside | tick => exact .refl

theorem future_run (hf : Future t u) : Run (fun _ => True) t.link.channel u.link.channel := by
  induction hf with
  | refl => exact .refl
  | tail _ hs ih => exact ih.trans (step_run hs)

theorem Reachable.future (h : Reachable t) (hf : Future t u) : Reachable u := by
  induction hf with
  | refl => exact h
  | tail _ hs ih => exact ih.step hs

end Traffic
end MobDebug
