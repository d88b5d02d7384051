import MobDebug.Proofs.Channel.Traffic
import MobDebug.Proofs.Text.Utf8

/-! What a channel has written at any moment of a run: whole lines one after the other, in the order
of submission, none begun before the one before it has got its outcome. -/
namespace MobDebug
open Wire (Command)
open Channel (Request sentIn answersIn keptIn linesOf)

/-- The bytes of a command are one line. -/
theorem Wire.Command.bytes_of_encode {command : Command} {line : String}
    (h : command.encode = .ok line) :
    ∃ text, Text.bytes line = text ++ [0x0a] ∧ 0x0a ∉ text ∧ 0x0d ∉ text := by
  unfold encode at h
  split at h
  · next l hl =>
    cases h
    unfold line? at hl
    split at hl
    · cases hl
    · next hends =>
      cases hl
      simp only [List.any_eq_true, not_exists, not_and, Bool.not_eq_true] at hends
      refine ⟨Text.bytes command.text, Text.bytes_append _ _, ?_, ?_⟩
      · intro hb
        exact absurd (hends _ (Text.mem_of_mem_flatMap (by decide) hb)) (by decide)
      · intro hb
        exact absurd (hends _ (Text.mem_of_mem_flatMap (by decide) hb)) (by decide)
  · cases h

namespace Traffic
variable {t u : Traffic} {id : Nat}

/-- A command is on the wire and has no outcome. -/
def InFlight (t : Traffic) (id : Nat) : Prop := t.Sent id ∧ t.outcome? id = none

instance : Decidable (t.InFlight id) :=
  inferInstanceAs (Decidable (id ∈ sentIn t.link.channel.journal ∧ t.outcome? id = none))

theorem linesOf_request (ps : List (Nat × Command)) :
    linesOf (ps.map request) = script ps := by
  simp [linesOf, script, List.flatMap_map, request, encoding]

theorem Booked.kept (h : Booked t) : keptIn t.link.channel.journal = t.kept.map request := by
  simp only [keptIn, Traffic.kept, h.accepted, h.taken, List.filter_map]
  rfl

/-- A command in flight is the one in the slot, so there is one at most. -/
theorem Booked.inFlight_iff (h : Booked t) :
    t.InFlight id ↔ t.link.channel.inFlight.map (·.id) = some id := by
  have hn : t.outcome? id = none ↔ id ∉ (answersIn t.link.channel.journal).map (·.1) := by
    rw [← h.ledger.outcome?_isSome]
    simp [outcome?]
  rw [InFlight, Sent, hn, ← h.ledger.inFlight_iff]
  cases t.link.channel.inFlight <;> simp [eq_comm]

/-- What has been written after a step was on the wire before it. -/
theorem written_step (hs : Step t u) (h : Booked t) :
    u.link.stream.written <+: linesOf t.link.channel.onWire := by
  cases hs with
  | task _ hs => exact (Link.wired_step hs h.wired).2
  | outside _ hs =>
    rw [hs]
    exact h.wired.part
  | _ => exact h.wired.part

theorem written_future (h : Booked t) (hf : Future t u) (hu : Booked u) :
    t.link.stream.written <+: script u.kept := by
  rw [← linesOf_request, ← hu.kept]
  refine h.wired.part.trans (Channel.linesOf_prefix ?_)
  exact (Channel.onWire_run (future_run hf) h.ledger).trans Channel.onWire_prefix_kept

/-- A byte of a command is on the wire only if all commands before it are answered. -/
theorem answered_of_written (h : Booked t) {rs pre post : List Request} {r q : Request}
    (hw : t.link.channel.onWire <+: rs) (hrs : rs = pre ++ r :: post)
    (hlen : (linesOf pre).length < (linesOf t.link.channel.onWire).length) (hq : q ∈ pre) :
    (t.outcome? q.id).isSome := by
  have hpre : pre <+: rs := ⟨r :: post, hrs.symm⟩
  rcases List.prefix_or_prefix_of_prefix hw hpre with hle | ⟨rest, hrest⟩
  · have := (Channel.linesOf_prefix hle).length_le
    omega
  · cases rest with
    | nil =>
      rw [← hrest, List.append_nil] at hlen
      exact absurd hlen (Nat.lt_irrefl _)
    | cons r' post' =>
      exact h.ledger.outcome?_isSome.2
        (Channel.answered_of_onWire h.ledger hrest.symm hq)

/-- At any moment at most one command is in flight, the bytes written are those of the first of
the commands that are never taken back, each of these is a line, and no byte of one is written
before all those before it have their outcome. -/
theorem written_in_turn (h : Reachable t) :
    (∀ i j, t.InFlight i → t.InFlight j → i = j) ∧
    (∀ u, Future t u → t.link.stream.written <+: script u.kept) ∧
    (∀ p ∈ t.submitted, ∃ text, encoding p.2 = text ++ [0x0a] ∧ 0x0a ∉ text ∧ 0x0d ∉ text) ∧
    ∀ u, Step t u → ∀ pre p post, u.kept = pre ++ p :: post →
      (script pre).length < u.link.stream.written.length →
      ∀ q ∈ pre, (t.outcome? q.1).isSome := by
  have hb := booked_reachable h
  refine ⟨?_, ?_, ?_, ?_⟩
  · intro i j hi hj
    have he := (hb.inFlight_iff.1 hi).symm.trans (hb.inFlight_iff.1 hj)
    exact Option.some.inj he
  · intro u hu
    exact written_future hb hu (booked_reachable (h.future hu))
  · intro p hp
    have hr : request p ∈ Channel.acceptedIn t.link.channel.journal :=
      hb.accepted ▸ List.mem_map_of_mem hp
    obtain ⟨command, he, -⟩ := hb.ledger.encoded _ hr
    exact Wire.Command.bytes_of_encode he
  · intro u hs pre p post hk hlen q hq
    have hu := booked_step hs hb
    have hw := (Channel.onWire_run (step_run hs) hb.ledger).trans Channel.onWire_prefix_kept
    have hrs : keptIn u.link.channel.journal =
        pre.map request ++ request p :: post.map request := by
      rw [hu.kept, hk, List.map_append, List.map_cons]
    refine answered_of_written hb (q := request q) hw hrs ?_ (List.mem_map_of_mem hq)
    rw [linesOf_request]
    exact Nat.lt_of_lt_of_le hlen (written_step hs hb).length_le

/-- The first command half written, the last taken back. -/
theorem written_in_turn_blocked : ∃ t, Reachable t ∧
    t.link.stream.written = Text.bytes "STAC" ∧ t.kept.map (·.1) = [1, 2] ∧ t.InFlight 1 ∧
    (∀ i, t.InFlight i → i = 1) ∧ ∀ u, Future t u → Text.bytes "STAC" <+: script u.kept := by
  have h : Reachable { link := { timeout := 10, bodyLimit := 100, stream := { capacity := 4 } } } :=
    .opened ⟨10, 100, { capacity := 4 }, rfl, rfl⟩
  have h := h.step (.submit { name := .stack } rfl)
  have h := h.step (.submit { name := .run } rfl)
  have h := h.step (.submit { name := .over } rfl)
  have h := h.step (.cancel 3 (by decide) rfl)
  have h := h.step (.task .writer rfl)
  have h := h.step (.task .writer rfl)
  have hf := written_in_turn h
  refine ⟨_, h, by decide, by decide, by decide, ?_, hf.2.1⟩
  intro i hi
  exact hf.1 i 1 hi (by decide)

end Traffic
end MobDebug
