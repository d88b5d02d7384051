import MobDebug.Proofs.Channel.Written

/-! Where commands are: each that was accepted waits, is in flight, has its outcome or was taken
back, and none is ever in two places. -/
namespace MobDebug
open Wire (Command)
open Channel (Outcome answersIn)

namespace Traffic
variable {t u : Traffic} {id : Nat} {o : Outcome} {p : Nat × Command}

inductive Place where
  | waiting
  | inFlight
  | completed (o : Outcome)
  | withdrawn

def isWaiting (t : Traffic) (id : Nat) : Bool := t.link.channel.waiting.any (·.id == id)

def isInFlight (t : Traffic) (id : Nat) : Bool := t.link.channel.inFlight.any (·.id == id)

/-- A command is at a place; it has completed when it was handed one outcome and no other. -/
def At (t : Traffic) (id : Nat) : Place → Prop
  | .waiting => t.isWaiting id
  | .inFlight => t.isInFlight id
  | .completed o => (answersIn t.link.channel.journal).filter (·.1 == id) = [(id, o)]
  | .withdrawn => id ∈ t.withdrawn

theorem isWaiting_iff : t.isWaiting id ↔ id ∈ t.link.channel.waiting.map (·.id) := by
  simp [isWaiting]

theorem isInFlight_iff : t.isInFlight id ↔ id ∈ t.link.channel.inFlight.toList.map (·.id) := by
  unfold isInFlight
  cases t.link.channel.inFlight with
  | none => simp
  | some r => simpa using eq_comm

/-- A command that was taken back is not among those kept. -/
theorem not_kept_of_withdrawn (h : id ∈ t.withdrawn) : id ∉ t.kept.map (·.1) := by
  intro hk
  obtain ⟨p, hp, rfl⟩ := List.mem_map.1 hk
  simpa [h] using (List.mem_filter.1 hp).2

namespace Booked

/-- The ids of what was kept are those that are answered, in flight or waiting. -/
theorem kept_ids (h : Booked t) :
    t.kept.map (·.1) = (answersIn t.link.channel.journal).map (·.1) ++
      (t.link.channel.inFlight.toList.map (·.id) ++ t.link.channel.waiting.map (·.id)) := by
  obtain ⟨done, hdone, hids⟩ := h.ledger.account
  have hk := congrArg (List.map (·.id)) (h.kept.symm.trans hdone)
  rw [List.map_map, List.map_append, hids, Channel.outstanding, List.map_append] at hk
  exact hk

theorem submitted_increasing (h : Booked t) : (t.submitted.map (·.1)).Pairwise (· < ·) := by
  have hi := h.ledger.increasing
  rw [h.accepted, List.pairwise_map] at hi
  exact List.pairwise_map.2 hi

/-- Outcomes are handed out once: what was handed out is all there is for its command. -/
theorem completed_iff (h : Booked t) :
    t.At id (.completed o) ↔ (id, o) ∈ answersIn t.link.channel.journal := by
  have hn : (answersIn t.link.channel.journal).Pairwise (·.1 ≠ ·.1) :=
    (List.pairwise_map.1 h.ledger.answers_increasing).imp Nat.ne_of_lt
  generalize hj : answersIn t.link.channel.journal = answers at hn
  simp only [At, hj]
  clear hj
  constructor
  · intro hc
    exact (List.mem_filter.1 (hc ▸ List.mem_singleton_self _)).1
  · intro hm
    obtain ⟨before, after, rfl⟩ := List.append_of_mem hm
    rw [List.pairwise_append, List.pairwise_cons] at hn
    have hb : before.filter (·.1 == id) = [] := by
      simp only [List.filter_eq_nil_iff, beq_iff_eq]
      intro q hq
      exact hn.2.2 q hq (id, o) List.mem_cons_self
    have ha : after.filter (·.1 == id) = [] := by
      simp only [List.filter_eq_nil_iff, beq_iff_eq]
      intro q hq
      exact (hn.2.1.1 q hq).symm
    simp [hb, ha]

theorem at_unique (h : Booked t) {x y : Place} (hx : t.At id x) (hy : t.At id y) : x = y := by
  have hn := List.pairwise_append.1 h.ledger.ids_increasing
  -- for each place, what an id that stands there excludes
  have hflight (hf : t.At id .inFlight) : id ∉ (answersIn t.link.channel.journal).map (·.1) :=
    h.ledger.inFlight_fresh (isInFlight_iff.1 hf)
  have hwaiting (hw : t.At id .waiting) : id ∉ (answersIn t.link.channel.journal).map (·.1) ∧
      ¬ t.At id .inFlight := by
    obtain ⟨r, hr, rfl⟩ := List.mem_map.1 (isWaiting_iff.1 hw)
    obtain ⟨ha, hf⟩ := h.ledger.waiting_fresh hr
    exact ⟨ha, fun hc => hf (isInFlight_iff.1 hc)⟩
  have hwithdrawn (hd : t.At id .withdrawn) : id ∉ (answersIn t.link.channel.journal).map (·.1) ∧
      ¬ t.At id .inFlight ∧ ¬ t.At id .waiting := by
    have hk := not_kept_of_withdrawn hd
    simp only [h.kept_ids, List.mem_append, not_or] at hk
    exact ⟨hk.1, fun hc => hk.2.1 (isInFlight_iff.1 hc), fun hc => hk.2.2 (isWaiting_iff.1 hc)⟩
  have hanswer {o : Outcome} (ha : t.At id (.completed o)) :
      id ∈ (answersIn t.link.channel.journal).map (·.1) :=
    List.mem_map_of_mem (h.completed_iff.1 ha)
  -- of two different places the one further from the start of the queue excludes the other
  cases x with
  | waiting =>
    cases y with
    | waiting => rfl
    | inFlight => exact absurd hy (hwaiting hx).2
    | completed => exact absurd (hanswer hy) (hwaiting hx).1
    | withdrawn => exact absurd hx (hwithdrawn hy).2.2
  | inFlight =>
    cases y with
    | waiting => exact absurd hx (hwaiting hy).2
    | inFlight => rfl
    | completed => exact absurd (hanswer hy) (hflight hx)
    | withdrawn => exact absurd hx (hwithdrawn hy).2.1
  | completed o =>
    cases y with
    | waiting => exact absurd (hanswer hx) (hwaiting hy).1
    | inFlight => exact absurd (hanswer hx) (hflight hy)
    | completed o' =>
      have he := (show _ = [(id, o)] from hx).symm.trans hy
      simp_all
    | withdrawn => exact absurd (hanswer hx) (hwithdrawn hy).1
  | withdrawn =>
    cases y with
    | waiting => exact absurd hy (hwithdrawn hx).2.2
    | inFlight => exact absurd hy (hwithdrawn hx).2.1
    | completed => exact absurd (hanswer hy) (hwithdrawn hx).1
    | withdrawn => rfl

theorem exists_at (h : Booked t) (hp : p ∈ t.submitted) : ∃ x, t.At p.1 x := by
  by_cases hw : p.1 ∈ t.withdrawn
  · exact ⟨.withdrawn, hw⟩
  have hk : p.1 ∈ t.kept.map (·.1) :=
    List.mem_map_of_mem (List.mem_filter.2 ⟨hp, by simpa using hw⟩)
  rw [h.kept_ids, List.mem_append, List.mem_append] at hk
  rcases hk with ha | hf | hq
  · obtain ⟨⟨_, o⟩, ha, he⟩ := List.mem_map.1 ha
    exact ⟨.completed o, h.completed_iff.2 (he ▸ ha)⟩
  · exact ⟨.inFlight, isInFlight_iff.2 hf⟩
  · exact ⟨.waiting, isWaiting_iff.2 hq⟩

/-- As many commands are pending as wait or are in flight. -/
theorem pending_eq (h : Booked t) : t.link.channel.pending =
    (t.submitted.filter fun p => t.isWaiting p.1 || t.isInFlight p.1).length := by
  have hout : (t.link.channel.outstanding.map (·.id)).Nodup := by
    rw [Channel.outstanding, List.map_append]
    exact (List.pairwise_append.1 h.ledger.ids_increasing).2.1.imp Nat.ne_of_lt
  have hsub : ((t.submitted.filter fun p => t.isWaiting p.1 || t.isInFlight p.1).map (·.1)).Nodup :=
    (h.submitted_increasing.imp Nat.ne_of_lt).sublist (List.filter_sublist.map _)
  have hperm := (List.perm_ext_iff_of_nodup hout hsub).2 fun id => by
    have hmem : id ∈ t.link.channel.outstanding.map (·.id) ↔ t.isWaiting id ∨ t.isInFlight id := by
      rw [Channel.outstanding, List.map_append, List.mem_append, isWaiting_iff, isInFlight_iff,
        or_comm]
    rw [hmem]
    constructor
    · intro ho
      have hk : id ∈ t.kept.map (·.1) := by
        rw [h.kept_ids, ← List.map_append]
        exact List.mem_append_right _ (hmem.2 ho)
      obtain ⟨p, hp, rfl⟩ := List.mem_map.1 hk
      refine List.mem_map_of_mem (List.mem_filter.2 ⟨(List.mem_filter.1 hp).1, ?_⟩)
      simpa using ho
    · intro hid
      obtain ⟨p, hp, rfl⟩ := List.mem_map.1 hid
      simpa using (List.mem_filter.1 hp).2
  have hlen := hperm.length_eq
  rw [List.length_map, List.length_map] at hlen
  rw [Channel.pending_eq, hlen]

end Booked

/-- A command that was taken back gets no outcome and is not put on the wire. -/
theorem Booked.never_of_withdrawn (h : Booked t) (hw : id ∈ t.withdrawn) :
    t.outcome? id = none ∧ ¬ t.Sent id := by
  have hk := not_kept_of_withdrawn hw
  constructor
  · cases ho : t.outcome? id with
    | none => rfl
    | some o =>
      have ha := h.ledger.outcome?_isSome.1 (Option.isSome_of_eq_some ho)
      rw [h.kept_ids, List.mem_append] at hk
      exact absurd (.inl ha) hk
  · intro hs
    have := h.ledger.wire.subset hs
    rw [h.kept, List.map_map] at this
    exact hk this

end Traffic
end MobDebug
