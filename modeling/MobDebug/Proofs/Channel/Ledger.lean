import MobDebug.Proofs.Channel.Step
import MobDebug.Proofs.Lists
import Mathlib.Data.List.Infix
import Mathlib.Data.List.Nodup

/-! The books of a channel: whatever was accepted and not taken back has been answered, is in flight
or waits, in the order in which it was accepted. -/
namespace MobDebug.Channel
open Wire (Command)

variable {c d : Channel} {id : Nat} {r : Request} {o : Outcome} {j k : List Entry}

/-- The commands that were accepted and not taken back, in order. -/
def keptIn (j : List Entry) : List Request :=
  (acceptedIn j).filter fun r => r.id ∉ withdrawnIn j

/-- What holds of the commands that a journal tells to be accepted; `next` is the next id. -/
structure Register (j : List Entry) (next : Nat) : Prop where
  first : 0 < next
  increasing : (acceptedIn j).Pairwise (·.id < ·.id)
  positive : ∀ r ∈ acceptedIn j, 0 < r.id
  fresh : ∀ r ∈ acceptedIn j, r.id < next
  encoded : ∀ r ∈ acceptedIn j, ∃ command : Command,
    command.encode = .ok r.line ∧ command.name = r.name
  known : ∀ id ∈ withdrawnIn j, ∃ r ∈ acceptedIn j, r.id = id
  once : (withdrawnIn j).Nodup

structure Ledger (c : Channel) : Prop extends Register c.journal c.nextId where
  account : ∃ done, keptIn c.journal = done ++ c.outstanding ∧
    done.map (·.id) = (answersIn c.journal).map (·.1)
  slot : c.closed = false →
    sentIn c.journal = (answersIn c.journal).map (·.1) ++ c.inFlight.toList.map (·.id)
  wire : sentIn c.journal <+: (keptIn c.journal).map (·.id)
  lastSent : c.lastSent = (sentIn c.journal).getLast?.getD 0
  drained : c.closed = true → c.outstanding = []

theorem keptIn_submitted (h : r.id ∉ withdrawnIn j) :
    keptIn (j ++ [.submitted r]) = keptIn j ++ [r] := by
  simpa [keptIn] using h

theorem keptIn_withdrawn : keptIn (j ++ [.withdrawn id]) = (keptIn j).filter (·.id != id) := by
  simp only [keptIn, List.filter_filter]
  have ha : acceptedIn (j ++ [.withdrawn id]) = acceptedIn j := by simp
  have hw : withdrawnIn (j ++ [.withdrawn id]) = withdrawnIn j ++ [id] := by simp
  rw [ha, hw]
  apply List.filter_congr
  intro r _
  by_cases h : r.id = id <;> simp [h]

theorem keptIn_append (ha : acceptedIn k = []) (hw : withdrawnIn k = []) :
    keptIn (j ++ k) = keptIn j := by
  simp [keptIn, ha, hw]

/-- All that was accepted is kept if nothing was taken back. -/
theorem keptIn_of_untaken (h : withdrawnIn j = []) : keptIn j = acceptedIn j := by
  simp [keptIn, h]

namespace Register
variable {next : Nat}

theorem kept_increasing (h : Register j next) : (keptIn j).Pairwise (·.id < ·.id) :=
  h.increasing.sublist List.filter_sublist

theorem kept_ids (h : Register j next) : ((keptIn j).map (·.id)).Pairwise (· < ·) :=
  List.pairwise_map.2 h.kept_increasing

theorem next_not_withdrawn (h : Register j next) : next ∉ withdrawnIn j := by
  intro hw
  obtain ⟨r, hr, he⟩ := h.known _ hw
  have := h.fresh r hr
  omega

theorem append (h : Register j next) (ha : acceptedIn k = []) (hw : withdrawnIn k = []) :
    Register (j ++ k) next := by
  constructor
  · exact h.first
  · simpa [ha] using h.increasing
  · simpa [ha] using h.positive
  · simpa [ha] using h.fresh
  · simpa [ha] using h.encoded
  · simpa [ha, hw] using h.known
  · simpa [hw] using h.once

theorem submitted (h : Register j next) {command : Command} {line : String}
    (he : command.encode = .ok line) :
    Register (j ++ [.submitted ⟨next, command.name, line⟩]) (next + 1) := by
  have ha : acceptedIn (j ++ [.submitted ⟨next, command.name, line⟩]) =
      acceptedIn j ++ [⟨next, command.name, line⟩] := by simp
  have hw : withdrawnIn (j ++ [.submitted ⟨next, command.name, line⟩]) = withdrawnIn j := by simp
  constructor
  · exact Nat.succ_pos _
  · simp only [ha, List.pairwise_append, List.mem_singleton]
    refine ⟨h.increasing, List.pairwise_singleton _ _, ?_⟩
    rintro r hr _ rfl
    exact h.fresh r hr
  · simp only [ha, List.mem_append, List.mem_singleton]
    rintro r (hr | rfl)
    · exact h.positive r hr
    · exact h.first
  · simp only [ha, List.mem_append, List.mem_singleton]
    rintro r (hr | rfl)
    · exact Nat.lt_succ_of_lt (h.fresh r hr)
    · exact Nat.lt_succ_self _
  · simp only [ha, List.mem_append, List.mem_singleton]
    rintro r (hr | rfl)
    · exact h.encoded r hr
    · exact ⟨command, he, rfl⟩
  · simp only [ha, hw, List.mem_append]
    intro id hid
    obtain ⟨r, hr, hi⟩ := h.known id hid
    exact ⟨r, .inl hr, hi⟩
  · rw [hw]
    exact h.once

theorem withdrawn (h : Register j next) (hr : r ∈ keptIn j) :
    Register (j ++ [.withdrawn r.id]) next := by
  have ha : acceptedIn (j ++ [.withdrawn r.id]) = acceptedIn j := by simp
  have hw : withdrawnIn (j ++ [.withdrawn r.id]) = withdrawnIn j ++ [r.id] := by simp
  obtain ⟨hr, hn⟩ := List.mem_filter.1 hr
  constructor
  · exact h.first
  · rw [ha]
    exact h.increasing
  · rw [ha]
    exact h.positive
  · rw [ha]
    exact h.fresh
  · rw [ha]
    exact h.encoded
  · simp only [ha, hw, List.mem_append, List.mem_singleton]
    rintro id (hid | rfl)
    · exact h.known id hid
    · exact ⟨r, hr, rfl⟩
  · rw [hw]
    refine List.nodup_append.2 ⟨h.once, List.nodup_singleton _, ?_⟩
    rintro a ha b hb rfl
    simp_all

end Register

theorem ledger_initial : Ledger {} where
  first := Nat.one_pos
  increasing := .nil
  positive := by simp
  fresh := by simp
  encoded := by simp
  known := by simp
  once := .nil
  account := ⟨[], rfl, rfl⟩
  slot _ := rfl
  wire := List.nil_prefix
  lastSent := rfl
  drained h := by cases h

namespace Ledger

theorem open_of_outstanding (h : Ledger c) (hr : r ∈ c.outstanding) : c.closed = false := by
  by_contra hc
  rw [h.drained (by simpa using hc)] at hr
  cases hr

theorem mem_kept (h : Ledger c) (hr : r ∈ c.outstanding) : r ∈ keptIn c.journal := by
  obtain ⟨done, hd, -⟩ := h.account
  rw [hd]
  exact List.mem_append_right _ hr

/-- What is answered, in flight or waiting, in this order, goes up in its ids. -/
theorem ids_increasing (h : Ledger c) :
    ((answersIn c.journal).map (·.1) ++
      (c.inFlight.toList.map (·.id) ++ c.waiting.map (·.id))).Pairwise (· < ·) := by
  obtain ⟨done, hd, hi⟩ := h.account
  have hn := h.kept_ids
  rwa [hd, outstanding, List.map_append, List.map_append, hi] at hn

/-- A command that waits is neither answered nor in flight. -/
theorem waiting_fresh (h : Ledger c) (hr : r ∈ c.waiting) :
    r.id ∉ (answersIn c.journal).map (·.1) ∧ r.id ∉ c.inFlight.toList.map (·.id) := by
  have hn := List.pairwise_append.1 h.ids_increasing
  have hm : r.id ∈ c.waiting.map (·.id) := List.mem_map_of_mem hr
  constructor
  · intro ha
    exact Nat.lt_irrefl _ (hn.2.2 _ ha _ (List.mem_append_right _ hm))
  · intro hf
    exact Nat.lt_irrefl _ ((List.pairwise_append.1 hn.2.1).2.2 _ hf _ hm)

/-- A command in flight is not answered. -/
theorem inFlight_fresh (h : Ledger c) (hf : id ∈ c.inFlight.toList.map (·.id)) :
    id ∉ (answersIn c.journal).map (·.1) := by
  intro ha
  have hn := List.pairwise_append.1 h.ids_increasing
  exact Nat.lt_irrefl _ (hn.2.2 _ ha _ (List.mem_append_left _ hf))

/-- The slot holds what was sent and is not answered. -/
theorem inFlight_iff (h : Ledger c) :
    id ∈ c.inFlight.toList.map (·.id) ↔
      id ∈ sentIn c.journal ∧ id ∉ (answersIn c.journal).map (·.1) := by
  cases ho : c.closed with
  | false =>
    rw [h.slot ho, List.mem_append]
    constructor
    · intro hf
      exact ⟨.inr hf, h.inFlight_fresh hf⟩
    · rintro ⟨ha | hf, hn⟩
      · exact absurd ha hn
      · exact hf
  | true =>
    have hout := h.drained ho
    obtain ⟨done, hdone, hids⟩ := h.account
    rw [outstanding, List.append_eq_nil_iff] at hout
    rw [hout.1, ← hids]
    refine iff_of_false List.not_mem_nil ?_
    rintro ⟨hs, hn⟩
    apply hn
    simpa [hdone, outstanding, hout] using h.wire.subset hs

/-- The books after a step that tells nothing of commands. -/
theorem of_quiet (h : Ledger c) (hw : d.waiting = c.waiting) (hf : d.inFlight = c.inFlight)
    (hl : d.lastSent = c.lastSent) (hn : d.nextId = c.nextId) (hc : d.closed = c.closed)
    (hj : d.journal = c.journal ++ k) (ha : acceptedIn k = []) (hd : withdrawnIn k = [])
    (hs : sentIn k = []) (hk : answersIn k = []) : Ledger d := by
  have hkept : keptIn (c.journal ++ k) = keptIn c.journal := keptIn_append ha hd
  have hout : d.outstanding = c.outstanding := by simp [outstanding, hw, hf]
  constructor
  · rw [hj, hn]
    exact h.toRegister.append ha hd
  · simpa [hj, hkept, hout, hk] using h.account
  · simpa [hj, hc, hs, hk, hf] using h.slot
  · simpa [hj, hkept, hs] using h.wire
  · simpa [hl, hj, hs] using h.lastSent
  · simpa [hc, hout] using h.drained

theorem submit (h : Ledger c) {command : Command} {line : String}
    (he : command.encode = .ok line) (ho : c.closed = false) :
    Ledger
      { c with
        waiting := c.waiting ++ [⟨c.nextId, command.name, line⟩]
        nextId := c.nextId + 1
        signalled := true
        journal := c.journal ++ [.submitted ⟨c.nextId, command.name, line⟩] } := by
  have hkept := keptIn_submitted (r := ⟨c.nextId, command.name, line⟩) h.next_not_withdrawn
  obtain ⟨done, hd, hi⟩ := h.account
  constructor
  · exact h.toRegister.submitted he
  · exact ⟨done, by simp [hkept, hd, outstanding], by simpa using hi⟩
  · simpa using h.slot
  · rw [hkept, List.map_append]
    simpa using h.wire.trans (List.prefix_append _ _)
  · simpa using h.lastSent
  · simp [ho]

/-- Taking a command back touches neither what is answered nor what is in flight. -/
theorem kept_withdraw (h : Ledger c) (hr : r ∈ c.waiting) {done : List Request}
    (hdone : keptIn c.journal = done ++ c.outstanding)
    (hids : done.map (·.id) = (answersIn c.journal).map (·.1)) :
    keptIn (c.journal ++ [.withdrawn r.id]) =
      done ++ (c.inFlight.toList ++ c.waiting.filter (·.id != r.id)) := by
  obtain ⟨hanswers, hflight⟩ := h.waiting_fresh hr
  have h1 : done.filter (·.id != r.id) = done := by
    apply List.filter_eq_self.2
    intro q hq
    have : q.id ∈ (answersIn c.journal).map (·.1) := hids ▸ List.mem_map_of_mem hq
    simpa using fun he : q.id = r.id => hanswers (he ▸ this)
  have h2 : c.inFlight.toList.filter (·.id != r.id) = c.inFlight.toList := by
    apply List.filter_eq_self.2
    intro q hq
    simpa using fun he : q.id = r.id => hflight (he ▸ List.mem_map_of_mem hq)
  rw [keptIn_withdrawn, hdone, outstanding, List.filter_append, List.filter_append, h1, h2]

theorem withdraw (h : Ledger c) (hr : r ∈ c.waiting) :
    Ledger
      { c with
        waiting := c.waiting.filter (·.id != r.id)
        journal := c.journal ++ [.withdrawn r.id] } := by
  have hout : r ∈ c.outstanding := List.mem_append_right _ hr
  have hopen := h.open_of_outstanding hout
  obtain ⟨done, hdone, hids⟩ := h.account
  have hkept := h.kept_withdraw hr hdone hids
  have hsent : sentIn (c.journal ++ [.withdrawn r.id]) = sentIn c.journal := by simp
  constructor
  · exact h.toRegister.withdrawn (h.mem_kept hout)
  · exact ⟨done, hkept, by simpa using hids⟩
  · simpa using h.slot
  · rw [hkept, hsent, h.slot hopen, List.map_append, List.map_append, hids, ← List.append_assoc]
    exact List.prefix_append _ _
  · simpa using h.lastSent
  · simp [hopen]

theorem send (h : Ledger c) {rest : List Request} (ho : c.closed = false)
    (hf : c.inFlight = none) (hw : c.waiting = r :: rest) :
    Ledger
      { c with
        waiting := rest
        inFlight := some r
        lastSent := r.id
        journal := c.journal ++ [.sent r.id] } := by
  have hkept : keptIn (c.journal ++ [.sent r.id]) = keptIn c.journal := keptIn_append rfl rfl
  have hsent : sentIn (c.journal ++ [.sent r.id]) = (answersIn c.journal).map (·.1) ++ [r.id] := by
    simpa [hf] using h.slot ho
  obtain ⟨done, hdone, hids⟩ := h.account
  simp only [outstanding, hf, hw, Option.toList_none, List.nil_append] at hdone
  constructor
  · exact h.toRegister.append rfl rfl
  · exact ⟨done, by simp [hkept, hdone, outstanding], by simpa using hids⟩
  · intro _
    rw [hsent]
    simp
  · rw [hkept, hsent, hdone, ← hids]
    exact ⟨rest.map (·.id), by simp⟩
  · simp [hsent]
  · simp [ho]

theorem answer (h : Ledger c) (hf : c.inFlight = some r) :
    Ledger
      { c with
        inFlight := none
        signalled := true
        journal := c.journal ++ [.answered r.id o] } := by
  have hkept : keptIn (c.journal ++ [.answered r.id o]) = keptIn c.journal := keptIn_append rfl rfl
  have hopen := h.open_of_outstanding (r := r) (by simp [outstanding, hf])
  obtain ⟨done, hdone, hids⟩ := h.account
  constructor
  · exact h.toRegister.append rfl rfl
  · exact ⟨done ++ [r], by simp [hkept, hdone, outstanding, hf], by simp [hids]⟩
  · simpa [hf] using h.slot
  · simpa [hkept] using h.wire
  · simpa using h.lastSent
  · simp [hopen]

theorem fail (h : Ledger c) (error : Error) :
    Ledger
      { c with
        waiting := []
        inFlight := none
        closed := true
        journal := c.journal ++ ending c.outstanding error } := by
  have ha := acceptedIn_ending c.outstanding error
  have hd := withdrawnIn_ending c.outstanding error
  have hs := sentIn_ending c.outstanding error
  have hk := answersIn_ending c.outstanding error
  have hkept : keptIn (c.journal ++ ending c.outstanding error) = keptIn c.journal :=
    keptIn_append ha hd
  obtain ⟨done, hdone, hids⟩ := h.account
  constructor
  · exact h.toRegister.append ha hd
  · refine ⟨done ++ c.outstanding, ?_, by simp [hk, hids, Function.comp_def]⟩
    rw [hkept, hdone]
    simp [outstanding]
  · simp
  · simpa [hs, hkept] using h.wire
  · simpa [hs] using h.lastSent
  · simp [outstanding]

end Ledger

/-- The commands that were put in flight, in order. -/
def onWire (c : Channel) : List Request :=
  (keptIn c.journal).take (sentIn c.journal).length

theorem onWire_prefix_kept : c.onWire <+: keptIn c.journal :=
  List.take_prefix _ _

namespace Ledger

theorem onWire_ids (h : Ledger c) : c.onWire.map (·.id) = sentIn c.journal := by
  rw [onWire, List.map_take]
  exact (List.prefix_iff_eq_take.1 h.wire).symm

theorem onWire_eq (h : Ledger c) (ho : c.closed = false) {done : List Request}
    (hdone : keptIn c.journal = done ++ c.outstanding)
    (hids : done.map (·.id) = (answersIn c.journal).map (·.1)) :
    c.onWire = done ++ c.inFlight.toList := by
  have hlen : (sentIn c.journal).length = (done ++ c.inFlight.toList).length := by
    rw [h.slot ho, ← hids]
    simp
  rw [onWire, hdone, outstanding, ← List.append_assoc, hlen, List.take_left]

end Ledger

theorem ledger_step {a : Act} (hs : Step c a d) (h : Ledger c) : Ledger d := by
  cases hs with
  | submit he ho => exact h.submit he ho
  | withdraw hw =>
    obtain ⟨r, hr, rfl⟩ := hw
    exact h.withdraw hr
  | look => exact h.of_quiet (k := []) rfl rfl rfl rfl rfl (by simp) rfl rfl rfl rfl
  | send ho hf hw => exact h.send ho hf hw
  | answer hf => exact h.answer hf
  | event => exact h.of_quiet rfl rfl rfl rfl rfl rfl rfl rfl rfl rfl
  | fail => exact h.fail _

theorem ledger_run {p : Act → Prop} (hs : Run p c d) (h : Ledger c) : Ledger d := by
  induction hs with
  | refl => exact h
  | tail _ hs ih =>
    obtain ⟨a, -, hs⟩ := hs
    exact ledger_step hs ih

theorem onWire_step {a : Act} (hs : Step c a d) (h : Ledger c) : c.onWire <+: d.onWire := by
  have hd := ledger_step hs h
  cases hs with
  | @submit command line he ho =>
    have hle := h.wire.length_le
    rw [List.length_map] at hle
    have hkept := keptIn_submitted (r := ⟨c.nextId, command.name, line⟩) h.next_not_withdrawn
    simp only [onWire, hkept, told_append, told_cons, told_nil, Entry.sent?, Option.toList_none,
      List.append_nil]
    rw [List.take_append_of_le_length hle]
  | withdraw hw =>
    obtain ⟨r, hr, rfl⟩ := hw
    have hopen := h.open_of_outstanding (List.mem_append_right _ hr)
    obtain ⟨done, hdone, hids⟩ := h.account
    rw [h.onWire_eq hopen hdone hids,
      hd.onWire_eq hopen (h.kept_withdraw hr hdone hids) (by simpa using hids)]
  | look => exact List.prefix_rfl
  | send ho hf hw =>
    simp only [onWire, keptIn_append (k := [.sent _]) rfl rfl]
    exact List.take_prefix_take_left (by simp)
  | answer hf => simp [onWire, keptIn_append (k := [.answered _ _]) rfl rfl]
  | event => simp [onWire, record, keptIn_append (k := [.event _]) rfl rfl]
  | fail =>
    simp [onWire, keptIn_append (acceptedIn_ending _ _) (withdrawnIn_ending _ _), sentIn_ending]

theorem onWire_run {p : Act → Prop} (hs : Run p c d) (h : Ledger c) : c.onWire <+: d.onWire := by
  induction hs with
  | refl => exact List.prefix_rfl
  | tail hr hs ih =>
    obtain ⟨a, -, hs⟩ := hs
    exact ih.trans (onWire_step hs (ledger_run hr h))

/-- A command that is put in flight comes behind those that were. -/
theorem Ledger.onWire_send (h : Ledger c) (hs : c.sendNext? = some (r, d)) :
    d.onWire = c.onWire ++ [r] := by
  have hd : Ledger d := ledger_step (send_step hs) h
  obtain ⟨rest, ho, hf, hw, rfl⟩ := sendNext?_eq_some hs
  obtain ⟨done, hdone, hids⟩ := h.account
  have hkept : keptIn (c.journal ++ [.sent r.id]) = done ++ r :: rest := by
    simp [keptIn_append (k := [.sent _]) rfl rfl, hdone, outstanding, hf, hw]
  rw [h.onWire_eq ho hdone hids, hd.onWire_eq ho hkept (by simpa using hids), hf]
  simp

/-- Nothing is put in flight but by the writer. -/
theorem onWire_eq_of_run (hs : Run (· ≠ .send) c d) (h : Ledger c) : d.onWire = c.onWire := by
  have hlen : d.onWire.length = c.onWire.length := by
    have hd := (ledger_run hs h).onWire_ids
    rw [run_sent hs, ← h.onWire_ids] at hd
    simpa using congrArg List.length hd
  exact ((onWire_run hs h).eq_of_length hlen.symm).symm

/-- All commands that were put in flight are answered, the one that still is apart. -/
theorem answered_of_onWire (h : Ledger c) {pre post : List Request} {r q : Request}
    (hw : c.onWire = pre ++ r :: post) (hq : q ∈ pre) :
    q.id ∈ (answersIn c.journal).map (·.1) := by
  obtain ⟨done, hdone, hids⟩ := h.account
  rw [← hids]
  apply List.mem_map_of_mem
  cases ho : c.closed with
  | true =>
    have hk : q ∈ keptIn c.journal :=
      onWire_prefix_kept.subset (hw ▸ List.mem_append_left _ hq)
    simpa [hdone, h.drained ho] using hk
  | false =>
    rw [h.onWire_eq ho hdone hids] at hw
    have hpre : pre <+: done := by
      have hall : pre <+: done ++ c.inFlight.toList := hw ▸ List.prefix_append _ _
      apply List.prefix_of_prefix_length_le hall
      · exact List.prefix_append _ _
      · have := congrArg List.length hw
        cases hf : c.inFlight <;> simp [hf] at this <;> omega
    exact hpre.subset hq

namespace Ledger

theorem answers_increasing (h : Ledger c) :
    ((answersIn c.journal).map (·.1)).Pairwise (· < ·) := by
  obtain ⟨done, hdone, hids⟩ := h.account
  have hk := h.kept_ids
  rw [hdone, List.map_append, hids] at hk
  exact (List.pairwise_append.1 hk).1

theorem answers_kept (h : Ledger c) (hid : id ∈ (answersIn c.journal).map (·.1)) :
    id ∈ (keptIn c.journal).map (·.id) := by
  obtain ⟨done, hdone, hids⟩ := h.account
  rw [hdone, List.map_append, hids]
  exact List.mem_append_left _ hid

theorem kept_fresh (h : Ledger c) (hid : id ∈ (keptIn c.journal).map (·.id)) :
    id < c.nextId := by
  obtain ⟨r, hr, rfl⟩ := List.mem_map.1 hid
  exact h.fresh r (List.mem_filter.1 hr).1

/-- Every outcome in the journal is the one of its command. -/
theorem outcome?_eq_some (h : Ledger c) :
    c.outcome? id = some o ↔ (id, o) ∈ answersIn c.journal := by
  rw [outcome?_eq_lookup]
  exact lookup_eq_some_iff_mem (h.answers_increasing.imp Nat.ne_of_lt)

theorem outcome?_isSome (h : Ledger c) :
    (c.outcome? id).isSome ↔ id ∈ (answersIn c.journal).map (·.1) := by
  rw [Option.isSome_iff_exists]
  simp [h.outcome?_eq_some]

end Ledger
end MobDebug.Channel
