import MobDebug.Proofs.Channel.Ledger

/-! What the entries of a journal tell about the moment they were made at: a pause names the command
last put on the wire, and a reply belongs to it. -/
namespace MobDebug.Channel

variable {c d : Channel} {a : Act} {p : Act → Prop} {r : Request} {id n : Nat}
  {j k pre post : List Entry} {e : Entry}

/-- An entry is true of what was told before it. -/
def Entry.TrueAfter (pre : List Entry) : Entry → Prop
  | .event (.paused _ after) => after = (sentIn pre).getLast?.getD 0
  | .answered id (.ok _) => (sentIn pre).getLast? = some id
  | _ => True

/-- Every entry of a journal is true of what was told before it. -/
def Reports (j : List Entry) : Prop :=
  ∀ pre e post, j = pre ++ e :: post → e.TrueAfter pre

theorem reports_nil : Reports [] := by
  intro pre e post h
  exact absurd h (by simp)

theorem reports_append (hj : Reports j)
    (hk : ∀ pre e post, k = pre ++ e :: post → e.TrueAfter (j ++ pre)) : Reports (j ++ k) := by
  intro pre e post h
  rcases List.append_eq_append_iff.1 h with ⟨i, rfl, hi⟩ | ⟨i, rfl, hi⟩
  · exact hk i e post hi
  · cases i with
    | nil =>
      rw [List.nil_append] at hi
      simpa using hk [] e post hi.symm
    | cons x i =>
      obtain ⟨rfl, -⟩ := List.cons.inj hi
      exact hj pre e i rfl

theorem reports_concat (hj : Reports j) (he : e.TrueAfter j) : Reports (j ++ [e]) := by
  apply reports_append hj
  intro pre e' post h
  obtain ⟨rfl, rfl, -⟩ : pre = [] ∧ e' = e ∧ post = [] := by
    cases pre <;> simp_all
  simpa using he

/-- The end of a channel hands out errors only. -/
theorem reports_ending (hj : Reports j) (rs : List Request) (error : Error) :
    Reports (j ++ ending rs error) := by
  apply reports_append hj
  intro pre e post h
  have he : e ∈ ending rs error := h ▸ List.mem_append_right _ List.mem_cons_self
  rw [ending, List.mem_append, List.mem_singleton, List.mem_map] at he
  rcases he with ⟨r, -, rfl⟩ | rfl <;> trivial

/-- The command in flight is the one last put on the wire. -/
theorem Ledger.getLast_sent (h : Ledger c) (hf : c.inFlight = some r) :
    (sentIn c.journal).getLast? = some r.id := by
  have ho : c.closed = false := h.open_of_outstanding (r := r) (by simp [outstanding, hf])
  simp [h.slot ho, hf]

theorem reports_step (hs : Step c a d) (h : Ledger c) (hr : Reports c.journal) :
    Reports d.journal := by
  cases hs with
  | submit | withdraw | send => exact reports_concat hr trivial
  | look => exact hr
  | @answer _ o hf =>
    apply reports_concat hr
    cases o with
    | ok => exact h.getLast_sent hf
    | error => trivial
  | @event e hp =>
    apply reports_concat hr
    cases e with
    | paused l n => exact (hp l n rfl).trans h.lastSent
    | _ => trivial
  | fail => exact reports_ending hr _ _

theorem reports_run (hs : Run p c d) (h : Ledger c) (hr : Reports c.journal) :
    Reports d.journal := by
  induction hs with
  | refl => exact hr
  | tail hrun hs ih =>
    obtain ⟨a, -, hs⟩ := hs
    exact reports_step hs (ledger_run hrun h) ih

/-- What is told in a journal is told at some moment. -/
theorem split_of_told {α : Type} {f : Entry → Option α} {x : α} (h : x ∈ told f j) :
    ∃ pre e post, j = pre ++ e :: post ∧ f e = some x := by
  obtain ⟨e, he, hx⟩ := List.mem_filterMap.1 h
  obtain ⟨pre, post, hj⟩ := List.append_of_mem he
  exact ⟨pre, e, post, hj, hx⟩

/-- A command with a reply other than an error was put on the wire. -/
theorem Reports.sent_of_ok {body : String} (hr : Reports j) (h : (id, .ok body) ∈ answersIn j) :
    id ∈ sentIn j := by
  obtain ⟨pre, e, post, rfl, he⟩ := split_of_told h
  cases e with
  | answered =>
    cases he
    have hlast : (sentIn pre).getLast? = some id := hr _ _ _ rfl
    have hmem := List.mem_of_getLast? hlast
    simp [hmem]
  | _ => cases he

/-- A command that was not on the wire at some moment, and was not taken back, comes after all those
that were. -/
theorem Ledger.lt_of_not_sent (h : Ledger c) (hj : c.journal = pre ++ post)
    (hr : r ∈ keptIn c.journal) (hn : r.id ∉ sentIn pre) : ∀ id ∈ sentIn pre, id < r.id := by
  intro id hid
  have hpre : sentIn pre <+: (keptIn c.journal).map (·.id) :=
    List.IsPrefix.trans ⟨sentIn post, by simp [hj]⟩ h.wire
  obtain ⟨rest, hrest⟩ := hpre
  have hinc := h.kept_ids
  rw [← hrest, List.pairwise_append] at hinc
  have hmem : r.id ∈ sentIn pre ++ rest := hrest ▸ List.mem_map_of_mem hr
  exact hinc.2.2 id hid r.id ((List.mem_append.1 hmem).resolve_left hn)

end MobDebug.Channel
