import MobDebug.Evaluation
import MobDebug.Proofs.Literal.Rows
import MobDebug.Proofs.Lists

/-!
Values sent as the results of an evaluation are read back. Each of them is a text within the text of
a table, and is read under a limit of its own.
-/
namespace MobDebug.Evaluation
open Literal (Value Table)

variable {d : Nat} {v : Value} {values : List Value}

/-- What carries values: a table with the text of each, as a string, at its position. -/
def replyTable (values : List Value) : Table :=
  Table.row (values.map fun v => .str v.render)

/-- The reply with these values. -/
def reply (values : List Value) : String :=
  (Value.table (replyTable values)).render

theorem isNil_texts (values : List Value) :
    ∀ v ∈ values.map fun v => Value.str v.render, v.isNil = false := by
  rw [List.forall_mem_map]
  exact fun _ _ => rfl

/-- Under one level of tables, the texts are read as they were written. -/
theorem read_reply (hl : values.length ≤ 2 ^ 64) :
    Literal.read 1 (reply values) = .ok (.table (replyTable values)) := by
  have htexts : ∀ t ∈ values.map fun v => Value.str v.render, t.Writable ∧ t.depth ≤ 0 := by
    rw [List.forall_mem_map]
    exact fun v _ => ⟨.str _, Nat.le_refl 0⟩
  have hwritable : (Value.table (replyTable values)).Writable :=
    Value.writable_row (by rwa [List.length_map]) fun t ht => (htexts t ht).1
  have hdepth : (Value.table (replyTable values)).depth ≤ 1 :=
    Value.depth_row_le_iff.2 fun t ht => (htexts t ht).2
  rw [reply, Literal.read_render hwritable hdepth, replyTable, Value.reread_row, List.map_map]
  rfl

/-- Each text is read under the limit of the values. -/
theorem results_reply (hl : values.length ≤ 2 ^ 64) :
    results d (reply values) = (values.map fun v => Value.str v.render).mapM (result d) := by
  have htexts := isNil_texts values
  have hlength : (values.map fun v => Value.str v.render).length ≤ 2 ^ 64 := by
    rwa [List.length_map]
  rw [results, read_reply hl]
  dsimp only
  rw [replyTable, Table.sequenceLength_row hlength htexts, Table.sequence_row hlength htexts,
    Table.row, Table.length_rowFrom htexts, if_pos rfl]

theorem result_render (h : v.Writable) (hd : v.depth ≤ d) :
    result d (.str v.render) = .ok v.reread := by
  rw [result, Literal.read_render h hd]
  rfl

theorem result_deep (h : v.Writable) (hd : d < v.depth) :
    ∃ o, result d (.str v.render) = .error (.literal ⟨.tooDeep d, o⟩) := by
  obtain ⟨o, ho⟩ := Literal.read_render_deep h hd
  rw [result, ho]
  exact ⟨o, rfl⟩

theorem results_ok (hl : values.length ≤ 2 ^ 64) (hv : ∀ v ∈ values, v.Writable)
    (hd : ∀ v ∈ values, v.depth ≤ d) :
    results d (reply values) = .ok (values.map Value.reread) := by
  have hresults := mapM_ok (f := fun v : Value => result d (.str v.render))
    fun v hm => result_render (hv v hm) (hd v hm)
  rwa [results_reply hl, List.mapM_map]

theorem results_deep (hl : values.length ≤ 2 ^ 64) (hv : ∀ v ∈ values, v.Writable)
    (hd : ∃ v ∈ values, d < v.depth) :
    ∃ o, results d (reply values) = .error (.literal ⟨.tooDeep d, o⟩) := by
  obtain ⟨v, hm, hdeep⟩ := hd
  obtain ⟨o, ho⟩ := result_deep (hv v hm) hdeep
  obtain ⟨w, hw, e, he, hresults⟩ :=
    mapM_error (f := fun v : Value => result d (.str v.render)) hm ho
  rw [results_reply hl, List.mapM_map]
  rcases Nat.lt_or_ge d w.depth with hlt | hge
  · obtain ⟨o', ho'⟩ := result_deep (hv w hw) hlt
    cases he.symm.trans ho'
    exact ⟨o', hresults⟩
  · cases he.symm.trans (result_render (hv w hw) hge)

/-- One value comes back just where it nests no deeper than the limit. -/
theorem results_single_iff (h : v.Writable) :
    (∃ ws, results d (reply [v]) = .ok ws) ↔ v.depth ≤ d := by
  have hv := List.forall_mem_singleton.2 h
  constructor
  · rintro ⟨ws, hws⟩
    by_contra hd
    obtain ⟨o, ho⟩ :=
      results_deep (d := d) (by simp) hv ⟨v, List.mem_singleton_self v, Nat.lt_of_not_le hd⟩
    cases hws.symm.trans ho
  · exact fun hd => ⟨_, results_ok (by simp) hv (List.forall_mem_singleton.2 hd)⟩

/-- Values come back from the reply that carries them, each equal to the one that was sent and in
its place, if each nests tables at most as deep as the limit allows. If one nests deeper, there is a
fault of the literal and no value. There are as many positions as integers of 64 bits. -/
theorem results_read_back (values : List Value) (d : Nat) (hl : values.length ≤ 2 ^ 64)
    (hv : ∀ v ∈ values, v.Writable) :
    ((∀ v ∈ values, v.depth ≤ d) → ∃ ws, results d (reply values) = .ok ws ∧
      List.Forall₂ (fun v w => v.equal w = true ∧ w.equal v = true) values ws) ∧
    ((∃ v ∈ values, d < v.depth) →
      ∃ o, results d (reply values) = .error (.literal ⟨.tooDeep d, o⟩)) := by
  refine ⟨fun hd => ⟨values.map Value.reread, results_ok hl hv hd, ?_⟩, results_deep hl hv⟩
  rw [List.forall₂_map_right_iff, List.forall₂_same]
  exact fun v hm => Literal.equal_reread (hv v hm)

/-- Nil, the least integer, a text that needs every kind of escape, and a table that is too deep for
the lower of two limits. -/
theorem results_read_back_four :
    let values : List Value := [.nil, .number (.int .minValue), .str "\"\\\n\x00\x37é]]",
      .table [(.str "end", .table [(.int 2, .reference "")])]]
    values.length ≤ 2 ^ 64 ∧ (∀ v ∈ values, v.Writable) ∧
      (∃ ws, results 2 (reply values) = .ok ws ∧
        List.Forall₂ (fun v w => v.equal w = true ∧ w.equal v = true) values ws) ∧
      ∃ o, results 1 (reply values) = .error (.literal ⟨.tooDeep 1, o⟩) := by
  intro values
  have hinner : Value.Writable (.table [(.int 2, .reference "")]) := by
    refine .table _ ⟨by decide, ?_, by decide⟩ ?_
    · exact List.forall_mem_singleton.2 trivial
    · exact List.forall_mem_singleton.2 (.reference "" ⟨rfl, by decide, by decide⟩)
  have houter : Value.Writable (.table [(.str "end", .table [(.int 2, .reference "")])]) := by
    refine .table _ ⟨by decide, ?_, by decide⟩ ?_
    · exact List.forall_mem_singleton.2 trivial
    · exact List.forall_mem_singleton.2 hinner
  have hv : ∀ v ∈ values, v.Writable := by
    simp only [values, List.forall_mem_cons, List.not_mem_nil, false_implies, implies_true,
      and_true]
    exact ⟨.nil, .number _ (by decide), .str _, houter⟩
  have hl : values.length ≤ 2 ^ 64 := by decide
  exact ⟨hl, hv, (results_read_back values 2 hl hv).1 (by decide),
    (results_read_back values 1 hl hv).2 (by decide)⟩

end MobDebug.Evaluation
