import MobDebug.Evaluation
import MobDebug.Proofs.Literal.Sequence
import MobDebug.Proofs.Lists

/-!
Which replies are results. The table of a reply has to have a text for each position and nothing
else, and each of the texts has to be a literal.
-/
namespace MobDebug.Evaluation
open Literal (Key Value Table)

variable {d n : Nat} {body : String} {t : Table} {v w : Value} {values : List Value}

theorem result_eq_ok :
    result d v = .ok w ↔ ∃ text, v = .str text ∧ Literal.read d text = .ok w := by
  cases v with
  | str text =>
    rw [result, Literal.mapError_eq_ok]
    simp
  | _ => simp [result]

/-- A reply whose table is read, and has its positions for keys, gives what its texts give. -/
theorem results_of_read (hread : Literal.read 1 body = .ok (.table t)) :
    results d body =
      if t.sequenceLength = t.length then t.sequence.mapM (result d)
      else .error (.protocol .keyedResults) := by
  rw [results, hread]

theorem read_of_results (h : results d body = .ok values) :
    ∃ t : Table, Literal.read 1 body = .ok (.table t) ∧ t.sequenceLength = t.length ∧
      List.Forall₂ (fun v w => result d v = .ok w) t.sequence values := by
  cases hread : Literal.read 1 body with
  | error e =>
    rw [results, hread] at h
    cases h
  | ok v =>
    cases v with
    | table t =>
      rw [results_of_read hread] at h
      split at h
      · next hlength => exact ⟨t, rfl, hlength, mapM_eq_ok.1 h⟩
      · cases h
    | _ =>
      rw [results, hread] at h
      cases h

theorem sequenceLength_eq_length_of_positional (hread : Literal.read 1 body = .ok (.table t))
    (hl : (Text.bytes body).length < 2 ^ 64) (hp : t.Positional n) :
    t.sequenceLength = t.length ∧ n = t.length := by
  have hlength := Nat.lt_trans (Literal.length_lt_of_read hread) hl
  have hd := Literal.distinct_of_read hread
  have hn := (hp.filledTo.positional_iff hlength hd).1 hp
  refine ⟨(Table.sequenceLength_eq_length_iff hd hlength).2 ?_, hn⟩
  rwa [← hn]

/-- What results are, in the order of their positions. -/
theorem results_eq_ok_iff (hl : (Text.bytes body).length < 2 ^ 64) :
    results d body = .ok values ↔
      ∃ t : Table, Literal.read 1 body = .ok (.table t) ∧ t.Positional values.length ∧
        ∀ i (hi : i < values.length), ∃ text, (Key.position (i + 1), Value.str text) ∈ t ∧
          Literal.read d text = .ok values[i] := by
  constructor
  · intro h
    obtain ⟨t, hread, hlength, hvalues⟩ := read_of_results h
    have hd := Literal.distinct_of_read hread
    have hshort := Nat.lt_trans (Literal.length_lt_of_read hread) hl
    have hcount : values.length = t.length := by
      rw [← hvalues.length_eq, Table.length_sequence, hlength]
    refine ⟨t, hread, ?_, ?_⟩
    · rw [hcount]
      exact (Table.sequenceLength_eq_length_iff hd hshort).1 hlength
    · intro i hi
      have hs : i < t.sequence.length := by rwa [hvalues.length_eq]
      obtain ⟨text, htext, hliteral⟩ := result_eq_ok.1 (hvalues.get hs hi)
      have hentry := (Table.getElem?_sequence hd).1 (List.getElem?_eq_some_iff.2 ⟨hs, htext⟩)
      exact ⟨text, hentry.2, hliteral⟩
  · rintro ⟨t, hread, hp, htexts⟩
    have hd := Literal.distinct_of_read hread
    obtain ⟨hlength, hn⟩ := sequenceLength_eq_length_of_positional hread hl hp
    rw [results_of_read hread, if_pos hlength, mapM_eq_ok, List.forall₂_iff_get]
    refine ⟨by rw [Table.length_sequence, hlength, hn], ?_⟩
    intro i hs hi
    obtain ⟨text, hentry, hliteral⟩ := htexts i hi
    have hvalue := (Table.getElem?_sequence hd).2 ⟨by omega, hentry⟩
    rw [List.getElem?_eq_some_iff] at hvalue
    exact result_eq_ok.2 ⟨text, hvalue.2, hliteral⟩

/-- A reply gives values just where its keys are positions and its values are texts of literals. -/
theorem results_succeed_iff (hl : (Text.bytes body).length < 2 ^ 64) :
    (∃ values, results d body = .ok values) ↔
      ∃ (t : Table) (n : Nat), Literal.read 1 body = .ok (.table t) ∧ t.Positional n ∧
        ∀ e ∈ t, ∃ text v, e.2 = Value.str text ∧ Literal.read d text = .ok v := by
  constructor
  · rintro ⟨values, h⟩
    obtain ⟨t, hread, hp, htexts⟩ := (results_eq_ok_iff hl).1 h
    refine ⟨t, values.length, hread, hp, ?_⟩
    intro e he
    obtain ⟨i, hi, hn, hk⟩ := (hp e.1).1 (List.mem_map_of_mem he)
    obtain ⟨text, hentry, hliteral⟩ := htexts (i - 1) (by omega)
    rw [Nat.sub_add_cancel hi, ← hk] at hentry
    have hd := Literal.distinct_of_read hread
    have hv := (lookup_of_mem hd he).symm.trans (lookup_of_mem hd hentry)
    exact ⟨text, _, Option.some.inj hv, hliteral⟩
  · rintro ⟨t, n, hread, hp, htexts⟩
    obtain ⟨hlength, -⟩ := sequenceLength_eq_length_of_positional hread hl hp
    have hd := Literal.distinct_of_read hread
    have hall : ∀ v ∈ t.sequence, ∃ w, result d v = .ok w := by
      intro v hv
      obtain ⟨i, hi⟩ := List.mem_iff_getElem?.1 hv
      obtain ⟨text, w, htext, hliteral⟩ := htexts _ ((Table.getElem?_sequence hd).1 hi).2
      exact ⟨w, result_eq_ok.2 ⟨text, htext, hliteral⟩⟩
    choose! f hf using hall
    exact ⟨t.sequence.map f, by rw [results_of_read hread, if_pos hlength, mapM_ok hf]⟩

/-- The sequence of a table reaches as far as its positions are keys without a hole, holds the
values there in their order, whatever the order of the entries, and takes in all of the table just
where the keys are the positions up to its length. So a reply gives values if and only if it is read
as a table whose keys are positions without a hole and whose values are texts that are read in turn,
and these are the values, in the order of the positions. -/
theorem results_positional :
    (∀ t : Table, (t.map Prod.fst).Nodup → t.length < 2 ^ 64 →
      IsGreatest {n | t.FilledTo n} t.sequenceLength ∧
      t.sequence.length = t.sequenceLength ∧
      (∀ i v, t.sequence[i]? = some v ↔ i < t.sequenceLength ∧ (Key.position (i + 1), v) ∈ t) ∧
      (∀ u : Table, u.Perm t → u.sequence = t.sequence) ∧
      t.sequenceLength ≤ t.length ∧
      (t.sequenceLength = t.length ↔ t.Positional t.length)) ∧
    ∀ d body, (Text.bytes body).length < 2 ^ 64 →
      ((∃ values, results d body = .ok values) ↔
        ∃ (t : Table) (n : Nat), Literal.read 1 body = .ok (.table t) ∧ t.Positional n ∧
          ∀ e ∈ t, ∃ text v, e.2 = Value.str text ∧ Literal.read d text = .ok v) ∧
      ∀ values, results d body = .ok values ↔
        ∃ t : Table, Literal.read 1 body = .ok (.table t) ∧ t.Positional values.length ∧
          ∀ i (hi : i < values.length), ∃ text, (Key.position (i + 1), Value.str text) ∈ t ∧
            Literal.read d text = .ok values[i] := by
  constructor
  · intro t hd hl
    exact ⟨Table.sequenceLength_greatest hl, Table.length_sequence t,
      fun _ _ => Table.getElem?_sequence hd, fun _ hp => Table.sequence_perm hd hl hp,
      Table.sequenceLength_le_length t, Table.sequenceLength_eq_length_iff hd hl⟩
  · intro d body hl
    exact ⟨results_succeed_iff hl, fun _ => results_eq_ok_iff hl⟩

/-- The second result comes first, and is nil. -/
theorem results_positional_swapped :
    let t : Table := [(.int 2, .str "nil"), (.int 1, .str "true")]
    let body := "\x7b[2] = \"nil\", \"true\"\x7d"
    (t.map Prod.fst).Nodup ∧ t.length < 2 ^ 64 ∧ t.Positional t.length ∧
      (Text.bytes body).length < 2 ^ 64 ∧ results 0 body = .ok [.bool true, .nil] := by
  intro t body
  have hd : (t.map Prod.fst).Nodup := by decide
  have hl : t.length < 2 ^ 64 := by decide
  have hbody : (Text.bytes body).length < 2 ^ 64 := by decide
  obtain ⟨htable, hresults⟩ := results_positional
  obtain ⟨-, -, -, -, -, hpositional⟩ := htable t hd hl
  have hp : t.Positional t.length := hpositional.1 rfl
  have hread : Literal.read 1 body = .ok (.table t) := by
    have hwritable : Value.Writable (.table t) := by
      refine .table _ ⟨hd, ?_, by decide⟩ ?_
      · simp only [t, List.forall_mem_cons, Key.Normal]
        simp
      · simp only [t, List.forall_mem_cons]
        exact ⟨.str _, .str _, List.forall_mem_nil _⟩
    have hrender : (Value.table t).render = body := rfl
    have hback := Literal.read_render hwritable (d := 1) (by decide)
    rwa [hrender] at hback
  refine ⟨hd, hl, hp, hbody, ((hresults 0 body hbody).2 _).2 ⟨t, hread, hp, ?_⟩⟩
  intro i hi
  have hcases : i = 0 ∨ i = 1 := by
    rw [List.length_cons, List.length_singleton] at hi
    omega
  rcases hcases with rfl | rfl
  · exact ⟨"true", by simp [t, Key.position], Literal.read_derives rfl (.bool true)⟩
  · exact ⟨"nil", by simp [t, Key.position], Literal.read_derives rfl .nil⟩

end MobDebug.Evaluation
