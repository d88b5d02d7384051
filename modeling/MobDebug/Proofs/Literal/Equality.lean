import MobDebug.Proofs.Literal.Grammar.Stability
import MobDebug.Proofs.Literal.Normalization
import Mathlib.Data.List.Perm.Subperm

/-!
Equality of values is symmetric and transitive, and fails to be reflexive only at NaN. The program
looks up the keys of one table in the other and compares the lengths; as keys are distinct, this
asks for the same keys on both sides.
-/
namespace MobDebug.Literal

variable {a b t : Table} {e : Key × Value} {m n : Number} {v w : Value}

/-- In the value, no table has a key twice, as no table made by assignments does. -/
def Value.Keyed (v : Value) : Prop :=
  ∀ t, v.Holds (.table t) → (t.map Prod.fst).Nodup

theorem Value.Keyed.distinct (h : (Value.table t).Keyed) : (t.map Prod.fst).Nodup :=
  h t (.self _)

theorem Value.Keyed.entry (h : (Value.table t).Keyed) (he : e ∈ t) : e.2.Keyed :=
  fun u hu => h u (.entry he hu)

theorem keyed_table (ht : (t.map Prod.fst).Nodup) (he : ∀ e ∈ t, e.2.Keyed) :
    (Value.table t).Keyed := by
  rintro u (_ | ⟨hm, hu⟩)
  · exact ht
  · exact he _ hm u hu

theorem keyed_atom (hv : ∀ t, v ≠ .table t) : v.Keyed :=
  fun t ht => absurd (ht.of_atom hv).symm (hv t)

/-- What is read has distinct keys, at every level. -/
theorem keyed_of_read {limit : Nat} {text : String} (h : read limit text = .ok v) : v.Keyed :=
  fun t ht => ((within_of_read h).1.tables t ht).distinct

theorem Number.equal_comm (m n : Number) : m.equal n = n.equal m := by
  rw [Bool.eq_iff_iff, Number.equal_iff, Number.equal_iff]
  simp only [and_comm]

theorem Number.equal_trans {l : Number} (hm : l.equal m = true) (hn : m.equal n = true) :
    l.equal n = true := by
  obtain ⟨q, hl, hq⟩ := Number.equal_iff.1 hm
  obtain ⟨r, hr, hn⟩ := Number.equal_iff.1 hn
  obtain rfl : q = r := Option.some.inj (hq.symm.trans hr)
  exact Number.equal_iff.2 ⟨q, hl, hn⟩

theorem Number.equal_self_iff : n.equal n = true ↔ n ≠ .float .nan := by
  constructor
  · rintro h rfl
    cases h
  · exact fun hn => (Number.equal_iff_quantity? hn).2 rfl

theorem entriesIn_iff :
    Value.entriesIn a b = true ↔ ∀ e ∈ a, ∃ w, b.lookup e.1 = some w ∧ e.2.equal w = true := by
  refine ⟨fun h => ?_, entriesIn_of_lookup⟩
  induction a with
  | nil => simp
  | cons e a ih =>
    obtain ⟨k, v⟩ := e
    rw [Value.entriesIn, Bool.and_eq_true] at h
    obtain ⟨hv, ha⟩ := h
    refine List.forall_mem_cons.2 ⟨?_, ih ha⟩
    split at hv
    · next w hw => exact ⟨w, hw, hv⟩
    · cases hv

theorem equal_table_iff : (Value.table a).equal (.table b) = true ↔
    a.length = b.length ∧ ∀ e ∈ a, ∃ w, b.lookup e.1 = some w ∧ e.2.equal w = true := by
  rw [Value.equal, Bool.and_eq_true, beq_iff_eq, entriesIn_iff]

/-- Distinct keys that are all among as many others are all the others. -/
theorem keys_perm (ha : (a.map Prod.fst).Nodup) (hl : a.length = b.length)
    (h : ∀ e ∈ a, ∃ w, b.lookup e.1 = some w) : (a.map Prod.fst).Perm (b.map Prod.fst) := by
  have hsub : a.map Prod.fst ⊆ b.map Prod.fst := by
    intro k hk
    obtain ⟨e, he, rfl⟩ := List.mem_map.1 hk
    obtain ⟨w, hw⟩ := h e he
    exact List.mem_map.2 ⟨(e.1, w), mem_of_lookup hw, rfl⟩
  refine (ha.subperm hsub).perm_of_length_le ?_
  rw [List.length_map, List.length_map, hl]

theorem lookup_of_key {k : Key} (hk : k ∈ a.map Prod.fst) : ∃ v, a.lookup k = some v := by
  obtain ⟨e, he, rfl⟩ := List.mem_map.1 hk
  rw [← Option.isSome_iff_exists, List.lookup_isSome_iff]
  exact ⟨e, he, BEq.rfl⟩

/-- Tables with distinct keys are equal where they have the same keys, with equal values under
each. -/
theorem equal_iff_of_distinct (ha : (a.map Prod.fst).Nodup) (hb : (b.map Prod.fst).Nodup) :
    (Value.table a).equal (.table b) = true ↔ (∀ k, k ∈ a.map Prod.fst ↔ k ∈ b.map Prod.fst) ∧
      ∀ k v w, a.find? k = some v → b.find? k = some w → v.equal w = true := by
  rw [equal_table_iff]
  constructor
  · rintro ⟨hl, h⟩
    refine ⟨fun k => (keys_perm ha hl fun e he => ?_).mem_iff, fun k v w hv hw => ?_⟩
    · obtain ⟨w, hw, -⟩ := h e he
      exact ⟨w, hw⟩
    · obtain ⟨u, hu, heq⟩ := h (k, v) (mem_of_lookup hv)
      obtain rfl : u = w := Option.some.inj (hu.symm.trans hw)
      exact heq
  · rintro ⟨hkeys, h⟩
    constructor
    · simpa using ((List.perm_ext_iff_of_nodup ha hb).2 hkeys).length_eq
    · intro e he
      obtain ⟨w, hw⟩ := lookup_of_key ((hkeys e.1).1 (List.mem_map_of_mem he))
      exact ⟨w, hw, h e.1 e.2 w (lookup_of_mem ha he) hw⟩

/-- But for numbers and tables, values are equal where they are the same. -/
theorem equal_atom_iff (hn : ∀ n, v ≠ .number n) (ht : ∀ t, v ≠ .table t) :
    v.equal w = true ↔ v = w := by
  cases v with
  | number n => exact absurd rfl (hn n)
  | table t => exact absurd rfl (ht t)
  | _ => cases w <;> simp [Value.equal]

theorem equal_number_iff :
    (Value.number n).equal w = true ↔ ∃ m, w = .number m ∧ n.equal m = true := by
  cases w <;> simp [Value.equal]

/-- Values are made of numbers, tables of smaller values, and what is equal only to itself. -/
@[elab_as_elim]
theorem Value.cases_equal {motive : Value → Prop} (number : ∀ n, motive (.number n))
    (table : ∀ entries, (∀ e ∈ entries, motive e.2) → motive (.table entries))
    (other : ∀ v, (∀ w, v.equal w = true ↔ v = w) → (∀ w, v.Holds w → w = v) → motive v)
    (v : Value) : motive v := by
  induction v using Value.induct with
  | table entries ih => exact table entries ih
  | atom v hv =>
    by_cases hn : ∃ n, v = .number n
    · obtain ⟨n, rfl⟩ := hn
      exact number n
    · exact other v (fun w => equal_atom_iff (not_exists.1 hn) hv) fun w hw => hw.of_atom hv

/-- By induction on the first value. Both tables have the same keys, so the keys of the second are
looked up in the first as those of the first are in the second. -/
theorem equal_symm (ha : v.Keyed) (hb : w.Keyed) (h : v.equal w = true) : w.equal v = true := by
  induction v using Value.cases_equal generalizing w with
  | number n =>
    obtain ⟨m, rfl, hm⟩ := equal_number_iff.1 h
    exact (Number.equal_comm m n).trans hm
  | other v heq =>
    obtain rfl := (heq w).1 h
    exact h
  | table a ih =>
    cases w with
    | table b =>
      obtain ⟨hkeys, hvalues⟩ := (equal_iff_of_distinct ha.distinct hb.distinct).1 h
      refine (equal_iff_of_distinct hb.distinct ha.distinct).2
        ⟨fun k => (hkeys k).symm, fun k v w hv hw => ?_⟩
      have hv := mem_of_lookup hv
      have hw' := mem_of_lookup hw
      exact ih (k, w) hw' (ha.entry hw') (hb.entry hv)
        (hvalues k w v hw (lookup_of_mem hb.distinct hv))
    | _ => cases h

/-- By induction on the first value: a value of the first table has an equal one in the second, and
that has one in the third. -/
theorem equal_trans (h : v.equal w = true) {u : Value} (hw : w.equal u = true) :
    v.equal u = true := by
  induction v using Value.cases_equal generalizing w u with
  | number n =>
    obtain ⟨m, rfl, hm⟩ := equal_number_iff.1 h
    obtain ⟨l, rfl, hl⟩ := equal_number_iff.1 hw
    exact Number.equal_trans hm hl
  | other v heq =>
    obtain rfl := (heq w).1 h
    exact hw
  | table a ih =>
    cases w with
    | table b =>
      cases u with
      | table c =>
        obtain ⟨hab, ha⟩ := equal_table_iff.1 h
        obtain ⟨hbc, hb⟩ := equal_table_iff.1 hw
        refine equal_table_iff.2 ⟨hab.trans hbc, fun e he => ?_⟩
        obtain ⟨x, hx, hex⟩ := ha e he
        obtain ⟨y, hy, hxy⟩ := hb (e.1, x) (mem_of_lookup hx)
        exact ⟨y, hy, ih e he hex hxy⟩
      | _ => cases hw
    | _ => cases h

/-- By induction on the value: a table holds what its entries hold. -/
theorem equal_self_iff (hv : v.Keyed) :
    v.equal v = true ↔ ¬ v.Holds (.number (.float .nan)) := by
  induction v using Value.cases_equal with
  | number n =>
    rw [Value.equal, Number.equal_self_iff, not_iff_not]
    constructor
    · rintro rfl
      exact .self _
    · rintro ⟨⟩
      rfl
  | other v heq hatom =>
    refine iff_of_true ((heq v).2 rfl) fun h => ?_
    have hnan := (heq v).2 rfl
    rw [← hatom _ h] at hnan
    cases hnan
  | table a ih =>
    have hself : (Value.table a).equal (.table a) = true ↔ ∀ e ∈ a, e.2.equal e.2 = true := by
      rw [equal_table_iff, and_iff_right rfl]
      refine forall₂_congr fun e he => ?_
      simp [lookup_of_mem hv.distinct he]
    rw [hself]
    constructor
    · rintro h (_ | ⟨he, hnan⟩)
      exact (ih _ he (hv.entry he)).1 (h _ he) hnan
    · exact fun h e he => (ih e he (hv.entry he)).2 fun hnan => h (.entry he hnan)

/-- Equality of values is symmetric and transitive, only what holds NaN is not equal to itself, and
tables are equal where they have the same keys and equal values under each, in whatever order. -/
theorem equal_partial_equivalence {a b c : Value} {s t : Table} (ha : a.Keyed) (hb : b.Keyed)
    (hs : (Value.table s).Keyed) (ht : (Value.table t).Keyed) :
    (a.equal b = true ↔ b.equal a = true) ∧
      (a.equal b = true → b.equal c = true → a.equal c = true) ∧
      (a.equal a = true ↔ ¬ a.Holds (.number (.float .nan))) ∧
      ((Value.table s).equal (.table t) = true ↔
        (∀ k, k ∈ s.map Prod.fst ↔ k ∈ t.map Prod.fst) ∧
          ∀ k v w, s.find? k = some v → t.find? k = some w → v.equal w = true) :=
  ⟨⟨equal_symm ha hb, equal_symm hb ha⟩, fun hab hbc => equal_trans hab hbc, equal_self_iff ha,
    equal_iff_of_distinct hs.distinct ht.distinct⟩

/-- Two spellings of one table, in two orders and a level further down. -/
theorem equal_partial_equivalence_nested :
    let half : Value :=
      .table [(.bool true, .number (.float (.finite ⟨false, 2 ^ 52, -53, by decide⟩)))]
    let two : Value := .number (.float (.finite ⟨false, 2 ^ 52, -51, by decide⟩))
    let s : Table := [(.int 1, .number (.int 2)), (.str "x", half)]
    let t : Table := [(.str "x", half), (.int 1, two)]
    (Value.table s).Keyed ∧ (Value.table t).Keyed ∧ (Value.table s).equal (.table t) = true ∧
      (Value.table t).equal (.table s) = true ∧ (Value.table s).equal (.table s) = true ∧
      ¬ (Value.table s).Holds (.number (.float .nan)) := by
  intro half two s t
  have hhalf : half.Keyed := keyed_table (by decide) (by simp [keyed_atom])
  have hs : (Value.table s).Keyed := keyed_table (by decide) (by simp [s, hhalf, keyed_atom])
  have ht : (Value.table t).Keyed := keyed_table (by decide) (by simp [t, two, hhalf, keyed_atom])
  obtain ⟨hsymm, htrans, hself, htables⟩ :=
    equal_partial_equivalence (c := .table s) hs ht hs ht
  have hst : (Value.table s).equal (.table t) = true := by decide +kernel
  have hts := hsymm.1 hst
  have hss := htrans hst hts
  exact ⟨hs, ht, hst, hts, hss, hself.1 hss⟩

end MobDebug.Literal
