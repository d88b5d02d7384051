import MobDebug.Proofs.Literal.Tables
import MobDebug.Proofs.Literal.Grammar.Reading
import Mathlib.Data.Finset.Card
import Mathlib.Data.Finset.Image

/-!
A table is what its history of assignments makes of it. A key has the value that it was last
assigned, nil is none, and the keys are in the order in which they came: when they were assigned
without having a value.
-/
namespace MobDebug.Literal

variable {t : Table} {h : List (Key × Value)} {k l : Key} {v w : Value} {i j : Nat}
  {es : List (Option Key × Value)}

/-! ### One assignment -/

theorem find?_cons : Table.find? ((l, w) :: t) k = if k = l then some w else t.find? k := by
  rw [Table.find?, List.lookup_cons]
  by_cases hk : k = l
  · rw [hk, BEq.rfl, if_pos rfl]
  · rw [beq_eq_false_iff_ne.2 hk, if_neg hk]
    rfl

theorem find?_eq_none_iff : t.find? k = none ↔ k ∉ t.map Prod.fst := by
  rw [Table.find?, List.lookup_eq_none_iff, List.mem_map]
  constructor
  · rintro h ⟨e, he, rfl⟩
    simpa using h e he
  · intro h e he
    exact bne_iff_ne.2 fun hk => h ⟨e, he, hk.symm⟩

theorem find?_store : (Table.store k v t).find? l = if l = k then some v else t.find? l := by
  induction t with
  | nil => rw [Table.store, find?_cons]
  | cons e t ih =>
    obtain ⟨m, w⟩ := e
    rw [Table.store, find?_cons]
    by_cases hm : m = k
    · rw [if_pos hm, find?_cons, hm]
      split <;> rfl
    · rw [if_neg hm, find?_cons, ih]
      by_cases hl : l = m
      · rw [if_pos hl, if_pos hl, if_neg (hl.trans_ne hm)]
      · rw [if_neg hl, if_neg hl]

theorem find?_remove (hd : (t.map Prod.fst).Nodup) :
    (Table.remove k t).find? l = if l = k then none else t.find? l := by
  induction t with
  | nil => exact (ite_self none).symm
  | cons e t ih =>
    obtain ⟨m, w⟩ := e
    obtain ⟨hfresh, hd⟩ := List.nodup_cons.1 hd
    rw [Table.remove, find?_cons]
    by_cases hm : m = k
    · subst hm
      rw [if_pos rfl]
      split
      · next hl =>
        rw [hl]
        exact find?_eq_none_iff.2 hfresh
      · rfl
    · rw [if_neg hm, find?_cons, ih hd]
      by_cases hl : l = m
      · rw [if_pos hl, if_pos hl, if_neg (hl.trans_ne hm)]
      · rw [if_neg hl, if_neg hl]

/-- An assignment gives its key the value, or none where it is nil, and leaves the others theirs. -/
theorem find?_insert (hd : (t.map Prod.fst).Nodup) :
    (t.insert k v).find? l = if l = k then if v.isNil then none else some v else t.find? l := by
  rw [Table.insert]
  split
  · exact find?_remove hd
  · exact find?_store

/-- By induction on the entries, which all three go through up to the one with the key. -/
theorem exchange_eq (t : Table) (k : Key) (v : Value) :
    t.exchange k v = (t.find? k, t.insert k v) := by
  induction t with
  | nil =>
    rw [Table.exchange, Table.insert]
    rfl
  | cons e t ih =>
    obtain ⟨l, w⟩ := e
    rw [Table.exchange, find?_cons, Table.insert, Table.remove, Table.store]
    by_cases hl : l = k
    · rw [if_pos hl, if_pos hl.symm, if_pos hl, if_pos hl]
    · rw [if_neg hl, if_neg (Ne.symm hl), if_neg hl, if_neg hl, ih, Table.insert]
      cases v.isNil <;> rfl

/-! ### A history of assignments -/

/-- The value that a key has after assignments: the last that was assigned to it, unless it is
nil. -/
def assigned (h : List (Key × Value)) (k : Key) : Option Value :=
  (h.reverse.lookup k).filter fun v => !v.isNil

/-- The key came with assignment `i`, counted from zero: that one gave it a value when it had none,
and no later one took it away. -/
def Born (h : List (Key × Value)) (k : Key) (i : Nat) : Prop :=
  ∃ before v after, h = before ++ (k, v) :: after ∧ before.length = i ∧ v.isNil = false ∧
    assigned before k = none ∧ ∀ w, (k, w) ∈ after → w.isNil = false

theorem assigned_concat : assigned (h ++ [(l, v)]) k =
    if k = l then if v.isNil then none else some v else assigned h k := by
  rw [assigned, List.reverse_append, List.reverse_singleton, List.singleton_append]
  have hcons : ((l, v) :: h.reverse).lookup k = if k = l then some v else h.reverse.lookup k :=
    find?_cons
  rw [hcons]
  by_cases hk : k = l
  · cases hv : v.isNil <;> simp [hk, hv, Option.filter]
  · rw [if_neg hk, if_neg hk]
    rfl

theorem ofEntries_concat :
    Table.ofEntries (h ++ [(k, v)]) = (Table.ofEntries h).insert k v := by
  rw [Table.ofEntries, List.foldl_append]
  rfl

theorem distinct_ofEntries (h : List (Key × Value)) :
    ((Table.ofEntries h).map Prod.fst).Nodup := by
  induction h using List.reverseRecOn with
  | nil => exact List.nodup_nil
  | append_singleton h e ih =>
    rw [ofEntries_concat]
    exact distinct_insert ih e.1 e.2

theorem find?_ofEntries (h : List (Key × Value)) (k : Key) :
    (Table.ofEntries h).find? k = assigned h k := by
  induction h using List.reverseRecOn with
  | nil => rfl
  | append_singleton h e ih =>
    rw [ofEntries_concat, find?_insert (distinct_ofEntries h), ih, assigned_concat]

theorem mem_keys_iff : k ∈ (Table.ofEntries h).map Prod.fst ↔ (assigned h k).isSome = true := by
  rw [← find?_ofEntries, ← not_iff_not, ← find?_eq_none_iff, Option.not_isSome_iff_eq_none]

/-! ### The order of the keys -/

/-- One more assignment leaves a key where it came if it does not take it away, and it is where a
key comes that had no value. -/
theorem born_concat : Born (h ++ [(l, v)]) k i ↔
    Born h k i ∧ (k = l → v.isNil = false) ∨
      k = l ∧ i = h.length ∧ v.isNil = false ∧ assigned h k = none := by
  constructor
  · rintro ⟨before, w, after, he, rfl, hw, hnone, hafter⟩
    rcases after.eq_nil_or_concat with rfl | ⟨after, e, rfl⟩
    · obtain ⟨rfl, hlast⟩ := List.append_inj' he rfl
      obtain ⟨rfl, rfl⟩ := Prod.mk.inj (List.singleton_inj.1 hlast)
      exact .inr ⟨rfl, rfl, hw, hnone⟩
    · rw [List.concat_eq_append, ← List.cons_append, ← List.append_assoc] at he
      obtain ⟨rfl, hlast⟩ := List.append_inj' he rfl
      obtain rfl := List.singleton_inj.1 hlast
      refine .inl ⟨⟨before, w, after, rfl, rfl, hw, hnone, fun u hu => hafter u (by simp [hu])⟩, ?_⟩
      rintro rfl
      exact hafter v (by simp)
  · rintro (⟨⟨before, w, after, rfl, hi, hw, hnone, hafter⟩, hv⟩ | ⟨rfl, rfl, hv, hnone⟩)
    · refine ⟨before, w, after ++ [(l, v)], by simp, hi, hw, hnone, fun u hu => ?_⟩
      rcases List.mem_append.1 hu with hu | hu
      · exact hafter u hu
      · obtain ⟨rfl, rfl⟩ := Prod.mk.inj (List.mem_singleton.1 hu)
        exact hv rfl
    · exact ⟨h, v, [], rfl, rfl, hv, hnone, by simp⟩

theorem Born.lt_length (hb : Born h k i) : i < h.length := by
  obtain ⟨before, v, after, rfl, rfl, -⟩ := hb
  simp

/-- The keys that have a value are those that came and were not taken away. -/
theorem assigned_iff_born : (assigned h k).isSome = true ↔ ∃ i, Born h k i := by
  induction h using List.reverseRecOn with
  | nil =>
    refine iff_of_false Bool.false_ne_true ?_
    rintro ⟨i, hb⟩
    exact absurd hb.lt_length (Nat.not_lt_zero i)
  | append_singleton h e ih =>
    obtain ⟨l, v⟩ := e
    simp only [assigned_concat, born_concat]
    by_cases hk : k = l
    · cases hv : v.isNil with
      | true => simp [hk]
      | false =>
        cases ha : assigned h k with
        | none => simp [hk]
        | some w =>
          rw [ha] at ih
          obtain ⟨i, hi⟩ := ih.1 rfl
          exact iff_of_true (by simp [hk]) ⟨i, .inl ⟨hi, fun _ => rfl⟩⟩
    · simp [hk, ih]

/-- The first key came before the second. -/
def Before (h : List (Key × Value)) (k l : Key) : Prop :=
  ∀ i j, Born h k i → Born h l j → i < j

/-- For keys with a value, one more assignment changes nothing about which came first. -/
theorem Before.concat {m : Key} (hb : Before h k l) (hk : (assigned h k).isSome = true)
    (hl : (assigned h l).isSome = true) : Before (h ++ [(m, v)]) k l := by
  intro i j hi hj
  rcases born_concat.1 hi with ⟨hi, -⟩ | ⟨-, -, -, hnone⟩
  · rcases born_concat.1 hj with ⟨hj, -⟩ | ⟨-, -, -, hnone⟩
    · exact hb i j hi hj
    · rw [hnone] at hl
      cases hl
  · rw [hnone] at hk
    cases hk

/-- By induction on the history: what stays keeps its place, and what is new comes last. -/
theorem keys_ordered (h : List (Key × Value)) :
    ((Table.ofEntries h).map Prod.fst).Pairwise (Before h) := by
  induction h using List.reverseRecOn with
  | nil => exact .nil
  | append_singleton h e ih =>
    obtain ⟨k, v⟩ := e
    have hkept : ((Table.ofEntries h).map Prod.fst).Pairwise (Before (h ++ [(k, v)])) :=
      ih.imp_of_mem fun hl hm hb => hb.concat (mem_keys_iff.1 hl) (mem_keys_iff.1 hm)
    rw [ofEntries_concat]
    cases hv : v.isNil with
    | true =>
      rw [Table.insert, if_pos hv]
      exact hkept.sublist ((remove_sublist k _).map Prod.fst)
    | false =>
      by_cases hk : k ∈ (Table.ofEntries h).map Prod.fst
      · rw [Table.insert, hv, if_neg Bool.false_ne_true, keys_store hk]
        exact hkept
      · rw [insert_fresh hk hv, List.map_append]
        refine List.pairwise_append.2 ⟨hkept, List.pairwise_singleton _ _, ?_⟩
        intro l hl m hm i j hi hj
        obtain rfl : k = m := (List.mem_singleton.1 hm).symm
        have hlk : l ≠ k := fun he => hk (he ▸ hl)
        rcases born_concat.1 hi with ⟨hi, -⟩ | ⟨he, -⟩
        · rcases born_concat.1 hj with ⟨hj, -⟩ | ⟨-, rfl, -⟩
          · exact absurd (mem_keys_iff.2 (assigned_iff_born.2 ⟨j, hj⟩)) hk
          · exact hi.lt_length
        · exact absurd he hlk

/-- There are as many entries as keys with a value. -/
theorem length_ofEntries (h : List (Key × Value)) : (Table.ofEntries h).length =
    ((h.map Prod.fst).toFinset.filter fun k => (assigned h k).isSome = true).card := by
  have hsame : (h.map Prod.fst).toFinset.filter (fun k => (assigned h k).isSome = true) =
      ((Table.ofEntries h).map Prod.fst).toFinset := by
    ext k
    rw [Finset.mem_filter, List.mem_toFinset, List.mem_toFinset, mem_keys_iff,
      and_iff_right_iff_imp]
    intro hk
    obtain ⟨i, before, v, after, rfl, -⟩ := assigned_iff_born.1 hk
    simp
  rw [hsame, List.toFinset_card_of_nodup (distinct_ofEntries h), List.length_map]

/-! ### Rebuilding -/

theorem present_ofEntries (h : List (Key × Value)) :
    ∀ e ∈ Table.ofEntries h, e.2.isNil = false := by
  intro e he
  have hfind := lookup_of_mem (distinct_ofEntries h) he
  have hassigned := find?_ofEntries h e.1
  rw [Table.find?, hfind] at hassigned
  have hpresent := (Option.filter_eq_some_iff.1 hassigned.symm).2
  simpa using hpresent

/-- Entries with distinct keys, none of them nil, are the table that they make. -/
theorem ofEntries_of_distinct (hd : (h.map Prod.fst).Nodup) (hp : ∀ e ∈ h, e.2.isNil = false) :
    Table.ofEntries h = h := by
  induction h using List.reverseRecOn with
  | nil => rfl
  | append_singleton h e ih =>
    obtain ⟨k, v⟩ := e
    rw [List.map_append, List.nodup_append] at hd
    obtain ⟨hd, -, hfresh⟩ := hd
    have hk : k ∉ h.map Prod.fst := fun hk => hfresh k hk k (List.mem_singleton_self _) rfl
    rw [ofEntries_concat, ih hd fun e he => hp e (List.mem_append_left _ he),
      insert_fresh hk (hp (k, v) (by simp))]

/-! ### Table literals -/

/-- Where the entries of a table literal go: one with a key to this key, and the `i`-th without to
position `i`, whatever their values. -/
def placed (es : List (Option Key × Value)) : List (Key × Value) :=
  es.mapIdx fun i e =>
    (e.1.getD (.position ((es.take (i + 1)).countP fun f => f.1.isNone)), e.2)

theorem placed_concat (es : List (Option Key × Value)) (e : Option Key × Value) :
    placed (es ++ [e]) = placed es ++
      [(e.1.getD (.position ((es.countP fun f => f.1.isNone) + 1)), e.2)] := by
  rw [placed, List.mapIdx_concat]
  congr 1
  · refine List.mapIdx_eq_mapIdx_iff.2 fun i hi => ?_
    rw [List.take_append_of_le_length hi]
  · obtain ⟨key, v⟩ := e
    cases key <;> simp [List.take_of_length_le]

/-- By induction on the entries that are left, where the counter is one more than the entries
without a key before them. -/
theorem assign_placed (ps es : List (Option Key × Value)) :
    Table.assign (Table.ofEntries (placed ps)) ((ps.countP fun f => f.1.isNone) + 1) es =
      Table.ofEntries (placed (ps ++ es)) := by
  induction es generalizing ps with
  | nil => rw [List.append_nil]; rfl
  | cons e es ih =>
    obtain ⟨key, v⟩ := e
    rw [← List.singleton_append, ← List.append_assoc, ← ih, placed_concat, ofEntries_concat]
    cases key <;> simp [Table.assign]

/-- Nil takes up the first position, so the last entry replaces the one with the key. -/
example (v w : Value) : placed [(none, .nil), (some (.int 2), v), (none, w)] =
    [(.int 1, .nil), (.int 2, v), (.int 2, w)] := rfl

theorem assign_eq (es : List (Option Key × Value)) :
    Table.assign [] 1 es = Table.ofEntries (placed es) :=
  assign_placed [] es

/-- A table literal stands for the table that its entries make, each in its place. -/
theorem derivesTable_iff {d : Nat} {s : List UInt8} {v : Value} : DerivesTable (d + 1) s v ↔
    ∃ body es, s = ascii '\x7b' :: (body ++ [ascii '\x7d']) ∧ Fields (Padded (Derives d)) body es ∧
      v = .table (Table.ofEntries (placed es)) := by
  constructor
  · rintro ⟨hs⟩
    exact ⟨_, _, rfl, hs, congrArg Value.table (assign_eq _)⟩
  · rintro ⟨body, es, rfl, hs, rfl⟩
    rw [← assign_eq]
    exact .mk hs

theorem read_table_iff {limit : Nat} {text : String} : read limit text = .ok (.table t) ↔
    ∃ g body es g' d, Text.bytes text = g ++ (ascii '\x7b' :: (body ++ [ascii '\x7d']) ++ g') ∧
      Trivia g ∧ Trailing g' ∧ limit = d + 1 ∧ Fields (Padded (Derives d)) body es ∧
      t = Table.ofEntries (placed es) := by
  rw [read_eq_ok_iff]
  constructor
  · rintro ⟨g, l, g', hs, hg, hl, hg', -⟩
    have ht : DerivesTable limit l (.table t) := by
      cases hl with
      | table h => exact h
    cases limit with
    | zero => exact ht.elim
    | succ d =>
      obtain ⟨body, es, rfl, hbody, he⟩ := derivesTable_iff.1 ht
      exact ⟨g, body, es, g', d, hs, hg, hg', rfl, hbody, Value.table.inj he⟩
  · rintro ⟨g, body, es, g', d, hs, hg, hg', rfl, hbody, rfl⟩
    exact ⟨g, _, g', hs, hg, .table (derivesTable_iff.2 ⟨body, es, rfl, hbody, rfl⟩), hg',
      by rintro ⟨⟩⟩

/-- A table is what its history of assignments makes of it. Each one hands back the value that its
key had. Afterwards a key has the value that it was last assigned, unless that is nil; as many
entries as such keys are there; and the keys are in the order in which they came, each with the
first assignment after the last that took it away. What the entries of a table make is the table.
A table literal, whether it is the text or stands in another, is the table that its entries make:
one without a key goes to its position among those, nil or not, and any other to its key. -/
theorem assignment_history (h : List (Key × Value)) :
    (∀ k v, (Table.ofEntries h).exchange k v = (assigned h k, Table.ofEntries (h ++ [(k, v)]))) ∧
      (∀ k, (Table.ofEntries h).find? k = assigned h k) ∧
      (Table.ofEntries h).length =
        ((h.map Prod.fst).toFinset.filter fun k => (assigned h k).isSome = true).card ∧
      ((Table.ofEntries h).map Prod.fst).Nodup ∧
      (∀ k, k ∈ (Table.ofEntries h).map Prod.fst ↔ ∃ i, Born h k i) ∧
      ((Table.ofEntries h).map Prod.fst).Pairwise (Before h) ∧
      Table.ofEntries (Table.ofEntries h) = Table.ofEntries h ∧
      (∀ limit text t, read limit text = .ok (.table t) ↔
        ∃ g body es g' d, Text.bytes text = g ++ (ascii '\x7b' :: (body ++ [ascii '\x7d']) ++ g') ∧
          Trivia g ∧ Trailing g' ∧ limit = d + 1 ∧ Fields (Padded (Derives d)) body es ∧
          t = Table.ofEntries (placed es)) ∧
      ∀ d s v, DerivesTable (d + 1) s v ↔
        ∃ body es, s = ascii '\x7b' :: (body ++ [ascii '\x7d']) ∧
          Fields (Padded (Derives d)) body es ∧ v = .table (Table.ofEntries (placed es)) := by
  refine ⟨fun k v => ?_, find?_ofEntries h, length_ofEntries h, distinct_ofEntries h,
    fun k => mem_keys_iff.trans assigned_iff_born, keys_ordered h,
    ofEntries_of_distinct (distinct_ofEntries h) (present_ofEntries h),
    fun limit text t => read_table_iff, fun d s v => derivesTable_iff⟩
  rw [exchange_eq, find?_ofEntries, ofEntries_concat]

end MobDebug.Literal
