import MobDebug.Proofs.Literal.Rows

/-!
The sequence of a table: its values at the positions from 1 on, up to the first that is no key. By
counting, nothing lies beyond it just where the keys are positions without a hole.
-/
namespace MobDebug.Literal

variable {t u : Table} {fuel i limit n : Nat} {k : Key} {v : Value} {text : String}

namespace Table

/-- All positions up to `n` are keys. -/
def FilledTo (t : Table) (n : Nat) : Prop :=
  ∀ i, 1 ≤ i → i ≤ n → Key.position i ∈ t.map Prod.fst

/-- The keys are the positions up to `n`, in any order. -/
def Positional (t : Table) (n : Nat) : Prop :=
  ∀ k, k ∈ t.map Prod.fst ↔ ∃ i, 1 ≤ i ∧ i ≤ n ∧ k = .position i

theorem Positional.filledTo (h : t.Positional n) : t.FilledTo n := by
  intro i hi hn
  exact (h _).2 ⟨i, hi, hn, rfl⟩

/-! ### Counting keys -/

/-- The first positions, as keys. -/
def positions (n : Nat) : List Key :=
  (List.range' 1 n).map Key.position

theorem mem_positions : k ∈ positions n ↔ ∃ i, 1 ≤ i ∧ i ≤ n ∧ k = .position i := by
  rw [positions, List.mem_map]
  constructor
  · rintro ⟨i, hi, rfl⟩
    rw [List.mem_range'_1] at hi
    exact ⟨i, hi.1, by omega, rfl⟩
  · rintro ⟨i, hi, hn, rfl⟩
    exact ⟨i, List.mem_range'_1.2 ⟨hi, by omega⟩, rfl⟩

theorem length_positions (n : Nat) : (positions n).length = n := by
  rw [positions, List.length_map, List.length_range']

theorem nodup_positions (hn : n ≤ 2 ^ 64) : (positions n).Nodup := by
  apply List.Nodup.map_on _ (List.nodup_range' 1)
  intro i hi j hj he
  rw [List.mem_range'_1] at hi hj
  rcases Nat.le_total i j with h | h
  · exact (position_inj h (by omega)).1 he
  · exact ((position_inj h (by omega)).1 he.symm).symm

theorem FilledTo.subset (h : t.FilledTo n) : positions n ⊆ t.map Prod.fst := by
  intro k hk
  obtain ⟨i, hi, hn, rfl⟩ := mem_positions.1 hk
  exact h i hi hn

/-- There are at least as many keys as positions among them, since no two positions are one key. -/
theorem FilledTo.le_length (hl : t.length < 2 ^ 64) (h : t.FilledTo n) : n ≤ t.length := by
  by_contra hn
  have hmore : t.FilledTo (t.length + 1) := fun i hi hle => h i hi (by omega)
  have hcard := ((nodup_positions hl).subperm hmore.subset).length_le
  rw [length_positions, List.length_map] at hcard
  omega

/-- A table has no keys beside its positions just where there are no more of them. -/
theorem FilledTo.positional_iff (hl : t.length < 2 ^ 64) (h : t.FilledTo n)
    (hd : (t.map Prod.fst).Nodup) : t.Positional n ↔ n = t.length := by
  have hle := h.le_length hl
  constructor
  · intro hp
    have hsub : t.map Prod.fst ⊆ positions n := fun k hk => mem_positions.2 ((hp k).1 hk)
    have hcard := (hd.subperm hsub).length_le
    rw [length_positions, List.length_map] at hcard
    omega
  · rintro rfl k
    have hperm : (positions t.length).Perm (t.map Prod.fst) := by
      apply ((nodup_positions (by omega)).subperm h.subset).perm_of_length_le
      rw [length_positions, List.length_map]
    rw [← hperm.mem_iff, mem_positions]

/-! ### The length of a sequence -/

theorem isSome_find?_iff : (t.find? k).isSome = true ↔ k ∈ t.map Prod.fst := by
  rw [← not_iff_not, ← find?_eq_none_iff, Option.not_isSome_iff_eq_none]

theorem countFrom_le (t : Table) (fuel n : Nat) : countFrom t fuel n ≤ fuel := by
  induction fuel generalizing n with
  | zero => exact Nat.le_refl 0
  | succ fuel ih =>
    rw [countFrom]
    split
    · exact Nat.succ_le_succ (ih (n + 1))
    · exact Nat.zero_le _

theorem position_of_countFrom (hn : n < i) (hi : i ≤ n + countFrom t fuel n) :
    Key.position i ∈ t.map Prod.fst := by
  induction fuel generalizing n with
  | zero =>
    rw [countFrom] at hi
    omega
  | succ fuel ih =>
    rw [countFrom] at hi
    split at hi
    · next hfound =>
      by_cases he : i = n + 1
      · rw [he]
        exact isSome_find?_iff.1 hfound
      · exact ih (n := n + 1) (by omega) (by omega)
    · omega

/-- Where the count stops before its bound there is a hole. -/
theorem hole_of_countFrom (h : countFrom t fuel n < fuel) :
    Key.position (n + countFrom t fuel n + 1) ∉ t.map Prod.fst := by
  induction fuel generalizing n with
  | zero => omega
  | succ fuel ih =>
    rw [countFrom] at h ⊢
    split at h
    · next hfound =>
      have hhole := ih (n := n + 1) (by omega)
      rw [if_pos hfound]
      have he : n + (countFrom t fuel (n + 1) + 1) + 1 = n + 1 + countFrom t fuel (n + 1) + 1 := by
        omega
      rwa [he]
    · next hfound =>
      rw [if_neg hfound]
      exact fun hk => hfound (isSome_find?_iff.2 hk)

theorem sequenceLength_le_length (t : Table) : t.sequenceLength ≤ t.length :=
  countFrom_le t t.length 0

theorem filledTo_sequenceLength (t : Table) : t.FilledTo t.sequenceLength := by
  intro i hi hle
  have hle' : i ≤ 0 + countFrom t t.length 0 := by rwa [Nat.zero_add]
  exact position_of_countFrom hi hle'

theorem sequenceLength_greatest (hl : t.length < 2 ^ 64) :
    IsGreatest {n | t.FilledTo n} t.sequenceLength := by
  refine ⟨filledTo_sequenceLength t, ?_⟩
  intro n hn
  rcases Nat.lt_or_ge t.sequenceLength t.length with hlt | hge
  · have hhole := hole_of_countFrom hlt
    rw [Nat.zero_add] at hhole
    by_contra hle
    exact hhole (hn _ (by omega) (Nat.lt_of_not_le hle))
  · exact Nat.le_trans (FilledTo.le_length hl hn) hge

theorem sequenceLength_eq_length_iff (hd : (t.map Prod.fst).Nodup) (hl : t.length < 2 ^ 64) :
    t.sequenceLength = t.length ↔ t.Positional t.length := by
  constructor
  · intro he
    have hfilled := filledTo_sequenceLength t
    rw [he] at hfilled
    exact (hfilled.positional_iff hl hd).2 rfl
  · intro hp
    have hle := (sequenceLength_greatest hl).2 hp.filledTo
    exact Nat.le_antisymm (sequenceLength_le_length t) hle

/-! ### The values of a sequence -/

theorem sequence_eq (t : Table) : t.sequence =
    (List.range' 1 t.sequenceLength).map fun i => (t.find? (.position i)).getD .nil := by
  have hfound : ∀ i ∈ List.range' 1 t.sequenceLength,
      t.find? (.position i) = some ((t.find? (.position i)).getD .nil) := by
    intro i hi
    rw [List.mem_range'_1] at hi
    have hkey := isSome_find?_iff.2 (filledTo_sequenceLength t i hi.1 (by omega))
    obtain ⟨v, hv⟩ := Option.isSome_iff_exists.1 hkey
    rw [hv]
    rfl
  rw [sequence, List.filterMap_congr hfound, List.filterMap_eq_map']

theorem length_sequence (t : Table) : t.sequence.length = t.sequenceLength := by
  rw [sequence_eq, List.length_map, List.length_range']

theorem getElem?_sequence (hd : (t.map Prod.fst).Nodup) :
    t.sequence[i]? = some v ↔ i < t.sequenceLength ∧ (Key.position (i + 1), v) ∈ t := by
  rw [← lookup_eq_some_iff_mem hd]
  change _ ↔ _ ∧ t.find? (.position (i + 1)) = some v
  by_cases hi : i < t.sequenceLength
  · have hkey := isSome_find?_iff.2 (filledTo_sequenceLength t (i + 1) (by omega) hi)
    obtain ⟨w, hw⟩ := Option.isSome_iff_exists.1 hkey
    rw [sequence_eq, List.getElem?_map, List.getElem?_range' hi, Option.map_some, Nat.one_mul,
      Nat.add_comm 1 i, hw, Option.getD_some, and_iff_right hi]
  · have hnone : t.sequence[i]? = none := by
      rw [List.getElem?_eq_none_iff, length_sequence]
      omega
    simp [hnone, hi]

/-- The order of the entries does not matter. -/
theorem sequence_perm (hd : (t.map Prod.fst).Nodup) (hl : t.length < 2 ^ 64) (hp : u.Perm t) :
    u.sequence = t.sequence := by
  have hkeys := hp.map Prod.fst
  have hsame : u.sequenceLength = t.sequenceLength := by
    have hfilled : {n | u.FilledTo n} = {n | t.FilledTo n} := by
      ext n
      simp only [Set.mem_ofPred_eq, FilledTo, hkeys.mem_iff]
    have hgreatest := sequenceLength_greatest (t := u) (by rwa [hp.length_eq])
    rw [hfilled] at hgreatest
    exact hgreatest.unique (sequenceLength_greatest hl)
  apply List.ext_getElem?
  intro i
  ext v
  rw [getElem?_sequence hd, getElem?_sequence (hkeys.nodup_iff.2 hd), hsame, hp.mem_iff]

end Table

/-! ### Tables that are read -/

theorem length_ofEntries_le (h : List (Key × Value)) : (Table.ofEntries h).length ≤ h.length := by
  rw [length_ofEntries]
  apply Nat.le_trans (Finset.card_filter_le _ _)
  apply Nat.le_trans (List.toFinset_card_le _)
  rw [List.length_map]

theorem Fields.length_le {item : Language Value} {s : List UInt8} {es : List (Option Key × Value)}
    (h : Fields item s es) : es.length ≤ s.length + 1 := by
  induction h with
  | none => exact Nat.zero_le _
  | last => simp
  | more _ _ _ _ ih =>
    simp only [List.length_append, List.length_cons]
    omega

/-- There are fewer entries than bytes. -/
theorem length_lt_of_read (h : read limit text = .ok (.table t)) :
    t.length < (Text.bytes text).length := by
  obtain ⟨g, body, es, g', d, hs, -, -, -, hfields, rfl⟩ := read_table_iff.1 h
  have hentries := length_ofEntries_le (placed es)
  have hlength : (placed es).length = es.length := List.length_mapIdx
  have hfields := hfields.length_le
  rw [hs]
  simp only [List.length_append, List.length_cons]
  omega

theorem distinct_of_read (h : read limit text = .ok (.table t)) : (t.map Prod.fst).Nodup := by
  obtain ⟨-, -, es, -, -, -, -, -, -, -, rfl⟩ := read_table_iff.1 h
  exact distinct_ofEntries (placed es)

end MobDebug.Literal
