import MobDebug.Proofs.Literal.History
import MobDebug.Proofs.Literal.Grammar.Deepening
import MobDebug.Proofs.Literal.Grammar.Stability

/-!
Rows: tables with values at their positions. A nil takes up a position and is not stored, so the
entries behind it are written with their keys.
-/
namespace MobDebug.Literal

/-! ### Limits -/

section Limits
variable {d : Nat} {v : Value}

theorem Value.depth_reread (v : Value) : v.reread.depth = v.depth := by
  induction v using Value.induct with
  | atom v hv =>
    cases v with
    | table entries => exact absurd rfl (hv entries)
    | _ => rfl
  | table entries ih =>
    have hle (d : Nat) : depthIn (rereadEntries entries) ≤ d ↔ depthIn entries ≤ d := by
      rw [rereadEntries_eq, depthIn_le_iff, depthIn_le_iff, List.forall_mem_map]
      refine forall₂_congr fun e he => ?_
      rw [ih e he]
    rw [reread, depth, depth, eq_of_forall_ge_iff hle]

/-- Under its own depth the value would be read, so a lower limit cuts it off. -/
theorem read_render_deep (h : v.Writable) (hd : d < v.depth) :
    ∃ o, read d v.render = .error ⟨.tooDeep d, o⟩ := by
  rcases read_deepens (Nat.le_of_lt hd) v.render with ⟨he, -⟩ | ⟨o, ho, -⟩
  · rw [read_render h (Nat.le_refl _)] at he
    have hle := (within_of_read he).depth
    rw [Value.depth_reread] at hle
    exact absurd hle (Nat.not_le_of_lt hd)
  · exact ⟨o, ho⟩

end Limits

/-! ### Rows -/

variable {d i m n : Nat} {k : Key} {v : Value} {vs : List Value}

/-- The entries of values at the positions from `n` on. -/
def Table.rowFrom (n : Nat) : List Value → Table
  | [] => []
  | v :: vs => if v.isNil then rowFrom (n + 1) vs else (.position n, v) :: rowFrom (n + 1) vs

/-- The table of values at its positions. -/
def Table.row (vs : List Value) : Table :=
  rowFrom 1 vs

/-- `nil` takes up the first position. -/
example (s : String) : Table.row [.nil, .str s] = [(.int 2, .str s)] := rfl

/-- Keys are integers of 64 bits, so only positions that far apart share one. -/
theorem position_inj (hm : m ≤ n) (hn : n < m + 2 ^ 64) :
    Key.position m = .position n ↔ m = n := by
  refine ⟨fun h => ?_, congrArg Key.position⟩
  have hbits := congrArg Int64.toUInt64 (Key.int.inj h)
  have hmod : m % 2 ^ 64 = n % 2 ^ 64 := by
    simpa using congrArg UInt64.toNat hbits
  omega

namespace Table

theorem mem_keys_rowFrom (h : k ∈ (rowFrom n vs).map Prod.fst) :
    ∃ m, n ≤ m ∧ m < n + vs.length ∧ k = .position m := by
  induction vs generalizing n with
  | nil => cases h
  | cons v vs ih =>
    have htail (h : k ∈ (rowFrom (n + 1) vs).map Prod.fst) :
        ∃ m, n ≤ m ∧ m < n + (v :: vs).length ∧ k = .position m := by
      obtain ⟨m, hm, hlt, rfl⟩ := ih h
      exact ⟨m, by omega, by rw [List.length_cons]; omega, rfl⟩
    rw [rowFrom] at h
    split at h
    · exact htail h
    · rcases List.mem_cons.1 h with rfl | h
      · exact ⟨n, Nat.le_refl _, by simp, rfl⟩
      · exact htail h

/-- No position is taken by a value behind it. -/
theorem position_fresh (hl : vs.length < 2 ^ 64) :
    Key.position n ∉ (rowFrom (n + 1) vs).map Prod.fst := by
  intro h
  obtain ⟨m, hm, hlt, he⟩ := mem_keys_rowFrom h
  have := (position_inj (by omega) (by omega)).1 he
  omega

theorem storable_rowFrom (hl : vs.length ≤ 2 ^ 64) (n : Nat) : Storable (rowFrom n vs) := by
  induction vs generalizing n with
  | nil => exact storable_nil
  | cons v vs ih =>
    rw [List.length_cons] at hl
    have htail := ih (by omega) (n + 1)
    rw [rowFrom]
    split
    · exact htail
    · next hv =>
      refine ⟨?_, ?_, ?_⟩
      · exact List.nodup_cons.2 ⟨position_fresh (by omega), htail.distinct⟩
      · exact List.forall_mem_cons.2 ⟨trivial, htail.normal⟩
      · exact List.forall_mem_cons.2 ⟨Bool.not_eq_true _ ▸ hv, htail.present⟩

theorem find?_rowFrom (hl : vs.length ≤ 2 ^ 64) (hi : i < 2 ^ 64) :
    (rowFrom n vs).find? (.position (n + i)) = vs[i]?.filter fun v => !v.isNil := by
  induction vs generalizing i n with
  | nil => rfl
  | cons v vs ih =>
    rw [List.length_cons] at hl
    have hfresh := find?_eq_none_iff.2 (@position_fresh n vs (by omega))
    rw [rowFrom]
    cases i with
    | zero =>
      rw [Nat.add_zero, List.getElem?_cons_zero]
      cases hv : v.isNil with
      | true => simp [hfresh, Option.filter, hv]
      | false => simp [find?_cons, Option.filter, hv]
    | succ i =>
      have htail := ih (n := n + 1) (i := i) (by omega) (by omega)
      rw [Nat.add_right_comm] at htail
      have hne : Key.position (n + (i + 1)) ≠ .position n := fun he => by
        have := (position_inj (Nat.le_add_right n (i + 1)) (by omega)).1 he.symm
        omega
      rw [List.getElem?_cons_succ]
      split
      · exact htail
      · rw [find?_cons, if_neg hne]
        exact htail

/-- At a position that has a value there is the value, or nothing if it is nil. -/
theorem find?_row (hl : vs.length ≤ 2 ^ 64) (hv : vs[i]? = some v) :
    (row vs).find? (.position (i + 1)) = if v.isNil then none else some v := by
  obtain ⟨hi, -⟩ := List.getElem?_eq_some_iff.1 hv
  have hfind := find?_rowFrom (n := 1) hl (Nat.lt_of_lt_of_le hi hl)
  rw [Nat.add_comm, row, hfind, hv]
  cases v <;> rfl

/-- A view that nil does not have sees the value at a position, whether it is stored or not. -/
theorem find?_row_bind {α : Type} {view : Value → Option α} (hnil : view .nil = none)
    (hl : vs.length ≤ 2 ^ 64) (hv : vs[i]? = some v) :
    ((row vs).find? (.position (i + 1))).bind view = view v := by
  rw [find?_row hl hv]
  cases v with
  | nil => exact hnil.symm
  | _ => rfl

/-! ### Sequences -/

theorem countFrom_eq {t : Table} {fuel : Nat}
    (h : ∀ m, n < m → m ≤ n + fuel → (t.find? (.position m)).isSome = true) :
    countFrom t fuel n = fuel := by
  induction fuel generalizing n with
  | zero => rfl
  | succ fuel ih =>
    rw [countFrom, if_pos (h _ (by omega) (by omega)), ih fun m hm hle => h m (by omega) (by omega)]

theorem length_rowFrom (hv : ∀ v ∈ vs, v.isNil = false) (n : Nat) :
    (rowFrom n vs).length = vs.length := by
  induction vs generalizing n with
  | nil => rfl
  | cons v vs ih =>
    obtain ⟨hv, hvs⟩ := List.forall_mem_cons.1 hv
    rw [rowFrom, hv, if_neg Bool.false_ne_true, List.length_cons, List.length_cons, ih hvs]

theorem find?_row_getElem (hl : vs.length ≤ 2 ^ 64) (hv : ∀ v ∈ vs, v.isNil = false)
    (hi : i < vs.length) : (row vs).find? (.position (i + 1)) = some vs[i] := by
  rw [find?_row hl (List.getElem?_eq_getElem hi), hv _ (List.getElem_mem hi),
    if_neg Bool.false_ne_true]

theorem sequenceLength_row (hl : vs.length ≤ 2 ^ 64) (hv : ∀ v ∈ vs, v.isNil = false) :
    sequenceLength (row vs) = vs.length := by
  rw [sequenceLength, row, length_rowFrom hv]
  refine countFrom_eq fun m hm hle => ?_
  obtain ⟨i, rfl⟩ := Nat.exists_eq_succ_of_ne_zero (n := m) (by omega)
  have hfind := find?_row_getElem hl hv (i := i) (by omega)
  rw [row] at hfind
  rw [Nat.succ_eq_add_one, hfind]
  rfl

/-- Without a nil among them, the values of a row are its sequence. -/
theorem sequence_row (hl : vs.length ≤ 2 ^ 64) (hv : ∀ v ∈ vs, v.isNil = false) :
    sequence (row vs) = vs := by
  rw [sequence, sequenceLength_row hl hv]
  have hget : ∀ n ∈ List.range' 1 vs.length,
      (row vs).find? (.position n) = some (vs[n - 1]?.getD .nil) := by
    intro n hn
    obtain ⟨i, hi, rfl⟩ := List.mem_range'.1 hn
    rw [Nat.one_mul, Nat.add_comm, find?_row_getElem hl hv hi, Nat.add_sub_cancel,
      List.getElem?_eq_getElem hi, Option.getD_some]
  rw [List.filterMap_congr hget, List.filterMap_eq_map']
  refine List.ext_getElem (by simp) fun i _ hi => ?_
  simp [hi]

end Table

/-! ### What is written of a row -/

theorem rereadEntries_rowFrom (n : Nat) (vs : List Value) :
    Value.rereadEntries (Table.rowFrom n vs) = Table.rowFrom n (vs.map Value.reread) := by
  induction vs generalizing n with
  | nil => rfl
  | cons v vs ih =>
    rw [List.map_cons, Table.rowFrom, Table.rowFrom, isNil_reread]
    split
    · exact ih (n + 1)
    · rw [Value.rereadEntries, ih]

theorem Value.reread_row (vs : List Value) :
    (Value.table (Table.row vs)).reread = .table (Table.row (vs.map reread)) := by
  rw [reread, Table.row, rereadEntries_rowFrom]
  rfl

theorem forall_mem_rowFrom {p : Value → Prop} (hnil : p .nil) :
    (∀ e ∈ Table.rowFrom n vs, p e.2) ↔ ∀ v ∈ vs, p v := by
  induction vs generalizing n with
  | nil => simp [Table.rowFrom]
  | cons v vs ih =>
    rw [Table.rowFrom, List.forall_mem_cons]
    split
    · next hv =>
      cases v with
      | nil => rw [ih, and_iff_right hnil]
      | _ => cases hv
    · rw [List.forall_mem_cons, ih]

theorem Value.writable_row (hl : vs.length ≤ 2 ^ 64) (hv : ∀ v ∈ vs, v.Writable) :
    (Value.table (Table.row vs)).Writable :=
  .table _ (Table.storable_rowFrom hl 1) ((forall_mem_rowFrom .nil).2 hv)

theorem Value.depth_row_le_iff :
    (Value.table (Table.row vs)).depth ≤ d + 1 ↔ ∀ v ∈ vs, v.depth ≤ d := by
  rw [depth, Nat.add_le_add_iff_right, depthIn_le_iff]
  exact forall_mem_rowFrom (p := fun v => v.depth ≤ d) (Nat.zero_le d)

end MobDebug.Literal
