import MobDebug.Proofs.Literal.Keys
import MobDebug.Literal.Value
import Mathlib.Data.List.Nodup

/-!
Tables. Assignment puts a new key last and keeps keys distinct, and the entries of a table are read
back in their order.
-/
namespace MobDebug.Literal

/-! ### Assignment -/

section Assignment
variable {entries : Table} {k : Key} {v : Value}

theorem store_fresh (hk : k ∉ entries.map Prod.fst) :
    Table.store k v entries = entries ++ [(k, v)] := by
  induction entries with
  | nil => rfl
  | cons e entries ih =>
    obtain ⟨l, w⟩ := e
    rw [List.map_cons, List.mem_cons, not_or] at hk
    rw [Table.store, if_neg fun he => hk.1 he.symm, ih hk.2]
    rfl

theorem keys_store (hk : k ∈ entries.map Prod.fst) :
    (Table.store k v entries).map Prod.fst = entries.map Prod.fst := by
  induction entries with
  | nil => cases hk
  | cons e entries ih =>
    obtain ⟨l, w⟩ := e
    by_cases he : l = k
    · rw [Table.store, if_pos he, List.map_cons, List.map_cons, he]
    · rcases List.mem_cons.1 hk with rfl | hk
      · exact absurd rfl he
      · rw [Table.store, if_neg he, List.map_cons, List.map_cons, ih hk]

theorem remove_sublist (k : Key) (entries : Table) : (Table.remove k entries).Sublist entries := by
  induction entries with
  | nil => exact .slnil
  | cons e entries ih =>
    obtain ⟨l, w⟩ := e
    by_cases he : l = k
    · rw [Table.remove, if_pos he]
      exact List.sublist_cons_self _ _
    · rw [Table.remove, if_neg he]
      exact ih.cons_cons _

theorem insert_fresh (hk : k ∉ entries.map Prod.fst) (hv : v.isNil = false) :
    Table.insert entries k v = entries ++ [(k, v)] := by
  rw [Table.insert, hv, if_neg Bool.false_ne_true, store_fresh hk]

/-- Assignment keeps keys distinct, so every table that assignments make has distinct ones. -/
theorem distinct_insert (hd : (entries.map Prod.fst).Nodup) (k : Key) (v : Value) :
    ((Table.insert entries k v).map Prod.fst).Nodup := by
  by_cases hv : v.isNil = true
  · rw [Table.insert, if_pos hv]
    exact hd.sublist ((remove_sublist k entries).map Prod.fst)
  · rw [Table.insert, if_neg hv]
    by_cases hk : k ∈ entries.map Prod.fst
    · rw [keys_store hk]
      exact hd
    · rw [store_fresh hk, List.map_append]
      refine List.nodup_append.2 ⟨hd, List.nodup_singleton k, ?_⟩
      intro l hl m hm he
      obtain rfl : l = k := he.trans (List.mem_singleton.1 hm)
      exact hk hl

end Assignment

/-! ### Entries -/

variable {r s t tail rest : List UInt8} {table : Parser Value} {k : Key} {v : Value} {n : Nat}
  {entries read : Table} {key : Option Key}

mutual

/-- The value that the text of a value is read as. -/
def Value.reread : Value → Value
  | .number n => .number n.reread
  | .table entries => .table (rereadEntries entries)
  | v => v

/-- The entries that the text of entries is read as. -/
def Value.rereadEntries : List (Key × Value) → List (Key × Value)
  | [] => []
  | (k, v) :: rest => (k, v.reread) :: rereadEntries rest

end

theorem isNil_reread (v : Value) : v.reread.isNil = v.isNil := by
  cases v <;> rfl

theorem rereadEntries_eq (entries : Table) :
    Value.rereadEntries entries = entries.map fun e => (e.1, e.2.reread) := by
  induction entries with
  | nil => rfl
  | cons e entries ih =>
    obtain ⟨k, v⟩ := e
    rw [Value.rereadEntries, List.map_cons, ih]

section
variable {item : Parser Value}

theorem entries_end (hs : Skips s (ascii '\x7d' :: rest)) :
    Gives (Literal.entries item read n s) read rest := by
  obtain ⟨hl, hs⟩ := hs
  refine ⟨hl, ?_⟩
  rw [Literal.entries, hs]
  rfl

/-- The last entry. -/
theorem entries_last (hs : Skips s t) (hb : strip? [ascii '\x7d'] t = none)
    (he : Gives (entry item t) (key, v) r) (hr : Skips r (ascii '\x7d' :: rest)) :
    Gives (Literal.entries item read n s) (read.insert (key.getD (.position n)) v) rest := by
  obtain ⟨hl, hs⟩ := hs
  obtain ⟨ht, hg⟩ := he
  obtain ⟨hl', hs'⟩ := hr
  refine ⟨Nat.lt_of_lt_of_le hl' (Nat.le_trans (Nat.le_of_lt ht) hl), ?_⟩
  rw [Literal.entries, hs]
  dsimp only
  split
  · next hc => cases hb.symm.trans hc
  · rw [hg]
    dsimp only
    rw [hs']
    rfl

/-- Behind an entry and a separator the others are read. -/
theorem entries_next {b : UInt8} (hs : Skips s t) (hb : strip? [ascii '\x7d'] t = none)
    (he : Gives (entry item t) (key, v) tail) (hr : Skips tail (b :: r))
    (hsep : b = ascii ',' ∨ b = ascii ';') :
    ∃ hl, Literal.entries item read n s =
      (Literal.entries item (read.insert (key.getD (.position n)) v)
        (if key.isNone then n + 1 else n) r).map fun p => p.widen hl := by
  obtain ⟨hl, hs⟩ := hs
  obtain ⟨ht, hg⟩ := he
  obtain ⟨hl', hs'⟩ := hr
  refine ⟨Nat.le_of_lt (Nat.lt_of_lt_of_le hl' (Nat.le_trans (Nat.le_of_lt ht) hl)), ?_⟩
  rw [Literal.entries, hs]
  dsimp only
  split
  · next hc => cases hb.symm.trans hc
  · rw [hg]
    dsimp only
    rw [hs']
    dsimp only
    rw [if_pos hsep]

/-- An entry and a separator, and what is read behind it. -/
theorem entries_step {b : UInt8} (hs : Skips s t) (hb : strip? [ascii '\x7d'] t = none)
    (he : Gives (entry item t) (key, v) tail) (hr : Skips tail (b :: r))
    (hsep : b = ascii ',' ∨ b = ascii ';')
    (hmore : Gives (Literal.entries item (read.insert (key.getD (.position n)) v)
      (if key.isNone then n + 1 else n) r) entries rest) :
    Gives (Literal.entries item read n s) entries rest := by
  obtain ⟨hl, hnext⟩ : ∃ hl, Literal.entries item read n s = _ := entries_next hs hb he hr hsep
  rw [hnext]
  exact hmore.widen hl

end

/-- The text of a value is read back, wherever it stands. -/
def Reads (table : Parser Value) (v : Value) : Prop :=
  ∀ rest, Follows rest → Spells table (Text.bytes v.render ++ rest) v.reread rest

/-- What a table may hold: distinct keys, none that stands for another, and no nil. -/
structure Storable (entries : Table) : Prop where
  distinct : (entries.map Prod.fst).Nodup
  normal : ∀ e ∈ entries, e.1.Normal
  present : ∀ e ∈ entries, e.2.isNil = false

/-- The key that an entry is written with, where the next position is `n`. -/
def writtenKey (n : Nat) (k : Key) : Option Key :=
  if k == .position n then none else some k

theorem getD_writtenKey (n : Nat) (k : Key) : (writtenKey n k).getD (.position n) = k := by
  unfold writtenKey
  split
  · next hp => exact (beq_iff_eq.1 hp).symm
  · rfl

theorem isNone_writtenKey (n : Nat) (k : Key) : (writtenKey n k).isNone = (k == .position n) := by
  unfold writtenKey
  split
  · next hp => exact hp.symm
  · next hp => exact (Bool.not_eq_true _ ▸ hp).symm

theorem spells_entry (hk : k.Normal) (hv : Reads table v) (n : Nat) (hr : Follows tail) :
    SpellsEntry table (Text.bytes (if k == .position n then "" else k.render) ++
      (Text.bytes v.render ++ tail)) (writtenKey n k) v.reread tail := by
  unfold writtenKey
  split
  · exact (hv tail hr).positional
  · exact (hv tail hr).keyed hk

/-- The text behind an entry: the other entries, and the end of the table. -/
def behindEntry (n : Nat) (entries : Table) (rest : List UInt8) : List UInt8 :=
  Text.bytes (if entries.isEmpty then "" else ", ") ++
    (Text.bytes (Value.renderEntries n entries) ++ ascii '\x7d' :: rest)

theorem bytes_renderEntries (n : Nat) (k : Key) (v : Value) (entries : Table) (rest : List UInt8) :
    Text.bytes (Value.renderEntries n ((k, v) :: entries)) ++ ascii '\x7d' :: rest =
      Text.bytes (if k == .position n then "" else k.render) ++ (Text.bytes v.render ++
        behindEntry (if k == .position n then n + 1 else n) entries rest) := by
  simp only [Value.renderEntries, behindEntry, Text.bytes_append, List.append_assoc]

theorem behindEntry_cons (n : Nat) (e : Key × Value) (entries : Table) (rest : List UInt8) :
    behindEntry n (e :: entries) rest = ascii ',' :: ascii ' ' ::
      (Text.bytes (Value.renderEntries n (e :: entries)) ++ ascii '\x7d' :: rest) := by
  rw [behindEntry, List.isEmpty_cons, if_neg Bool.false_ne_true]
  rfl

theorem follows_behindEntry (n : Nat) (entries : Table) (rest : List UInt8) :
    Follows (behindEntry n entries rest) := by
  cases entries with
  | nil => exact follows_cons (.inr (.inl rfl))
  | cons e entries =>
    rw [behindEntry_cons]
    exact follows_cons (.inl rfl)

theorem solid_renderEntries (hn : ∀ e ∈ entries, e.1.Normal) (hv : ∀ e ∈ entries, Reads table e.2) :
    Solid (Text.bytes (Value.renderEntries n entries) ++ ascii '\x7d' :: rest) := by
  cases entries with
  | nil => exact solid_cons rfl (by decide)
  | cons e entries =>
    obtain ⟨k, v⟩ := e
    rw [bytes_renderEntries]
    exact (spells_entry (hn _ List.mem_cons_self) (hv _ List.mem_cons_self) n
      (follows_behindEntry _ entries rest)).solid

theorem entries_reads (hn : ∀ e ∈ entries, e.1.Normal) (hp : ∀ e ∈ entries, e.2.isNil = false)
    (hv : ∀ e ∈ entries, Reads table e.2) (hd : ((read ++ entries).map Prod.fst).Nodup)
    (hs : Skips s (Text.bytes (Value.renderEntries n entries) ++ ascii '\x7d' :: rest)) :
    Gives (Literal.entries (literalAfterTrivia table) read n s)
      (read ++ Value.rereadEntries entries) rest := by
  induction entries generalizing read n s with
  | nil =>
    rw [Value.rereadEntries, List.append_nil]
    exact entries_end hs
  | cons e entries ih =>
    obtain ⟨k, v⟩ := e
    obtain ⟨hk, hn⟩ := List.forall_mem_cons.1 hn
    obtain ⟨hv₀, hv⟩ := List.forall_mem_cons.1 hv
    obtain ⟨hp₀, hp⟩ := List.forall_mem_cons.1 hp
    -- no key stands twice, so the entry is put behind the others
    have hfresh : k ∉ read.map Prod.fst := by
      intro hm
      rw [List.map_append, List.nodup_append] at hd
      exact hd.2.2 k hm k (by simp) rfl
    have hd' : ((read ++ [(k, v.reread)] ++ entries).map Prod.fst).Nodup := by
      simpa using hd
    have hinsert : Table.insert read ((writtenKey n k).getD (.position n)) v.reread =
        read ++ [(k, v.reread)] := by
      rw [getD_writtenKey, insert_fresh hfresh (by rw [isNil_reread]; exact hp₀)]
    rw [bytes_renderEntries] at hs
    have he := spells_entry hk hv₀ n
      (follows_behindEntry (if k == .position n then n + 1 else n) entries rest)
    cases entries with
    | nil =>
      have hlast : Gives (Literal.entries _ read n s) _ rest := entries_last hs he.start he.gives
        (skips_solid (solid_cons rfl (by decide)))
      rw [hinsert] at hlast
      exact hlast
    | cons e entries =>
      rw [behindEntry_cons] at hs he
      rw [Value.rereadEntries, List.append_cons]
      refine entries_step hs he.start he.gives (skips_solid (solid_cons rfl (by decide)))
        (.inl rfl) ?_
      rw [hinsert, isNone_writtenKey]
      exact ih hn hp hv hd' (skips_space (solid_renderEntries hn hv) (b := ascii ' ') rfl)

theorem spells_table (h : Storable entries) (hv : ∀ e ∈ entries, Reads table e.2)
    (rest : List UInt8) :
    Spells (tableOf (literalAfterTrivia table)) (Text.bytes (Value.render (.table entries)) ++ rest)
      (Value.reread (.table entries)) rest := by
  have hg : Gives (Literal.entries _ [] 1 _) _ rest := entries_reads h.normal h.present hv
    h.distinct (skips_solid (solid_renderEntries h.normal hv))
  have he : Text.bytes (Value.render (.table entries)) ++ rest = ascii '\x7b' ::
      (Text.bytes (Value.renderEntries 1 entries) ++ ascii '\x7d' :: rest) := by
    simp only [Value.render, Text.bytes_append, List.append_assoc]
    rfl
  rw [he]
  refine spells_unnamed (solid_cons rfl (by decide)) (by decide) (by decide) ?_
  exact hg.map_behind Value.table (ascii '\x7b')

end MobDebug.Literal
