import MobDebug.Proofs.Literal.Placeholders
import MobDebug.Proofs.Literal.Tables
import MobDebug.Proofs.Lists

/-! A value is read back from its text, at any depth that the limit allows. -/
namespace MobDebug.Literal

variable {v w : Value} {entries : Table} {e : Key × Value} {d : Nat}

mutual

/-- How deep tables nest. -/
def Value.depth : Value → Nat
  | .table entries => depthIn entries + 1
  | _ => 0

def Value.depthIn : List (Key × Value) → Nat
  | [] => 0
  | (_, v) :: rest => max v.depth (depthIn rest)

end

mutual

/-- The tables of both values have the same keys in the same order, at every level. -/
def Value.sameKeys : Value → Value → Bool
  | .table a, .table b => sameKeysIn a b
  | .table _, _ => false
  | _, .table _ => false
  | _, _ => true

def Value.sameKeysIn : List (Key × Value) → List (Key × Value) → Bool
  | [], [] => true
  | (k, v) :: a, (l, w) :: b => k == l && v.sameKeys w && sameKeysIn a b
  | _, _ => false

end

/-- No NaN, tables of distinct normal keys and no nil, and labels that a comment can hold. -/
inductive Value.Writable : Value → Prop where
  | nil : Writable .nil
  | bool (b : Bool) : Writable (.bool b)
  | number (n : Number) (h : n ≠ .float .nan) : Writable (.number n)
  | str (s : String) : Writable (.str s)
  | table (entries : List (Key × Value)) (h : Storable entries)
      (hv : ∀ e ∈ entries, Writable e.2) : Writable (.table entries)
  | reference (label : String) (h : IsLabel label) : Writable (.reference label)
  | function : Writable .function

/-- A value holds itself, and a table holds what its entries hold. -/
inductive Value.Holds : Value → Value → Prop where
  | self (v : Value) : Holds v v
  | entry {entries : Table} {e : Key × Value} {w : Value} (he : e ∈ entries) (h : Holds e.2 w) :
      Holds (.table entries) w

/-- Every table that the value holds has distinct normal keys and no nil, and every label in it is
as `ok` says. -/
structure Value.Regular (ok : String → Prop) (v : Value) : Prop where
  tables : ∀ entries, v.Holds (.table entries) → Storable entries
  labels : ∀ label, v.Holds (.reference label) → ok label

theorem Value.Holds.of_atom (h : v.Holds w) (hv : ∀ entries, v ≠ .table entries) : w = v := by
  cases h with
  | self => rfl
  | entry => exact absurd rfl (hv _)

theorem Value.Regular.entry {ok : String → Prop} (h : (Value.table entries).Regular ok)
    (he : e ∈ entries) : e.2.Regular ok :=
  ⟨fun t ht => h.tables t (.entry he ht), fun label hl => h.labels label (.entry he hl)⟩

theorem Value.Writable.holds (h : v.Writable) (hw : v.Holds w) : w.Writable := by
  induction hw with
  | self => exact h
  | entry he _ ih =>
    cases h with
    | table _ _ hv => exact ih (hv _ he)

theorem Value.Writable.regular (h : v.Writable) : v.Regular IsLabel where
  tables t ht := by
    cases h.holds ht with
    | table _ hs _ => exact hs
  labels label hl := by
    cases h.holds hl with
    | reference _ hlabel => exact hlabel

theorem depthIn_le_iff : Value.depthIn entries ≤ d ↔ ∀ e ∈ entries, e.2.depth ≤ d := by
  induction entries with
  | nil => simp [Value.depthIn]
  | cons e entries ih =>
    obtain ⟨k, v⟩ := e
    rw [Value.depthIn, List.forall_mem_cons, Nat.max_le, ih]

theorem entriesIn_of_lookup {a b : Table}
    (h : ∀ e ∈ a, ∃ w, b.lookup e.1 = some w ∧ e.2.equal w) : Value.entriesIn a b := by
  induction a with
  | nil => rfl
  | cons e a ih =>
    obtain ⟨k, v⟩ := e
    obtain ⟨⟨w, hl, hw⟩, ha⟩ := List.forall_mem_cons.1 h
    rw [Value.entriesIn, hl]
    simp only [hw, ih ha, Bool.and_self]

/-- Tables are equal where the one has equal values under the keys of the other. -/
theorem equal_tables {a b : Table} (hl : a.length = b.length)
    (h : ∀ e ∈ a, ∃ w, b.lookup e.1 = some w ∧ e.2.equal w) :
    (Value.table a).equal (.table b) := by
  rw [Value.equal, hl, entriesIn_of_lookup h, BEq.rfl]
  rfl

theorem equal_reread (h : v.Writable) : v.equal v.reread ∧ v.reread.equal v := by
  induction h with
  | nil => exact ⟨rfl, rfl⟩
  | bool b => simp [Value.reread, Value.equal]
  | number n hn => exact n.equal_reread hn
  | str s => simp [Value.reread, Value.equal]
  | table entries hs hv ih =>
    rw [Value.reread, rereadEntries_eq]
    have hd : ((entries.map fun e => (e.1, e.2.reread)).map Prod.fst).Nodup := by
      rw [List.map_map]
      exact hs.distinct
    constructor
    · apply equal_tables (by rw [List.length_map])
      intro e he
      exact ⟨e.2.reread, lookup_of_mem hd (List.mem_map_of_mem he), (ih e he).1⟩
    · apply equal_tables (by rw [List.length_map])
      intro f hf
      obtain ⟨e, he, rfl⟩ := List.mem_map.1 hf
      exact ⟨e.2, lookup_of_mem hs.distinct he, (ih e he).2⟩
  | reference label h => simp [Value.reread, Value.equal]
  | function => exact ⟨rfl, rfl⟩

theorem sameKeysIn_reread (h : ∀ e ∈ entries, e.2.sameKeys e.2.reread) :
    Value.sameKeysIn entries (Value.rereadEntries entries) := by
  induction entries with
  | nil => rfl
  | cons e entries ih =>
    obtain ⟨k, v⟩ := e
    obtain ⟨hv, hentries⟩ := List.forall_mem_cons.1 h
    simp only [Value.rereadEntries, Value.sameKeysIn, BEq.rfl, hv, ih hentries, Bool.and_self]

theorem sameKeys_reread (h : v.Writable) : v.sameKeys v.reread := by
  induction h with
  | table entries hs hv ih => exact sameKeysIn_reread ih
  | _ => rfl

/-- What reads the tables of a value in which tables nest at most `d` deep. -/
def tableReader (limit : Nat) : Nat → Parser Value
  | 0 => fun s => failAt (.tooDeep limit) s
  | d + 1 => tableOf (literalAfterTrivia (tableReader limit d))

theorem value_eq (limit d : Nat) : value limit d = literalAfterTrivia (tableReader limit d) := by
  induction d with
  | zero => rfl
  | succ d ih =>
    rw [value, tableReader, ← ih]

theorem reads_atom {table : Parser Value} (h : v.Regular IsLabel)
    (hv : ∀ entries, v ≠ .table entries) : Reads table v := by
  intro rest hr
  cases v with
  | nil => exact spells_nil hr
  | bool b => exact spells_bool b hr
  | number n => exact spells_number n hr
  | str s => exact spells_str s rest
  | table entries => exact absurd rfl (hv entries)
  | reference label => exact spells_reference (h.labels label (.self _)) hr
  | function => exact spells_function hr

/-- Tables are read back from the inside out, one level of the limit for each. -/
theorem reads_of_regular (limit : Nat) (h : v.Regular IsLabel) (hd : v.depth ≤ d) :
    Reads (tableReader limit d) v := by
  induction d generalizing v with
  | zero =>
    cases v with
    | table entries =>
      rw [Value.depth] at hd
      omega
    | _ => exact reads_atom h nofun
  | succ d ih =>
    cases v with
    | table entries =>
      rw [Value.depth, Nat.add_le_add_iff_right, depthIn_le_iff] at hd
      intro rest _
      exact spells_table (h.tables _ (.self _)) (fun e he => ih (h.entry he) (hd e he)) rest
    | _ => exact reads_atom h nofun

/-- The text of a value is read as the value that `reread` says. -/
theorem read_of_regular (h : v.Regular IsLabel) (hd : v.depth ≤ d) :
    read d v.render = .ok v.reread := by
  have hs := reads_of_regular d h hd [] follows_nil
  rw [List.append_nil] at hs
  obtain ⟨hl, hg⟩ := hs.gives (skips_solid hs.solid)
  obtain ⟨hl', hend⟩ := skips_solid solid_nil
  rw [read, value_eq]
  simp only [bind, Except.bind, hg, hend]
  rfl

theorem read_render (h : v.Writable) (hd : v.depth ≤ d) : read d v.render = .ok v.reread :=
  read_of_regular h.regular hd

/-- A value without NaN, whose tables store only normal keys and no nil and nest at most `d` deep,
is read back from its text under the limit `d`, as an equal value with the keys of every table in
the same order. -/
theorem read_back (h : v.Writable) (hd : v.depth ≤ d) :
    ∃ w, read d v.render = .ok w ∧ w.equal v ∧ v.equal w ∧ v.sameKeys w := by
  obtain ⟨hv, hw⟩ := equal_reread h
  refine ⟨v.reread, read_render h hd, hw, hv, ?_⟩
  exact sameKeys_reread h

/-- A table in a table, with keys and values of every kind. -/
def nested : Value :=
  .table [(.int 1, .number (.int .minValue)), (.str "end", .reference "table: 0x01"),
    (.bool true, .function), (.int (-5), .number (.float (.infinite true))),
    (.float (.finite ⟨false, 2 ^ 52, -53, by decide⟩), .str "a\x00\x31\"é\\\n"),
    (.int 2, .table [(.int 1, .bool false), (.str "self", .reference ""),
      (.int 2, .number (.float (.zero true)))])]

theorem nested_read_back : nested.Writable ∧ nested.depth ≤ 2 ∧
    ∃ w, read 2 nested.render = .ok w ∧ w.equal nested ∧ nested.equal w ∧ nested.sameKeys w := by
  have hinner : Value.Writable (.table [(.int 1, .bool false), (.str "self", .reference ""),
      (.int 2, .number (.float (.zero true)))]) := by
    refine .table _ ⟨by decide, ?_, by decide⟩ ?_
    · simp [Key.Normal]
    · simp only [List.forall_mem_cons, List.not_mem_nil, false_implies, implies_true, and_true]
      exact ⟨.bool false, .reference "" ⟨rfl, by decide, by decide⟩, .number _ (by decide)⟩
  have hnested : nested.Writable := by
    refine .table _ ⟨by decide, ?_, by decide⟩ ?_
    · simp only [List.forall_mem_cons, Key.Normal, List.not_mem_nil, false_implies, implies_true,
        and_true, true_and]
      decide
    · simp only [List.forall_mem_cons, List.not_mem_nil, false_implies, implies_true, and_true]
      exact ⟨.number _ (by decide), .reference _ ⟨rfl, by decide, by decide⟩, .function,
        .number _ (by decide), .str _, hinner⟩
  exact ⟨hnested, by decide, read_back hnested (by decide)⟩

end MobDebug.Literal
