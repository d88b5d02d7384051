import MobDebug.Proofs.Double.Equality
import MobDebug.Proofs.Literal.Grammar.Reading

/-! Whatever text is read, the tables in the value are those that assignments make: their keys are
distinct and normal, and nil is under none of them. -/
namespace MobDebug.Literal

variable {d n limit : Nat} {s : List UInt8} {text label : String} {k : Key} {v : Value}
  {t : Table} {e : Key × Value} {es : List (Option Key × Value)} {T : Language Value}
  {ok : String → Prop}

theorem Key.normal_of_ofValue? (h : Key.ofValue? v = some k) : k.Normal := by
  unfold Key.ofValue? at h
  split at h
  · cases h
    trivial
  · cases h
    trivial
  · cases h
    trivial
  · cases h
  · next x hx =>
    split at h <;> cases h
    · trivial
    · next hi => exact ⟨hx, hi⟩
  all_goals cases h

theorem Key.normal_float {x : Double} (h : (Key.float x).Normal) :
    x ≠ .nan ∧ ∀ f, x = .finite f → ∀ i : Int64, f.value ≠ i.toInt :=
  ⟨h.1, Double.toInt64?_eq_none_iff.1 h.2⟩

theorem mem_store (h : e ∈ Table.store k v t) : e = (k, v) ∨ e ∈ t := by
  induction t with
  | nil => exact .inl (List.mem_singleton.1 h)
  | cons f t ih =>
    obtain ⟨l, w⟩ := f
    rw [Table.store] at h
    split at h
    · exact (List.mem_cons.1 h).imp_right (List.mem_cons_of_mem _)
    · rcases List.mem_cons.1 h with rfl | h
      · exact .inr List.mem_cons_self
      · exact (ih h).imp_right (List.mem_cons_of_mem _)

/-- What a table holds after an assignment is new and no nil, or was there before. -/
theorem mem_insert (h : e ∈ t.insert k v) : e = (k, v) ∧ v.isNil = false ∨ e ∈ t := by
  rw [Table.insert] at h
  split at h
  · exact .inr ((remove_sublist k t).subset h)
  · next hv => exact (mem_store h).imp_left fun he => ⟨he, by simpa using hv⟩

theorem Storable.insert (h : Storable t) (hk : k.Normal) (v : Value) :
    Storable (t.insert k v) where
  distinct := distinct_insert h.distinct k v
  normal e he := by
    rcases mem_insert he with ⟨rfl, -⟩ | he
    · exact hk
    · exact h.normal e he
  present e he := by
    rcases mem_insert he with ⟨rfl, hv⟩ | he
    · exact hv
    · exact h.present e he

/-- By induction on the entries; a position is a normal key. -/
theorem Storable.assign (h : Storable t) (he : ∀ e ∈ es, ∀ k ∈ e.1, k.Normal) (n : Nat) :
    Storable (t.assign n es) := by
  induction es generalizing t n with
  | nil => exact h
  | cons e es ih =>
    obtain ⟨key, v⟩ := e
    obtain ⟨hkey, he⟩ := List.forall_mem_cons.1 he
    refine ih (h.insert ?_ v) he _
    cases key with
    | none => trivial
    | some k => exact hkey k rfl

theorem mem_assign (h : e ∈ t.assign n es) : e ∈ t ∨ ∃ f ∈ es, f.2 = e.2 := by
  induction es generalizing t n with
  | nil => exact .inl h
  | cons f es ih =>
    obtain ⟨key, v⟩ := f
    rcases ih h with h | ⟨g, hg, he⟩
    · rcases mem_insert h with ⟨rfl, -⟩ | h
      · exact .inr ⟨(key, v), List.mem_cons_self, rfl⟩
      · exact .inl h
    · exact .inr ⟨g, List.mem_cons_of_mem _ hg, he⟩

theorem storable_nil : Storable [] := ⟨List.nodup_nil, by simp, by simp⟩

theorem Value.Regular.table (ht : Storable t) (he : ∀ e ∈ t, e.2.Regular ok) :
    (Value.table t).Regular ok where
  tables := by
    rintro _ (_ | ⟨hm, h⟩)
    · exact ht
    · exact (he _ hm).tables _ h
  labels := by
    rintro _ (_ | ⟨hm, h⟩)
    exact (he _ hm).labels _ h

theorem regular_atom (hv : ∀ t, v ≠ .table t) (hl : ∀ label, v = .reference label → ok label) :
    v.Regular ok where
  tables t h := absurd (h.of_atom hv).symm (hv t)
  labels label h := hl label (h.of_atom hv).symm

theorem regular_number (n : Number) : (Value.number n).Regular ok :=
  regular_atom (by rintro _ ⟨⟩) (by rintro _ ⟨⟩)

theorem regular_reference (h : ok label) : (Value.reference label).Regular ok := by
  refine regular_atom (by rintro _ ⟨⟩) ?_
  rintro _ ⟨⟩
  exact h

/-! ### Values of the grammar -/

/-- What is read with `d` levels of tables. -/
structure Value.Within (d : Nat) (v : Value) : Prop where
  regular : v.Regular fun label => Text.Trimmed label.toList
  depth : v.depth ≤ d

theorem within_atom (hv : ∀ t, v ≠ .table t)
    (hl : ∀ label, v = .reference label → Text.Trimmed label.toList) : v.Within d := by
  refine ⟨regular_atom hv hl, ?_⟩
  cases v with
  | table t => exact absurd rfl (hv t)
  | _ => exact Nat.zero_le d

theorem Mark.trimmed (h : Mark s label) : Text.Trimmed label.toList := by
  obtain ⟨-, -, body, -, -, rfl⟩ := h
  rw [String.toList_ofList]
  exact Text.trimmed_trim body

theorem Lit.within (hT : ∀ {s v}, T s v → v.Within d) (h : Lit T s v) : v.Within d := by
  cases h with
  | table h => exact hT h
  | reference h => exact ⟨regular_reference h.trimmed, Nat.zero_le d⟩
  | _ => exact within_atom nofun nofun

theorem Entry.normal {item : Language Value} {e : Option Key × Value} (h : Entry item s e) :
    ∀ k ∈ e.1, k.Normal := by
  cases h with
  | positional => simp
  | named =>
    rintro _ ⟨⟩
    trivial
  | keyed _ _ hw =>
    rintro _ ⟨⟩
    exact Key.normal_of_ofValue? hw

theorem Entry.item {item : Language Value} {e : Option Key × Value} (h : Entry item s e) :
    ∃ s, item s e.2 := by
  cases h with
  | positional h | named _ _ _ _ h | keyed _ _ _ _ _ _ h => exact ⟨_, h⟩

theorem Fields.entry {item : Language Value} (h : Fields item s es) :
    ∀ e ∈ es, ∃ s, Entry item s e := by
  induction h with
  | none => simp
  | last _ h => exact List.forall_mem_singleton.2 ⟨_, h⟩
  | more _ h _ _ ih => exact List.forall_mem_cons.2 ⟨⟨_, h⟩, ih⟩

/-- By induction on the levels: the entries are assigned to an empty table. -/
theorem within_of_derives (h : DerivesTable d s v) : v.Within d := by
  induction d generalizing s v with
  | zero => exact h.elim
  | succ d ih =>
    obtain @⟨s, es, h⟩ := h
    have hs : Storable (Table.assign [] 1 es) := storable_nil.assign (fun e he k hk => by
      obtain ⟨_, hentry⟩ := h.entry e he
      exact hentry.normal k hk) 1
    have hv : ∀ e ∈ Table.assign [] 1 es, e.2.Within d := by
      intro e he
      obtain hnil | ⟨f, hf, hfe⟩ := mem_assign he
      · exact absurd hnil List.not_mem_nil
      · obtain ⟨_, hentry⟩ := h.entry f hf
        obtain ⟨_, hitem⟩ := hentry.item
        obtain ⟨hl, -, -⟩ := hitem
        exact hfe ▸ hl.within ih
    refine ⟨.table hs fun e he => (hv e he).regular, ?_⟩
    rw [Value.depth, Nat.add_le_add_iff_right, depthIn_le_iff]
    exact fun e he => (hv e he).depth

theorem within_of_read (h : read limit text = .ok v) : v.Within limit := by
  obtain ⟨g, l, g', -, -, hl, -, -⟩ := read_eq_ok_iff.1 h
  exact hl.within within_of_derives

/-- A value that is read nests tables at most as deep as the limit says. All its tables, at any
level, have distinct keys, store no nil, and have no float key that is NaN or an integer of 64 bits;
and all its labels are trimmed. -/
theorem read_regular (limit : Nat) (text : String) (v : Value) (h : read limit text = .ok v) :
    v.depth ≤ limit ∧
    (∀ t, v.Holds (.table t) → (t.map Prod.fst).Nodup ∧ (∀ e ∈ t, e.2 ≠ .nil) ∧
      ∀ x, Key.float x ∈ t.map Prod.fst →
        x ≠ .nan ∧ ∀ f, x = .finite f → ∀ i : Int64, f.value ≠ i.toInt) ∧
    ∀ label, v.Holds (.reference label) → Text.Trimmed label.toList := by
  obtain ⟨hregular, hdepth⟩ := within_of_read h
  refine ⟨hdepth, fun t ht => ?_, hregular.labels⟩
  have hs := hregular.tables t ht
  refine ⟨hs.distinct, ?_, ?_⟩
  · intro e he hnil
    have := hs.present e he
    rw [hnil] at this
    cases this
  · intro x hx
    obtain ⟨e, he, hk⟩ := List.mem_map.1 hx
    have hn := hs.normal e he
    rw [hk] at hn
    exact Key.normal_float hn

/-- Position 1 is taken, then cleared by its number in hexadecimal digits, and not taken again. -/
theorem read_regular_cleared :
    read 2 "\x7btrue,[0x1]=nil,\x7b\x7d\x7d" = .ok (.table [(.int 2, .table [])]) ∧
      (Value.table [(.int 2, .table [])]).depth ≤ 2 ∧
      ∀ t, (Value.table [(.int 2, .table [])]).Holds (.table t) →
        (t.map Prod.fst).Nodup ∧ ∀ e ∈ t, e.2 ≠ .nil := by
  have htrue : Padded (Lit (DerivesTable 1)) (Text.bytes "true" ++ []) (.bool true) :=
    .mk (.bool true) .none (by rintro ⟨⟩)
  have hkey : Padded (Lit (DerivesTable 1)) (ascii '0' :: ascii 'x' :: [ascii '1'] ++ [])
      (.number (.int 1)) := by
    have hmantissa : HexMantissa [ascii '1'] [1] none := .whole (.cons rfl .nil) (by decide)
    exact .mk (.number (.numeral (.hex (.inl rfl) hmantissa))) .none (by rintro ⟨⟩)
  have hnil : Padded (Lit (DerivesTable 1)) (Text.bytes "nil" ++ []) .nil :=
    .mk .nil .none fun _ hm => by
      obtain ⟨m, label, ⟨-, -, -⟩, hp⟩ := hm
      simp [dashes] at hp
  have hempty : Padded (Lit (DerivesTable 1))
      (ascii '\x7b' :: ([] ++ [ascii '\x7d']) ++ []) (.table []) :=
    .mk (.table (.mk (.none .none))) .none (by rintro ⟨⟩)
  have hfields := Fields.more .none (.positional htrue) (.inl rfl)
    (.more .none (.keyed .none hkey rfl (by decide) .none .none hnil) (.inl rfl)
      (.last .none (.positional hempty)))
  have hread : read 2 "\x7btrue,[0x1]=nil,\x7b\x7d\x7d" = .ok (.table [(.int 2, .table [])]) :=
    read_eq_ok_iff.2 ⟨[], _, [], rfl, .none, .table (.mk hfields), .closed .none, by rintro ⟨⟩⟩
  obtain ⟨hdepth, htables, -⟩ := read_regular _ _ _ hread
  exact ⟨hread, hdepth, fun t ht => ⟨(htables t ht).1, (htables t ht).2.1⟩⟩

end MobDebug.Literal
