import MobDebug.Proofs.Literal.Grammar.Reading

/-!
A table is closed by its last byte. So what has been cut off before it is no literal, and what
follows it can only be trivia.
-/
namespace MobDebug.Literal

variable {g g' l l' r r' s : List UInt8} {d : Nat} {text head : String} {v w : Value} {t : Table}
  {table : Parser Value} {T : Language Value}

/-- Only tables begin with a brace. -/
theorem Lit.of_brace (h : Lit T l v) (hl : l ++ s = ascii '\x7b' :: r) : T l v := by
  cases h with
  | number h =>
    obtain ⟨b, u, rfl, hb, -⟩ := h.start s
    obtain ⟨rfl, -⟩ := List.cons.inj hl
    exact absurd rfl (hb _ rfl (by decide) (by decide))
  | quoted hq h => rcases hq with rfl | rfl <;> cases hl
  | long h =>
    obtain ⟨u, rfl⟩ := h.start
    cases hl
  | bool b => cases b <;> cases hl
  | table h => exact h
  | _ => cases hl

/-- Behind trivia, a table that begins the text is all that does. -/
theorem Recognizes.unique (hT : Recognizes table T) (hg : Trivia g) (hl : T l v) (hg' : Trivia g')
    (hl' : Lit T l' w) (h : g ++ (l ++ r) = g' ++ (l' ++ r')) : v = w ∧ r = r' := by
  have hs := hg.skips (skips_solid ((Lit.table hl).solid hT r))
  rw [h] at hs
  have he := hs.unique (hg'.skips (skips_solid (hl'.solid hT r')))
  obtain ⟨⟨u, rfl⟩, -⟩ := hT.start hl
  have hread := hT.complete hl r
  rw [he] at hread
  obtain ⟨_, hread⟩ := hread
  obtain ⟨_, hread'⟩ := hT.complete (hl'.of_brace he.symm) r'
  cases hread.symm.trans hread'
  exact ⟨rfl, rfl⟩

theorem DerivesTable.brace (h : DerivesTable d l v) : ∃ s, l = s ++ [ascii '\x7d'] := by
  cases d with
  | zero => exact h.elim
  | succ d =>
    obtain ⟨-⟩ := h
    exact ⟨ascii '\x7b' :: _, rfl⟩

/-- The text is trivia and a table, up to its closing brace. -/
def EndsTable (d : Nat) (t : Table) (head : String) : Prop :=
  ∃ g l, Text.bytes head = g ++ l ∧ Trivia g ∧ DerivesTable d l (.table t)

theorem endsTable_of_read (h : read d text = .ok (.table t)) :
    ∃ head tail, text = head ++ tail ∧ EndsTable d t head := by
  obtain ⟨g, l, g', hs, hg, hl, -, -⟩ := read_eq_ok_iff.1 h
  have ht : DerivesTable d l (.table t) := by
    cases hl with
    | table h => exact h
  obtain ⟨u, rfl⟩ := ht.brace
  have hsplit : Text.bytes text = (g ++ u) ++ ascii '\x7d' :: g' := by
    simpa only [List.append_assoc, List.singleton_append] using hs
  obtain ⟨head, tail, htext, hhead, -⟩ := Text.bytes_split (by decide) hsplit
  exact ⟨head, tail, htext, g, _, hhead.trans (List.append_assoc ..), hg, ht⟩

/-- Whatever stands behind the closing brace, a reading of the text is of the table. -/
theorem EndsTable.read_append (h : EndsTable d t head) (s : String) (v : Value) :
    read d (head ++ s) = .ok v ↔ v = .table t ∧ Trailing (Text.bytes s) := by
  obtain ⟨g, l, hhead, hg, hl⟩ := h
  rw [read_eq_ok_iff, Text.bytes_append, hhead, List.append_assoc]
  constructor
  · rintro ⟨g', l', r, he, hg', hl', hr, -⟩
    obtain ⟨rfl, rfl⟩ := (recognizes_tableReader d d).unique hg hl hg' hl' he
    exact ⟨rfl, hr⟩
  · rintro ⟨rfl, hr⟩
    exact ⟨g, l, _, rfl, hg, .table hl, hr, by rintro ⟨⟩⟩

/-- No part of the text up to the closing brace is read, but for all of it. -/
theorem EndsTable.read_cut {p q : String} (h : EndsTable d t (p ++ q)) (hq : q ≠ "") (v : Value) :
    read d p ≠ .ok v := by
  intro hp
  obtain ⟨g, l, hpq, hg, hl⟩ := h
  obtain ⟨g', l', r, hs, hg', hl', -, -⟩ := read_eq_ok_iff.1 hp
  have he : g ++ (l ++ []) = g' ++ (l' ++ (r ++ Text.bytes q)) := by
    rw [List.append_nil, ← hpq, Text.bytes_append, hs]
    simp only [List.append_assoc]
  obtain ⟨-, hr⟩ := (recognizes_tableReader d d).unique hg hl hg' hl' he
  exact hq (Text.bytes_eq_nil.1 (List.append_eq_nil_iff.1 hr.symm).2)

/-- A text that is read as a table has a part up to the closing brace of it. Each text that stops
short of that brace is an error. What follows the brace may be any space and comments, and changes
nothing; with anything else there, the text is an error. -/
theorem read_table_whole (d : Nat) (text : String) (t : Table)
    (h : read d text = .ok (.table t)) :
    (∃ head tail, text = head ++ tail ∧ EndsTable d t head) ∧
    ∀ head tail, text = head ++ tail → EndsTable d t head →
      (∀ p q, head = p ++ q → q ≠ "" → ∃ e, read d p = .error e) ∧
      ∀ s v, read d (head ++ s) = .ok v ↔ v = .table t ∧ Trailing (Text.bytes s) := by
  refine ⟨endsTable_of_read h, fun head tail _ hend => ⟨?_, hend.read_append⟩⟩
  rintro p q rfl hq
  cases hp : read d p with
  | error e => exact ⟨e, rfl⟩
  | ok v => exact absurd hp (hend.read_cut hq v)

theorem list_table_whole : ∃ t, read 1 "\x7btrue\x7d--" = .ok (.table t) ∧
    (∀ p q, "\x7btrue\x7d" = p ++ q → q ≠ "" → ∃ e, read 1 p = .error e) ∧
    ∀ s v, read 1 ("\x7btrue\x7d" ++ s) = .ok v ↔ v = .table t ∧ Trailing (Text.bytes s) := by
  have hitem : Padded (Lit (DerivesTable 0)) (Text.bytes "true" ++ []) (.bool true) :=
    .mk (.bool true) .none (by rintro ⟨⟩)
  have htable : DerivesTable 1 (ascii '\x7b' :: ([] ++ (Text.bytes "true" ++ []) ++ [ascii '\x7d']))
      (.table [(.int 1, .bool true)]) := .mk (.last .none (.positional hitem))
  have hends : EndsTable 1 [(.int 1, .bool true)] "\x7btrue\x7d" := ⟨[], _, rfl, .none, htable⟩
  have hline : LineComment (dashes ++ []) := .mk List.not_mem_nil fun level h => by
    cases List.prefix_nil.1 h
  have htail : Trailing ([] ++ (dashes ++ [])) := .line .none hline
  have hread : read 1 "\x7btrue\x7d--" = .ok (.table [(.int 1, .bool true)]) :=
    (hends.read_append "--" _).2 ⟨rfl, htail⟩
  obtain ⟨-, h⟩ := read_table_whole 1 _ _ hread
  exact ⟨_, hread, h "\x7btrue\x7d" "--" rfl hends⟩

end MobDebug.Literal
