import MobDebug.Proofs.Literal.Numbers
import MobDebug.Proofs.Literal.Quotation

/-! Keys are read back from their text, and entries from key and value. -/
namespace MobDebug.Literal

variable {b : UInt8} {r s t rest : List UInt8} {table : Parser Value} {k : Key} {v : Value}
  {name : String}

theorem spells_str (content : String) (rest : List UInt8) :
    Spells table (Text.bytes (quoteString content) ++ rest) (.str content) rest := by
  obtain ⟨r, hr, hq⟩ := quotation_quoteString content rest
  rw [hr]
  refine spells_unnamed (solid_cons rfl (by decide)) (by decide) (by decide) ?_
  have hv := hq.map_behind (fun content => Value.str (Text.decodeLossy content)) (ascii '"')
  rw [Text.decodeLossy_bytes] at hv
  exact hv

/-- A key that tables can hold: a float only where no integer equals it. -/
def Key.Normal : Key → Prop
  | .float x => x ≠ .nan ∧ x.toInt64? = none
  | _ => True

/-- Between brackets, a key is read as a value that stands for it. -/
theorem spells_key (hk : k.Normal) (hr : Follows rest) :
    ∃ w, Spells table (Text.bytes k.toValue.render ++ rest) w rest ∧ Key.ofValue? w = some k := by
  cases k with
  | int i =>
    refine ⟨_, spells_int i hr, ?_⟩
    by_cases hi : i = .minValue
    · subst hi
      decide
    · rw [Number.reread, if_neg hi]
      rfl
  | str content => exact ⟨_, spells_str content rest, rfl⟩
  | bool b => exact ⟨_, spells_bool b hr, rfl⟩
  | float x =>
    refine ⟨_, spells_number _ hr, ?_⟩
    cases x with
    | nan => exact absurd rfl hk.1
    | infinite | finite =>
      simp only [Number.reread, Key.ofValue?, hk.2]

/-- Before `rest` stands an entry, and not the end of a table. -/
structure SpellsEntry (table : Parser Value) (s : List UInt8) (key : Option Key) (v : Value)
    (rest : List UInt8) : Prop where
  solid : Solid s
  start : strip? [ascii '\x7d'] s = none
  gives : Gives (entry (literalAfterTrivia table) s) (key, v) rest

theorem strip?_brace (h : ∀ b ∈ s.head?, b ≠ ascii '\x7d') : strip? [ascii '\x7d'] s = none := by
  cases s with
  | nil => rfl
  | cons b s =>
    have hb : ascii '\x7d' ≠ b := (h b rfl).symm
    simp [strip?, List.isPrefixOf, hb]

/-- An entry that begins neither with a bracket for a key nor with a name and an equals sign. -/
theorem spellsEntry_positional (hs : Solid (b :: t)) (hb : b ≠ ascii '\x7d')
    (hbracket : b = ascii '[' → t.head? = some (ascii '[') ∨ t.head? = some (ascii '='))
    (hunkeyed : ∀ name, name? (b :: t) = some name → equalsSign? name.rest = .ok none)
    (hv : Gives (literalAfterTrivia table (b :: t)) v rest) :
    SpellsEntry table (b :: t) none v rest := by
  refine ⟨hs, strip?_brace (by rintro _ ⟨⟩; exact hb), ?_⟩
  have hp : Gives (positionalEntry (literalAfterTrivia table) (b :: t)) (none, v) rest :=
    hv.map fun v => (none, v)
  rw [entry, if_neg fun h => (hbracket h.1).elim h.2.1 h.2.2]
  split
  · exact hp
  · next name hn =>
    rw [hunkeyed name hn]
    exact hp

/-- A value without a key. -/
theorem Spells.positional (h : Spells table s v rest) : SpellsEntry table s none v rest := by
  have hv := h.gives (skips_solid h.solid)
  obtain ⟨b, t, rfl, -⟩ := h.literal
  obtain ⟨hbracket, hbrace, -⟩ := h.start b rfl
  exact spellsEntry_positional h.solid hbrace (fun hb => absurd hb hbracket) h.unkeyed hv

/-- An equals sign, and no other behind it. -/
theorem equalsSign?_some (hs : Skips s (ascii '=' :: r)) (hr : r.head? ≠ some (ascii '=')) :
    ∃ h, equalsSign? s = .ok (some ⟨(), r, h⟩) := by
  obtain ⟨hl, hs⟩ := hs
  refine ⟨hl, ?_⟩
  unfold equalsSign?
  rw [hs]
  exact if_pos ⟨rfl, hr⟩

/-- Behind a name and an equals sign goes on what reads an item. -/
theorem entry_named (item : Parser Value) (hw : IsWord name)
    (hreserved : reservedWords.contains name = false)
    (hr : ∀ c ∈ r.head?, continuesName c = false) (hs : Skips r (ascii '=' :: s))
    (hequals : s.head? ≠ some (ascii '=')) :
    ∃ hl : s.length < (Text.bytes name ++ r).length, entry item (Text.bytes name ++ r) =
      (item s).map fun p => ⟨(some (.str name), p.value), p.rest, p.shorter.trans hl⟩ := by
  obtain ⟨b, t, ht, hb, hl, hname⟩ := name?_bytes hw hr
  obtain ⟨he, hequals⟩ := equalsSign?_some hs hequals
  rw [ht]
  refine ⟨he.trans hl, ?_⟩
  have hbracket : b ≠ ascii '[' := startsName_ne hb rfl
  rw [entry, if_neg fun hc => hbracket hc.1, hname]
  simp only [hequals, hreserved, Bool.false_eq_true, if_false]

theorem spellsEntry_named (hw : IsWord name) (hreserved : reservedWords.contains name = false)
    (hr : ∀ c ∈ r.head?, continuesName c = false) (hs : Skips r (ascii '=' :: s))
    (hequals : s.head? ≠ some (ascii '=')) (hv : Gives (literalAfterTrivia table s) v rest) :
    SpellsEntry table (Text.bytes name ++ r) (some (.str name)) v rest := by
  obtain ⟨hl, hentry⟩ := entry_named (literalAfterTrivia table) hw hreserved hr hs hequals
  obtain ⟨b, t, ht, hb, -, -⟩ := name?_bytes hw hr
  obtain ⟨hr, hg⟩ := hv
  rw [hg] at hentry
  have hgives : Gives _ (some (Key.str name), v) rest := ⟨hr.trans hl, hentry⟩
  rw [ht] at hgives ⊢
  refine ⟨solid_of_startsName hb, strip?_brace ?_, hgives⟩
  rintro _ ⟨⟩
  exact startsName_ne hb rfl

theorem skips_equals (s : List UInt8) :
    Skips (Text.bytes " = " ++ s) (ascii '=' :: ascii ' ' :: s) :=
  skips_space (solid_cons rfl (by decide)) (b := ascii ' ') rfl

/-- A name and an equals sign. -/
theorem Spells.named (h : Spells table s v rest) (hn : isPlainName name) :
    SpellsEntry table (Text.bytes name ++ (Text.bytes " = " ++ s)) (some (.str name)) v rest := by
  obtain ⟨hw, hreserved⟩ := isWord_of_isPlainName hn
  refine spellsEntry_named hw hreserved ?_ (skips_equals s) (by rintro ⟨⟩)
    (h.gives (skips_space h.solid (b := ascii ' ') rfl))
  rintro _ ⟨⟩
  rfl

theorem bracketEntry_reads {item : Parser Value} {q u : List UInt8} {w : Value}
    (hkey : Gives (item t) w q) (hq : Skips q (ascii ']' :: u)) (he : Skips u (ascii '=' :: r))
    (hval : Gives (item r) v rest) (hk : Key.ofValue? w = some k) :
    Gives (bracketEntry item t) (k, v) rest := by
  obtain ⟨h1, e1⟩ := hkey
  obtain ⟨h2, e2⟩ := expect_eq hq
  obtain ⟨h3, e3⟩ := expect_eq he
  obtain ⟨h4, e4⟩ := hval
  refine ⟨h4.trans (h3.trans (h2.trans h1)), ?_⟩
  simp only [bracketEntry, bind, Except.bind, e1, e2, e3, e4, hk]

theorem spellsEntry_bracketed (ht : t.head? ≠ some (ascii '[') ∧ t.head? ≠ some (ascii '='))
    (h : Gives (bracketEntry (literalAfterTrivia table) t) (k, v) rest) :
    SpellsEntry table (ascii '[' :: t) (some k) v rest := by
  refine ⟨solid_cons rfl (by decide), rfl, ?_⟩
  rw [entry, if_pos ⟨rfl, ht⟩]
  exact h.map_behind (fun p => (some p.1, p.2)) (ascii '[')

/-- A key in brackets and an equals sign. -/
theorem Spells.bracketed (h : Spells table s v rest) (hk : k.Normal) :
    SpellsEntry table (ascii '[' :: (Text.bytes k.toValue.render ++ (Text.bytes "] = " ++ s)))
      (some k) v rest := by
  have hclose : Text.bytes "] = " ++ s = ascii ']' :: (Text.bytes " = " ++ s) := rfl
  rw [hclose]
  have hkey : ∃ w, Spells table
      (Text.bytes k.toValue.render ++ ascii ']' :: (Text.bytes " = " ++ s)) w
      (ascii ']' :: (Text.bytes " = " ++ s)) ∧ Key.ofValue? w = some k :=
    spells_key hk (follows_cons (.inr (.inr rfl)))
  generalize Text.bytes k.toValue.render ++ ascii ']' :: (Text.bytes " = " ++ s) = t at hkey ⊢
  obtain ⟨w, hw, hvalue⟩ := hkey
  have hstart : t.head? ≠ some (ascii '[') ∧ t.head? ≠ some (ascii '=') :=
    ⟨fun he => (hw.start _ he).1 rfl, fun he => (hw.start _ he).2.2 rfl⟩
  have hcloses := skips_solid (solid_cons (b := ascii ']') (s := Text.bytes " = " ++ s) rfl
    (by decide))
  exact spellsEntry_bracketed hstart (bracketEntry_reads (hw.gives (skips_solid hw.solid)) hcloses
    (skips_equals s) (h.gives (skips_space h.solid (b := ascii ' ') rfl)) hvalue)

/-- A key, whichever way it is written. -/
theorem Spells.keyed (h : Spells table s v rest) (hk : k.Normal) :
    SpellsEntry table (Text.bytes k.render ++ s) (some k) v rest := by
  have hb := h.bracketed hk
  have he (text : String) : ascii '[' :: (Text.bytes text ++ (Text.bytes "] = " ++ s)) =
      Text.bytes ("[" ++ text ++ "] = ") ++ s := by
    rw [Text.bytes_append, Text.bytes_append, List.append_assoc, List.append_assoc]
    rfl
  rw [he] at hb
  cases k with
  | str name =>
    by_cases hn : isPlainName name
    · rw [Key.render, if_pos hn, Text.bytes_append, List.append_assoc]
      exact h.named hn
    · rw [Key.render, if_neg hn]
      exact hb
  | int i => exact hb
  | bool b => exact hb
  | float x => exact hb

end MobDebug.Literal
