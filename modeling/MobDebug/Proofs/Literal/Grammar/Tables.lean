import MobDebug.Proofs.Literal.Grammar.Literals
import MobDebug.Proofs.Literal.Tables

/-! Tables are read as the grammar has them, if the items are: entry by entry, whatever follows. -/
namespace MobDebug.Literal

variable {b : UInt8} {g l p s t r rest : List UInt8} {v : Value} {k : Option Key} {n : Nat}
  {table : Parser Value} {T : Language Value} {entries before : Table}

/-! ### Items -/

theorem Stands.padded (h : Stands T s v (b :: t)) :
    ∃ p, s = p ++ b :: t ∧ Padded (Lit T) p v := by
  obtain ⟨l, g, rfl, hl, hg, hm⟩ := h
  exact ⟨l ++ g, (List.append_assoc ..).symm, .mk hl hg.trivia hm⟩

theorem Padded.stands (h : Padded (Lit T) p v) (ht : Solid t) : Stands T (p ++ t) v t := by
  obtain @⟨l, g, _, hl, hg, hm⟩ := h
  exact ⟨l, g, List.append_assoc .., hl, ⟨ht, .inl hg⟩, hm⟩

/-- An item that is read is a literal behind trivia. -/
theorem item_sound (hT : Recognizes table T) (h : Gives (literalAfterTrivia table s) v rest)
    (ht : Skips rest t) : ∃ g u, s = g ++ u ∧ Trivia g ∧ Stands T u v t := by
  unfold literalAfterTrivia at h
  split at h
  · exact absurd h.choose_spec (by simp)
  · exact absurd h.choose_spec (by simp [failAt])
  · next b r hr hs =>
    obtain ⟨w, hw, he⟩ := h.of_map id (fun _ => rfl) fun _ => rfl
    obtain rfl : w = v := he
    obtain ⟨g, rfl, hg⟩ := skips_sound ⟨hr, hs⟩
    exact ⟨g, b :: r, rfl, hg.trivia, literal_sound hT hg.solid hw ht⟩

theorem item_reads (hT : Recognizes table T) (hs : Stands T s v t) (ht : Ends t) (hr : Skips r s) :
    ∃ rest, Gives (literalAfterTrivia table r) v rest ∧ Skips rest t := by
  obtain ⟨b, u, rest, rfl, hg, hrest⟩ := hs.reads hT ht
  obtain ⟨hl, hr⟩ := hr
  refine ⟨rest, ?_, hrest⟩
  unfold literalAfterTrivia
  rw [hr]
  exact hg.widen hl

/-! ### Entries -/

theorem equalsSign?_sound {h : rest.length < s.length}
    (hs : equalsSign? s = .ok (some ⟨(), rest, h⟩)) : Skips s (ascii '=' :: rest) := by
  unfold equalsSign? at hs
  split at hs
  · cases hs
  · cases hs
  · next b r hr hskip =>
    split at hs
    · next hb =>
      cases hs
      exact ⟨hr, hb.1 ▸ hskip⟩
    · cases hs

theorem bracketEntry_sound {item : Parser Value} {key : Key}
    (h : Gives (bracketEntry item s) (key, v) rest) :
    ∃ w q u r, Gives (item s) w q ∧ Skips q (ascii ']' :: u) ∧ Skips u (ascii '=' :: r) ∧
      Gives (item r) v rest ∧ Key.ofValue? w = some key := by
  obtain ⟨_, h⟩ := h
  obtain ⟨⟨w, q, hq⟩, hkey, h⟩ := bind_eq_ok.1 h
  obtain ⟨⟨_, u, hu⟩, hclose, h⟩ := bind_eq_ok.1 h
  obtain ⟨⟨_, r, hr⟩, hequals, h⟩ := bind_eq_ok.1 h
  obtain ⟨⟨v, rest, hrest⟩, hvalue, h⟩ := bind_eq_ok.1 h
  dsimp only at h
  split at h
  · next hk =>
    cases h
    exact ⟨w, q, u, r, ⟨hq, hkey⟩, expect_sound ⟨hu, hclose⟩, expect_sound ⟨hr, hequals⟩,
      ⟨hrest, hvalue⟩, hk⟩
  · cases h

theorem positionalEntry_sound (hT : Recognizes table T) (hs : Solid s)
    (h : Gives (positionalEntry (literalAfterTrivia table) s) (k, v) rest)
    (ht : Skips rest (b :: t)) :
    ∃ p, s = p ++ b :: t ∧ Entry (Padded (Lit T)) p (k, v) := by
  obtain ⟨w, hw, he⟩ := h.of_map (fun v => (none, v)) (fun _ => rfl) fun _ => rfl
  cases he
  obtain ⟨g, u, rfl, hg, hstands⟩ := item_sound hT hw ht
  have hu : u = g ++ u :=
    (hg.skips (skips_solid (Stands.solid hT hstands))).unique (skips_solid hs)
  obtain rfl : g = [] := by simpa using hu
  obtain ⟨p, rfl, hpadded⟩ := hstands.padded
  exact ⟨p, rfl, .positional hpadded⟩

theorem bracketedEntry_sound (hT : Recognizes table T) {key : Key}
    (hbracket : r.head? ≠ some (ascii '['))
    (h : Gives (bracketEntry (literalAfterTrivia table) r) (key, v) rest)
    (ht : Skips rest (b :: t)) :
    ∃ p, ascii '[' :: r = p ++ b :: t ∧ Entry (Padded (Lit T)) p (some key, v) := by
  obtain ⟨w, q, u, r, hkey, hclose, hequals, hvalue, hk⟩ := bracketEntry_sound h
  obtain ⟨g₁, x, rfl, h₁, hstands⟩ := item_sound hT hkey hclose
  obtain ⟨x, rfl, hx⟩ := hstands.padded
  obtain ⟨g₂, rfl, h₂⟩ := skips_cons_sound hequals
  obtain ⟨g₃, y, rfl, h₃, hstands'⟩ := item_sound hT hvalue ht
  obtain ⟨y, rfl, hy⟩ := hstands'.padded
  refine ⟨ascii '[' :: (g₁ ++ (x ++ ascii ']' :: (g₂ ++ ascii '=' :: (g₃ ++ y)))), ?_,
    .keyed h₁ hx hk ?_ h₂ h₃ hy⟩
  · simp only [List.append_assoc, List.cons_append]
  · intro he
    rw [← List.append_assoc, List.head?_append, he] at hbracket
    exact hbracket rfl

theorem namedEntry_sound (hT : Recognizes table T) {name : String} {q : List UInt8}
    {hq : q.length < s.length} {hr : r.length < q.length} (hn : name? s = some ⟨name, q, hq⟩)
    (he : equalsSign? q = .ok (some ⟨(), r, hr⟩)) (hreserved : reservedWords.contains name = false)
    (h : Gives (literalAfterTrivia table r) v rest) (ht : Skips rest (b :: t)) :
    ∃ p, s = p ++ b :: t ∧ Entry (Padded (Lit T)) p (some (.str name), v) := by
  obtain ⟨hname, hword, -⟩ := name?_sound hn
  obtain ⟨g₁, rfl, h₁⟩ := skips_cons_sound (equalsSign?_sound he)
  obtain ⟨g₂, y, rfl, h₂, hstands⟩ := item_sound hT h ht
  obtain ⟨y, rfl, hy⟩ := hstands.padded
  refine ⟨Text.bytes name ++ (g₁ ++ ascii '=' :: (g₂ ++ y)), hname.trans ?_,
    .named hword hreserved h₁ h₂ hy⟩
  simp only [List.append_assoc, List.cons_append]

theorem entry_sound (hT : Recognizes table T) (hs : Solid s)
    (h : Gives (entry (literalAfterTrivia table) s) (k, v) rest) (ht : Skips rest (b :: t)) :
    ∃ p, s = p ++ b :: t ∧ Entry (Padded (Lit T)) p (k, v) := by
  rcases s with - | ⟨c, s⟩
  · exact positionalEntry_sound hT hs h ht
  rw [entry] at h
  split at h
  · next hc =>
    obtain ⟨⟨key, w⟩, hw, he⟩ := h.of_map (fun p => (some p.1, p.2)) (fun _ => rfl) fun _ => rfl
    cases he
    obtain ⟨rfl, hbracket, -⟩ := hc
    exact bracketedEntry_sound hT hbracket hw ht
  split at h
  · exact positionalEntry_sound hT hs h ht
  · next name hn =>
    split at h
    · exact absurd h.choose_spec (by simp)
    · exact positionalEntry_sound hT hs h ht
    · next equals he =>
      split at h
      · exact absurd h.choose_spec (by simp [failAt])
      · next hreserved =>
        obtain ⟨name, q, hq⟩ := name
        obtain ⟨_, r, hr⟩ := equals
        obtain ⟨w, hw, hv⟩ := h.of_map (fun v => (some (Key.str name), v)) (fun _ => rfl)
          fun _ => rfl
        cases hv
        exact namedEntry_sound hT hn he (Bool.not_eq_true _ ▸ hreserved) hw ht

/-- Behind a word that is a literal, or begins one, stands no equals sign. -/
theorem word_unkeyed {word : String} (hw : IsWord word)
    (hr : ∀ c ∈ r.head?, continuesName c = false) (hs : Skips r s)
    (hequals : s.head? ≠ some (ascii '=')) :
    ∀ name, name? (Text.bytes word ++ r) = some name → equalsSign? name.rest = .ok none := by
  intro name hn
  obtain ⟨_, hname⟩ := name?_word hw hr
  cases hname.symm.trans hn
  exact equalsSign?_none hs hequals

theorem name?_unnamed (hb : startsName b = false) : name? (b :: r) = none := by
  simp only [name?, hb, Bool.false_eq_true, if_false]

/-- No literal is taken for the name of an entry. -/
theorem Lit.unkeyed (hT : Recognizes table T) (h : Lit T l v) (hg : Gap g t) (ht : Ends t) :
    ∀ name, name? (l ++ (g ++ t)) = some name → equalsSign? name.rest = .ok none := by
  have hstop := hg.stops ht
  have hskip : Skips (g ++ t) t := skips_iff.2 ⟨g, rfl, hg⟩
  have hequals : t.head? ≠ some (ascii '=') := by
    intro he
    exact absurd (ht _ he) (by decide)
  have hunnamed {c : UInt8} {u : List UInt8} (hc : startsName c = false) :
      ∀ name, name? (c :: u) = some name → equalsSign? name.rest = .ok none := by
    intro name hn
    cases (name?_unnamed hc).symm.trans hn
  cases h with
  | nil => exact word_unkeyed isWord_nil hstop.continuesName hskip hequals
  | reference h =>
    rw [List.append_assoc]
    exact word_unkeyed isWord_nil (h.trivia.stops hstop).continuesName (h.trivia.skips hskip)
      hequals
  | bool value => exact word_unkeyed (isWord_bool value) hstop.continuesName hskip hequals
  | number h =>
    cases h with
    | numeral h =>
      obtain ⟨c, u, rfl, hn, -⟩ := h.starts (g ++ t)
      exact hunnamed (startsName_of_numeral hn)
    | huge =>
      -- the name is followed by a point, and not by an equals sign
      have hpoint : ∀ c ∈ (Text.bytes ".huge" ++ (g ++ t)).head?, continuesName c = false := by
        rintro _ ⟨⟩
        rfl
      have hs : Text.bytes "math.huge" ++ (g ++ t) =
          Text.bytes "math" ++ (Text.bytes ".huge" ++ (g ++ t)) := rfl
      rw [hs]
      exact word_unkeyed isWord_math hpoint
        (skips_solid (solid_cons (b := ascii '.') rfl (by decide))) (by rintro ⟨⟩)
  | nan => exact hunnamed rfl
  | negative _ _ _ => exact hunnamed rfl
  | quoted hq _ => rcases hq with rfl | rfl <;> exact hunnamed rfl
  | long h =>
    obtain ⟨r, rfl⟩ := h.start
    exact hunnamed rfl
  | @function g₁ g₂ g₃ h₁ h₂ h₃ =>
    rw [List.append_assoc, List.append_assoc, List.cons_append]
    refine word_unkeyed isWord_function (h₁.continuesName ?_)
      (h₁.skips (skips_solid (solid_cons rfl (by decide)))) (by rintro ⟨⟩)
    rintro _ ⟨⟩
    rfl
  | table h =>
    obtain ⟨⟨r, rfl⟩, -⟩ := hT.start h
    exact hunnamed rfl

/-- A literal that begins with a bracket goes on like a long one. -/
theorem Lit.unbracketed (hT : Recognizes table T) (h : Lit T l v) (hs : l ++ s = ascii '[' :: r) :
    r.head? = some (ascii '[') ∨ r.head? = some (ascii '=') := by
  cases h with
  | long h =>
    obtain @⟨level, raw, content, -, -⟩ := h
    cases level with
    | zero =>
      cases hs
      exact .inl rfl
    | succ level =>
      cases hs
      exact .inr rfl
  | number h =>
    obtain ⟨b, u, rfl, hb, -⟩ := h.start s
    obtain ⟨rfl, -⟩ := List.cons.inj hs
    exact absurd rfl (hb _ rfl (by decide) (by decide))
  | quoted hq h => rcases hq with rfl | rfl <;> cases hs
  | table h =>
    obtain ⟨⟨u, rfl⟩, -⟩ := hT.start h
    cases hs
  | bool b => cases b <;> cases hs
  | _ => cases hs

theorem Ends.solid (ht : Ends t) : Solid t := by
  have htoken : ∀ b ∈ t.head?, isSpace b = false ∧ b ≠ ascii '-' := ht.head (by decide)
  cases t with
  | nil => exact solid_nil
  | cons b t =>
    obtain ⟨hs, hd⟩ := htoken b rfl
    exact solid_cons hs hd

/-- No equals sign is where a literal is awaited. -/
theorem Stands.unequal (hT : Recognizes table T) (hg : Trivia g) (h : Stands T s v t) :
    (g ++ s).head? ≠ some (ascii '=') := by
  cases g with
  | nil =>
    obtain ⟨l, g, rfl, hl, -⟩ := h
    obtain ⟨b, u, rfl, ⟨-, hb⟩, -⟩ := hl.start hT []
    exact fun he => hb (Option.some.inj he)
  | cons b g =>
    intro he
    exact absurd (hg.head _ he) (by decide)

theorem Stands.positional (hT : Recognizes table T) (h : Stands T s v t) (ht : Ends t) :
    ∃ rest, SpellsEntry table s none v rest ∧ Skips rest t := by
  obtain ⟨rest, hv, hrest⟩ := item_reads hT h ht (skips_solid (h.solid hT))
  obtain ⟨l, g, rfl, hl, hg, -⟩ := h
  obtain ⟨b, u, rfl, ⟨hb, -⟩, hs⟩ := hl.start hT (g ++ t)
  refine ⟨rest, spellsEntry_positional hs hb ?_ (hl.unkeyed hT hg ht) hv, hrest⟩
  rintro rfl
  exact hl.unbracketed hT rfl

theorem Stands.named {name : String} (hT : Recognizes table T) (hw : IsWord name)
    (hr : reservedWords.contains name = false) {g₁ g₂ : List UInt8} (h₁ : Trivia g₁)
    (h₂ : Trivia g₂) (h : Stands T s v t) (ht : Ends t) :
    ∃ rest, SpellsEntry table (Text.bytes name ++ (g₁ ++ ascii '=' :: (g₂ ++ s)))
      (some (.str name)) v rest ∧ Skips rest t := by
  obtain ⟨rest, hv, hrest⟩ := item_reads hT h ht (h₂.skips (skips_solid (h.solid hT)))
  refine ⟨rest, spellsEntry_named hw hr (h₁.continuesName ?_)
    (h₁.skips (skips_solid (solid_cons rfl (by decide)))) (h.unequal hT h₂) hv, hrest⟩
  rintro _ ⟨⟩
  rfl

theorem Stands.keyed (hT : Recognizes table T) {g₁ g₂ g₃ q : List UInt8} {w : Value} {k : Key}
    (h₁ : Trivia g₁) (hk : Stands T q w (ascii ']' :: (g₂ ++ ascii '=' :: (g₃ ++ s))))
    (hw : Key.ofValue? w = some k) (hb : (g₁ ++ q).head? ≠ some (ascii '[')) (h₂ : Trivia g₂)
    (h₃ : Trivia g₃) (h : Stands T s v t) (ht : Ends t) :
    ∃ rest, SpellsEntry table (ascii '[' :: (g₁ ++ q)) (some k) v rest ∧ Skips rest t := by
  have hends : Ends (ascii ']' :: (g₂ ++ ascii '=' :: (g₃ ++ s))) := by
    rintro _ ⟨⟩
    decide
  obtain ⟨q', hkey, hclose⟩ := item_reads hT hk hends (h₁.skips (skips_solid (hk.solid hT)))
  obtain ⟨rest, hv, hrest⟩ := item_reads hT h ht (h₃.skips (skips_solid (h.solid hT)))
  have hequals : Skips (g₂ ++ ascii '=' :: (g₃ ++ s)) (ascii '=' :: (g₃ ++ s)) :=
    h₂.skips (skips_solid (solid_cons rfl (by decide)))
  exact ⟨rest, spellsEntry_bracketed ⟨hb, hk.unequal hT h₁⟩
    (bracketEntry_reads hkey hclose hequals hv hw), hrest⟩

theorem Padded.ne_nil (hT : Recognizes table T) (h : Padded (Lit T) p v) : p ≠ [] := by
  obtain @⟨l, g, _, hl, -, -⟩ := h
  obtain ⟨b, u, rfl, -, -⟩ := hl.start hT []
  exact List.cons_ne_nil _ _

theorem Padded.head?_append (hT : Recognizes table T) (h : Padded (Lit T) p v)
    (hb : (g ++ p).head? ≠ some b) : (g ++ (p ++ t)).head? ≠ some b := by
  have hne : g ++ p ≠ [] := List.append_ne_nil_of_right_ne_nil _ (h.ne_nil hT)
  rwa [← List.append_assoc, List.head?_append_of_ne_nil _ hne]

/-- An entry is read up to the trivia behind it, which may be read with it. -/
theorem Entry.reads (hT : Recognizes table T) (h : Entry (Padded (Lit T)) p (k, v))
    (ht : Ends t) : ∃ rest, SpellsEntry table (p ++ t) k v rest ∧ Skips rest t := by
  cases h with
  | positional h => exact (h.stands ht.solid).positional hT ht
  | named hw hr h₁ h₂ h =>
    simp only [List.append_assoc, List.cons_append]
    exact (h.stands ht.solid).named hT hw hr h₁ h₂ ht
  | @keyed g₁ g₂ g₃ q s w _ _ h₁ hk hw hb h₂ h₃ h =>
    simp only [List.append_assoc, List.cons_append]
    exact Stands.keyed hT h₁ (hk.stands (solid_cons rfl (by decide))) hw (hk.head?_append hT hb)
      h₂ h₃ (h.stands ht.solid) ht

/-! ### Tables -/

/-- What is read up to the closing brace is fields. -/
theorem entries_sound (hT : Recognizes table T)
    (h : Gives (Literal.entries (literalAfterTrivia table) before n s) entries rest) :
    ∃ p es, s = p ++ ascii '\x7d' :: rest ∧ Fields (Padded (Lit T)) p es ∧
      entries = before.assign n es := by
  -- each entry and its separator leave less to read, and the table and the position they make
  induction hn : s.length using Nat.strong_induction_on generalizing s before n with
  | _ m ih =>
  subst hn
  rw [Literal.entries] at h
  split at h
  · exact absurd h.choose_spec (by simp)
  next u hu hs =>
  obtain ⟨g, rfl, hg⟩ := skips_sound ⟨hu, hs⟩
  dsimp only at h
  split at h
  · next r hc =>
    obtain ⟨_, he⟩ := h
    cases he
    obtain rfl := strip?_eq_some.1 hc
    exact ⟨g, [], rfl, .none hg.trivia, rfl⟩
  · split at h
    · exact absurd h.choose_spec (by simp)
    next key value after he hentry =>
    split at h
    · exact absurd h.choose_spec (by simp)
    · exact absurd h.choose_spec (by simp [failAt])
    next b r hr hafter =>
    obtain ⟨p, rfl, hp⟩ := entry_sound hT hg.solid ⟨he, hentry⟩ ⟨hr, hafter⟩
    -- an entry has text, so no line comment is open in front of it
    have htrivia : Trivia g := hg.trivia_of_ne_nil (by simp)
    split at h
    · next hb =>
      obtain ⟨_, hmore, rfl⟩ := h.of_map id (fun _ => rfl) fun _ => rfl
      obtain ⟨q, es, rfl, hes, rfl⟩ := ih _ (by simp; omega) hmore rfl
      refine ⟨g ++ (p ++ b :: q), (key, value) :: es, ?_, .more htrivia hp hb hes, rfl⟩
      simp only [List.append_assoc, List.cons_append]
    split at h
    · next hb =>
      subst hb
      obtain ⟨_, he⟩ := h
      cases he
      exact ⟨g ++ p, [(key, value)], (List.append_assoc ..).symm, .last htrivia hp, rfl⟩
    · exact absurd h.choose_spec (by simp [failAt])

/-- Fields are read up to the closing brace, whatever follows it. -/
theorem Fields.reads (hT : Recognizes table T) {es : List (Option Key × Value)}
    (h : Fields (Padded (Lit T)) p es) (before : Table) (n : Nat) (rest : List UInt8) :
    Gives (Literal.entries (literalAfterTrivia table) before n (p ++ ascii '\x7d' :: rest))
      (before.assign n es) rest := by
  have hclose {u : List UInt8} : Ends (ascii '\x7d' :: u) := by
    rintro _ ⟨⟩
    decide
  induction h generalizing before n with
  | none hg => exact entries_end (hg.skips (skips_solid hclose.solid))
  | @last g s e hg he =>
    obtain ⟨k, v⟩ := e
    obtain ⟨r, hentry, hr⟩ := he.reads hT (hclose (u := rest))
    rw [List.append_assoc]
    exact entries_last (hg.skips (skips_solid hentry.solid)) hentry.start hentry.gives hr
  | @more g s r b e es hg he hb _ ih =>
    obtain ⟨k, v⟩ := e
    have hends : Ends (b :: (r ++ ascii '\x7d' :: rest)) := by
      rintro _ ⟨⟩
      rcases hb with rfl | rfl <;> decide
    obtain ⟨q, hentry, hq⟩ := he.reads hT hends
    have happend : g ++ (s ++ b :: r) ++ ascii '\x7d' :: rest =
        g ++ (s ++ b :: (r ++ ascii '\x7d' :: rest)) := by
      simp only [List.append_assoc, List.cons_append]
    rw [happend]
    exact entries_step (hg.skips (skips_solid hentry.solid)) hentry.start hentry.gives hq hb
      (ih _ _)

/-- Tables of what is read are read. -/
theorem recognizes_tableOf (hT : Recognizes table T) :
    Recognizes (tableOf (literalAfterTrivia table)) (Braces (Padded (Lit T))) := by
  refine ⟨?_, ?_, ?_⟩
  · intro s v rest h
    obtain ⟨entries, he, rfl⟩ := h.of_map Value.table (fun _ => rfl) fun _ => rfl
    obtain ⟨p, es, rfl, hes, rfl⟩ := entries_sound hT he
    refine ⟨ascii '\x7b' :: (p ++ [ascii '\x7d']), ?_, .mk hes⟩
    simp only [List.append_assoc, List.cons_append, List.nil_append]
  · rintro _ _ ⟨h⟩ rest
    rw [List.cons_append, List.append_assoc]
    exact (h.reads hT [] 1 rest).map_behind Value.table (ascii '\x7b')
  · rintro _ _ ⟨-⟩
    exact ⟨⟨_, rfl⟩, _, rfl⟩

end MobDebug.Literal
