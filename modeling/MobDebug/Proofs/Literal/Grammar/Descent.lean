import MobDebug.Proofs.Literal.Grammar.Deepening

/-! Which table is too deep: the first one that is opened inside of as many others as the limit
allows. What becomes of the tables around it, or of it, has no say in that. -/
namespace MobDebug.Literal

variable {α : Type} {limit d d' m n : Nat} {g o p q l s t u r : List UInt8}
  {text : String} {e : Failure} {table : Parser Value} {T : Language Value} {before : Table}

/-- What an entry has in front of one of its literals: nothing, the bracket of a key, a name and an
equals sign, or a whole key and one. Any literal may stand for a key here. -/
inductive Lead (item : Language Value) : List UInt8 → Prop
  | positional : Lead item []
  | key : Lead item [ascii '[']
  | named {name : String} {g : List UInt8} (hw : IsWord name)
      (hr : reservedWords.contains name = false) (hg : Trivia g) :
      Lead item (Text.bytes name ++ (g ++ [ascii '=']))
  | keyed {g₁ g₂ s : List UInt8} {w : Value} (h₁ : Trivia g₁) (hk : item s w)
      (hb : (g₁ ++ s).head? ≠ some (ascii '[')) (h₂ : Trivia g₂) :
      Lead item (ascii '[' :: (g₁ ++ (s ++ ascii ']' :: (g₂ ++ [ascii '=']))))

/-- Entries at the beginning of a table, with a separator behind each. -/
inductive Opened (item : Language Value) : List UInt8 → Prop
  | none : Opened item []
  | more {g s r : List UInt8} {b : UInt8} {e : Option Key × Value} (hg : Trivia g)
      (h : Entry item s e) (hb : b = ascii ',' ∨ b = ascii ';') (hr : Opened item r) :
      Opened item (g ++ (s ++ b :: r))

/-- The beginning of a text, up to a literal inside of `d` tables. None of the tables that end
before it is inside of so many. -/
inductive Descends : Nat → List UInt8 → Prop
  | here {g : List UInt8} (hg : Trivia g) : Descends 0 g
  | into {d : Nat} {g o g' l p : List UInt8} (hg : Trivia g)
      (ho : Opened (Padded (Lit (DerivesTable d))) o) (hg' : Trivia g')
      (hl : Lead (Padded (Lit (DerivesTable d))) l) (h : Descends d p) :
      Descends (d + 1) (g ++ ascii '\x7b' :: (o ++ (g' ++ (l ++ p))))

theorem Shallow.ne_deep {x : Except Failure α} (h : Shallow x) (he : e.fault = .tooDeep limit) :
    x ≠ .error e :=
  fun hx => h e hx limit he

theorem failAt_ne_deep {fault : Fault} (hf : ∀ l, fault ≠ .tooDeep l)
    (he : e.fault = .tooDeep limit) : (failAt fault s : Except Failure α) ≠ .error e :=
  (shallow_failAt.2 hf).ne_deep he

/-! ### Whatever is too deep is so inside of that many tables -/

/-- A literal too deep is in a table, or is one. -/
theorem literalAfterTrivia_deep (h : literalAfterTrivia table s = .error e)
    (he : e.fault = .tooDeep limit) :
    ∃ g r, s = g ++ ascii '\x7b' :: r ∧ Trivia g ∧ table (ascii '\x7b' :: r) = .error e := by
  unfold literalAfterTrivia at h
  split at h
  · next hs => exact absurd h (((shallow_skipTrivia s).error hs).ne_deep he)
  · exact absurd h (failAt_ne_deep (by rintro _ ⟨⟩) he)
  · next b r hr hs =>
    rw [map_eq_error] at h
    by_cases hb : b = ascii '\x7b'
    · subst hb
      obtain ⟨g, rfl, hg⟩ := skips_cons_sound ⟨hr, hs⟩
      exact ⟨g, r, rfl, hg, h⟩
    · exact absurd h ((shallow_literal table hb r).ne_deep he)

theorem bracketEntry_deep (hT : Recognizes table T)
    (h : bracketEntry (literalAfterTrivia table) s = .error e) (he : e.fault = .tooDeep limit)
    (hbracket : s.head? ≠ some (ascii '[')) :
    ∃ l u, ascii '[' :: s = l ++ u ∧ Lead (Padded (Lit T)) l ∧
      literalAfterTrivia table u = .error e := by
  rw [bracketEntry, bind_eq_error] at h
  obtain h | ⟨⟨w, q, hq⟩, hkey, h⟩ := h
  · exact ⟨[ascii '['], s, rfl, .key, h⟩
  rw [bind_eq_error] at h
  obtain h | ⟨⟨_, u, hu⟩, hclose, h⟩ := h
  · exact absurd h ((shallow_expect _ _).ne_deep he)
  rw [bind_eq_error] at h
  obtain h | ⟨⟨_, r, hr⟩, hequals, h⟩ := h
  · exact absurd h ((shallow_expect _ _).ne_deep he)
  rw [bind_eq_error] at h
  obtain h | ⟨⟨v, rest, hrest⟩, -, h⟩ := h
  · obtain ⟨g₁, x, rfl, h₁, hstands⟩ := item_sound hT ⟨hq, hkey⟩ (expect_sound ⟨hu, hclose⟩)
    obtain ⟨x, rfl, hx⟩ := hstands.padded
    obtain ⟨g₂, rfl, h₂⟩ := skips_cons_sound (expect_sound ⟨hr, hequals⟩)
    refine ⟨ascii '[' :: (g₁ ++ (x ++ ascii ']' :: (g₂ ++ [ascii '=']))), r, ?_,
      .keyed h₁ hx ?_ h₂, h⟩
    · simp only [List.append_assoc, List.cons_append, List.nil_append]
    · intro he
      rw [← List.append_assoc, List.head?_append, he] at hbracket
      exact hbracket rfl
  · dsimp only at h
    split at h
    · cases h
    · exact absurd h (failAt_ne_deep (by rintro _ ⟨⟩) he)

theorem positionalEntry_deep (h : positionalEntry (literalAfterTrivia table) s = .error e) :
    ∃ l u, s = l ++ u ∧ Lead (Padded (Lit T)) l ∧ literalAfterTrivia table u = .error e :=
  ⟨[], s, rfl, .positional, map_eq_error.1 h⟩

theorem entry_deep (hT : Recognizes table T) (h : entry (literalAfterTrivia table) s = .error e)
    (he : e.fault = .tooDeep limit) :
    ∃ l u, s = l ++ u ∧ Lead (Padded (Lit T)) l ∧ literalAfterTrivia table u = .error e := by
  rcases s with - | ⟨b, r⟩
  · exact positionalEntry_deep h
  rw [entry] at h
  split at h
  · next hb =>
    obtain ⟨rfl, hbracket, -⟩ := hb
    exact bracketEntry_deep hT (map_eq_error.1 h) he hbracket
  split at h
  · exact positionalEntry_deep h
  next name hn =>
  split at h
  · next hs => exact absurd h (((shallow_equalsSign? _).error hs).ne_deep he)
  · exact positionalEntry_deep h
  next equals hs =>
  split at h
  · exact absurd h (failAt_ne_deep (by rintro _ ⟨⟩) he)
  next hr =>
  obtain ⟨name, q, hq⟩ := name
  obtain ⟨_, u, hu⟩ := equals
  obtain ⟨hname, hword, -⟩ := name?_sound hn
  obtain ⟨g, rfl, hg⟩ := skips_cons_sound (equalsSign?_sound hs)
  refine ⟨Text.bytes name ++ (g ++ [ascii '=']), u, hname.trans ?_,
    .named hword (Bool.not_eq_true _ ▸ hr) hg, map_eq_error.1 h⟩
  simp only [List.append_assoc, List.cons_append, List.nil_append]

/-- By induction on what is left to read, entry by entry. -/
theorem entries_deep (hT : Recognizes table T)
    (h : entries (literalAfterTrivia table) before n s = .error e)
    (he : e.fault = .tooDeep limit) :
    ∃ o g l u, s = o ++ (g ++ (l ++ u)) ∧ Opened (Padded (Lit T)) o ∧ Trivia g ∧
      Lead (Padded (Lit T)) l ∧ literalAfterTrivia table u = .error e := by
  induction hn : s.length using Nat.strong_induction_on generalizing s before n with
  | _ m ih =>
  subst hn
  rw [entries] at h
  split at h
  · next hs => exact absurd h (((shallow_skipTrivia s).error hs).ne_deep he)
  next u hu hs =>
  obtain ⟨g, rfl, hg⟩ := skips_sound ⟨hu, hs⟩
  dsimp only at h
  split at h
  · cases h
  split at h
  · next hentry =>
    cases h
    -- the fault is in this entry: those before it are what has been opened
    obtain ⟨l, u, rfl, hl, hitem⟩ := entry_deep hT hentry he
    obtain ⟨g', r, rfl, -⟩ := literalAfterTrivia_deep hitem he
    have htrivia : Trivia g := hg.trivia_of_ne_nil (by simp)
    exact ⟨[], g, l, _, rfl, .none, htrivia, hl, hitem⟩
  next key value after hafter hentry =>
  split at h
  · next hs => exact absurd h (((shallow_skipTrivia _).error hs).ne_deep he)
  · exact absurd h (failAt_ne_deep (by rintro _ ⟨⟩) he)
  next b r hr hs' =>
  obtain ⟨p, rfl, hp⟩ := entry_sound hT hg.solid ⟨hafter, hentry⟩ ⟨hr, hs'⟩
  have htrivia : Trivia g := hg.trivia_of_ne_nil (by simp)
  split at h
  · next hb =>
    obtain ⟨o, g', l, u, rfl, ho, hg', hl, hitem⟩ := ih _ (by simp; omega) (map_eq_error.1 h) rfl
    refine ⟨g ++ (p ++ b :: o), g', l, u, ?_, .more htrivia hp hb ho, hg', hl, hitem⟩
    simp only [List.append_assoc, List.cons_append]
  split at h
  · cases h
  · exact absurd h (failAt_ne_deep (by rintro _ ⟨⟩) he)

/-- By induction on the levels. -/
theorem descends_of_deep
    (h : literalAfterTrivia (tableReader limit d) s = .error ⟨.tooDeep limit, m⟩) :
    ∃ p r, s = p ++ ascii '\x7b' :: r ∧ m = r.length + 1 ∧ Descends d p := by
  induction d generalizing s with
  | zero =>
    obtain ⟨g, r, rfl, hg, htable⟩ := literalAfterTrivia_deep h rfl
    cases htable
    exact ⟨g, r, rfl, rfl, .here hg⟩
  | succ d ih =>
    obtain ⟨g, r, rfl, hg, htable⟩ := literalAfterTrivia_deep h rfl
    obtain ⟨o, g', l, u, rfl, ho, hg', hl, hitem⟩ :=
      entries_deep (recognizes_tableReader limit d) (map_eq_error.1 htable) rfl
    obtain ⟨p, r, rfl, rfl, hp⟩ := ih hitem
    refine ⟨g ++ ascii '\x7b' :: (o ++ (g' ++ (l ++ p))), r, ?_, rfl, .into hg ho hg' hl hp⟩
    simp only [List.append_assoc, List.cons_append]

/-! ### A table inside of that many is too deep -/

/-- Only trivia stands in front of a table that is read as an item. -/
theorem item_brace (hg : Trivia g) :
    literalAfterTrivia table (g ++ ascii '\x7b' :: r) = .error e ↔
      table (ascii '\x7b' :: r) = .error e := by
  obtain ⟨hl, hs⟩ : Skips (g ++ ascii '\x7b' :: r) (ascii '\x7b' :: r) :=
    hg.skips (skips_solid (solid_cons rfl (by decide)))
  rw [literalAfterTrivia, hs]
  exact map_eq_error

/-- The place descended to is behind an opening brace, or only behind trivia. -/
theorem Descends.brace (h : Descends d p) (r : List UInt8) :
    ∃ g u, p ++ ascii '\x7b' :: r = g ++ ascii '\x7b' :: u ∧ Trivia g := by
  cases h with
  | here hg => exact ⟨p, r, rfl, hg⟩
  | @into _ g o g' l p hg _ _ _ _ =>
    refine ⟨g, o ++ (g' ++ (l ++ (p ++ ascii '\x7b' :: r))), ?_, hg⟩
    simp only [List.append_assoc, List.cons_append]

theorem bracketEntry_fails {item : Parser Value} {w : Value} (hkey : Gives (item t) w q)
    (hq : Skips q (ascii ']' :: u)) (hu : Skips u (ascii '=' :: r)) (h : item r = .error e) :
    bracketEntry item t = .error e := by
  obtain ⟨_, e1⟩ := hkey
  obtain ⟨_, e2⟩ := expect_eq hq
  obtain ⟨_, e3⟩ := expect_eq hu
  simp only [bracketEntry, bind, Except.bind, e1, e2, e3, h]

/-- Where trivia and a brace come next, a key in brackets may begin. -/
theorem trivia_brace (hg : Trivia g) : (g ++ ascii '\x7b' :: r).head? ≠ some (ascii '[') ∧
    (g ++ ascii '\x7b' :: r).head? ≠ some (ascii '=') := by
  cases g with
  | nil => exact ⟨by rintro ⟨⟩, by rintro ⟨⟩⟩
  | cons b g =>
    have hb := hg.head b rfl
    constructor <;>
    · rintro ⟨⟩
      exact absurd hb (by decide)

/-- An entry begins here, behind trivia, and its reader fails. -/
def FailsEntry (table : Parser Value) (e : Failure) (s : List UInt8) : Prop :=
  ∃ t, Skips s t ∧ strip? [ascii '\x7d'] t = none ∧ entry (literalAfterTrivia table) t = .error e

theorem failsEntry_named {name : String} (hw : IsWord name)
    (hr : reservedWords.contains name = false) (hg : Trivia g) (hp : Trivia p)
    (hs : s.head? ≠ some (ascii '=')) (h : literalAfterTrivia table s = .error e) :
    FailsEntry table e (g ++ (Text.bytes name ++ (p ++ ascii '=' :: s))) := by
  have hstop : ∀ c ∈ (p ++ ascii '=' :: s).head?, continuesName c = false := by
    refine hp.continuesName ?_
    rintro _ ⟨⟩
    rfl
  obtain ⟨_, hentry⟩ := entry_named (literalAfterTrivia table) hw hr hstop
    (hp.skips (skips_solid (solid_cons rfl (by decide)))) hs
  rw [h] at hentry
  refine ⟨_, hg.skips (skips_solid (solid_word hw hstop)), strip?_brace ?_, hentry⟩
  obtain ⟨b, t, ht, hb, -, -⟩ := name?_bytes hw hstop
  rw [ht]
  rintro _ ⟨⟩
  exact startsName_ne hb rfl

theorem failsEntry_bracketed (hg : Trivia g)
    (hs : s.head? ≠ some (ascii '[') ∧ s.head? ≠ some (ascii '='))
    (h : bracketEntry (literalAfterTrivia table) s = .error e) :
    FailsEntry table e (g ++ ascii '[' :: s) := by
  refine ⟨_, hg.skips (skips_solid (solid_cons rfl (by decide))), rfl, ?_⟩
  rw [entry, if_pos ⟨rfl, hs⟩, h]
  rfl

theorem failsEntry_keyed (hT : Recognizes table T) {q g₁ g₂ : List UInt8} {w : Value}
    (hg : Trivia g) (h₁ : Trivia g₁) (hk : Padded (Lit T) q w)
    (hb : (g₁ ++ q).head? ≠ some (ascii '[')) (h₂ : Trivia g₂)
    (h : literalAfterTrivia table s = .error e) :
    FailsEntry table e (g ++ ascii '[' :: (g₁ ++ (q ++ ascii ']' :: (g₂ ++ ascii '=' :: s)))) := by
  have hclose {u : List UInt8} : Ends (ascii ']' :: u) := by
    rintro _ ⟨⟩
    decide
  have hstands := hk.stands (hclose (u := g₂ ++ ascii '=' :: s)).solid
  obtain ⟨r, hkey, hr⟩ := item_reads hT hstands hclose (h₁.skips (skips_solid (hstands.solid hT)))
  exact failsEntry_bracketed hg ⟨hk.head?_append hT hb, hstands.unequal hT h₁⟩
    (bracketEntry_fails hkey hr (h₂.skips (skips_solid (solid_cons rfl (by decide)))) h)

/-- Where the literal behind its beginning fails, an entry does. -/
theorem Lead.fails (hT : Recognizes table T) (hl : Lead (Padded (Lit T)) l) (hg : Trivia g)
    (hp : Trivia p) (h : literalAfterTrivia table (p ++ ascii '\x7b' :: r) = .error e) :
    FailsEntry table e (g ++ (l ++ (p ++ ascii '\x7b' :: r))) := by
  obtain ⟨hbracket, hequals⟩ := trivia_brace (r := r) hp
  cases hl with
  | positional =>
    refine ⟨ascii '\x7b' :: r, hg.skips (hp.skips (skips_solid (solid_cons rfl (by decide)))), rfl,
      ?_⟩
    exact map_eq_error.2 ((item_brace .none).2 ((item_brace hp).1 h))
  | key => exact failsEntry_bracketed hg ⟨hbracket, hequals⟩ (bind_eq_error.2 (.inl h))
  | named hw hr h₁ =>
    simp only [List.append_assoc, List.cons_append, List.nil_append]
    exact failsEntry_named hw hr hg h₁ hequals h
  | keyed h₁ hk hb h₂ =>
    simp only [List.append_assoc, List.cons_append, List.nil_append]
    exact failsEntry_keyed hT hg h₁ hk hb h₂ h

theorem FailsEntry.entries (h : FailsEntry table e s) (before : Table) (n : Nat) :
    Literal.entries (literalAfterTrivia table) before n s = .error e := by
  obtain ⟨t, ⟨hl, hs⟩, hb, he⟩ := h
  rw [Literal.entries, hs]
  dsimp only
  split
  · next hc => cases hb.symm.trans hc
  · rw [he]

/-- Entries in front change what is assigned where, and not that one of the others fails. -/
theorem Opened.fails (hT : Recognizes table T) (ho : Opened (Padded (Lit T)) o)
    (h : ∀ before n, entries (literalAfterTrivia table) before n s = .error e) (before : Table)
    (n : Nat) : entries (literalAfterTrivia table) before n (o ++ s) = .error e := by
  induction ho generalizing before n with
  | none => exact h before n
  | @more g x r b entry hg hentry hb _ ih =>
    obtain ⟨k, v⟩ := entry
    have hends : Ends (b :: (r ++ s)) := by
      rintro _ ⟨⟩
      rcases hb with rfl | rfl <;> decide
    obtain ⟨q, hentry, hq⟩ := hentry.reads hT hends
    have happend : g ++ (x ++ b :: r) ++ s = g ++ (x ++ b :: (r ++ s)) := by
      simp only [List.append_assoc, List.cons_append]
    rw [happend]
    obtain ⟨hl, hnext⟩ : ∃ hl, entries (literalAfterTrivia table) before n _ = _ :=
      entries_next (hg.skips (skips_solid hentry.solid)) hentry.start hentry.gives hq hb
    rw [hnext, ih]
    rfl

/-- By induction on the way down. -/
theorem Descends.deep (limit : Nat) (h : Descends d p) (r : List UInt8) :
    literalAfterTrivia (tableReader limit d) (p ++ ascii '\x7b' :: r) =
      .error ⟨.tooDeep limit, r.length + 1⟩ := by
  induction h with
  | here hg => exact (item_brace hg).2 rfl
  | @into d g o g' l p hg ho hg' hl hp ih =>
    have hT := recognizes_tableReader limit d
    obtain ⟨g'', u, hu, hg''⟩ := hp.brace r
    have happend : g ++ ascii '\x7b' :: (o ++ (g' ++ (l ++ p))) ++ ascii '\x7b' :: r =
        g ++ ascii '\x7b' :: (o ++ (g' ++ (l ++ (p ++ ascii '\x7b' :: r)))) := by
      simp only [List.append_assoc, List.cons_append]
    rw [happend, item_brace hg]
    rw [hu] at ih ⊢
    exact map_eq_error.2 (ho.fails hT (hl.fails hT hg' hg'' ih).entries [] 1)

/-- A table is too deep just where a text descends to an opening brace. -/
theorem deep_iff : literalAfterTrivia (tableReader limit d) s = .error ⟨.tooDeep limit, m⟩ ↔
    ∃ p r, s = p ++ ascii '\x7b' :: r ∧ m = r.length + 1 ∧ Descends d p := by
  refine ⟨descends_of_deep, ?_⟩
  rintro ⟨p, r, rfl, rfl, hp⟩
  exact hp.deep limit r

/-- A limit of the depth only cuts off. What is read under it is read under a higher one as well,
any other fault is found there just the same, and what is too deep under the higher limit is so
under the lower one, there or before. And a table is too deep just where it is opened inside of as
many others as the limit says, whatever they are assigned to, be they values or keys. -/
theorem limit_cutoff (text : String) :
    (∀ d d', d ≤ d' →
      (∀ v, read d text = .ok v → read d' text = .ok v) ∧
      (∀ e, read d text = .error e → e.fault ≠ .tooDeep d → read d' text = .error e) ∧
      ∀ o', read d' text = .error ⟨.tooDeep d', o'⟩ →
        ∃ o ≤ o', read d text = .error ⟨.tooDeep d, o⟩) ∧
    ∀ d o, read d text = .error ⟨.tooDeep d, o⟩ ↔
      ∃ p r, Text.bytes text = p ++ ascii '\x7b' :: r ∧ p.length = o ∧ Descends d p := by
  refine ⟨fun d d' h => ?_, fun d o => ?_⟩
  · rcases read_deepens h text with ⟨he, hno⟩ | ⟨o, ho, hle⟩
    · rw [he] at hno ⊢
      exact ⟨fun v hv => hv, fun e hv _ => hv, fun o' ho' => absurd ho' (hno _ _)⟩
    · refine ⟨fun v hv => ?_, fun e hv hf => ?_, fun o' ho' => ⟨o, hle o' ho', ho⟩⟩
      · cases ho.symm.trans hv
      · cases ho.symm.trans hv
        exact absurd rfl hf
  · rw [read_deep_iff, value_eq]
    constructor
    · rintro ⟨m, hm, rfl⟩
      obtain ⟨p, r, hp, rfl, hd⟩ := deep_iff.1 hm
      exact ⟨p, r, hp, by rw [hp]; simp, hd⟩
    · rintro ⟨p, r, hp, rfl, hd⟩
      refine ⟨_, deep_iff.2 ⟨p, r, hp, rfl, hd⟩, ?_⟩
      rw [hp]
      simp

/-- A table is too deep that is replaced at once, and so is one that is no key. -/
theorem limit_cutoff_replaced :
    read 1 "\x7ba=\x7b\x7d,a=1\x7d" = .error ⟨.tooDeep 1, 3⟩ ∧
    read 2 "\x7ba=\x7b\x7d,a=1\x7d" = .ok (.table [(.str "a", .number (.int 1))]) ∧
    read 64 "\x7ba=\x7b\x7d,a=1\x7d" = .ok (.table [(.str "a", .number (.int 1))]) ∧
    read 1 "\x7b[\x7b\x7d]=1\x7d" = .error ⟨.tooDeep 1, 2⟩ := by
  obtain ⟨hcut, hdeep⟩ := limit_cutoff "\x7ba=\x7b\x7d,a=1\x7d"
  have hword : IsWord "a" := ⟨'a', [], rfl, rfl, rfl⟩
  have hempty : Padded (Lit (DerivesTable 1)) (ascii '\x7b' :: ([] ++ [ascii '\x7d']) ++ [])
      (.table []) := .mk (.table (.mk (.none .none))) .none nofun
  have hdecimal : Decimal ['1'] :=
    @Decimal.mk ['1'] [] [] (List.forall_mem_singleton.2 rfl) (.inl rfl)
      ⟨'1', List.mem_singleton_self _, rfl⟩ (.inl rfl)
  have hone : Padded (Lit (DerivesTable 1)) (['1'].map ascii ++ []) (.number (.int 1)) :=
    .mk (.number (.numeral (.decimal hdecimal rfl))) .none nofun
  have hfields := Fields.more .none (.named hword rfl .none .none hempty) (.inl rfl)
    (.last .none (.named hword rfl .none .none hone))
  have hread : read 2 "\x7ba=\x7b\x7d,a=1\x7d" = .ok (.table [(.str "a", .number (.int 1))]) :=
    read_eq_ok_iff.2 ⟨[], _, [], rfl, .none, .table (.mk hfields), .closed .none, nofun⟩
  refine ⟨(hdeep 1 3).2 ?_, hread, (hcut 2 64 (by decide)).1 _ hread,
    ((limit_cutoff _).2 1 2).2 ?_⟩
  · exact ⟨_, _, rfl, rfl, .into .none .none .none (.named hword rfl .none) (.here .none)⟩
  · exact ⟨_, _, rfl, rfl, .into .none .none .none .key (.here .none)⟩

end MobDebug.Literal
