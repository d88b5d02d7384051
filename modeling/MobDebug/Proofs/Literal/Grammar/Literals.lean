import MobDebug.Proofs.Literal.Grammar.Words

/-! A literal is read as the grammar has it, if tables are, and with it the trivia behind it. -/
namespace MobDebug.Literal

variable {b : UInt8} {l g s t r rest : List UInt8} {v : Value} {name : String}
  {table : Parser Value} {T : Language Value}

/-- A reader of tables reads those of a language, from their opening brace on, whatever follows. -/
structure Recognizes (table : Parser Value) (T : Language Value) : Prop where
  sound : ∀ {s v rest}, Gives (table (ascii '\x7b' :: s)) v rest →
    ∃ l, ascii '\x7b' :: s = l ++ rest ∧ T l v
  complete : ∀ {l v}, T l v → ∀ rest, Gives (table (l ++ rest)) v rest
  start : ∀ {l v}, T l v → (∃ s, l = ascii '\x7b' :: s) ∧ ∃ t, v = .table t

/-- A literal for `v`, and trivia up to `t`. -/
def Stands (T : Language Value) (s : List UInt8) (v : Value) (t : List UInt8) : Prop :=
  ∃ l g, s = l ++ (g ++ t) ∧ Lit T l v ∧ Gap g t ∧ (v = .nil → ¬ Marked g)

theorem stands_of_lit (he : s = l ++ rest) (hl : Lit T l v) (hv : v ≠ .nil) (hs : Skips rest t) :
    Stands T s v t := by
  obtain ⟨g, rfl, hg⟩ := skips_sound hs
  exact ⟨l, g, he, hl, hg, fun hn => absurd hn hv⟩

/-! ### What is read is a literal -/

theorem named_sound {h : r.length < s.length} (he : s = Text.bytes name ++ r)
    (hs : Gives (named s ⟨name, r, h⟩) v rest) (ht : Skips rest t) : Stands T s v t := by
  subst he
  obtain ⟨hl, hs⟩ := hs
  unfold named at hs
  dsimp only at hs
  split at hs
  · next hn =>
    subst hn
    obtain ⟨⟨w, u, hu⟩, hnil, he⟩ := map_eq_ok.1 hs
    cases he
    -- a marked comment behind nil makes it a reference, and any other is trivia
    rcases nilOrReference_sound hnil ht with ⟨m, label, rfl, hm, rfl⟩ | ⟨rfl, g, rfl, hg, hm⟩
    · exact stands_of_lit (List.append_assoc ..).symm (.reference hm) (by simp) ht
    · exact ⟨Text.bytes "nil", g, rfl, .nil, hg, fun _ => hm⟩
  split at hs
  · next hn =>
    subst hn
    cases hs
    exact stands_of_lit rfl (.bool true) (by simp) ht
  split at hs
  · next hn =>
    subst hn
    cases hs
    exact stands_of_lit rfl (.bool false) (by simp) ht
  split at hs
  · obtain ⟨n, hn, rfl⟩ := Gives.of_map (x := mathHuge (Text.bytes name ++ r)) ⟨hl, hs⟩
      Value.number (fun _ => rfl) fun _ => rfl
    obtain ⟨he, -, rfl⟩ := gives_mathHuge.1 hn
    exact stands_of_lit he (.number .huge) (by simp) ht
  split at hs
  · next hn =>
    subst hn
    obtain ⟨⟨_, u, hu⟩, hf, he⟩ := map_eq_ok.1 hs
    cases he
    obtain ⟨g₁, g₂, g₃, h₁, h₂, h₃, rfl⟩ := functionPlaceholder_sound ⟨hu, hf⟩
    refine stands_of_lit ?_ (.function h₁ h₂ h₃) (by simp) ht
    simp only [List.append_assoc, List.cons_append]
  · cases hs

theorem solid_minus_inv (h : Solid (ascii '-' :: s)) : s.head? ≠ some (ascii '-') := by
  intro hs
  obtain ⟨s, rfl⟩ := List.head?_eq_some_iff.1 hs
  cases h.2

theorem number_sound (h : Gives ((numeral b r).map (·.map Value.number)) v rest)
    (ht : Skips rest t) : Stands T (b :: r) v t := by
  obtain ⟨n, hn, rfl⟩ := h.of_map Value.number (fun _ => rfl) fun _ => rfl
  obtain ⟨l, hl, hn⟩ := numeral_sound hn
  exact stands_of_lit hl (.number (.numeral hn)) (by simp) ht

/-- Whatever the first byte says is read, it is a literal. -/
theorem literal_sound (hT : Recognizes table T) (hs : Solid (b :: r))
    (h : Gives (literal table b r) v rest) (ht : Skips rest t) : Stands T (b :: r) v t := by
  unfold literal at h
  split at h
  · next hb =>
    subst hb
    obtain ⟨l, hl, hv⟩ := hT.sound h
    obtain ⟨-, entries, rfl⟩ := hT.start hv
    exact stands_of_lit hl (.table hv) (by simp) ht
  split at h
  · next hb =>
    obtain ⟨content, hq, rfl⟩ := h.of_map (fun content => .str (Text.decodeLossy content))
      (fun _ => rfl) fun _ => rfl
    obtain ⟨s, rfl, hquoted⟩ := quotation_sound hq
    exact stands_of_lit rfl (.quoted hb hquoted) (by simp) ht
  split at h
  · split at h
    · exact absurd h.choose_spec (by simp)
    · next bracket hlong =>
      obtain ⟨content, u, hu⟩ := bracket
      obtain ⟨_, he⟩ := h
      cases he
      obtain ⟨l, hl, hlong⟩ := longBracket_eq_some.1 ⟨hu, hlong⟩
      exact stands_of_lit hl (.long hlong) (by simp) ht
    · exact absurd h.choose_spec (by simp [failAt])
  split at h
  · next hb =>
    subst hb
    obtain ⟨w, hn, he⟩ := h.of_map id (fun _ => rfl) fun _ => rfl
    obtain rfl : w = v := he
    obtain ⟨g, m, n, rfl, hg, hm, rfl⟩ := negated_sound hn
    -- two signs next to each other would open a comment
    have hminus : g.head? ≠ some (ascii '-') := by
      intro he
      refine solid_minus_inv hs ?_
      obtain ⟨g, rfl⟩ := List.head?_eq_some_iff.1 he
      rfl
    refine stands_of_lit ?_ (.negative hg hminus hm) (by simp) ht
    simp only [List.append_assoc, List.cons_append]
  split at h
  · split at h
    · next c d u _ =>
      split at h
      · next hnan =>
        obtain ⟨rfl, rfl, rfl, -⟩ := hnan
        obtain ⟨_, he⟩ := h
        cases he
        exact stands_of_lit rfl .nan (by intro hv; cases hv) ht
      · exact number_sound h ht
    · exact number_sound h ht
  split at h
  · next name hn =>
    obtain ⟨name, u, hu⟩ := name
    exact named_sound (name?_sound hn).1 h ht
  · exact absurd h.choose_spec (by simp [failAt])

/-! ### A literal is read -/

theorem LongBracket.start {content : List UInt8} (h : LongBracket s content) :
    ∃ r, s = ascii '[' :: r := by
  obtain ⟨-, -⟩ := h
  exact ⟨_, rfl⟩

/-- A number begins with a digit, a point or the name of infinity. -/
theorem Magnitude.start {n : Number} (h : Magnitude s n) (t : List UInt8) :
    ∃ b r, s = b :: r ∧
      (∀ c, isDigit c = false → c ≠ ascii '.' → c ≠ ascii 'm' → b ≠ c) ∧ Solid (b :: (r ++ t)) := by
  cases h with
  | numeral h =>
    obtain ⟨b, r, rfl, hn, -⟩ := h.starts t
    exact ⟨b, r, rfl, fun c hd hp _ => startsNumeral_ne hn hd hp, solid_of_numeral hn⟩
  | huge => exact ⟨ascii 'm', _, rfl, fun c _ _ hm => hm.symm, solid_cons rfl (by decide)⟩

/-- A literal begins with a token that neither ends a table nor assigns. -/
theorem Lit.start (hT : Recognizes table T) (h : Lit T l v) (s : List UInt8) :
    ∃ b r, l = b :: r ∧ (b ≠ ascii '\x7d' ∧ b ≠ ascii '=') ∧ Solid (b :: (r ++ s)) := by
  cases h with
  | nil => exact ⟨ascii 'n', _, rfl, by decide, solid_cons rfl (by decide)⟩
  | reference _ => exact ⟨ascii 'n', _, rfl, by decide, solid_cons rfl (by decide)⟩
  | bool b =>
    cases b with
    | true => exact ⟨ascii 't', _, rfl, by decide, solid_cons rfl (by decide)⟩
    | false => exact ⟨ascii 'f', _, rfl, by decide, solid_cons rfl (by decide)⟩
  | number h =>
    obtain ⟨b, r, rfl, hb, hs⟩ := h.start s
    exact ⟨b, r, rfl, ⟨hb _ rfl (by decide) (by decide), hb _ rfl (by decide) (by decide)⟩, hs⟩
  | nan => exact ⟨ascii '0', _, rfl, by decide, solid_cons rfl (by decide)⟩
  | @negative g m _ hg hd h =>
    refine ⟨ascii '-', _, rfl, by decide, ?_⟩
    rcases g with - | ⟨c, g⟩
    · obtain ⟨b, r, rfl, hb, -⟩ := h.start s
      exact solid_minus (hb _ rfl (by decide) (by decide))
    · exact solid_minus fun hc => hd (congrArg some hc)
  | quoted hq _ =>
    rcases hq with rfl | rfl <;> exact ⟨_, _, rfl, by decide, solid_cons rfl (by decide)⟩
  | long h =>
    obtain ⟨r, rfl⟩ := h.start
    exact ⟨_, _, rfl, by decide, solid_cons rfl (by decide)⟩
  | function _ _ _ => exact ⟨ascii 'f', _, rfl, by decide, solid_cons rfl (by decide)⟩
  | table h =>
    obtain ⟨⟨r, rfl⟩, -⟩ := hT.start h
    exact ⟨_, _, rfl, by decide, solid_cons rfl (by decide)⟩

theorem Lit.solid (hT : Recognizes table T) (h : Lit T l v) (s : List UInt8) : Solid (l ++ s) := by
  obtain ⟨b, r, rfl, -, hs⟩ := h.start hT s
  exact hs

theorem Stands.solid (hT : Recognizes table T) (h : Stands T s v t) : Solid s := by
  obtain ⟨l, g, rfl, hl, -⟩ := h
  exact hl.solid hT _

/-- What ends an item of a table: a separator, or the end of the table or of a key. -/
def ends : List UInt8 := [ascii ',', ascii ';', ascii '\x7d', ascii ']']

/-- The text has ended, or an item of a table in front of it has. -/
def Ends (t : List UInt8) : Prop :=
  ∀ b ∈ t.head?, b ∈ ends

theorem Ends.head {p : UInt8 → Prop} [DecidablePred p] (h : Ends t) (hp : ends.all (p ·)) :
    ∀ b ∈ t.head?, p b :=
  fun b hb => List.all_iff_forall_prop.1 hp b (h b hb)

theorem isSpace_stops (hb : isSpace b) : b ∈ stops := by
  have hb := isSpace_iff.1 hb
  simp [stops, ← UInt8.toNat_inj]
  omega

theorem LineComment.stops (hc : LineComment s) (t : List UInt8) : Stops (s ++ t) := by
  obtain ⟨-, -⟩ := hc
  rintro _ ⟨⟩
  decide

theorem Trivia.head (hg : Trivia g) : ∀ b ∈ g.head?, b ∈ Literal.stops := by
  cases hg with
  | none => simp
  | space hb _ =>
    rintro _ ⟨⟩
    exact isSpace_stops hb
  | line hc _ => exact hc.stops _
  | long _ _ =>
    rintro _ ⟨⟩
    decide

/-- No trivia continues a name. -/
theorem Trivia.continuesName (hg : Trivia g) (ht : ∀ c ∈ t.head?, continuesName c = false) :
    ∀ c ∈ (g ++ t).head?, continuesName c = false := by
  cases g with
  | nil => exact ht
  | cons b g =>
    have hb : Stops (b :: g) := hg.head
    exact hb.continuesName

theorem Trivia.stops (hg : Trivia g) (ht : Stops t) : Stops (g ++ t) := by
  cases g with
  | nil => exact ht
  | cons b g => exact hg.head

theorem Gap.stops (hg : Gap g t) (ht : Ends t) : Stops (g ++ t) := by
  have hstop : Stops t := ht.head (by decide)
  rcases hg.skipped with h | ⟨rfl, h⟩
  · exact h.stops hstop
  · cases h with
    | closed h => exact h.stops hstop
    | line h hc =>
      rw [List.append_assoc]
      exact h.stops (hc.stops _)

theorem Mark.trivia {m : List UInt8} {label : String} (h : Mark m label) : Trivia m := by
  obtain @⟨g, b, content, label, hg, hb, -⟩ := h
  have hlong : Trivia (dashes ++ (b ++ [])) := .long hb .none
  rw [List.append_nil] at hlong
  exact (trivia_spaces hg).append hlong

/-- A literal that a name begins. -/
theorem literal_named (hw : IsWord name) (hr : ∀ c ∈ r.head?, continuesName c = false)
    (hs : s = Text.bytes name ++ r) (h : ∀ h, Gives (named s ⟨name, r, h⟩) v rest) :
    ∃ b u, s = b :: u ∧ Gives (literal table b u) v rest := by
  obtain ⟨b, u, hb, hstart, hl, hn⟩ := name?_bytes hw hr
  obtain rfl := hs.trans hb
  exact ⟨b, u, rfl, by rw [literal_of_name hstart hn]; exact h hl⟩

theorem literal_quote {quote : UInt8} (hq : quote = ascii '"' ∨ quote = ascii '\'') :
    literal table quote r = (quotation quote r).map fun p =>
      (p.map fun content => .str (Text.decodeLossy content)).behind quote := by
  rcases hq with rfl | rfl <;> rfl

theorem literal_long {content : List UInt8} {h : rest.length < (ascii '[' :: r).length}
    (hb : longBracket (ascii '[' :: r) = .ok (some ⟨content, rest, h⟩)) :
    Gives (literal table (ascii '[') r) (.str (Text.decodeLossy content)) rest := by
  unfold literal
  rw [if_neg (by decide), if_neg (by decide), if_pos rfl, hb]
  exact ⟨h, rfl⟩

theorem Gap.reads_nil (hg : Gap g t) (ht : Ends t) (hm : ¬ Marked g) :
    ∃ b u rest, Text.bytes "nil" ++ (g ++ t) = b :: u ∧ Gives (literal table b u) .nil rest ∧
      Skips rest t := by
  obtain ⟨rest, hl, hnil, hrest⟩ := hg.nilOrReference hm
  have hnamed (h) :
      Gives (named (Text.bytes "nil" ++ (g ++ t)) ⟨"nil", g ++ t, h⟩) .nil rest := by
    rw [named, if_pos rfl, hnil]
    exact ⟨Nat.lt_of_le_of_lt hl h, rfl⟩
  obtain ⟨b, u, hs, hr⟩ := literal_named isWord_nil (hg.stops ht).continuesName rfl hnamed
  exact ⟨b, u, rest, hs, hr, hrest⟩

theorem Mark.reads_reference {m : List UInt8} {label : String} (h : Mark m label)
    (hr : Stops rest) : ∃ b u, Text.bytes "nil" ++ (m ++ rest) = b :: u ∧
      Gives (literal table b u) (.reference label) rest := by
  obtain ⟨hl, hmark⟩ := h.reads rest
  refine literal_named isWord_nil (h.trivia.stops hr).continuesName rfl fun hlen => ?_
  rw [named, if_pos rfl, hmark]
  exact ⟨Nat.lt_of_le_of_lt hl hlen, rfl⟩

theorem literal_function {g₁ g₂ g₃ : List UInt8} (h₁ : Trivia g₁) (h₂ : Trivia g₂) (h₃ : Trivia g₃)
    (hr : Stops rest) :
    ∃ b u, Text.bytes "function" ++ (g₁ ++ ascii '(' :: (g₂ ++ ascii ')' ::
        (g₃ ++ (Text.bytes "end" ++ rest)))) = b :: u ∧
      Gives (literal table b u) .function rest := by
  have hopen : ∀ c ∈ (g₁ ++ ascii '(' :: (g₂ ++ ascii ')' ::
      (g₃ ++ (Text.bytes "end" ++ rest)))).head?, continuesName c = false := by
    refine h₁.continuesName ?_
    rintro _ ⟨⟩
    rfl
  obtain ⟨hl, hbody⟩ := functionPlaceholder_complete h₁ h₂ h₃ hr
  refine literal_named isWord_function hopen rfl fun hlen => ?_
  simp only [named, hbody]
  exact ⟨Nat.lt_trans hl hlen, rfl⟩

/-- A literal is read up to the trivia behind it, and that of nil perhaps with some of it. -/
theorem Stands.reads (hT : Recognizes table T) (h : Stands T s v t) (ht : Ends t) :
    ∃ b r rest, s = b :: r ∧ Gives (literal table b r) v rest ∧ Skips rest t := by
  obtain ⟨l, g, rfl, hl, hg, hm⟩ := h
  have hstop := hg.stops ht
  have hskip : Skips (g ++ t) t := skips_iff.2 ⟨g, rfl, hg⟩
  cases hl with
  | nil => exact hg.reads_nil ht (hm rfl)
  | reference h =>
    obtain ⟨b, u, hs, hr⟩ := h.reads_reference hstop
    exact ⟨b, u, g ++ t, (List.append_assoc ..).trans hs, hr, hskip⟩
  | bool value =>
    have hnamed (h) : Gives (named (Text.bytes (toString value) ++ (g ++ t))
        ⟨toString value, g ++ t, h⟩) (.bool value) (g ++ t) := ⟨h, by cases value <;> rfl⟩
    obtain ⟨b, u, hs, hr⟩ := literal_named (isWord_bool value) hstop.continuesName rfl hnamed
    exact ⟨b, u, g ++ t, hs, hr, hskip⟩
  | number h =>
    cases h with
    | numeral h =>
      obtain ⟨b, u, rfl, hn, hslash⟩ := h.starts (g ++ t)
      refine ⟨b, u ++ (g ++ t), g ++ t, rfl, ?_, hskip⟩
      rw [literal_of_numeral hn (hslash hstop)]
      exact (h.reads hstop).map Value.number
    | huge =>
      -- the name ends at the point, and the whole is read for it
      have hpoint : ∀ c ∈ (Text.bytes ".huge" ++ (g ++ t)).head?, continuesName c = false := by
        rintro _ ⟨⟩
        rfl
      have hhuge := (gives_mathHuge.2 ⟨rfl, hstop.not_continuesName, rfl⟩).map Value.number
      obtain ⟨b, u, hs, hr⟩ := literal_named isWord_math hpoint rfl fun _ => hhuge
      exact ⟨b, u, g ++ t, hs, hr, hskip⟩
  | nan => exact ⟨_, _, g ++ t, rfl, literal_nan hstop.not_continuesName, hskip⟩
  | @negative k m _ hk hd h =>
    have hn := (negated_complete hk h hstop).behind (ascii '-')
    refine ⟨ascii '-', k ++ (m ++ (g ++ t)), g ++ t, ?_, hn, hskip⟩
    simp only [List.append_assoc, List.cons_append]
  | @quoted quote s content hq h =>
    have hne : ascii '\\' ≠ quote := by
      rcases hq with rfl | rfl <;> decide
    refine ⟨quote, s ++ (g ++ t), g ++ t, rfl, ?_, hskip⟩
    rw [literal_quote hq]
    exact (h.reads hne (g ++ t)).map_behind (fun content => Value.str (Text.decodeLossy content)) _
  | long h =>
    obtain ⟨r, rfl⟩ := h.start
    obtain ⟨hl, hb⟩ := longBracket_eq_some.2 ⟨_, rfl, h⟩
    exact ⟨_, _, g ++ t, rfl, literal_long hb, hskip⟩
  | function h₁ h₂ h₃ =>
    obtain ⟨b, u, hb, hr⟩ := literal_function h₁ h₂ h₃ hstop
    refine ⟨b, u, g ++ t, ?_, hr, hskip⟩
    rw [← hb]
    simp only [List.append_assoc, List.cons_append]
  | table h =>
    obtain ⟨⟨r, rfl⟩, -⟩ := hT.start h
    exact ⟨_, _, g ++ t, rfl, hT.complete h (g ++ t), hskip⟩

end MobDebug.Literal
