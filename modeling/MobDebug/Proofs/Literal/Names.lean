import MobDebug.Literal.Reader
import MobDebug.Proofs.Literal.Ascii
import MobDebug.Proofs.Literal.Trivia

/-! Names, and what it takes to spell a value: a text that is read as it, and never for a key. -/
namespace MobDebug.Literal

variable {b : UInt8} {c : Char} {r s t rest : List UInt8} {name : String} {table : Parser Value}
  {v : Value}

/-- Letters, digits and underscores, no digit first. -/
def IsWord (name : String) : Prop :=
  ∃ c cs, name.toList = c :: cs ∧ isNameStart c ∧ cs.all isNameChar

theorem isWord_of_isPlainName (h : isPlainName name) :
    IsWord name ∧ reservedWords.contains name = false := by
  unfold isPlainName at h
  split at h
  · cases h
  · next c cs hl =>
    simp only [Bool.and_eq_true, Bool.not_eq_true'] at h
    exact ⟨⟨c, cs, hl, h.1.1, h.1.2⟩, h.2⟩

theorem IsWord.lt (h : IsWord name) : ∀ c ∈ name.toList, c.toNat < 0x80 := by
  obtain ⟨c, cs, hl, hc, hcs⟩ := h
  rw [List.all_eq_true] at hcs
  rw [hl]
  intro d hd
  rcases List.mem_cons.1 hd with rfl | hd
  · exact lt_of_isNameChar (isNameChar_iff.2 (.inl hc))
  · exact lt_of_isNameChar (hcs d hd)

/-- A word is a name. -/
theorem name?_bytes (hw : IsWord name) (hr : ∀ c ∈ r.head?, continuesName c = false) :
    ∃ b t, Text.bytes name ++ r = b :: t ∧ startsName b ∧
      ∃ h, name? (b :: t) = some ⟨name, r, h⟩ := by
  have hlt := hw.lt
  obtain ⟨c, cs, hl, hc, hcs⟩ := hw
  rw [List.all_eq_true] at hcs
  rw [hl] at hlt
  have hb : Text.bytes name = ascii c :: cs.map ascii := by
    rw [bytes_ascii (hl ▸ hlt), hl, List.map_cons]
  have hcont : ∀ b ∈ cs.map ascii, continuesName b := by
    intro b hb
    obtain ⟨d, hd, rfl⟩ := List.mem_map.1 hb
    exact continuesName_ascii (hcs d hd)
  have hname : String.ofList ((ascii c :: cs.map ascii).map byteChar) = name := by
    rw [← List.map_cons, map_byteChar hlt, ← hl, String.ofList_toList]
  refine ⟨ascii c, cs.map ascii ++ r, by rw [hb, List.cons_append], startsName_ascii hc,
    Nat.lt_succ_of_le (by simp), ?_⟩
  simp only [name?, startsName_ascii hc, if_true, Parsed.upTo, Text.takeWhile_run hcont hr,
    Text.dropWhile_run hcont hr, hname]

/-- Where a name starts, nothing else does. -/
theorem startsName_ne (hb : startsName b) {c : UInt8} (hc : startsName c = false) : b ≠ c := by
  rintro rfl
  rw [hb] at hc
  cases hc

theorem literal_of_name (hb : startsName b) {name : Parsed String (b :: r)}
    (hn : name? (b :: r) = some name) : literal table b r = named (b :: r) name := by
  have hnum : startsNumeral (b :: r) = false := by
    have hd : isDigit b = false := by
      rw [startsName_iff] at hb
      rw [← Bool.not_eq_true, isDigit_iff]
      omega
    cases r <;> simp [startsNumeral, hd, startsName_ne hb (c := ascii '.') rfl]
  have h1 : b ≠ ascii '\x7b' := startsName_ne hb rfl
  have h2 : ¬ (b = ascii '"' ∨ b = ascii '\'') :=
    not_or.2 ⟨startsName_ne hb rfl, startsName_ne hb rfl⟩
  have h3 : b ≠ ascii '[' := startsName_ne hb rfl
  have h4 : b ≠ ascii '-' := startsName_ne hb rfl
  simp only [literal, h1, h2, h3, h4, hnum, hn, if_false, Bool.false_eq_true]

theorem solid_of_startsName (hb : startsName b) : Solid (b :: r) := by
  refine solid_cons ?_ (startsName_ne hb rfl)
  rw [startsName_iff] at hb
  rw [← Bool.not_eq_true, isSpace_iff]
  omega

/-- No equals sign follows. -/
theorem equalsSign?_none (hs : Skips r t) (ht : t.head? ≠ some (ascii '=')) :
    equalsSign? r = .ok none := by
  obtain ⟨h, hs⟩ := hs
  unfold equalsSign?
  rw [hs]
  cases t with
  | nil => rfl
  | cons b t =>
    have hb : b ≠ ascii '=' := by simpa using ht
    simp only [hb, false_and, if_false]

theorem Follows.continuesName (h : Follows rest) : ∀ c ∈ rest.head?, continuesName c = false :=
  h.head (by decide)

theorem Follows.equalsSign?_none (h : Follows rest) (hs : Skips r rest) :
    equalsSign? r = .ok none := by
  refine Literal.equalsSign?_none hs ?_
  intro he
  exact absurd (h _ he) (by decide)

theorem expect_eq {wanted : UInt8} (hs : Skips s (wanted :: r)) : Gives (expect wanted s) () r := by
  obtain ⟨hl, hs⟩ := hs
  refine ⟨hl, ?_⟩
  unfold expect
  rw [hs]
  exact if_pos rfl

/-- Before `rest` stands a literal for `v`, which begins neither a key nor the end of a table. -/
structure Spells (table : Parser Value) (s : List UInt8) (v : Value) (rest : List UInt8) :
    Prop where
  solid : Solid s
  start : ∀ b ∈ s.head?, b ≠ ascii '[' ∧ b ≠ ascii '\x7d' ∧ b ≠ ascii '='
  unkeyed : ∀ name, name? s = some name → equalsSign? name.rest = .ok none
  literal : ∃ b t, s = b :: t ∧ Gives (literal table b t) v rest

/-- The literal is read, with space before it or without. -/
theorem Spells.gives (h : Spells table s v rest) (hs : Skips r s) :
    Gives (literalAfterTrivia table r) v rest := by
  obtain ⟨b, t, rfl, hg⟩ := h.literal
  obtain ⟨hl, hs⟩ := hs
  unfold literalAfterTrivia
  rw [hs]
  exact hg.widen hl

/-- A literal that a name starts, with no equals sign behind. -/
theorem spells_named (hw : IsWord name) (hr : ∀ c ∈ r.head?, continuesName c = false)
    (he : equalsSign? r = .ok none)
    (h : ∀ hr, Gives (named (Text.bytes name ++ r) ⟨name, r, hr⟩) v rest) :
    Spells table (Text.bytes name ++ r) v rest := by
  obtain ⟨b, t, hb, hs, hl, hn⟩ := name?_bytes hw hr
  rw [hb] at h ⊢
  refine ⟨solid_of_startsName hs, ?_, ?_, b, t, rfl, ?_⟩
  · rintro _ ⟨⟩
    exact ⟨startsName_ne hs rfl, startsName_ne hs rfl, startsName_ne hs rfl⟩
  · intro name' hn'
    cases hn.symm.trans hn'
    exact he
  · rw [literal_of_name hs hn]
    exact h hl

/-- A literal that starts with a quote, a digit, a minus or a brace. -/
theorem spells_unnamed (hs : Solid (b :: t))
    (hb : b ≠ ascii '[' ∧ b ≠ ascii '\x7d' ∧ b ≠ ascii '=')
    (hn : startsName b = false) (h : Gives (literal table b t) v rest) :
    Spells table (b :: t) v rest := by
  refine ⟨hs, ?_, ?_, b, t, rfl, h⟩
  · rintro _ ⟨⟩
    exact hb
  · intro name hname
    simp [name?, hn] at hname

theorem isWord_bool (value : Bool) : IsWord (toString value) := by
  cases value
  · exact ⟨'f', _, rfl, by decide, by decide⟩
  · exact ⟨'t', _, rfl, by decide, by decide⟩

theorem spells_bool (value : Bool) (hr : Follows rest) :
    Spells table (Text.bytes (toString value) ++ rest) (.bool value) rest := by
  refine spells_named (isWord_bool value) hr.continuesName
    (hr.equalsSign?_none (skips_solid hr.solid)) ?_
  intro hl
  refine ⟨hl, ?_⟩
  cases value <;> rfl

end MobDebug.Literal
