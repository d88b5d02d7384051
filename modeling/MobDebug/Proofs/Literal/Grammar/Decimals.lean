import MobDebug.Proofs.Literal.Grammar.Trivia
import MobDebug.Proofs.Literal.Numerals
import Mathlib.Data.Bool.AllAny

/-! Decimal numerals: which texts have a value, and how far one of them is read. -/
namespace MobDebug.Literal

variable {rest : List UInt8} {cs : List Char}

/-! ### What ends a literal -/

/-- What may follow a literal: space, a comment, a separator, or the end of a table or a key. -/
def stops : List UInt8 :=
  [0x20, 0x9, 0xa, 0xb, 0xc, 0xd, ascii '-', ascii ',', ascii ';', ascii '\x7d', ascii ']']

/-- The text has ended, or a literal in front of it has. -/
def Stops (s : List UInt8) : Prop :=
  ∀ b ∈ s.head?, b ∈ stops

theorem Stops.head {p : UInt8 → Prop} [DecidablePred p] (h : Stops rest) (hp : stops.all (p ·)) :
    ∀ b ∈ rest.head?, p b :=
  fun b hb => List.all_iff_forall_prop.1 hp b (h b hb)

theorem Stops.not_continuesName (h : Stops rest) : rest.head?.any continuesName = false := by
  have hname : ∀ b ∈ rest.head?, continuesName b = false := h.head (by decide)
  rw [Option.any_eq_false]
  exact hname

theorem Stops.decimalLength_eq (h : Stops rest) : decimalLength rest = 0 := by
  cases rest with
  | nil => rfl
  | cons b rest =>
    have hb := h b rfl
    simp only [stops, List.mem_cons, List.not_mem_nil, or_false] at hb
    rcases hb with rfl | rfl | rfl | rfl | rfl | rfl | rfl | rfl | rfl | rfl | rfl <;>
      cases rest <;> rfl

/-! ### Which texts have a value -/

theorem readExponent?_signed {mark sign : Char} (hm : mark = 'e' ∨ mark = 'E')
    (hs : sign = '-' ∨ sign = '+') :
    (Double.readExponent? (mark :: sign :: cs)).isSome ↔ cs ≠ [] ∧ ∀ c ∈ cs, c.isDigit := by
  rcases hm with rfl | rfl <;> rcases hs with rfl | rfl <;> simp [Double.readExponent?]

theorem readExponent?_unsigned {mark : Char} (hm : mark = 'e' ∨ mark = 'E')
    (hs : ∀ c ∈ cs.head?, c ≠ '-' ∧ c ≠ '+') :
    (Double.readExponent? (mark :: cs)).isSome ↔ cs ≠ [] ∧ ∀ c ∈ cs, c.isDigit := by
  rcases cs with - | ⟨c, cs⟩
  · rcases hm with rfl | rfl <;> simp [Double.readExponent?]
  · obtain ⟨hminus, hplus⟩ := hs c rfl
    rcases hm with rfl | rfl <;> simp [Double.readExponent?, hplus, hminus]

theorem isDigit_not_sign {c : Char} (h : c.isDigit) : c ≠ '-' ∧ c ≠ '+' := by
  constructor
  · rintro rfl
    exact absurd h (by decide)
  · rintro rfl
    exact absurd h (by decide)

theorem readExponent?_isSome : (Double.readExponent? cs).isSome ↔ cs = [] ∨ Exponent cs := by
  constructor
  · intro h
    rcases cs with - | ⟨mark, cs⟩
    · exact .inl rfl
    have hm : mark = 'e' ∨ mark = 'E' := by
      by_contra hm
      simp_all [Double.readExponent?]
    refine .inr ?_
    by_cases hs : ∃ sign ds, cs = sign :: ds ∧ (sign = '-' ∨ sign = '+')
    · obtain ⟨sign, ds, rfl, hs⟩ := hs
      obtain ⟨hne, hd⟩ := (readExponent?_signed hm hs).1 h
      have hsign : [sign] = [] ∨ [sign] = ['-'] ∨ [sign] = ['+'] := by simpa using hs
      exact .mk hm hsign hne hd
    · have hstart : ∀ c ∈ cs.head?, c ≠ '-' ∧ c ≠ '+' := by
        intro c hc
        obtain ⟨ds, rfl⟩ := List.head?_eq_some_iff.1 hc
        exact not_or.1 fun he => hs ⟨c, ds, rfl, he⟩
      obtain ⟨hne, hd⟩ := (readExponent?_unsigned hm hstart).1 h
      exact @Exponent.mk mark [] cs hm (.inl rfl) hne hd
  · rintro (rfl | @⟨mark, sign, ds, hm, rfl | rfl | rfl, hne, hd⟩)
    · rfl
    · refine (readExponent?_unsigned hm fun c hc => ?_).2 ⟨hne, hd⟩
      exact isDigit_not_sign (hd c (List.mem_of_mem_head? hc))
    · exact (readExponent?_signed hm (.inl rfl)).2 ⟨hne, hd⟩
    · exact (readExponent?_signed hm (.inr rfl)).2 ⟨hne, hd⟩

theorem head?_exponent (h : cs = [] ∨ Exponent cs) : ∀ c ∈ cs.head?, c = 'e' ∨ c = 'E' := by
  rcases h with rfl | ⟨hm, -⟩
  · rintro c ⟨⟩
  · rintro c ⟨⟩
    exact hm

variable {whole fraction tail : List Char}

theorem read?_pointed_isSome (negative : Bool) (hw : ∀ c ∈ whole, c.isDigit)
    (hf : ∀ c ∈ fraction, c.isDigit) (ht : ∀ c ∈ tail.head?, c.isDigit = false) :
    (Double.read? negative (whole ++ '.' :: (fraction ++ tail))).isSome ↔
      whole ++ fraction ≠ [] ∧ (Double.readExponent? tail).isSome := by
  have hpoint : ∀ c ∈ ('.' :: (fraction ++ tail)).head?, c.isDigit = false := by
    rintro c ⟨⟩
    rfl
  simp only [Double.read?, Text.takeWhile_run hw hpoint, Text.dropWhile_run hw hpoint,
    Text.takeWhile_run hf ht, Text.dropWhile_run hf ht]
  split <;> simp_all

theorem read?_pointless_isSome (negative : Bool) (hw : ∀ c ∈ whole, c.isDigit)
    (ht : ∀ c ∈ tail.head?, c.isDigit = false ∧ c ≠ '.') :
    (Double.read? negative (whole ++ tail)).isSome ↔
      whole ≠ [] ∧ (Double.readExponent? tail).isSome := by
  have hstop : ∀ c ∈ tail.head?, c.isDigit = false := fun c hc => (ht c hc).1
  simp only [Double.read?, Text.takeWhile_run hw hstop, Text.dropWhile_run hw hstop]
  split
  · exact absurd rfl (ht '.' rfl).2
  · dsimp only
    split <;> simp_all

/-- A text is a run of digits and a rest that begins with none. -/
theorem digits_split (cs : List Char) : ∃ ds r, ds ++ r = cs ∧ (∀ c ∈ ds, c.isDigit) ∧
    ∀ c ∈ r.head?, c.isDigit = false := by
  refine ⟨_, _, List.takeWhile_append_dropWhile, fun c hc => List.mem_takeWhile_imp hc, ?_⟩
  intro c hc
  have := List.head?_dropWhile_not Char.isDigit cs
  rw [hc] at this
  simpa using this

theorem decimal_of_read (negative : Bool) (h : (Double.read? negative cs).isSome) :
    Decimal cs := by
  obtain ⟨whole, r, rfl, hw, hr⟩ := digits_split cs
  by_cases hp : r.head? = some '.'
  · obtain ⟨t, rfl⟩ := List.head?_eq_some_iff.1 hp
    obtain ⟨fraction, tail, rfl, hf, htail⟩ := digits_split t
    obtain ⟨hne, he⟩ := (read?_pointed_isSome negative hw hf htail).1 h
    obtain ⟨c, hc⟩ := List.exists_mem_of_ne_nil _ hne
    have hd : c.isDigit := (List.mem_append.1 hc).elim (hw c) (hf c)
    have hc : c ∈ whole ++ '.' :: fraction := by
      rw [List.mem_append, List.mem_cons]
      exact (List.mem_append.1 hc).imp_right .inr
    exact @Decimal.mk whole ('.' :: fraction) tail hw (.inr ⟨fraction, rfl, hf⟩) ⟨c, hc, hd⟩
      (readExponent?_isSome.1 he)
  · have hpoint : ∀ c ∈ r.head?, c.isDigit = false ∧ c ≠ '.' :=
      fun c hc => ⟨hr c hc, fun he => hp (he ▸ hc)⟩
    obtain ⟨hne, he⟩ := (read?_pointless_isSome negative hw hpoint).1 h
    obtain ⟨c, hc⟩ := List.exists_mem_of_ne_nil _ hne
    exact @Decimal.mk whole [] r hw (.inl rfl) ⟨c, List.mem_append_left _ hc, hw c hc⟩
      (readExponent?_isSome.1 he)

theorem read_of_decimal (negative : Bool) (h : Decimal cs) :
    (Double.read? negative cs).isSome := by
  obtain ⟨hw, hf, ⟨c, hc, hd⟩, he⟩ := h
  have hmark := head?_exponent he
  rcases hf with rfl | ⟨ds, rfl, hf⟩
  · refine (read?_pointless_isSome negative hw fun c hc => ?_).2 ⟨?_, readExponent?_isSome.2 he⟩
    · rcases hmark c hc with rfl | rfl <;> exact ⟨rfl, by decide⟩
    · rintro rfl
      cases hc
  · refine (read?_pointed_isSome negative hw hf fun c hc => ?_).2 ⟨?_, readExponent?_isSome.2 he⟩
    · rcases hmark c hc with rfl | rfl <;> rfl
    · intro hn
      obtain ⟨rfl, rfl⟩ := List.append_eq_nil_iff.1 hn
      obtain rfl : c = '.' := by simpa using hc
      cases hd

/-- Every decimal numeral has a value, and no other text has one. -/
theorem readDecimal?_isSome (hne : cs ≠ []) : (readDecimal? cs).isSome ↔ Decimal cs := by
  unfold readDecimal?
  split
  · next h =>
    simp only [Bool.and_eq_true, List.all_eq_true] at h
    obtain ⟨c, hc⟩ := List.exists_mem_of_ne_nil _ hne
    have hd : Decimal (cs ++ ([] ++ [])) :=
      .mk h.1 (.inl rfl) ⟨c, List.mem_append_left _ hc, h.1 c hc⟩ (.inl rfl)
    simpa using hd
  · rw [Option.isSome_map]
    exact ⟨decimal_of_read false, read_of_decimal false⟩

/-! ### How far they are read -/

theorem Decimal.chars (h : Decimal cs) :
    ∀ c ∈ cs, c.isDigit ∨ c ∈ ['.', 'e', 'E', '+', '-'] := by
  obtain ⟨hw, hf, -, he⟩ := h
  intro c hc
  rcases List.mem_append.1 hc with hc | hc
  · exact .inl (hw c hc)
  rcases List.mem_append.1 hc with hc | hc
  · rcases hf with rfl | ⟨ds, rfl, hf⟩
    · cases hc
    · rcases List.mem_cons.1 hc with rfl | hc
      · exact .inr (by decide)
      · exact .inl (hf c hc)
  rcases he with rfl | @⟨mark, sign, ds, hm, hs, -, hd⟩
  · cases hc
  rcases List.mem_cons.1 hc with rfl | hc
  · rcases hm with rfl | rfl <;> exact .inr (by decide)
  rcases List.mem_append.1 hc with hc | hc
  · rcases hs with rfl | rfl | rfl
    · cases hc
    all_goals
      rw [List.mem_singleton.1 hc]
      exact .inr (by decide)
  · exact .inl (hd c hc)

theorem Decimal.lt (h : Decimal cs) : ∀ c ∈ cs, c.toNat < 0x80 := by
  intro c hc
  rcases h.chars c hc with hd | hm
  · have := isDigit_bounds hd
    omega
  · have hlt : ['.', 'e', 'E', '+', '-'].all (·.toNat < 0x80) := by decide
    exact List.all_iff_forall_prop.1 hlt c hm

theorem Decimal.ne_nil (h : Decimal cs) : cs ≠ [] := by
  obtain ⟨-, -, ⟨c, hc, -⟩, -⟩ := h
  rintro he
  rw [← List.append_assoc] at he
  rw [(List.append_eq_nil_iff.1 he).1] at hc
  cases hc

/-- A numeral begins with a digit, or with a point before one. -/
theorem Decimal.start {c : Char} (h : Decimal (c :: cs)) :
    c.isDigit ∨ c = '.' ∧ ∃ d ∈ cs.head?, d.isDigit := by
  generalize hs : c :: cs = xs at h
  obtain @⟨whole, fraction, exponent, hw, hf, ⟨d, hd, hdigit⟩, -⟩ := h
  rcases whole with - | ⟨w, whole⟩
  · rcases hf with rfl | ⟨ds, rfl, hf⟩
    · cases hd
    · rcases ds with - | ⟨e, ds⟩
      · obtain rfl : d = '.' := by simpa using hd
        cases hdigit
      · cases hs
        exact .inr ⟨rfl, e, rfl, hf e List.mem_cons_self⟩
  · cases hs
    exact .inl (hw c List.mem_cons_self)

/-- What stands behind the first character of a numeral is taken whole. -/
theorem Decimal.length {c : Char} (h : Decimal (c :: cs)) (hr : decimalLength rest = 0) :
    decimalLength (cs.map ascii ++ rest) = (cs.map ascii).length := by
  have hstart := h.start
  generalize hs : c :: cs = xs at h
  obtain @⟨whole, fraction, exponent, hw, hf, -, he⟩ := h
  have hms : ∀ d ∈ whole ++ fraction, d.isDigit ∨ d = '.' := by
    intro d hd
    rcases List.mem_append.1 hd with hd | hd
    · exact .inl (hw d hd)
    rcases hf with rfl | ⟨ds, rfl, hf⟩
    · cases hd
    · rcases List.mem_cons.1 hd with rfl | hd
      · exact .inr rfl
      · exact .inl (hf d hd)
  have hexponent : decimalLength (exponent.map ascii ++ rest) = exponent.length := by
    rcases he with rfl | ⟨hm, hsign, hne, hds⟩
    · exact hr
    · exact decimalLength_mark hm hsign hne hds hr
  rw [← List.append_assoc] at hs
  generalize whole ++ fraction = ms at hs hms
  rcases ms with - | ⟨m, ms⟩
  · -- no exponent begins a numeral
    rcases he with rfl | ⟨rfl | rfl, -⟩
    · cases hs
    all_goals
      cases hs
      rcases hstart with hd | ⟨hd, -⟩ <;> exact absurd hd (by decide)
  · rw [List.cons_append] at hs
    obtain ⟨rfl, rfl⟩ := List.cons.inj hs
    rw [List.map_append, List.append_assoc,
      decimalLength_append fun d hd => hms d (List.mem_cons_of_mem _ hd), hexponent,
      List.length_append, List.length_map, List.length_map]

theorem Decimal.startsNumeral {c : Char} (h : Decimal (c :: cs)) (rest : List UInt8) :
    startsNumeral (ascii c :: (cs.map ascii ++ rest)) := by
  rcases h.start with hc | ⟨rfl, d, hd, hdigit⟩
  · exact startsNumeral_of_isDigit (isDigit_ascii hc)
  · obtain ⟨ds, rfl⟩ := List.head?_eq_some_iff.1 hd
    simp [Literal.startsNumeral, isDigit_ascii hdigit]

/-- Behind the first digit of a decimal numeral there is no mark of another kind. -/
theorem Decimal.second {c : Char} (h : Decimal (c :: cs)) (hr : Stops rest) :
    ∀ b ∈ (cs.map ascii ++ rest).head?, b ≠ ascii 'x' ∧ b ≠ ascii 'X' ∧ b ≠ ascii '/' := by
  intro b hb
  rcases cs with - | ⟨d, cs⟩
  · have hne : ∀ b ∈ rest.head?, b ≠ ascii 'x' ∧ b ≠ ascii 'X' ∧ b ≠ ascii '/' :=
      hr.head (by decide)
    exact hne b hb
  · obtain rfl : ascii d = b := by simpa using hb
    rcases h.chars d (by simp) with hd | hm
    · have hd := isDigit_ascii hd
      exact ⟨isDigit_ne hd rfl, isDigit_ne hd rfl, isDigit_ne hd rfl⟩
    · have hne : ['.', 'e', 'E', '+', '-'].all fun d =>
          ascii d ≠ ascii 'x' ∧ ascii d ≠ ascii 'X' ∧ ascii d ≠ ascii '/' := by decide
      exact List.all_iff_forall_prop.1 hne d hm

end MobDebug.Literal
