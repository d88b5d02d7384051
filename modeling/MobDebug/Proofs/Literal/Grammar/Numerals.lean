import MobDebug.Proofs.Literal.Grammar.Hexadecimals

/-! Numerals are read as the grammar has them, up to what cannot continue one. -/
namespace MobDebug.Literal

variable {b x : UInt8} {s t rest : List UInt8} {n : Number}

/-- What marks a hexadecimal numeral behind its first byte. -/
def HexMarked (b : UInt8) (s : List UInt8) : Prop :=
  b = ascii '0' ∧ ∃ x ∈ s.head?, x = ascii 'x' ∨ x = ascii 'X'

theorem decimal_eq_ok : (∃ h, numeral.decimal b s = .ok (n, ⟨rest, h⟩)) ↔
    readDecimal? ((b :: s.take (decimalLength s)).map byteChar) = some n ∧
      s.drop (decimalLength s) = rest := by
  unfold numeral.decimal
  dsimp only
  split
  · next m hm =>
    rw [hm]
    simp only [Except.ok.injEq, Prod.mk.injEq, Subtype.mk.injEq, Option.some.injEq]
    constructor
    · rintro ⟨-, h⟩
      exact h
    · rintro ⟨rfl, rfl⟩
      exact ⟨by simp, rfl, rfl⟩
  · next hm =>
    rw [hm]
    simp [failAt]

/-- What is read behind `b` is a numeral with it, unless a name continues it. -/
def unlessContinued (b : UInt8) (read : Except Failure (Number × Rest s)) :
    Except Failure (Parsed Number (b :: s)) :=
  match read with
  | .error e => .error e
  | .ok (n, rest) =>
    if rest.1.head?.any continuesName then failAt .malformedNumber rest.1
    else .ok (.upTo n b rest)

theorem gives_unlessContinued (read : Except Failure (Number × Rest s)) :
    Gives (unlessContinued b read) n rest ↔
      (∃ h, read = .ok (n, ⟨rest, h⟩)) ∧ rest.head?.any continuesName = false := by
  rcases read with e | ⟨m, r, hr⟩
  · simp [Gives, unlessContinued]
  unfold unlessContinued
  dsimp only
  split
  · next hc =>
    simp only [Gives, failAt, reduceCtorEq, exists_false, Except.ok.injEq, Prod.mk.injEq,
      Subtype.mk.injEq, false_iff, not_and, exists_prop, Bool.not_eq_false]
    rintro ⟨-, -, rfl⟩
    exact hc
  · next hc =>
    rw [Bool.not_eq_true] at hc
    constructor
    · rintro ⟨_, he⟩
      cases he
      exact ⟨⟨hr, rfl⟩, hc⟩
    · rintro ⟨⟨_, he⟩, -⟩
      cases he
      exact ⟨_, rfl⟩

theorem numeral_of_decimal (hx : ¬ HexMarked b s) :
    numeral b s = unlessContinued b (numeral.decimal b s) := by
  rcases s with - | ⟨x, t⟩
  · rfl
  · have hx : ¬ (b = ascii '0' ∧ (x = ascii 'x' ∨ x = ascii 'X')) := by
      simpa [HexMarked] using hx
    unfold numeral
    dsimp only
    rw [if_neg hx]
    rfl

theorem numeral_decimal (hx : ¬ HexMarked b s) : Gives (numeral b s) n rest ↔
    (∃ h, numeral.decimal b s = .ok (n, ⟨rest, h⟩)) ∧ rest.head?.any continuesName = false := by
  rw [numeral_of_decimal hx, gives_unlessContinued]

theorem numeral_of_hex (hx : x = ascii 'x' ∨ x = ascii 'X') :
    numeral (ascii '0') (x :: t) = unlessContinued (ascii '0')
      ((hexNumeral (ascii '0' :: x :: t) t).map fun p => (p.1, p.2.behind x)) := by
  unfold numeral
  dsimp only
  rw [if_pos ⟨rfl, hx⟩]
  rfl

theorem numeral_hex (hx : x = ascii 'x' ∨ x = ascii 'X') :
    Gives (numeral (ascii '0') (x :: t)) n rest ↔
      (∃ h, hexNumeral (ascii '0' :: x :: t) t = .ok (n, ⟨rest, h⟩)) ∧
        rest.head?.any continuesName = false := by
  rw [numeral_of_hex hx, gives_unlessContinued]
  refine and_congr_left' ?_
  simp only [map_eq_ok]
  constructor
  · rintro ⟨_, ⟨m, r, hr⟩, hs, he⟩
    cases he
    exact ⟨hr, hs⟩
  · rintro ⟨hr, hs⟩
    exact ⟨Nat.le_succ_of_le hr, _, hs, rfl⟩

/-- What is read as a numeral is one. -/
theorem numeral_sound (h : Gives (numeral b s) n rest) : ∃ t, b :: s = t ++ rest ∧ Numeral t n := by
  by_cases hx : HexMarked b s
  · obtain ⟨rfl, x, hx, hmark⟩ := hx
    obtain ⟨s, rfl⟩ := List.head?_eq_some_iff.1 hx
    obtain ⟨⟨hl, hn⟩, -⟩ := (numeral_hex hmark).1 h
    obtain ⟨t, ds, fraction, r, rfl, hread, hmantissa⟩ := readHexDigits_sound s
    have hne : ds ≠ [] := by
      rintro rfl
      rw [hexNumeral_none _ (by rw [hread])] at hn
      cases hn
    have hmantissa := hmantissa hne
    by_cases hp : ∃ p ∈ r.head?, p = ascii 'p' ∨ p = ascii 'P'
    · obtain ⟨p, hp, hpower⟩ := hp
      obtain ⟨r, rfl⟩ := List.head?_eq_some_iff.1 hp
      obtain ⟨negative, written, he, rfl⟩ := (hexNumeral_scaled _ hread hne hpower).1 ⟨hl, hn⟩
      obtain ⟨⟨e, rfl, hscale⟩, -⟩ := (readHexExponent_eq_ok hpower).1 he
      exact ⟨_, by simp, .hexScaled hmark hmantissa hscale⟩
    · obtain ⟨hr, he⟩ := hexNumeral_plain (ascii '0' :: x :: (t ++ r)) hread hne fun p hp' =>
        not_or.1 fun he => hp ⟨p, hp', he⟩
      cases he.symm.trans hn
      refine ⟨ascii '0' :: x :: t, rfl, ?_⟩
      cases fraction with
      | none => exact .hex hmark hmantissa
      | some fraction => exact .hexPointed hmark hmantissa
  · obtain ⟨hd, -⟩ := (numeral_decimal hx).1 h
    obtain ⟨hn, rfl⟩ := decimal_eq_ok.1 hd
    have hdecimal := (readDecimal?_isSome (by simp)).1 (Option.isSome_of_eq_some hn)
    have ht := Numeral.decimal hdecimal hn
    rw [map_ascii_byteChar] at ht
    exact ⟨_, by simp, ht⟩

/-- A numeral is read up to what may follow a literal. -/
theorem Numeral.reads (h : Numeral (b :: t) n) (hr : Stops rest) :
    Gives (numeral b (t ++ rest)) n rest := by
  have hstop := hr.hex
  generalize hs : b :: t = s at h
  cases h with
  | @decimal cs _ h hn =>
    obtain ⟨c, cs, rfl⟩ := List.exists_cons_of_ne_nil h.ne_nil
    obtain ⟨rfl, rfl⟩ := List.cons.inj hs
    -- a decimal numeral is not taken for a hexadecimal one
    have hx : ¬ HexMarked (ascii c) (cs.map ascii ++ rest) := by
      rintro ⟨-, x, hx, he⟩
      obtain ⟨h1, h2, -⟩ := h.second hr x hx
      exact he.elim h1 h2
    refine (numeral_decimal hx).2 ⟨decimal_eq_ok.2 ?_, hr.not_continuesName⟩
    rw [h.length hr.decimalLength_eq, List.take_left, List.drop_left, ← List.map_cons,
      map_byteChar h.lt]
    exact ⟨hn, rfl⟩
  | @hex x s ds hx h =>
    cases hs
    obtain ⟨hl, he⟩ := hexNumeral_plain (ascii '0' :: x :: (s ++ rest))
      (h.reads fun b hb => ⟨(hstop b hb).1, (hstop b hb).2.1⟩) h.ne_nil
      fun b hb => (hstop b hb).2.2
    exact (numeral_hex hx).2 ⟨⟨hl, he⟩, hr.not_continuesName⟩
  | @hexPointed x s ds fraction hx h =>
    cases hs
    obtain ⟨hl, he⟩ := hexNumeral_plain (ascii '0' :: x :: (s ++ rest))
      (h.reads fun b hb => ⟨(hstop b hb).1, (hstop b hb).2.1⟩) h.ne_nil
      fun b hb => (hstop b hb).2.2
    exact (numeral_hex hx).2 ⟨⟨hl, he⟩, hr.not_continuesName⟩
  | @hexScaled x s e ds fraction negative written hx h he =>
    obtain ⟨rfl, rfl⟩ := List.cons.inj hs
    obtain ⟨mark, e, rfl, hm⟩ := he.start
    have hmark : ∀ b ∈ (mark :: (e ++ rest)).head?, hexDigit? b = none ∧ b ≠ ascii '.' := by
      rintro _ ⟨⟩
      rcases hm with rfl | rfl <;> decide
    have hread := h.reads hmark
    have hdigit : ∀ b ∈ rest.head?, isDigit b = false := hr.head (by decide)
    have hpower : ∃ h, readHexExponent (e ++ rest) = .ok (negative, written, ⟨rest, h⟩) :=
      (readHexExponent_eq_ok hm).2 ⟨⟨e, rfl, he⟩, hdigit⟩
    have hscaled := (hexNumeral_scaled (ascii '0' :: x :: (s ++ mark :: (e ++ rest))) hread
      h.ne_nil hm).2 ⟨negative, written, hpower, rfl⟩
    rw [List.cons_append, List.append_assoc]
    exact (numeral_hex hx).2 ⟨hscaled, hr.not_continuesName⟩

/-- A numeral begins as one. -/
theorem Numeral.starts (h : Numeral s n) (rest : List UInt8) :
    ∃ b t, s = b :: t ∧ startsNumeral (b :: (t ++ rest)) ∧
      (Stops rest → ∀ c ∈ (t ++ rest).head?, c ≠ ascii '/') := by
  have hhex {x : UInt8} (hx : x = ascii 'x' ∨ x = ascii 'X') (s : List UInt8) :
      startsNumeral (ascii '0' :: (x :: s ++ rest)) ∧
        (Stops rest → ∀ c ∈ (x :: s ++ rest).head?, c ≠ ascii '/') := by
    refine ⟨startsNumeral_of_isDigit rfl, ?_⟩
    rintro - _ ⟨⟩
    rcases hx with rfl | rfl <;> decide
  cases h with
  | @decimal cs _ h hn =>
    obtain ⟨c, cs, rfl⟩ := List.exists_cons_of_ne_nil h.ne_nil
    exact ⟨_, _, rfl, h.startsNumeral rest, fun hr c hc => (h.second hr c hc).2.2⟩
  | hex hx h => exact ⟨_, _, rfl, hhex hx _⟩
  | hexPointed hx h => exact ⟨_, _, rfl, hhex hx _⟩
  | hexScaled hx h he => exact ⟨_, _, rfl, hhex hx _⟩

end MobDebug.Literal
