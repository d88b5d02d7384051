import MobDebug.Proofs.Literal.Grammar.Decimals

/-! Hexadecimal numerals: their digits and point, their exponent, and what they stand for. -/
namespace MobDebug.Literal

variable {r s t rest : List UInt8} {n : Number} {ds es : List Nat}

variable {pointed : Bool} {fraction : Option Nat}

theorem readHexDigits_stop (hr : ∀ b ∈ rest.head?, hexDigit? b = none)
    (hp : pointed = false → ∀ b ∈ rest.head?, b ≠ ascii '.') :
    readHexDigits pointed rest = ⟨[], 0, pointed, rest⟩ := by
  rcases rest with - | ⟨b, r⟩
  · rfl
  · have hb : (b == ascii '.' && !pointed) = false := by
      cases pointed with
      | true => simp
      | false => simpa using hp rfl b rfl
    rw [readHexDigits, hr b rfl]
    dsimp only
    rw [hb]
    rfl

theorem readHexDigits_append (h : HexRun s ds) (t : List UInt8) :
    readHexDigits pointed (s ++ t) =
      { readHexDigits pointed t with
        digits := ds ++ (readHexDigits pointed t).digits
        fraction := (readHexDigits pointed t).fraction + if pointed then ds.length else 0 } := by
  induction h with
  | nil => simp
  | cons hb _ ih =>
    rw [List.cons_append, readHexDigits, hb]
    dsimp only
    rw [ih]
    cases pointed <;> simp [Nat.add_assoc]

theorem readHexDigits_point (t : List UInt8) :
    readHexDigits false (ascii '.' :: t) = readHexDigits true t := by
  have hp : hexDigit? (ascii '.') = none := by decide
  rw [readHexDigits, hp]
  rfl

/-- The digits and the point of a numeral are read up to what is neither. -/
theorem HexMantissa.reads (h : HexMantissa s ds fraction)
    (hr : ∀ b ∈ rest.head?, hexDigit? b = none ∧ b ≠ ascii '.') :
    readHexDigits false (s ++ rest) = ⟨ds, fraction.getD 0, fraction.isSome, rest⟩ := by
  have hdigit : ∀ b ∈ rest.head?, hexDigit? b = none := fun b hb => (hr b hb).1
  cases h with
  | whole h _ =>
    rw [readHexDigits_append h, readHexDigits_stop hdigit fun _ b hb => (hr b hb).2]
    simp
  | pointed h h' _ =>
    rw [List.append_assoc, List.cons_append, readHexDigits_append h, readHexDigits_point,
      readHexDigits_append h', readHexDigits_stop hdigit (by simp)]
    simp

theorem HexMantissa.ne_nil (h : HexMantissa s ds fraction) : ds ≠ [] := by
  cases h <;> assumption

theorem hexRun_split (s : List UInt8) :
    ∃ t ds rest, s = t ++ rest ∧ HexRun t ds ∧ ∀ b ∈ rest.head?, hexDigit? b = none := by
  induction s with
  | nil => exact ⟨[], [], [], rfl, .nil, by simp⟩
  | cons b s ih =>
    cases hb : hexDigit? b with
    | none => exact ⟨[], [], b :: s, rfl, .nil, by simpa using hb⟩
    | some d =>
      obtain ⟨t, ds, rest, rfl, ht, hr⟩ := ih
      exact ⟨b :: t, d :: ds, rest, rfl, .cons hb ht, hr⟩

/-- What is read is a mantissa, unless there is no digit. -/
theorem readHexDigits_sound (s : List UInt8) :
    ∃ t ds fraction rest, s = t ++ rest ∧
      readHexDigits false s = ⟨ds, fraction.getD 0, fraction.isSome, rest⟩ ∧
      (ds ≠ [] → HexMantissa t ds fraction) := by
  obtain ⟨t, ds, r, rfl, ht, hr⟩ := hexRun_split s
  by_cases hp : r.head? = some (ascii '.')
  · obtain ⟨r, rfl⟩ := List.head?_eq_some_iff.1 hp
    obtain ⟨u, es, rest, rfl, hu, hrest⟩ := hexRun_split r
    refine ⟨t ++ ascii '.' :: u, ds ++ es, some es.length, rest, by simp, ?_, .pointed ht hu⟩
    rw [readHexDigits_append ht, readHexDigits_point, readHexDigits_append hu,
      readHexDigits_stop hrest (by simp)]
    simp
  · refine ⟨t, ds, none, r, rfl, ?_, .whole ht⟩
    rw [readHexDigits_append ht, readHexDigits_stop hr fun _ b hb he => hp (he ▸ hb)]
    simp

variable {negative : Bool} {written : Nat} {mark : UInt8} {sign : List UInt8}

/-- A sign in front of an exponent, and whether it is a minus. Without one, `r` begins with none. -/
def Signed (negative : Bool) (sign r : List UInt8) : Prop :=
  negative = false ∧ (sign = [] ∧ (∀ b ∈ r.head?, b ≠ ascii '-' ∧ b ≠ ascii '+') ∨
    sign = [ascii '+']) ∨ negative = true ∧ sign = [ascii '-']

theorem signed_split (s : List UInt8) :
    ∃ negative sign r, s = sign ++ r ∧ Signed negative sign r := by
  rcases s with - | ⟨b, s⟩
  · exact ⟨false, [], [], rfl, .inl ⟨rfl, .inl ⟨rfl, by simp⟩⟩⟩
  by_cases hminus : b = ascii '-'
  · exact ⟨true, [b], s, rfl, .inr ⟨rfl, by rw [hminus]⟩⟩
  by_cases hplus : b = ascii '+'
  · exact ⟨false, [b], s, rfl, .inl ⟨rfl, .inr (by rw [hplus])⟩⟩
  · refine ⟨false, [], b :: s, rfl, .inl ⟨rfl, .inl ⟨rfl, ?_⟩⟩⟩
    rintro _ ⟨⟩
    exact ⟨hminus, hplus⟩

/-- Digits begin with no sign. -/
theorem signed_digits {es : List UInt8}
    (hs : negative = false ∧ (sign = [] ∨ sign = [ascii '+']) ∨
      negative = true ∧ sign = [ascii '-'])
    (hne : es ≠ []) (hd : ∀ b ∈ es, isDigit b) (rest : List UInt8) :
    Signed negative sign (es ++ rest) := by
  rcases hs with ⟨rfl, rfl | rfl⟩ | ⟨rfl, rfl⟩
  · refine .inl ⟨rfl, .inl ⟨rfl, fun b hb => ?_⟩⟩
    obtain ⟨d, es, rfl⟩ := List.exists_cons_of_ne_nil hne
    obtain rfl : d = b := by simpa using hb
    exact ⟨isDigit_ne (hd d List.mem_cons_self) rfl, isDigit_ne (hd d List.mem_cons_self) rfl⟩
  · exact .inl ⟨rfl, .inr rfl⟩
  · exact .inr ⟨rfl, rfl⟩

/-- The digits behind a sign are an exponent if there are any and it is below `2 ^ 63`. -/
theorem exponentDigits_eq_ok (hl : (r.dropWhile isDigit).length ≤ s.length) :
    (∃ h, (if ((r.takeWhile isDigit).map byteChar).isEmpty ||
        Nat.pow 2 63 ≤ Text.ofDigits ((r.takeWhile isDigit).map byteChar) then
        failAt .hexExponent (r.dropWhile isDigit)
      else .ok (negative, Text.ofDigits ((r.takeWhile isDigit).map byteChar),
        (⟨r.dropWhile isDigit, hl⟩ : Rest s))) = .ok (pointed, written, ⟨rest, h⟩)) ↔
    r.takeWhile isDigit ≠ [] ∧ Text.ofDigits ((r.takeWhile isDigit).map byteChar) < Nat.pow 2 63 ∧
      negative = pointed ∧ Text.ofDigits ((r.takeWhile isDigit).map byteChar) = written ∧
      r.dropWhile isDigit = rest := by
  split
  · next hc =>
    refine iff_of_false (by simp [failAt]) ?_
    rintro ⟨hne, hlt, -⟩
    simp only [Bool.or_eq_true, List.isEmpty_iff, List.map_eq_nil_iff, decide_eq_true_eq] at hc
    exact hc.elim hne (Nat.not_le.2 hlt)
  · next hc =>
    simp only [Bool.or_eq_true, List.isEmpty_iff, List.map_eq_nil_iff, decide_eq_true_eq, not_or,
      Nat.not_le] at hc
    simp only [Except.ok.injEq, Prod.mk.injEq, Subtype.mk.injEq]
    constructor
    · rintro ⟨-, h⟩
      exact ⟨hc.1, hc.2, h⟩
    · rintro ⟨-, -, hn, hw, rfl⟩
      exact ⟨hl, hn, hw, rfl⟩

theorem readHexExponent_signed (hs : Signed negative sign r) :
    (∃ h, readHexExponent (sign ++ r) = .ok (pointed, written, ⟨rest, h⟩)) ↔
      r.takeWhile isDigit ≠ [] ∧
        Text.ofDigits ((r.takeWhile isDigit).map byteChar) < Nat.pow 2 63 ∧
        negative = pointed ∧ Text.ofDigits ((r.takeWhile isDigit).map byteChar) = written ∧
        r.dropWhile isDigit = rest := by
  rcases hs with ⟨rfl, ⟨rfl, hr⟩ | rfl⟩ | ⟨rfl, rfl⟩
  · rcases r with - | ⟨b, r⟩
    · exact exponentDigits_eq_ok (r := []) (s := []) (Nat.le_refl 0)
    · obtain ⟨hminus, hplus⟩ := hr b rfl
      rw [List.nil_append, readHexExponent]
      simp only [hminus, hplus, if_false]
      exact exponentDigits_eq_ok _
  · exact exponentDigits_eq_ok _
  · exact exponentDigits_eq_ok _

/-- A written exponent is read up to what is no digit. -/
theorem readHexExponent_eq_ok (hm : mark = ascii 'p' ∨ mark = ascii 'P') :
    (∃ h, readHexExponent s = .ok (negative, written, ⟨rest, h⟩)) ↔
      (∃ t, s = t ++ rest ∧ HexPower (mark :: t) negative written) ∧
        ∀ b ∈ rest.head?, isDigit b = false := by
  constructor
  · intro h
    obtain ⟨m, sign, r, rfl, hs⟩ := signed_split s
    obtain ⟨hne, hlt, rfl, rfl, rfl⟩ := (readHexExponent_signed hs).1 h
    have hd : ∀ b ∈ r.takeWhile isDigit, isDigit b := fun b hb => List.mem_takeWhile_imp hb
    have hsign : m = false ∧ (sign = [] ∨ sign = [ascii '+']) ∨ m = true ∧ sign = [ascii '-'] := by
      rcases hs with ⟨rfl, ⟨rfl, -⟩ | rfl⟩ | ⟨rfl, rfl⟩ <;> simp
    refine ⟨⟨sign ++ r.takeWhile isDigit, ?_, .mk hm hsign hne hd hlt⟩, ?_⟩
    · rw [List.append_assoc, List.takeWhile_append_dropWhile]
    · intro b hb
      have := List.head?_dropWhile_not isDigit r
      rw [hb] at this
      simpa using this
  · rintro ⟨⟨t, rfl, hp⟩, hr⟩
    obtain @⟨_, sign, ds, _, -, hs, hne, hd, hlt⟩ := hp
    rw [List.append_assoc, readHexExponent_signed (signed_digits hs hne hd rest),
      Text.takeWhile_run hd hr, Text.dropWhile_run hd hr]
    exact ⟨hne, hlt, rfl, rfl, rfl⟩

theorem HexPower.start (h : HexPower s negative written) :
    ∃ mark t, s = mark :: t ∧ (mark = ascii 'p' ∨ mark = ascii 'P') := by
  obtain ⟨hm, -⟩ := h
  exact ⟨_, _, rfl, hm⟩

theorem Stops.hex (h : Stops rest) : ∀ b ∈ rest.head?, hexDigit? b = none ∧ b ≠ ascii '.' ∧
    b ≠ ascii 'p' ∧ b ≠ ascii 'P' :=
  h.head (by decide)

/-- The value of a hexadecimal numeral without an exponent. -/
def hexPlain (ds : List Nat) : Option Nat → Number
  | none => .int (hexInteger ds)
  | some fraction => .float (hexFloat ds (hexExponent fraction false 0))

theorem hexNumeral_none (start : List UInt8) (h : (readHexDigits false s).digits = []) :
    hexNumeral start s = failAt .noHexDigits start := by
  rw [hexNumeral, if_pos (List.isEmpty_iff.2 h)]

theorem hexNumeral_plain (start : List UInt8)
    (h : readHexDigits false s = ⟨ds, fraction.getD 0, fraction.isSome, r⟩) (hne : ds ≠ [])
    (hp : ∀ b ∈ r.head?, b ≠ ascii 'p' ∧ b ≠ ascii 'P') :
    ∃ hr, hexNumeral start s = .ok (hexPlain ds fraction, ⟨r, hr⟩) := by
  have hlen := length_readHexDigits_le false s
  rw [h] at hlen
  refine ⟨hlen, ?_⟩
  have hdigits : ¬ (readHexDigits false s).digits.isEmpty = true := by
    rw [h, List.isEmpty_iff]
    exact hne
  have hvalue : (if fraction.isSome then
      Number.float (hexFloat ds (hexExponent (fraction.getD 0) false 0))
      else .int (hexInteger ds)) = hexPlain ds fraction := by
    cases fraction <;> rfl
  rw [hexNumeral, if_neg hdigits]
  dsimp only
  split
  · next hr =>
    simp only [h] at hr ⊢
    subst hr
    rw [hvalue]
    rfl
  · next b t hr =>
    simp only [h] at hr ⊢
    subst hr
    have hb : ¬ (b = ascii 'p' ∨ b = ascii 'P') := not_or.2 (hp b rfl)
    simp only [hb, if_false, hvalue]

theorem hexNumeral_scaled (start : List UInt8)
    (h : readHexDigits false s = ⟨ds, fraction.getD 0, fraction.isSome, mark :: r⟩) (hne : ds ≠ [])
    (hm : mark = ascii 'p' ∨ mark = ascii 'P') :
    (∃ hr, hexNumeral start s = .ok (n, ⟨rest, hr⟩)) ↔ ∃ negative written,
      (∃ h, readHexExponent r = .ok (negative, written, ⟨rest, h⟩)) ∧
        .float (hexFloat ds (hexExponent (fraction.getD 0) negative written)) = n := by
  have hdigits : ¬ (readHexDigits false s).digits.isEmpty = true := by
    rw [h, List.isEmpty_iff]
    exact hne
  have hlen := length_readHexDigits_le false s
  rw [h] at hlen
  rw [hexNumeral, if_neg hdigits]
  dsimp only
  split
  · next hr =>
    simp only [h] at hr
    cases hr
  · next b t hr =>
    simp only [h] at hr ⊢
    cases hr
    rw [if_pos hm]
    cases he : readHexExponent r with
    | error e => simp
    | ok found =>
      obtain ⟨negative, written, rest', hrest⟩ := found
      simp only [Except.ok.injEq, Prod.mk.injEq, Subtype.mk.injEq]
      constructor
      · rintro ⟨-, hn, rfl⟩
        exact ⟨negative, written, ⟨hrest, rfl, rfl, rfl⟩, hn⟩
      · rintro ⟨_, _, ⟨hl, rfl, rfl, rfl⟩, hn⟩
        exact ⟨by simp at hlen; omega, hn, rfl⟩

end MobDebug.Literal
