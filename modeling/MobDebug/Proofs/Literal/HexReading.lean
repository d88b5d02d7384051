import MobDebug.Proofs.Literal.HexFloat

/-! Hexadecimal floats as texts, with and without a minus. -/
namespace MobDebug.Literal

open Double (Finite)

variable {b x mark : UInt8} {limit fraction : Nat} {written : Int} {negative : Bool}
  {ds : List Nat} {r s t sign : List UInt8} {text : String} {e : Failure} {y : Double}
  {f : Finite} {table : Parser Value}

/-- A hexadecimal numeral with a point or an exponent: its digits, how many of them follow the
point, and the exponent as it is written, however large. -/
inductive HexReal : List UInt8 → List Nat → Nat → Int → Prop
  | pointed {x : UInt8} {s : List UInt8} {ds : List Nat} {fraction : Nat}
      (hx : x = ascii 'x' ∨ x = ascii 'X') (h : HexMantissa s ds (some fraction)) :
      HexReal (ascii '0' :: x :: s) ds fraction 0
  | scaled {x mark : UInt8} {s sign es : List UInt8} {ds : List Nat} {fraction : Option Nat}
      {negative : Bool} (hx : x = ascii 'x' ∨ x = ascii 'X') (h : HexMantissa s ds fraction)
      (hm : mark = ascii 'p' ∨ mark = ascii 'P')
      (hs : negative = false ∧ (sign = [] ∨ sign = [ascii '+']) ∨
        negative = true ∧ sign = [ascii '-'])
      (hne : es ≠ []) (hd : ∀ b ∈ es, isDigit b) :
      HexReal (ascii '0' :: x :: (s ++ mark :: (sign ++ es))) ds (fraction.getD 0)
        (signedExponent negative (Text.ofDigits (es.map byteChar)))

theorem natAbs_signedExponent (negative : Bool) (n : Nat) :
    (signedExponent negative n).natAbs = n := by
  cases negative <;> simp [signedExponent]

theorem HexMantissa.lt {fraction : Option Nat} (h : HexMantissa s ds fraction) :
    ∀ d ∈ ds, d < 16 := by
  cases h with
  | whole h _ => exact HexRun.lt h
  | pointed h h' _ => exact List.forall_mem_append.2 ⟨HexRun.lt h, HexRun.lt h'⟩

theorem HexMantissa.fraction_le {fraction : Option Nat} (h : HexMantissa s ds fraction) :
    fraction.getD 0 ≤ ds.length := by
  cases h <;> simp

theorem HexReal.lt (h : HexReal s ds fraction written) : ∀ d ∈ ds, d < 16 := by
  cases h with
  | pointed _ h => exact h.lt
  | scaled _ h => exact h.lt

theorem HexReal.fraction_le (h : HexReal s ds fraction written) : fraction ≤ ds.length := by
  cases h with
  | pointed _ h => exact h.fraction_le
  | scaled _ h => exact h.fraction_le

theorem HexReal.marked (h : HexReal s ds fraction written) :
    ∃ x t, s = ascii '0' :: x :: t ∧ (x = ascii 'x' ∨ x = ascii 'X') := by
  cases h with
  | pointed hx => exact ⟨_, _, rfl, hx⟩
  | scaled hx => exact ⟨_, _, rfl, hx⟩

theorem hexMark_ne (hx : x = ascii 'x' ∨ x = ascii 'X') : x ≠ ascii '/' := by
  rcases hx with rfl | rfl <;> decide

theorem HexReal.start (h : HexReal s ds fraction written) :
    ∃ x t, s = ascii '0' :: x :: t ∧ x ≠ ascii '/' := by
  obtain ⟨x, t, hs, hx⟩ := h.marked
  exact ⟨x, t, hs, hexMark_ne hx⟩

/-- Within 64 bits, a numeral with such an exponent is one of the grammar. -/
theorem HexReal.toNumeral (h : HexReal s ds fraction written) (hw : written.natAbs < 2 ^ 63) :
    Numeral s (.float (hexFloat ds (Int64.ofInt (written - 4 * fraction)))) := by
  cases h with
  | pointed hx h =>
    have hnum := Numeral.hexPointed hx h
    rwa [hexExponent_eq] at hnum
  | scaled hx h hm hs hne hd =>
    rw [natAbs_signedExponent] at hw
    have hnum := Numeral.hexScaled hx h (HexPower.mk hm hs hne hd hw)
    rwa [hexExponent_eq] at hnum

/-- The text is read as a double, and behind a minus as the double with the other sign. -/
def ReadAs (limit : Nat) (text : String) (y : Double) : Prop :=
  read limit text = .ok (.number (.float y)) ∧
    read limit ("-" ++ text) = .ok (.number (.float y.negate))

/-- A numeral is read as its number, and behind a minus as the number with the other sign. -/
theorem Numeral.read_signed {n : Number} (h : Numeral (Text.bytes text) n) (limit : Nat) :
    read limit text = .ok (.number n) ∧ read limit ("-" ++ text) = .ok (.number n.negate) := by
  refine ⟨read_derives rfl (Lit.number (.numeral h)), ?_⟩
  refine read_derives ?_ (Lit.negative (g := []) .none (by simp) (.numeral h))
  rw [Text.bytes_append]
  rfl

theorem Numeral.readAs (h : Numeral (Text.bytes text) (.float y)) (limit : Nat) :
    ReadAs limit text y :=
  h.read_signed limit

/-! ### Exponents out of range -/

theorem readHexExponent_huge (hs : Signed negative sign r)
    (hlt : Nat.pow 2 63 ≤ Text.ofDigits ((r.takeWhile isDigit).map byteChar)) :
    readHexExponent (sign ++ r) = failAt .hexExponent (r.dropWhile isDigit) := by
  have hc : (((r.takeWhile isDigit).map byteChar).isEmpty ||
      Nat.pow 2 63 ≤ Text.ofDigits ((r.takeWhile isDigit).map byteChar)) = true := by
    rw [decide_eq_true hlt, Bool.or_true]
  rcases hs with ⟨rfl, ⟨rfl, hr⟩ | rfl⟩ | ⟨rfl, rfl⟩
  · rcases r with - | ⟨b, r⟩
    · exact absurd hlt (by decide)
    · obtain ⟨hminus, hplus⟩ := hr b rfl
      rw [List.nil_append, readHexExponent]
      simp only [hminus, hplus, if_false]
      exact if_pos hc
  · exact if_pos hc
  · exact if_pos hc

theorem hexNumeral_refused {pointed : Bool} (start : List UInt8)
    (h : readHexDigits false s = ⟨ds, fraction, pointed, mark :: r⟩) (hne : ds ≠ [])
    (hm : mark = ascii 'p' ∨ mark = ascii 'P') (he : readHexExponent r = .error e) :
    hexNumeral start s = .error e := by
  have hdigits : ¬ (readHexDigits false s).digits.isEmpty = true := by
    rw [h, List.isEmpty_iff]
    exact hne
  rw [hexNumeral, if_neg hdigits]
  dsimp only
  split
  · next hr =>
    simp only [h] at hr
    cases hr
  · next b t hr =>
    simp only [h] at hr ⊢
    cases hr
    simp only [if_pos hm, he]

theorem numeral_refused (hx : x = ascii 'x' ∨ x = ascii 'X')
    (he : hexNumeral (ascii '0' :: x :: t) t = .error e) :
    numeral (ascii '0') (x :: t) = .error e := by
  unfold numeral
  dsimp only
  rw [if_pos ⟨rfl, hx⟩, he]
  rfl

/-- An exponent that 64 bits have no room for is refused behind its digits. -/
theorem HexReal.refused (h : HexReal (b :: s) ds fraction written) (hw : 2 ^ 63 ≤ written.natAbs) :
    numeral b s = failAt .hexExponent [] := by
  cases h with
  | pointed => simp at hw
  | @scaled x mark s sign es ds fraction negative hx h hm hsign hne hd =>
    rw [natAbs_signedExponent] at hw
    have hmark : ∀ b ∈ (mark :: (sign ++ es)).head?, hexDigit? b = none ∧ b ≠ ascii '.' := by
      rintro _ ⟨⟩
      rcases hm with rfl | rfl <;> decide
    have hsigned := signed_digits hsign hne hd []
    rw [List.append_nil] at hsigned
    have htake : es.takeWhile isDigit = es := List.takeWhile_eq_self_iff.2 hd
    have hdrop : es.dropWhile isDigit = [] := List.dropWhile_eq_nil_iff.2 hd
    have hexponent := readHexExponent_huge hsigned (by rw [htake]; exact hw)
    rw [hdrop] at hexponent
    exact numeral_refused hx (hexNumeral_refused _ (h.reads hmark) h.ne_nil hm hexponent)

theorem literalAfterTrivia_refused (hn : startsNumeral (b :: s))
    (hslash : ∀ c ∈ s.head?, c ≠ ascii '/') (he : numeral b s = .error e) :
    literalAfterTrivia table (b :: s) = .error e := by
  obtain ⟨_, hskip⟩ := skips_solid (solid_of_numeral hn)
  simp only [literalAfterTrivia, hskip, literal_of_numeral hn hslash, he]
  rfl

theorem literalAfterTrivia_minus_refused (hn : startsNumeral (b :: s))
    (he : numeral b s = .error e) :
    literalAfterTrivia table (ascii '-' :: b :: s) = .error e := by
  have hb : b ≠ ascii '-' := startsNumeral_ne hn rfl (by decide)
  obtain ⟨_, hskip⟩ := skips_solid (solid_minus (s := s) hb)
  obtain ⟨_, hbehind⟩ := skips_solid (solid_of_numeral hn)
  have hname : name? (b :: s) = none := by
    simp [name?, startsName_of_numeral hn]
  have hnegated : negated (b :: s) = .error e := by
    simp only [negated, bind, Except.bind, hbehind, hname, Option.map_none, reduceCtorEq, if_false,
      hn, if_true, he]
    rfl
  have hliteral : literal table (ascii '-') (b :: s) =
      (negated (b :: s)).map fun p => p.behind (ascii '-') := rfl
  simp only [literalAfterTrivia, hskip, hliteral, hnegated]
  rfl

theorem read_refused (h : value limit limit (Text.bytes text) = .error e) :
    read limit text = .error ⟨e.fault, (Text.bytes text).length - e.left⟩ := by
  rw [read, h]
  rfl

/-- Where no numeral can be read, the text is refused for that, and so is the text behind a minus. -/
theorem numeral_read_refused (hs : Text.bytes text = b :: s) (hn : startsNumeral (b :: s))
    (hslash : ∀ c ∈ s.head?, c ≠ ascii '/') (he : numeral b s = .error e) (limit : Nat) :
    ∀ t ∈ [text, "-" ++ text],
      read limit t = .error ⟨e.fault, (Text.bytes t).length - e.left⟩ := by
  intro t ht
  rcases List.mem_pair.1 ht with rfl | rfl
  · apply read_refused
    rw [value_eq, hs]
    exact literalAfterTrivia_refused hn hslash he
  · apply read_refused
    rw [value_eq, Text.bytes_append, hs]
    exact literalAfterTrivia_minus_refused hn he

/-- The text and the text behind a minus are refused at their ends. -/
theorem HexReal.read_refused (h : HexReal (Text.bytes text) ds fraction written)
    (hw : 2 ^ 63 ≤ written.natAbs) (limit : Nat) : ∀ t ∈ [text, "-" ++ text],
      read limit t = .error ⟨.hexExponent, (Text.bytes t).length⟩ := by
  obtain ⟨x, u, hs, hx⟩ := h.start
  have hslash : ∀ c ∈ (x :: u).head?, c ≠ ascii '/' := by
    rintro _ ⟨⟩
    exact hx
  rw [hs] at h
  exact numeral_read_refused hs (startsNumeral_of_isDigit rfl) hslash (h.refused hw) limit

/-! ### What is read -/

/-- The written exponent of a double is within 64 bits, but for a zero. -/
theorem HexReal.natAbs_lt (h : HexReal s ds fraction written) (hl : ds.length ≤ 13)
    (hf : f.negative = false) (hv : f.value = hexNumber ds * 2 ^ (written - 4 * fraction))
    (hr : hexNumber ds = 0 → Reaches ds fraction written) : written.natAbs < 2 ^ 63 := by
  have hk := h.fraction_le
  have hmin := toInt_minValue
  by_cases h0 : hexNumber ds = 0
  · have hr := hr h0
    rw [Reaches, if_pos h0] at hr
    omega
  · obtain ⟨hlow, hhigh⟩ := Double.exponent_bounds h0 (hexNumber_bits h.lt hl)
      (by rw [← hv, ← f.value_eq_abs hf])
    omega

theorem ReadAs.unique {z : Double} (hy : ReadAs limit text y) (hz : ReadAs limit text z) :
    y = z := by
  have he := hy.1.symm.trans hz.1
  simpa using he

/-- What a hexadecimal float of at most thirteen digits is read as, where `f` is the number that it
is. It is read as that number just if it reaches it. Else a number other than zero is read as zero,
a zero is read as NaN, and an exponent that 64 bits have no room for is refused. -/
theorem hexReal_read (h : HexReal (Text.bytes text) ds fraction written) (hl : ds.length ≤ 13)
    (hf : f.negative = false) (hv : f.value = hexNumber ds * 2 ^ (written - 4 * fraction))
    (limit : Nat) :
    (ReadAs limit text (.finite f) ↔ Reaches ds fraction written) ∧
    (¬ Reaches ds fraction written →
      (hexNumber ds ≠ 0 → ReadAs limit text (.zero false)) ∧
      (hexNumber ds = 0 → written.natAbs < 2 ^ 63 → ReadAs limit text .nan) ∧
      (2 ^ 63 ≤ written.natAbs → ∀ t ∈ [text, "-" ++ text],
        read limit t = .error ⟨.hexExponent, (Text.bytes t).length⟩)) := by
  have houtcome (hw : written.natAbs < 2 ^ 63) :=
    hexFloat_eq h.lt hl h.fraction_le hw hf hv
  have hread {y : Double} (hw : written.natAbs < 2 ^ 63)
      (hy : hexFloat ds (Int64.ofInt (written - 4 * fraction)) = y) : ReadAs limit text y :=
    (hy ▸ h.toNumeral hw).readAs limit
  have hvanish (hr : ¬ Reaches ds fraction written) (h0 : hexNumber ds ≠ 0) :
      ReadAs limit text (.zero false) := by
    have hw := h.natAbs_lt hl hf hv fun he => absurd he h0
    exact hread hw ((houtcome hw).2.1 hr h0)
  have hnan (hr : ¬ Reaches ds fraction written) (h0 : hexNumber ds = 0)
      (hw : written.natAbs < 2 ^ 63) : ReadAs limit text .nan :=
    hread hw ((houtcome hw).2.2 hr h0)
  refine ⟨⟨fun hy => ?_, fun hr => ?_⟩, fun hr => ⟨hvanish hr, hnan hr, fun hw =>
    h.read_refused hw limit⟩⟩
  · by_contra hr
    by_cases h0 : hexNumber ds = 0
    · by_cases hw : written.natAbs < 2 ^ 63
      · exact absurd (hy.unique (hnan hr h0 hw)) nofun
      · have hrefused := h.read_refused (Nat.not_lt.1 hw) limit text List.mem_cons_self
        exact absurd (hy.1.symm.trans hrefused) nofun
    · have hzero := Double.finite.inj (hy.unique (hvanish hr h0))
      have hvalue : f.value = 0 := Finite.value_eq_zero_iff.2 (by rw [hzero])
      have hpow : (2 : ℚ) ^ (written - 4 * fraction) ≠ 0 := by positivity
      rw [hvalue, zero_eq_mul, or_iff_left hpow, Nat.cast_eq_zero] at hv
      exact h0 hv
  · have hw := h.natAbs_lt hl hf hv fun _ => hr
    exact hread hw ((houtcome hw).1 hr)

/-- The least power that is not taken for zero, and the least that is infinite. -/
theorem hexReal_read_least :
    (∃ f : Finite, f.value = 2 ^ (-1023 : Int) ∧ ReadAs 0 "0x1p-1023" (.finite f)) ∧
    ReadAs 0 "0x0p1024" .nan := by
  have hone : HexReal (Text.bytes "0x1p-1023") [1] 0 (-1023) :=
    .scaled (.inl rfl) (.whole (.cons rfl .nil) nofun) (.inl rfl) (.inr ⟨rfl, rfl⟩) nofun
      (List.all_eq_true.1 rfl)
  have hzero : HexReal (Text.bytes "0x0p1024") [0] 0 1024 :=
    .scaled (.inl rfl) (.whole (.cons rfl .nil) nofun) (.inl rfl) (.inl ⟨rfl, .inl rfl⟩) nofun
      (List.all_eq_true.1 rfl)
  constructor
  · obtain ⟨f, -, hf, hv⟩ := Double.powTwo_finite (e := -1023) (by decide)
    have hvalue : f.value = hexNumber [1] * 2 ^ ((-1023 : Int) - 4 * (0 : Nat)) := by
      rw [hv]
      norm_num [hexNumber]
    exact ⟨f, hv, (hexReal_read hone (by decide) hf hvalue 0).1.2 (by decide)⟩
  · obtain ⟨f, hf, hv⟩ := Double.exists_natural (n := 0) (by decide)
    have hvalue : f.value = hexNumber [0] * 2 ^ ((1024 : Int) - 4 * (0 : Nat)) := by
      rw [hv]
      norm_num [hexNumber]
    exact ((hexReal_read hzero (by decide) hf hvalue 0).2 (by decide)).2.1 rfl (by decide)

/-- A double that is read as zero, since the power of two is taken for zero. -/
theorem hexReal_vanishes : HexReal (Text.bytes "0x1.8p-1022") [1, 8] 1 (-1022) ∧
    ∃ f : Finite, f.negative = false ∧
      f.value = hexNumber [1, 8] * 2 ^ ((-1022 : Int) - 4 * (1 : Nat)) ∧
      Double.finite f ≠ .zero false ∧
      read defaultLimit "0x1.8p-1022" = .ok (.number (.float (.zero false))) := by
  have hreal : HexReal (Text.bytes "0x1.8p-1022") [1, 8] 1 (-1022) :=
    .scaled (.inl rfl) (.pointed (.cons rfl .nil) (.cons rfl .nil) nofun) (.inl rfl)
      (.inr ⟨rfl, rfl⟩) nofun (List.all_eq_true.1 rfl)
  obtain ⟨f, hf, hv⟩ := Double.exists_scaled (m := 24) (e := -1026) (by decide) (by decide)
    (by decide) (by decide)
  have hzero : hexFloat [1, 8] (Int64.ofInt (-1022 - 4 * (1 : Nat))) = .zero false :=
    hexFloat_low hreal.lt (by decide) (by decide)
  refine ⟨hreal, f, hf, by rw [hv]; norm_num [hexNumber], fun he => ?_, ?_⟩
  · have hvalue : f.value = 0 := Finite.value_eq_zero_iff.2 (by rw [Double.finite.inj he])
    rw [hv] at hvalue
    exact absurd hvalue (by positivity)
  · exact (Numeral.readAs (hzero ▸ hreal.toNumeral (by decide)) defaultLimit).1

end MobDebug.Literal
