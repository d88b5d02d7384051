import MobDebug.Proofs.Double.Rounding
import MobDebug.Double.Basic
import Mathlib.Algebra.Field.Rat
import Mathlib.Algebra.Order.Field.Power
import Mathlib.Algebra.Order.Ring.Abs
import Mathlib.Tactic.Positivity

/-!
The number that a double is, and which doubles are integers. Equality of doubles is equality of the
numbers that they are. The format has one form for every number but zero, and both zeros are the
integer zero.
-/
namespace MobDebug.Double

/-! ### The number that a double is -/

section Value
variable {x : Double} {f : Finite}

/-- The mantissa with its sign. -/
def Finite.signed (f : Finite) : Int :=
  if f.negative then -f.mantissa else f.mantissa

/-- The number itself, exactly. -/
def Finite.value (f : Finite) : ℚ :=
  f.signed * 2 ^ f.exponent

/-- A double is an integer without fractions on either side. -/
theorem Finite.value_eq_iff {i : Int} :
    f.value = i ↔ f.signed * 2 ^ f.exponent.toNat = i * 2 ^ (-f.exponent).toNat := by
  rw [Finite.value]
  rcases f.exponent.eq_nat_or_neg with ⟨k, hk | hk⟩ <;> rw [hk]
  · simp only [zpow_natCast, Int.toNat_natCast, Int.toNat_neg_natCast, pow_zero, mul_one]
    exact_mod_cast Iff.rfl
  · have hpos : (0 : ℚ) < 2 ^ k := by positivity
    simp only [zpow_neg, zpow_natCast, neg_neg, Int.toNat_natCast, Int.toNat_neg_natCast, pow_zero,
      mul_one]
    rw [← div_eq_mul_inv, div_eq_iff hpos.ne']
    exact_mod_cast Iff.rfl

/-- One of the two powers is one, so the one divides the mantissa if it divides the product. -/
theorem dvd_mul_pow_iff {m : Nat} {e : Int} :
    2 ^ (-e).toNat ∣ m * 2 ^ e.toNat ↔ 2 ^ (-e).toNat ∣ m := by
  rcases e.eq_nat_or_neg with ⟨k, rfl | rfl⟩ <;> simp

theorem toInt?_finite {i : Int} : toInt? (.finite f) = some i ↔ f.value = i := by
  obtain ⟨negative, m, e, hc⟩ := f
  have hpos : (0 : Int) < 2 ^ (-e).toNat := by positivity
  simp only [Finite.value_eq_iff, Finite.signed, toInt?, Nat.pow_eq]
  split
  · next hm =>
    obtain ⟨n, hn⟩ := dvd_mul_pow_iff.2 (Nat.dvd_of_mod_eq_zero hm)
    rw [hn, Nat.mul_div_cancel_left n (Nat.two_pow_pos _), Option.some.injEq,
      ← mul_left_inj' hpos.ne']
    have hn' : (m : Int) * 2 ^ e.toNat = n * 2 ^ (-e).toNat := by
      rw [mul_comm (n : Int)]
      exact_mod_cast hn
    cases negative <;> simp [hn']
  · next hm =>
    refine iff_of_false (by simp) fun h => hm (Nat.mod_eq_zero_of_dvd (dvd_mul_pow_iff.1 ?_))
    have hdvd : (2 ^ (-e).toNat : Int) ∣ m * 2 ^ e.toNat := by
      cases negative with
      | false => exact ⟨i, by simpa [mul_comm] using h⟩
      | true => exact ⟨-i, by simpa [mul_comm, neg_eq_iff_eq_neg] using h⟩
    exact_mod_cast hdvd

/-- The doubles that are an integer of 64 bits. -/
theorem toInt64?_eq_some_iff {i : Int64} :
    x.toInt64? = some i ↔ ∃ f, x = .finite f ∧ f.value = i.toInt := by
  constructor
  · intro h
    obtain ⟨z, hz, h⟩ := Option.bind_eq_some_iff.1 h
    split at h
    · next hr =>
      cases h
      cases x with
      | finite f =>
        refine ⟨f, rfl, ?_⟩
        rw [Int64.toInt_ofInt_of_le hr.1 (Int.lt_of_le_of_lt hr.2 (by decide))]
        exact toInt?_finite.1 hz
      | nan | infinite => cases hz
    · cases h
  · rintro ⟨f, rfl, hf⟩
    refine Option.bind_eq_some_iff.2 ⟨i.toInt, toInt?_finite.2 hf, ?_⟩
    rw [if_pos ⟨i.minValue_le_toInt, i.toInt_le⟩, Int64.ofInt_toInt]

/-- The doubles that are none. -/
theorem toInt64?_eq_none_iff :
    x.toInt64? = none ↔ ∀ f, x = .finite f → ∀ i : Int64, f.value ≠ i.toInt := by
  rw [Option.eq_none_iff_forall_ne_some]
  constructor
  · rintro h f rfl i hf
    exact h i (toInt64?_eq_some_iff.2 ⟨f, rfl, hf⟩)
  · intro h i hi
    obtain ⟨f, hx, hf⟩ := toInt64?_eq_some_iff.1 hi
    exact h f hx i hf

end Value

/-! ### Equality -/

variable {x y : Double} {f g : Finite}

theorem Finite.abs_value (f : Finite) : |f.value| = f.mantissa * 2 ^ f.exponent := by
  have hpow : (0 : ℚ) < 2 ^ f.exponent := by positivity
  have hsigned : |(f.signed : ℚ)| = f.mantissa := by
    rw [Finite.signed]
    split <;> simp
  rw [Finite.value, abs_mul, abs_of_pos hpow, hsigned]

theorem Finite.value_eq_zero_iff : f.value = 0 ↔ f.mantissa = 0 := by
  have hpow : (2 : ℚ) ^ f.exponent ≠ 0 := by positivity
  rw [← abs_eq_zero, f.abs_value, mul_eq_zero, or_iff_left hpow, Nat.cast_eq_zero]

theorem Finite.value_neg_iff : f.value < 0 ↔ f.negative = true ∧ f.mantissa ≠ 0 := by
  have hpow : (0 : ℚ) < 2 ^ f.exponent := by positivity
  have hsigned : f.value < 0 ↔ f.signed < 0 := by
    rw [Finite.value, ← zero_mul (2 ^ f.exponent : ℚ), mul_lt_mul_iff_left₀ hpow, Int.cast_lt_zero]
  rw [hsigned, Finite.signed]
  cases f.negative with
  | false => simp
  | true => simp [Nat.pos_iff_ne_zero]

/-- A power of two as the quotient of one power and one, whichever of both it is. -/
theorem two_zpow_eq (e : Int) : (2 : ℚ) ^ e = 2 ^ e.toNat / 2 ^ (-e).toNat := by
  rcases e.eq_nat_or_neg with ⟨k, rfl | rfl⟩ <;> simp

theorem finite_eq_zero (hf : f.mantissa = 0) : Double.finite f = zero f.negative := by
  obtain ⟨negative, m, e, hc⟩ := f
  obtain rfl : m = 0 := hf
  obtain rfl : e = -1074 := hc.2.2.2.resolve_left (by decide)
  rfl

/-- A double is what a quotient that is its absolute value is rounded to, with its sign. -/
theorem ofQuotient_value {n d : Nat} (hd : 0 < d) (h : (n : ℚ) = |f.value| * d) :
    ofQuotient f.negative n d = .finite f := by
  by_cases hf : f.mantissa = 0
  · have hn : n = 0 := by
      rw [Finite.value_eq_zero_iff.2 hf, abs_zero, zero_mul] at h
      exact_mod_cast h
    rw [hn, finite_eq_zero hf]
    rfl
  · rw [← ofScaled_finite f hf]
    refine ofQuotient_congr hd (Nat.two_pow_pos _) ?_
    rw [f.abs_value, two_zpow_eq] at h
    field_simp at h
    exact_mod_cast h

theorem ofScaled_value {m : Nat} {e : Int} (h : |f.value| = m * 2 ^ e) :
    ofScaled f.negative m e = .finite f := by
  refine ofQuotient_value (Nat.two_pow_pos _) ?_
  rw [h, two_zpow_eq, mul_div_assoc', Nat.pow_eq, Nat.pow_eq, Nat.cast_pow, Nat.cast_ofNat,
    div_mul_cancel₀ _ (by positivity)]
  push_cast
  rfl

/-- A number other than zero has one form: it is the nearest double to itself. -/
theorem Finite.eq_of_value (hf : f.mantissa ≠ 0) (h : f.value = g.value) : f = g := by
  have hg : g.mantissa ≠ 0 := by
    rw [Ne, ← value_eq_zero_iff, ← h, value_eq_zero_iff]
    exact hf
  have hsign : f.negative = g.negative := by
    have hneg : f.value < 0 ↔ g.value < 0 := by rw [h]
    rw [value_neg_iff, value_neg_iff, and_iff_left hf, and_iff_left hg] at hneg
    exact Bool.eq_iff_iff.2 hneg
  have hfinite : Double.finite f = .finite g := by
    rw [← ofScaled_finite f hf, hsign]
    exact ofScaled_value (by rw [← h, f.abs_value])
  exact Double.finite.inj hfinite

/-- What number a double is: an infinity with its sign, or a rational number. NaN is none. -/
def quantity? : Double → Option (Bool ⊕ ℚ)
  | .nan => none
  | .infinite negative => some (.inl negative)
  | .finite f => some (.inr f.value)

theorem quantity?_eq_none_iff : x.quantity? = none ↔ x = .nan := by
  cases x <;> simp [quantity?]

theorem toInt64?_eq_some_iff_quantity? {i : Int64} :
    x.toInt64? = some i ↔ x.quantity? = some (.inr i.toInt) := by
  rw [toInt64?_eq_some_iff]
  cases x <;> simp [quantity?]

theorem toInt64?_congr (h : x.quantity? = y.quantity?) : x.toInt64? = y.toInt64? := by
  ext i
  rw [toInt64?_eq_some_iff_quantity?, toInt64?_eq_some_iff_quantity?, h]

theorem toInt64?_zero (hf : f.mantissa = 0) : (Double.finite f).toInt64? = some 0 :=
  toInt64?_eq_some_iff.2 ⟨f, rfl, Finite.value_eq_zero_iff.2 hf⟩

/-- Beyond the integers of 64 bits a number has one form. -/
theorem eq_of_quantity? (hx : x.toInt64? = none) (h : x.quantity? = y.quantity?) : x = y := by
  cases x <;> cases y <;> simp only [quantity?, reduceCtorEq, Option.some.injEq, Sum.inl.injEq,
    Sum.inr.injEq] at h
  · rfl
  · rw [h]
  · next f g =>
    have hf : f.mantissa ≠ 0 := fun hf => by
      rw [toInt64?_zero hf] at hx
      cases hx
    rw [Finite.eq_of_value hf h]

theorem equal_finite : (Double.finite f).equal (.finite g) = true ↔ f.value = g.value := by
  simp only [equal, isZero, Bool.or_eq_true, Bool.and_eq_true, beq_iff_eq, finite.injEq]
  constructor
  · rintro (rfl | ⟨hf, hg⟩)
    · rfl
    · rw [Finite.value_eq_zero_iff.2 hf, Finite.value_eq_zero_iff.2 hg]
  · intro h
    by_cases hf : f.mantissa = 0
    · right
      refine ⟨hf, ?_⟩
      rw [← Finite.value_eq_zero_iff, ← h, Finite.value_eq_zero_iff]
      exact hf
    · exact .inl (Finite.eq_of_value hf h)

/-- Doubles are equal where they are the same number. -/
theorem equal_iff : x.equal y = true ↔ ∃ q, x.quantity? = some q ∧ y.quantity? = some q := by
  cases x with
  | nan => simp [equal, quantity?]
  | infinite a =>
    cases y with
    | infinite b => simpa [equal, isZero, quantity?] using eq_comm
    | nan | finite => simp [equal, isZero, quantity?]
  | finite f =>
    cases y with
    | finite g => simpa [equal_finite, quantity?] using eq_comm
    | nan | infinite => simp [equal, isZero, quantity?]

end MobDebug.Double
