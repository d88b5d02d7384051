import MobDebug.Proofs.Double.Equality

/-! Numbers of at most 53 bits and powers of two are doubles, and a product is exact where it is
one. -/
namespace MobDebug.Double

variable {m n : Nat} {e : Int} {f a b : Finite}

theorem Finite.value_eq_abs (hf : f.negative = false) : f.value = |f.value| := by
  have hnonneg : ¬ f.value < 0 := fun h => by
    rw [value_neg_iff, hf] at h
    exact Bool.false_ne_true h.1
  rw [abs_of_nonneg (not_lt.1 hnonneg)]

theorem Finite.abs_value_lt (f : Finite) : |f.value| < 2 ^ (1024 : Int) := by
  obtain ⟨hlt, -, hhigh, -⟩ := f.canonical
  have hm : (f.mantissa : ℚ) < 2 ^ (53 : Int) := by exact_mod_cast hlt
  calc |f.value| = f.mantissa * 2 ^ f.exponent := f.abs_value
    _ < 2 ^ (53 : Int) * 2 ^ f.exponent := by gcongr
    _ ≤ 2 ^ (53 : Int) * 2 ^ (971 : Int) := by gcongr; norm_num
    _ = 2 ^ (1024 : Int) := by rw [← zpow_add₀ (by norm_num)]; norm_num

theorem Finite.le_abs_value (hf : f.value ≠ 0) : 2 ^ (-1074 : Int) ≤ |f.value| := by
  have hm : (1 : ℚ) ≤ f.mantissa := by
    rw [Ne, value_eq_zero_iff] at hf
    exact_mod_cast Nat.one_le_iff_ne_zero.2 hf
  calc (2 : ℚ) ^ (-1074 : Int) ≤ 2 ^ f.exponent :=
        zpow_le_zpow_right₀ (by norm_num) f.canonical.2.1
    _ ≤ f.mantissa * 2 ^ f.exponent := le_mul_of_one_le_left (by positivity) hm
    _ = |f.value| := f.abs_value.symm

/-- A double that is a number other than zero times a power of two bounds the power. -/
theorem exponent_bounds {k : Nat} (hm : m ≠ 0) (hlt : m < 2 ^ k) (hv : |f.value| = m * 2 ^ e) :
    -1074 < k + e ∧ e < 1024 := by
  have hone : (1 : ℚ) ≤ m := by exact_mod_cast Nat.one_le_iff_ne_zero.2 hm
  have hk : (m : ℚ) < 2 ^ (k : Int) := by exact_mod_cast hlt
  have hf : f.value ≠ 0 := by
    rw [← abs_ne_zero, hv]
    positivity
  constructor
  · rw [← zpow_lt_zpow_iff_right₀ (one_lt_two : (1 : ℚ) < 2)]
    calc (2 : ℚ) ^ (-1074 : Int) ≤ m * 2 ^ e := hv ▸ f.le_abs_value hf
      _ < 2 ^ (k : Int) * 2 ^ e := by gcongr
      _ = 2 ^ (k + e) := (zpow_add₀ (by norm_num) _ _).symm
  · rw [← zpow_lt_zpow_iff_right₀ (one_lt_two : (1 : ℚ) < 2)]
    calc (2 : ℚ) ^ e ≤ m * 2 ^ e := le_mul_of_one_le_left (by positivity) hone
      _ = |f.value| := hv.symm
      _ < 2 ^ (1024 : Int) := f.abs_value_lt

/-- A number of at most 53 bits times a power of two is a double, unless the power is too low or the
product too high. -/
theorem exists_scaled (hm : m ≠ 0) (hlt : m < 2 ^ 53) (hlow : -1074 ≤ e)
    (hhigh : m.log2 + e ≤ 1023) : ∃ f : Finite, f.negative = false ∧ f.value = m * 2 ^ e := by
  have hlog : m.log2 < 53 := (Nat.log2_lt hm).2 hlt
  -- The bits of the mantissa move up as far as there is room above them and below the exponent.
  obtain ⟨k, hk⟩ : ∃ k : Nat, (k : Int) = e - max (-1074) (m.log2 + e - 52) :=
    ⟨(e - max (-1074) (m.log2 + e - 52)).toNat, by omega⟩
  have hmk : m * 2 ^ k ≠ 0 := Nat.mul_ne_zero hm (Nat.ne_of_gt (Nat.two_pow_pos k))
  have hmklog := log2_mul_pow hm k
  have hcanonical : Canonical (m * 2 ^ k) (e - k) := by
    refine ⟨(Nat.log2_lt hmk).1 (by omega), by omega, by omega, ?_⟩
    rcases le_or_gt (-1074) (m.log2 + e - 52) with h | h
    · exact .inl ((Nat.le_log2 hmk).1 (by omega))
    · exact .inr (by omega)
  refine ⟨⟨false, m * 2 ^ k, e - k, hcanonical⟩, rfl, ?_⟩
  rw [Finite.value, Finite.signed, if_neg Bool.false_ne_true]
  push_cast
  rw [mul_assoc, ← zpow_natCast, ← zpow_add₀ (by norm_num), add_sub_cancel]

theorem exists_natural (hn : n < 2 ^ 53) : ∃ f : Finite, f.negative = false ∧ f.value = n := by
  by_cases h0 : n = 0
  · subst h0
    exact ⟨⟨false, 0, -1074, by decide⟩, rfl, by rw [Finite.value_eq_zero_iff.2 rfl]; rfl⟩
  · have hlog := (Nat.log2_lt h0).2 hn
    obtain ⟨f, hf, hv⟩ := exists_scaled (e := 0) h0 hn (by omega) (by omega)
    exact ⟨f, hf, by rw [hv, zpow_zero, mul_one]⟩

theorem powTwo_finite (he : e.natAbs < 1024) :
    ∃ f : Finite, powTwo e = .finite f ∧ f.negative = false ∧ f.value = 2 ^ e := by
  obtain ⟨f, hf, hv⟩ := exists_scaled (m := 1) (e := e) (by omega) (by omega) (by omega) (by
    rw [show Nat.log2 1 = 0 by decide]
    omega)
  rw [Nat.cast_one, one_mul] at hv
  refine ⟨f, ?_, hf, hv⟩
  rw [powTwo, if_pos he, ← hf]
  apply ofScaled_value
  rw [← f.value_eq_abs hf, hv, Nat.cast_one, one_mul]

theorem powTwo_low (he : e ≤ -1024) : powTwo e = zero false := by
  rw [powTwo, if_neg (by omega), if_pos (by omega)]

theorem powTwo_high (he : 1024 ≤ e) : powTwo e = .infinite false := by
  rw [powTwo, if_neg (by omega), if_neg (by omega)]

/-- A product that is a double is not rounded. -/
theorem mul_exact (hs : f.negative = (a.negative ^^ b.negative))
    (hv : f.value = a.value * b.value) : mul (.finite a) (.finite b) = .finite f := by
  rw [mul, ← hs]
  apply ofScaled_value
  rw [hv, abs_mul, a.abs_value, b.abs_value, zpow_add₀ (by norm_num)]
  push_cast
  ring

theorem finite_mul_zero (hf : f.negative = false) :
    mul (.finite f) (zero false) = zero false := by
  have hz : Finite.value ⟨false, 0, -1074, by decide⟩ = 0 := Finite.value_eq_zero_iff.2 rfl
  exact mul_exact (by rw [hf]; rfl) (by rw [hz, mul_zero])

end MobDebug.Double
