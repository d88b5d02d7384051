import MobDebug.Double.Basic
import Mathlib.Algebra.Order.Field.Power
import Mathlib.Data.Int.Log
import Mathlib.Data.Rat.Floor
import Mathlib.Tactic.FieldSimp
import Mathlib.Tactic.Positivity

/-! The double nearest to a quotient depends on the quotient alone, and every double is the nearest
to its own value. -/
namespace MobDebug

variable {n m d k : Nat} {e : Int}

theorem roundQuotient_mul (hk : 0 < k) : roundQuotient (n * k) (d * k) = roundQuotient n d := by
  have hdiv : n * k / (d * k) = n / d := Nat.mul_div_mul_right n d hk
  have hmod : n * k % (d * k) = n % d * k := Nat.mul_mod_mul_right k n d
  have hlt : 2 * (n % d * k) < d * k ↔ 2 * (n % d) < d := by
    rw [← Nat.mul_assoc]
    exact Nat.mul_lt_mul_right hk
  have heq : 2 * (n % d * k) = d * k ↔ 2 * (n % d) = d := by
    rw [← Nat.mul_assoc]
    exact Nat.mul_left_inj (Nat.ne_of_gt hk)
  simp only [roundQuotient, hdiv, hmod, hlt, heq]

theorem roundQuotient_exact (hd : 0 < d) : roundQuotient (n * d) d = n := by
  simp [roundQuotient, Nat.mul_div_cancel n hd, hd]

/-- The comparison of a quotient with a power of two, without fractions. -/
theorem scaled_lt_iff (hd : 0 < d) :
    n * Nat.pow 2 (-e).toNat < d * Nat.pow 2 e.toNat ↔ (n / d : ℚ) < 2 ^ e := by
  have hd' : (0 : ℚ) < d := Nat.cast_pos.2 hd
  rw [div_lt_iff₀ hd', ← Nat.cast_lt (α := ℚ), Nat.cast_mul, Nat.cast_mul]
  rcases e.eq_nat_or_neg with ⟨k, rfl | rfl⟩
  · simp [mul_comm]
  · have hk : (0 : ℚ) < 2 ^ k := by positivity
    simp only [neg_neg, Int.toNat_natCast, Int.toNat_neg_natCast, zpow_neg, zpow_natCast,
      Nat.pow_eq, Nat.cast_pow, Nat.cast_ofNat, pow_zero, Nat.cast_one, mul_one]
    rw [inv_mul_eq_div, lt_div_iff₀ hk]

theorem floorLog2_eq_log (hn : 0 < n) (hd : 0 < d) : floorLog2 n d = Int.log 2 (n / d : ℚ) := by
  have hn' : (0 : ℚ) < n := Nat.cast_pos.2 hn
  have hd' : (0 : ℚ) < d := Nat.cast_pos.2 hd
  have hlog (e : Int) : (n / d : ℚ) < 2 ^ e ↔ Int.log 2 (n / d : ℚ) < e := by
    simpa using Int.lt_zpow_iff_log_lt Nat.one_lt_two (x := e) (div_pos hn' hd')
  have two : (2 : ℚ) ≠ 0 := by norm_num
  have hnlow : (2 : ℚ) ^ n.log2 ≤ n := by exact_mod_cast Nat.log2_self_le (Nat.ne_of_gt hn)
  have hnhigh : (n : ℚ) < 2 ^ (n.log2 + 1) := by exact_mod_cast Nat.lt_log2_self
  have hdlow : (2 : ℚ) ^ d.log2 ≤ d := by exact_mod_cast Nat.log2_self_le (Nat.ne_of_gt hd)
  have hdhigh : (d : ℚ) < 2 ^ (d.log2 + 1) := by exact_mod_cast Nat.lt_log2_self
  -- the difference of the logarithms is right, or one too much
  have hupper : Int.log 2 (n / d : ℚ) < (n.log2 : Int) - d.log2 + 1 := by
    rw [← hlog, div_lt_iff₀ hd']
    calc (n : ℚ) < 2 ^ (n.log2 + 1) := hnhigh
      _ = 2 ^ ((n.log2 : Int) - d.log2 + 1) * 2 ^ d.log2 := by
        rw [← zpow_natCast, ← zpow_natCast, ← zpow_add₀ two]
        congr 1
        push_cast
        omega
      _ ≤ 2 ^ ((n.log2 : Int) - d.log2 + 1) * d := by gcongr
  have hlower : ¬ Int.log 2 (n / d : ℚ) < (n.log2 : Int) - d.log2 - 1 := by
    rw [← hlog, not_lt, le_div_iff₀ hd']
    calc (2 : ℚ) ^ ((n.log2 : Int) - d.log2 - 1) * d
        ≤ 2 ^ ((n.log2 : Int) - d.log2 - 1) * 2 ^ (d.log2 + 1) := by gcongr
      _ = 2 ^ n.log2 := by
        rw [← zpow_natCast, ← zpow_natCast, ← zpow_add₀ two]
        congr 1
        push_cast
        omega
      _ ≤ n := hnlow
  unfold floorLog2
  simp only [scaled_lt_iff hd, hlog]
  split <;> omega

theorem floorLog2_mul (hn : 0 < n) (hd : 0 < d) (hk : 0 < k) :
    floorLog2 (n * k) (d * k) = floorLog2 n d := by
  have hk' : (k : ℚ) ≠ 0 := Nat.cast_ne_zero.2 (Nat.ne_of_gt hk)
  rw [floorLog2_eq_log (Nat.mul_pos hn hk) (Nat.mul_pos hd hk), floorLog2_eq_log hn hd,
    Nat.cast_mul, Nat.cast_mul, mul_div_mul_right _ _ hk']

theorem log2_mul_pow (hm : m ≠ 0) (k : Nat) : (m * 2 ^ k).log2 = m.log2 + k := by
  rw [Nat.log2_eq_iff (Nat.mul_ne_zero hm (Nat.ne_of_gt (Nat.two_pow_pos k)))]
  constructor
  · rw [Nat.pow_add]
    exact Nat.mul_le_mul_right _ (Nat.log2_self_le hm)
  · rw [Nat.add_right_comm, Nat.pow_add _ (m.log2 + 1)]
    exact Nat.mul_lt_mul_of_pos_right Nat.lt_log2_self (Nat.two_pow_pos k)

/-- The logarithm of `m · 2 ^ e`. -/
theorem floorLog2_scaled (hm : m ≠ 0) :
    floorLog2 (m * Nat.pow 2 e.toNat) (Nat.pow 2 (-e).toNat) = m.log2 + e := by
  have hlog : (((m * 2 ^ e.toNat).log2 : Nat) : Int) - ((2 ^ (-e).toNat).log2 : Nat) =
      m.log2 + e := by
    rw [log2_mul_pow hm, Nat.log2_two_pow]
    omega
  simp only [floorLog2, Nat.pow_eq, hlog]
  rw [if_neg]
  rw [Nat.not_lt]
  calc 2 ^ (-e).toNat * 2 ^ ((m.log2 : Int) + e).toNat
      = 2 ^ m.log2 * 2 ^ e.toNat * 2 ^ (-((m.log2 : Int) + e)).toNat := by
        rw [← Nat.pow_add, ← Nat.pow_add, ← Nat.pow_add]
        congr 1
        omega
    _ ≤ m * 2 ^ e.toNat * 2 ^ (-((m.log2 : Int) + e)).toNat :=
        Nat.mul_le_mul_right _ (Nat.mul_le_mul_right _ (Nat.log2_self_le hm))

namespace Double
variable {negative : Bool}

theorem ofQuotient_mul (hd : 0 < d) (hk : 0 < k) :
    ofQuotient negative (n * k) (d * k) = ofQuotient negative n d := by
  by_cases hn : n = 0
  · simp [ofQuotient, hn]
  · have hlog := floorLog2_mul (Nat.pos_of_ne_zero hn) hd hk
    have hscale (a b : Nat) :
        roundQuotient (n * k * a) (d * k * b) = roundQuotient (n * a) (d * b) := by
      rw [Nat.mul_right_comm n, Nat.mul_right_comm d, roundQuotient_mul hk]
    have hnk : n * k ≠ 0 := Nat.mul_ne_zero hn (Nat.ne_of_gt hk)
    simp only [ofQuotient, hn, hnk, if_false, hlog, hscale]

/-- Equal quotients have the same nearest double. -/
theorem ofQuotient_congr {n' d' : Nat} (hd : 0 < d) (hd' : 0 < d') (h : n * d' = n' * d) :
    ofQuotient negative n d = ofQuotient negative n' d' := by
  rw [← ofQuotient_mul hd hd', ← ofQuotient_mul hd' hd, h, Nat.mul_comm d d']

/-- Canonical parts are those that rounding chooses. -/
theorem Canonical.exponent_eq (hc : Canonical m e) (hm : m ≠ 0) :
    max (-1074) ((m.log2 : Int) + e - 52) = e := by
  obtain ⟨hlt, hlow, -, hnormal⟩ := hc
  have hhigh : m.log2 < 53 := (Nat.log2_lt hm).2 hlt
  rcases hnormal with h52 | he
  · have : 52 ≤ m.log2 := (Nat.le_log2 hm).2 h52
    omega
  · omega

/-- A double is the nearest to its own value. -/
theorem ofScaled_finite (f : Finite) (hm : f.mantissa ≠ 0) :
    ofScaled f.negative f.mantissa f.exponent = .finite f := by
  obtain ⟨negative, m, e, hc⟩ := f
  have hpos : 0 < Nat.pow 2 (-e).toNat * Nat.pow 2 e.toNat :=
    Nat.mul_pos (Nat.two_pow_pos _) (Nat.two_pow_pos _)
  have hn : m * Nat.pow 2 e.toNat ≠ 0 := Nat.mul_ne_zero hm (Nat.ne_of_gt (Nat.two_pow_pos _))
  have hround : roundQuotient (m * Nat.pow 2 e.toNat * Nat.pow 2 (-e).toNat)
      (Nat.pow 2 (-e).toNat * Nat.pow 2 e.toNat) = m := by
    rw [Nat.mul_assoc, Nat.mul_comm (Nat.pow 2 e.toNat), roundQuotient_exact hpos]
  simp only [ofScaled, ofQuotient, hn, if_false, floorLog2_scaled hm, hc.exponent_eq hm, hround]
  rw [if_neg (Nat.ne_of_lt hc.1), ofParts, dif_pos hc]

end Double
end MobDebug
