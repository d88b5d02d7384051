import MobDebug.Proofs.Double.Shortest
import Mathlib.Data.List.TakeWhile

/-! Digits alone are read as the double nearest to their number, however many there are, and the
double nearest to an integer changes its sign with the integer. -/
namespace MobDebug.Double

variable {negative : Bool} {n k : Nat} {z : Int} {cs : List Char}

theorem negate_ofParts (negative : Bool) (m : Nat) (e : Int) :
    (ofParts negative m e).negate = ofParts (!negative) m e := by
  unfold ofParts
  split <;> rfl

theorem negate_ofQuotient (negative : Bool) (n d : Nat) :
    (ofQuotient negative n d).negate = ofQuotient (!negative) n d := by
  unfold ofQuotient
  dsimp only
  split
  · rfl
  · rw [apply_ite negate, negate_ofParts, negate_ofParts]

theorem ofInt_natCast (n : Nat) : ofInt n = ofQuotient false n 1 := by
  rw [ofInt, decide_eq_false (by omega), Int.natAbs_natCast]

theorem negate_ofInt (hz : z ≠ 0) : (ofInt z).negate = ofInt (-z) := by
  have hsign : (!decide (z < 0)) = decide (-z < 0) := by
    rw [← decide_not, decide_eq_decide]
    omega
  rw [ofInt, negate_ofQuotient, hsign, ofInt, Int.natAbs_neg]

theorem ofParts_high {m : Nat} {e : Int} (he : 972 ≤ e) :
    ofParts negative m e = .infinite negative := by
  rw [ofParts, dif_neg]
  rintro ⟨-, -, hhigh, -⟩
  omega

/-- No double is as large. -/
theorem ofQuotient_high (hk : 1024 ≤ k) (hn : 2 ^ k ≤ n) :
    ofQuotient negative n 1 = .infinite negative := by
  have hpos : n ≠ 0 := Nat.ne_of_gt (Nat.lt_of_lt_of_le (Nat.two_pow_pos k) hn)
  have hbits : k ≤ n.log2 := (Nat.le_log2 hpos).2 hn
  have hlog : floorLog2 n 1 = n.log2 := by
    simpa using floorLog2_scaled (e := 0) hpos
  simp only [ofQuotient, hpos, if_false, hlog]
  split <;> exact ofParts_high (by omega)

/-- What is infinite by its count of digits alone is infinite. -/
theorem ofDecimal_whole (negative : Bool) (n : Nat) :
    ofDecimal negative n 0 = ofQuotient negative n 1 := by
  by_cases hn : n = 0
  · rw [hn, ofDecimal_zero]
    rfl
  have hlen := Text.pow_length_toDigits_le (Nat.pos_of_ne_zero hn)
  rw [ofDecimal, if_neg hn]
  dsimp only
  split
  · next hlong =>
    obtain ⟨k, hk⟩ : ∃ k, k = 971 := ⟨_, rfl⟩
    have hpow : 2 ^ 53 * 2 ^ k < 10 ^ ((Nat.toDigits 10 n).length - 1) :=
      two_pow_lt_ten_pow (by omega) (by omega)
    rw [← Nat.pow_add] at hpow
    exact (ofQuotient_high (by omega) (Nat.le_of_lt (Nat.lt_of_lt_of_le hpow hlen))).symm
  · rw [if_neg (by omega)]
    simp

theorem read?_digits (negative : Bool) (h : ∀ c ∈ cs, c.isDigit) (hne : cs ≠ []) :
    read? negative cs = some (ofQuotient negative (Text.ofDigits cs) 1) := by
  have htake : cs.takeWhile Char.isDigit = cs := List.takeWhile_eq_self_iff.2 h
  have hdrop : cs.dropWhile Char.isDigit = [] := List.dropWhile_eq_nil_iff.2 h
  rw [← ofDecimal_whole]
  simp [read?, htake, hdrop, hne, readExponent?]

end MobDebug.Double
