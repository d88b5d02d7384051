import MobDebug.Proofs.Double.Decimal
import Mathlib.Tactic.Ring

/-! The shortest text of a double reads back as the double. -/
namespace MobDebug.Double

variable {tie : Tie} {x : Double} {n d c : Nat} {p : Int}

theorem onGrid_reads (h : onGrid tie x n d p = some c) : ofDecimal false c p = x := by
  unfold onGrid at h
  dsimp only at h
  split_ifs at h <;> cases h <;> simp_all

/-- Zeros moved into the exponent. -/
theorem stripZeros_eq (fuel c : Nat) (p : Int) :
    ∃ k : Nat, c = (stripZeros fuel c p).1 * 10 ^ k ∧ p = (stripZeros fuel c p).2 - k := by
  induction fuel generalizing c p with
  | zero => exact ⟨0, by simp [stripZeros]⟩
  | succ fuel ih =>
    unfold stripZeros
    split
    · next hc =>
      obtain ⟨k, hk, hp⟩ := ih (c / 10) (p + 1)
      refine ⟨k + 1, ?_, ?_⟩
      · rw [Nat.pow_succ, ← Nat.mul_assoc, ← hk]
        omega
      · push_cast
        omega
    · exact ⟨0, by simp⟩

theorem ofDecimal_stripZeros (negative : Bool) (fuel c : Nat) (p : Int) :
    ofDecimal negative (stripZeros fuel c p).1 (stripZeros fuel c p).2 =
      ofDecimal negative c p := by
  obtain ⟨k, hc, hp⟩ := stripZeros_eq fuel c p
  generalize stripZeros fuel c p = stripped at hc hp ⊢
  rw [hc, hp, ofDecimal_mul_pow]

-- The exponents are variables here: as literals they would be too large to compute with.
theorem two_pow_lt_ten_pow {k l : Nat} (hk : 53 + k ≤ 1024) (hl : 309 ≤ l) :
    2 ^ 53 * 2 ^ k < 10 ^ l := by
  obtain ⟨i, hi⟩ : ∃ i, i = 8 := ⟨_, rfl⟩
  obtain ⟨j, hj⟩ : ∃ j, j = 3 := ⟨_, rfl⟩
  calc 2 ^ 53 * 2 ^ k = 2 ^ (53 + k) := (Nat.pow_add _ _ _).symm
    _ ≤ 2 ^ (128 * i) := Nat.pow_le_pow_right (by decide) (by omega)
    _ = (2 ^ 128) ^ i := Nat.pow_mul _ _ _
    _ < (10 ^ 103) ^ j := by
      rw [hi, hj]
      norm_num
    _ = 10 ^ (103 * j) := (Nat.pow_mul _ _ _).symm
    _ ≤ 10 ^ l := Nat.pow_le_pow_right (by decide) (by omega)

theorem two_pow_le_five_pow {k l : Nat} (hk : k ≤ 744) (hl : 330 ≤ l) : 2 ^ k ≤ 5 ^ l := by
  obtain ⟨i, hi⟩ : ∃ i, i = 3 := ⟨_, rfl⟩
  calc 2 ^ k ≤ 2 ^ (248 * i) := Nat.pow_le_pow_right (by decide) (by omega)
    _ = (2 ^ 248) ^ i := Nat.pow_mul _ _ _
    _ ≤ (5 ^ 110) ^ i := Nat.pow_le_pow_left (by norm_num) _
    _ = 5 ^ (110 * i) := (Nat.pow_mul _ _ _).symm
    _ ≤ 5 ^ l := Nat.pow_le_pow_right (by decide) (by omega)

/-- The exact decimal text of a double is neither too long nor too far behind the point. -/
theorem exact_magnitude {m : Nat} {e : Int} (hc : Canonical m e) (hm : m ≠ 0) :
    let digits := (Nat.toDigits 10 (m * 5 ^ (-e).toNat * 2 ^ e.toNat)).length
    digits + min e 0 ≤ 310 ∧ -330 ≤ digits + min e 0 := by
  obtain ⟨hlt, hlow, hhigh, -⟩ := hc
  rw [Nat.pow_eq] at hlt
  have hpos : 0 < m * 5 ^ (-e).toNat * 2 ^ e.toNat := by positivity
  have hle := Text.pow_length_toDigits_le hpos
  have hgt := Text.lt_pow_length_toDigits (m * 5 ^ (-e).toNat * 2 ^ e.toNat)
  generalize (Nat.toDigits 10 (m * 5 ^ (-e).toNat * 2 ^ e.toNat)).length = digits at hle hgt
  by_cases he : 0 ≤ e
  · have hk : (-e).toNat = 0 := by omega
    rw [hk, Nat.pow_zero, Nat.mul_one] at hle
    -- the largest number has 309 digits; a variable keeps the power from being computed
    obtain ⟨l, hl⟩ : ∃ l, l = 309 := ⟨_, rfl⟩
    have hmax : 10 ^ (digits - 1) < 10 ^ l := by
      calc 10 ^ (digits - 1) ≤ m * 2 ^ e.toNat := hle
        _ ≤ 2 ^ 53 * 2 ^ e.toNat := Nat.mul_le_mul_right _ (Nat.le_of_lt hlt)
        _ < 10 ^ l := two_pow_lt_ten_pow (by omega) (by omega)
    have := (Nat.pow_lt_pow_iff_right (by decide)).1 hmax
    omega
  · have hk : e.toNat = 0 := by omega
    rw [hk, Nat.pow_zero, Nat.mul_one] at hle hgt
    generalize hk' : (-e).toNat = k at hle hgt
    have hmax : 10 ^ (digits - 1) < 10 ^ (16 + k) := by
      calc 10 ^ (digits - 1) ≤ m * 5 ^ k := hle
        _ < 10 ^ 16 * 5 ^ k :=
          Nat.mul_lt_mul_of_pos_right (Nat.lt_trans hlt (by norm_num)) (Nat.pow_pos (by decide))
        _ ≤ 10 ^ 16 * 10 ^ k := Nat.mul_le_mul_left _ (Nat.pow_le_pow_left (by decide) _)
        _ = 10 ^ (16 + k) := (Nat.pow_add _ _ _).symm
    have hupper := (Nat.pow_lt_pow_iff_right (by decide)).1 hmax
    refine ⟨by omega, ?_⟩
    by_contra hfew
    -- so few digits are fewer than the powers of five alone have
    obtain ⟨j, hj⟩ : ∃ j, k = 331 + j := ⟨k - 331, by omega⟩
    have habove : 10 ^ digits ≤ 10 ^ j := Nat.pow_le_pow_right (by decide) (by omega)
    have hbelow : 10 ^ j ≤ m * 5 ^ k := by
      calc 10 ^ j = 2 ^ j * 5 ^ j := by rw [← Nat.mul_pow]
        _ ≤ 5 ^ (k - j) * 5 ^ j :=
          Nat.mul_le_mul_right _ (two_pow_le_five_pow (by omega) (by omega))
        _ = 5 ^ k := by rw [← Nat.pow_add, Nat.sub_add_cancel (by omega)]
        _ ≤ m * 5 ^ k := Nat.le_mul_of_pos_left _ (Nat.pos_of_ne_zero hm)
    omega

/-- The exact text is for the double. -/
theorem ofDecimal_exact (f : Finite) (hm : f.mantissa ≠ 0) :
    ofDecimal false (f.mantissa * Nat.pow 5 (-f.exponent).toNat * Nat.pow 2 f.exponent.toNat)
      (min f.exponent 0) = .finite { f with negative := false } := by
  obtain ⟨hupper, hlower⟩ := exact_magnitude f.canonical hm
  rw [← ofScaled_finite { f with negative := false } hm, ofScaled]
  dsimp only
  generalize f.mantissa = m at hm hupper hlower ⊢
  generalize f.exponent = e at hupper hlower ⊢
  have hne : m * 5 ^ (-e).toNat * 2 ^ e.toNat ≠ 0 := by positivity
  simp only [Nat.pow_eq]
  rw [ofDecimal, if_neg hne]
  dsimp only
  rw [if_neg (by omega), if_neg (by omega)]
  apply ofQuotient_congr (Nat.pow_pos (by decide)) (Nat.pow_pos (by decide))
  have h0 : (min e 0).toNat = 0 := by omega
  have h1 : (-min e 0).toNat = (-e).toNat := by omega
  rw [h0, h1, Nat.pow_eq, Nat.pow_zero, Nat.mul_one, show 10 = 5 * 2 from rfl,
    Nat.mul_pow]
  ring

/-- The shortest text is for the double. -/
theorem ofDecimal_shortest (tie : Tie) (f : Finite) (hm : f.mantissa ≠ 0) :
    ofDecimal false (shortest tie f.mantissa f.exponent).1 (shortest tie f.mantissa f.exponent).2 =
      .finite { f with negative := false } := by
  have hx := ofScaled_finite { f with negative := false } hm
  simp only [ofScaled] at hx
  unfold shortest
  dsimp only
  rw [hx]
  split
  · next c p h =>
    rw [ofDecimal_stripZeros]
    obtain ⟨count, -, hc⟩ := List.exists_of_findSome?_eq_some h
    obtain ⟨c, hg, he⟩ := Option.map_eq_some_iff.1 hc
    cases he
    exact onGrid_reads hg
  · exact ofDecimal_exact f hm

/-- The text of a finite number is a numeral that is read as the number, behind its sign. -/
theorem render_eq (format : Format) (f : Finite) :
    ∃ text : String, f.render format = (if f.negative then "-" else "") ++ text ∧
      IsNumeral text.toList ∧
        read? false text.toList = some (.finite { f with negative := false }) := by
  unfold Finite.render
  dsimp only
  split
  · next hm =>
    have hzero : ∀ c ∈ ['0'], c.isDigit := List.forall_mem_singleton.2 rfl
    refine ⟨"0.0", rfl, ⟨['0'], ['.', '0'], [], rfl, by simp, .inl rfl, hzero,
      .inr ⟨['0'], rfl, by simp, hzero⟩, .inl rfl, by simp⟩, ?_⟩
    obtain ⟨negative, m, e, hc⟩ := f
    obtain rfl : m = 0 := hm
    obtain rfl : e = -1074 := hc.2.2.2.resolve_left (by decide)
    rfl
  · next hm =>
    have hvalue := ofDecimal_shortest format.tie f hm
    generalize shortest format.tie f.mantissa f.exponent = s at hvalue
    obtain ⟨c, p⟩ := s
    refine ⟨_, rfl, ?_⟩
    dsimp only at hvalue ⊢
    have hc : c ≠ 0 := by
      rintro rfl
      rw [ofDecimal_zero] at hvalue
      exact hm (congrArg Finite.mantissa (Double.finite.inj hvalue)).symm
    split
    · rw [Int.sub_add_cancel, ← hvalue]
      exact ⟨isNumeral_positional hc p, read?_positional false c p⟩
    · rw [← hvalue]
      exact ⟨isNumeral_scientific _ hc _, read?_scientific false _ c p⟩

end MobDebug.Double
