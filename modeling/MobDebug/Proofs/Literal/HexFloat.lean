import MobDebug.Proofs.Double.Scaling
import MobDebug.Proofs.Literal.Grammar.Reading

/-!
A hexadecimal float is its digits times a power of two, which is taken for zero where its reciprocal
is infinite. So floats are exact down to such a power and vanish from there on, and zeros are NaN
where the power itself is infinite.
-/
namespace MobDebug.Literal

open Double (Finite)

variable {d fraction : Nat} {e written : Int} {ds : List Nat} {s : List UInt8} {f g : Finite}

/-! ### Digits -/

theorem hexDigit?_lt {b : UInt8} (h : hexDigit? b = some d) : d < 16 := by
  have hbytes : ∀ n < 256, ∀ d ∈ hexDigit? (UInt8.ofNat n), d < 16 := by decide +kernel
  exact hbytes b.toNat b.toNat_lt d (by rw [UInt8.ofNat_toNat, h]; rfl)

theorem HexRun.lt (h : HexRun s ds) : ∀ d ∈ ds, d < 16 := by
  induction h with
  | nil => exact List.forall_mem_nil _
  | cons hb _ ih => exact List.forall_mem_cons.2 ⟨hexDigit?_lt hb, ih⟩

theorem hexNumber_append (ds : List Nat) (d : Nat) :
    hexNumber (ds ++ [d]) = hexNumber ds * 16 + d := by
  rw [hexNumber, List.foldl_append]
  rfl

theorem hexNumber_lt (hd : ∀ d ∈ ds, d < 16) : hexNumber ds < 16 ^ ds.length := by
  induction ds using List.reverseRecOn with
  | nil => decide
  | append_singleton ds d ih =>
    obtain ⟨hds, hd⟩ := List.forall_mem_append.1 hd
    have hlast := List.forall_mem_singleton.1 hd
    have hfirst := ih hds
    rw [hexNumber_append, List.length_append, List.length_singleton, Nat.pow_succ]
    omega

/-- With thirteen digits a number has at most 52 bits. -/
theorem hexNumber_bits (hd : ∀ d ∈ ds, d < 16) (hl : ds.length ≤ 13) : hexNumber ds < 2 ^ 52 :=
  calc hexNumber ds < 16 ^ ds.length := hexNumber_lt hd
    _ ≤ 16 ^ 13 := Nat.pow_le_pow_right (by decide) hl
    _ = 2 ^ 52 := by decide

theorem pushHexDigit_exact (hf : f.negative = false) (hg : g.negative = false)
    (h : g.value = f.value * 16 + d) : pushHexDigit (.finite f) d = .finite g := by
  simp only [pushHexDigit, ← hg]
  apply Double.ofQuotient_value (Nat.two_pow_pos _)
  rw [← g.value_eq_abs hg, h, f.value_eq_abs hf, f.abs_value, Double.two_zpow_eq]
  simp only [Nat.pow_eq]
  push_cast
  field_simp

/-- By induction on the digits from the last: the number of digits is a double at each. -/
theorem pushHexDigits_exact (hd : ∀ d ∈ ds, d < 16) (hl : ds.length ≤ 13) :
    ∃ f, ds.foldl pushHexDigit (.zero false) = .finite f ∧ f.negative = false ∧
      f.value = hexNumber ds := by
  induction ds using List.reverseRecOn with
  | nil =>
    refine ⟨_, rfl, rfl, ?_⟩
    rw [Finite.value_eq_zero_iff.2 rfl]
    rfl
  | append_singleton ds d ih =>
    have hbits := hexNumber_bits hd hl
    obtain ⟨g, hg, hgv⟩ := Double.exists_natural (n := hexNumber (ds ++ [d])) (by omega)
    rw [List.length_append, List.length_singleton] at hl
    obtain ⟨f, hfold, hf, hfv⟩ := ih (List.forall_mem_append.1 hd).1 (by omega)
    refine ⟨g, ?_, hg, hgv⟩
    rw [List.foldl_append, hfold]
    apply pushHexDigit_exact hf hg
    rw [hgv, hfv, hexNumber_append]
    push_cast
    rfl

/-! ### The product -/

/-- An exponent within 32 bits is kept, and one beyond stays beyond the doubles. -/
theorem clamp_spec (e : Int) :
    let clamped := max Int32.minValue.toInt (min Int32.maxValue.toInt e)
    (e.natAbs < 1024 → clamped = e) ∧ (e ≤ -1024 → clamped ≤ -1024) ∧
      (1024 ≤ e → 1024 ≤ clamped) := by
  have hmin : Int32.minValue.toInt = -2147483648 := by decide
  have hmax : Int32.maxValue.toInt = 2147483647 := by decide
  dsimp only
  omega

variable {exponent : Int64}

theorem hexFloat_exact (hd : ∀ d ∈ ds, d < 16) (hl : ds.length ≤ 13)
    (he : exponent.toInt.natAbs < 1024) (hf : f.negative = false)
    (hv : f.value = hexNumber ds * 2 ^ exponent.toInt) : hexFloat ds exponent = .finite f := by
  obtain ⟨m, hm, hmn, hmv⟩ := pushHexDigits_exact hd hl
  obtain ⟨p, hp, hpn, hpv⟩ := Double.powTwo_finite he
  simp only [hexFloat, (clamp_spec _).1 he, hm, hp]
  apply Double.mul_exact
  · rw [hf, hmn, hpn]
    rfl
  · rw [hv, hmv, hpv]

theorem hexFloat_low (hd : ∀ d ∈ ds, d < 16) (hl : ds.length ≤ 13) (he : exponent.toInt ≤ -1024) :
    hexFloat ds exponent = .zero false := by
  obtain ⟨m, hm, hmn, -⟩ := pushHexDigits_exact hd hl
  simp only [hexFloat, Double.powTwo_low ((clamp_spec _).2.1 he), hm]
  exact Double.finite_mul_zero hmn

theorem hexFloat_high (hd : ∀ d ∈ ds, d < 16) (hl : ds.length ≤ 13) (h0 : hexNumber ds = 0)
    (he : 1024 ≤ exponent.toInt) : hexFloat ds exponent = .nan := by
  obtain ⟨m, hm, hmn, hmv⟩ := pushHexDigits_exact hd hl
  have hzero : m.mantissa = 0 := by
    rw [← Finite.value_eq_zero_iff, hmv, h0]
    rfl
  simp only [hexFloat, Double.powTwo_high ((clamp_spec _).2.2 he), hm,
    Double.finite_eq_zero hzero, hmn]
  rfl

/-! ### Exponents -/

/-- An exponent as it is written, with its sign. -/
def signedExponent (negative : Bool) (n : Nat) : Int :=
  if negative then -n else n

theorem hexExponent_eq (fraction : Nat) (negative : Bool) (n : Nat) :
    hexExponent fraction negative n = Int64.ofInt (signedExponent negative n - 4 * fraction) := by
  have hscale : Int64.ofInt (4 * fraction) = 4 * Int64.ofNat fraction := by
    rw [Int64.ofInt_mul, Int64.ofInt_eq_ofNat]
    rfl
  cases negative with
  | false =>
    rw [hexExponent, signedExponent, if_neg Bool.false_ne_true, if_neg Bool.false_ne_true,
      Int64.ofInt_sub, hscale, Int64.ofInt_eq_ofNat, Int64.sub_eq_add_neg, Int64.add_comm]
  | true =>
    rw [hexExponent, signedExponent, if_pos rfl, if_pos rfl, Int64.ofInt_sub, hscale,
      Int64.ofInt_neg, Int64.ofInt_eq_ofNat, Int64.sub_eq_add_neg, Int64.sub_eq_add_neg,
      Int64.add_comm]

theorem toInt_minValue : Int64.minValue.toInt = -2 ^ 63 := by decide

/-- An exponent that falls out of 64 bits below comes back above the doubles. -/
theorem wrapped_high {e : Int} (hlow : Int64.minValue.toInt - 1024 ≤ e)
    (he : e < Int64.minValue.toInt) : 1024 ≤ (Int64.ofInt e).toInt := by
  rw [toInt_minValue] at hlow he
  rw [Int64.toInt_ofInt, ← Int.add_bmod_right, Int.bmod_eq_of_le]
  all_goals simp only [Int64.size]
  all_goals omega

/-! ### What is exact -/

/-- The power of two is not taken for zero. If the digits are all zeros, it need only be finite, and
no exponent out of 64 bits. -/
def Reaches (ds : List Nat) (fraction : Nat) (written : Int) : Prop :=
  if hexNumber ds = 0 then
    Int64.minValue.toInt < written ∧ Int64.minValue.toInt ≤ written - 4 * fraction ∧
      written - 4 * fraction < 1024
  else -1024 < written - 4 * fraction

instance (ds : List Nat) (fraction : Nat) (written : Int) :
    Decidable (Reaches ds fraction written) :=
  inferInstanceAs (Decidable (if hexNumber ds = 0 then _ ∧ _ ∧ _ else _))

/-- The double that is made of digits and an exponent, where `f` is the number that they are. -/
theorem hexFloat_eq (hd : ∀ d ∈ ds, d < 16) (hl : ds.length ≤ 13) (hk : fraction ≤ ds.length)
    (hw : written.natAbs < 2 ^ 63) (hf : f.negative = false)
    (hv : f.value = hexNumber ds * 2 ^ (written - 4 * fraction)) :
    (Reaches ds fraction written →
      hexFloat ds (Int64.ofInt (written - 4 * fraction)) = .finite f) ∧
    (¬ Reaches ds fraction written → hexNumber ds ≠ 0 →
      hexFloat ds (Int64.ofInt (written - 4 * fraction)) = .zero false) ∧
    (¬ Reaches ds fraction written → hexNumber ds = 0 →
      hexFloat ds (Int64.ofInt (written - 4 * fraction)) = .nan) := by
  have hmin := toInt_minValue
  generalize he : written - 4 * fraction = e at hv ⊢
  have hfit (h : -2 ^ 63 ≤ e) : (Int64.ofInt e).toInt = e :=
    Int64.toInt_ofInt_of_le h (by omega)
  have hnear (h : e.natAbs < 1024) : hexFloat ds (Int64.ofInt e) = .finite f := by
    have hexp := hfit (by omega)
    exact hexFloat_exact hd hl (by rwa [hexp]) hf (by rwa [hexp])
  by_cases h0 : hexNumber ds = 0
  · rw [Reaches, if_pos h0, he]
    refine ⟨fun ⟨_, hlow, hhigh⟩ => ?_, fun _ h => absurd h0 h, fun h _ => ?_⟩
    · by_cases hn : e.natAbs < 1024
      · exact hnear hn
      · have hzero : f.mantissa = 0 := by
          rw [← Finite.value_eq_zero_iff, hv, h0, Nat.cast_zero, zero_mul]
        rw [hexFloat_low hd hl (by rw [hfit (by omega)]; omega), Double.finite_eq_zero hzero, hf]
    · by_cases hlow : e < Int64.minValue.toInt
      · exact hexFloat_high hd hl h0 (wrapped_high (by omega) hlow)
      · exact hexFloat_high hd hl h0 (by rw [hfit (by omega)]; omega)
  · rw [Reaches, if_neg h0, he]
    obtain ⟨hlow, hhigh⟩ := Double.exponent_bounds h0 (hexNumber_bits hd hl)
      (by rw [← hv, ← f.value_eq_abs hf])
    refine ⟨fun h => hnear (by omega), fun h _ => ?_, fun _ h => absurd h h0⟩
    exact hexFloat_low hd hl (by rw [hfit (by omega)]; omega)

end MobDebug.Literal
