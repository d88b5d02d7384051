import MobDebug.Text.Digits
import Mathlib.Algebra.Group.Nat.Defs
import Mathlib.Data.List.Basic

/-! Decimal digits: a number is read back from its digits, zeros behind them are powers of ten, and
zeros in front of them are nothing. -/
namespace MobDebug.Text

variable {n k : Nat} {cs ds : List Char}

theorem ofDigits_eq (cs : List Char) : ofDigits cs = Nat.ofDigitChars 10 cs 0 := by
  simp only [ofDigits, digitValue, Nat.ofDigitChars_eq_foldl, Nat.mul_comm]

theorem ofDigits_toDigits (n : Nat) : ofDigits (Nat.toDigits 10 n) = n := by
  rw [ofDigits_eq, Nat.ofDigitChars_ten_toDigits]

theorem ofDigits_append (cs ds : List Char) :
    ofDigits (cs ++ ds) = ofDigits cs * 10 ^ ds.length + ofDigits ds := by
  simp only [ofDigits_eq, Nat.ofDigitChars_append]
  rw [Nat.ofDigitChars_eq_ofDigitChars_zero, Nat.mul_comm]

theorem ofDigits_zeros (k : Nat) : ofDigits (List.replicate k '0') = 0 := by
  rw [ofDigits_eq, Nat.ofDigitChars_replicate_zero, Nat.mul_zero]

theorem ofDigits_append_zeros (cs : List Char) (k : Nat) :
    ofDigits (cs ++ List.replicate k '0') = ofDigits cs * 10 ^ k := by
  rw [ofDigits_append, ofDigits_zeros, List.length_replicate, Nat.add_zero]

theorem ofDigits_zeros_append (k : Nat) (cs : List Char) :
    ofDigits (List.replicate k '0' ++ cs) = ofDigits cs := by
  rw [ofDigits_append, ofDigits_zeros, Nat.zero_mul, Nat.zero_add]

theorem isDigit_toDigits {c : Char} (h : c ∈ Nat.toDigits 10 n) : c.isDigit :=
  Nat.isDigit_of_mem_toDigits (by decide) (by decide) h

theorem toDigits_mul_pow (hn : 0 < n) (k : Nat) :
    Nat.toDigits 10 (n * 10 ^ k) = Nat.toDigits 10 n ++ List.replicate k '0' := by
  induction k with
  | zero => simp
  | succ k ih =>
    have hpos : 0 < n * 10 ^ k := Nat.mul_pos hn (Nat.pow_pos (by decide))
    have hstep : n * 10 ^ (k + 1) = 10 * (n * 10 ^ k) + 0 := by
      rw [Nat.pow_succ, ← Nat.mul_assoc, Nat.mul_comm 10, Nat.add_zero]
    rw [hstep, ← Nat.toDigits_append_toDigits (by decide) hpos (by decide), ih, List.append_assoc,
      Nat.toDigits_zero, List.replicate_succ']

theorem length_toDigits_mul_pow (hn : 0 < n) (k : Nat) :
    (Nat.toDigits 10 (n * 10 ^ k)).length = (Nat.toDigits 10 n).length + k := by
  rw [toDigits_mul_pow hn, List.length_append, List.length_replicate]

/-- The bounds that a count of digits gives. -/
theorem pow_length_toDigits_le (hn : 0 < n) : 10 ^ ((Nat.toDigits 10 n).length - 1) ≤ n := by
  have hlen : 0 < (Nat.toDigits 10 n).length := Nat.length_toDigits_pos
  by_cases h1 : (Nat.toDigits 10 n).length = 1
  · rw [h1]
    exact hn
  · by_contra hlt
    have := (Nat.length_toDigits_le_iff (b := 10) (by decide)
      (k := (Nat.toDigits 10 n).length - 1) (by omega)).2 (Nat.not_le.1 hlt)
    omega

theorem lt_pow_length_toDigits (n : Nat) : n < 10 ^ (Nat.toDigits 10 n).length :=
  (Nat.length_toDigits_le_iff (by decide) Nat.length_toDigits_pos).1 (Nat.le_refl _)

theorem toDigits_ne_nil (n : Nat) : Nat.toDigits 10 n ≠ [] :=
  List.ne_nil_of_length_pos Nat.length_toDigits_pos

/-- The first digit is no zero. -/
theorem head?_toDigits (hn : 0 < n) : (Nat.toDigits 10 n).head? ≠ some '0' := by
  induction n using Nat.strongRecOn with
  | ind n ih =>
    by_cases hlt : n < 10
    · rw [Nat.toDigits_of_lt_base hlt, List.head?_cons, ne_eq, Option.some.injEq,
        Nat.digitChar_eq_zero]
      omega
    · have hle : 10 ≤ n := Nat.not_lt.1 hlt
      rw [Nat.toDigits_of_base_le (by decide) hle,
        List.head?_append_of_ne_nil _ (toDigits_ne_nil _)]
      exact ih (n / 10) (by omega) (by omega)

/-- A text is for a number: digits, after at most one plus sign. -/
def Denotes (cs : List Char) (n : Nat) : Prop :=
  ∃ ds, (cs = ds ∨ cs = '+' :: ds) ∧ ds ≠ [] ∧ (∀ c ∈ ds, c.isDigit) ∧ ofDigits ds = n

theorem digits_ne_plus {c : Char} (h : ∀ d ∈ c :: cs, d.isDigit) : c ≠ '+' := by
  rintro rfl
  exact absurd (h '+' List.mem_cons_self) (by decide)

/-- What is read as a number is for it, and the number is below the bound. -/
theorem readNat?_eq_some {bound : Nat} :
    readNat? bound cs = some n ↔ Denotes cs n ∧ n < bound := by
  -- the digits behind the sign, if there is one
  have hread (ds : List Char) :
      (if ds.isEmpty || !ds.all Char.isDigit then none
        else if ofDigits ds < bound then some (ofDigits ds) else none) = some n ↔
      (ds ≠ [] ∧ (∀ c ∈ ds, c.isDigit) ∧ ofDigits ds = n) ∧ n < bound := by
    rw [← List.all_eq_true]
    split
    · next hbad =>
      rw [Bool.or_eq_true, List.isEmpty_iff, Bool.not_eq_true'] at hbad
      refine iff_of_false nofun fun h => ?_
      rcases hbad with he | hall
      · exact h.1.1 he
      · exact absurd (hall.symm.trans h.1.2.1) nofun
    · next hgood =>
      rw [Bool.or_eq_true, List.isEmpty_iff, Bool.not_eq_true', not_or, Bool.not_eq_false] at hgood
      split
      · next hlt =>
        rw [Option.some.injEq]
        exact ⟨fun he => ⟨⟨hgood.1, hgood.2, he⟩, he ▸ hlt⟩, fun h => h.1.2.2⟩
      · next hge =>
        exact iff_of_false nofun fun h => hge (h.1.2.2 ▸ h.2)
  constructor
  · intro h
    unfold readNat? at h
    split at h
    · next rest =>
      obtain ⟨hd, hlt⟩ := (hread rest).1 h
      exact ⟨⟨rest, .inr rfl, hd⟩, hlt⟩
    · obtain ⟨hd, hlt⟩ := (hread cs).1 h
      exact ⟨⟨cs, .inl rfl, hd⟩, hlt⟩
  · rintro ⟨⟨ds, rfl | rfl, hd⟩, hlt⟩
    · obtain ⟨c, ds, rfl⟩ := List.exists_cons_of_ne_nil hd.1
      unfold readNat?
      split
      · next rest he => exact absurd (List.cons.inj he).1 (digits_ne_plus hd.2.1)
      · exact (hread _).2 ⟨hd, hlt⟩
    · exact (hread ds).2 ⟨hd, hlt⟩

/-- A number below the bound is read back from its digits. -/
theorem readNat?_toDigits {bound : Nat} (h : n < bound) :
    readNat? bound (Nat.toDigits 10 n) = some n :=
  readNat?_eq_some.2
    ⟨⟨_, .inl rfl, toDigits_ne_nil n, fun _ => isDigit_toDigits, ofDigits_toDigits n⟩, h⟩

end MobDebug.Text
