import MobDebug.Double.Decimal
import MobDebug.Double.Shortest
import MobDebug.Proofs.Double.Rounding
import MobDebug.Proofs.Text.Digits
import MobDebug.Proofs.Lists

/-! Decimal texts of doubles. Wherever the point stands and however many zeros fill the places, the
text of `c · 10 ^ p` is read as the double nearest to it. -/
namespace MobDebug.Double
open Text (ofDigits)

variable {negative : Bool}

theorem ofDecimal_zero (negative : Bool) (p : Int) : ofDecimal negative 0 p = zero negative :=
  if_pos rfl

/-- Zeros that are moved from the exponent into the digits change nothing. -/
theorem ofDecimal_mul_pow (negative : Bool) (c k : Nat) (p : Int) :
    ofDecimal negative (c * 10 ^ k) (p - k) = ofDecimal negative c p := by
  by_cases hc : c = 0
  · rw [hc, Nat.zero_mul, ofDecimal_zero, ofDecimal_zero]
  have hpos : 0 < c := Nat.pos_of_ne_zero hc
  have hck : c * 10 ^ k ≠ 0 := Nat.mul_ne_zero hc (Nat.ne_of_gt (Nat.pow_pos (by decide)))
  have hmagnitude : (((Nat.toDigits 10 (c * 10 ^ k)).length : Nat) : Int) + (p - k) =
      (Nat.toDigits 10 c).length + p := by
    rw [Text.length_toDigits_mul_pow hpos]
    omega
  have hquotient : ofQuotient negative (c * 10 ^ k * Nat.pow 10 (p - k).toNat)
      (Nat.pow 10 (-(p - k)).toNat) =
        ofQuotient negative (c * Nat.pow 10 p.toNat) (Nat.pow 10 (-p).toNat) := by
    apply ofQuotient_congr (Nat.pow_pos (by decide)) (Nat.pow_pos (by decide))
    simp only [Nat.pow_eq, Nat.mul_assoc, ← Nat.pow_add]
    congr 2
    omega
  simp only [ofDecimal, hc, hck, if_false, hmagnitude, hquotient]

theorem readExponent?_digits {ds : List Char} (hd : ∀ c ∈ ds, c.isDigit) (hne : ds ≠ []) :
    readExponent? ('e' :: ds) = some (ofDigits ds : Int) := by
  obtain ⟨d, ds, rfl⟩ := List.exists_cons_of_ne_nil hne
  have hminus : d ≠ '-' := by
    rintro rfl
    exact absurd (hd '-' List.mem_cons_self) (by decide)
  have hplus : d ≠ '+' := by
    rintro rfl
    exact absurd (hd '+' List.mem_cons_self) (by decide)
  have hd' : d.isDigit ∧ ∀ c ∈ ds, c.isDigit := by simpa using hd
  simpa [readExponent?, hminus, hplus] using hd'

/-- The exponent as the printer writes it. -/
theorem readExponent?_written (plus : Bool) (e : Int) :
    readExponent? ('e' :: ((if plus && 0 ≤ e then "+" else "") ++ toString e).toList) = some e := by
  have hdigits (n : Nat) : ∀ c ∈ Nat.toDigits 10 n, c.isDigit := fun c => Text.isDigit_toDigits
  rw [Int.toString_eq_repr, Int.repr_eq_if]
  by_cases he : 0 ≤ e
  · have hread : (ofDigits (Nat.toDigits 10 e.toNat) : Int) = e := by
      rw [Text.ofDigits_toDigits]
      exact Int.toNat_of_nonneg he
    cases plus with
    | true => simpa [readExponent?, he, Nat.toDigits_ne_nil, hread] using hdigits e.toNat
    | false =>
      simp only [he, if_true, Bool.false_and, Bool.false_eq_true, if_false, String.empty_append,
        Nat.toList_repr]
      rw [readExponent?_digits (hdigits _) Nat.toDigits_ne_nil, hread]
  · have hread : (ofDigits (Nat.toDigits 10 (-e).toNat) : Int) = -e := by
      rw [Text.ofDigits_toDigits]
      exact Int.toNat_of_nonneg (by omega)
    simpa [readExponent?, he, Nat.toDigits_ne_nil, hread] using hdigits (-e).toNat

/-- A numeral of digits, a point, more digits and an exponent. -/
theorem read?_pointed (negative : Bool) {whole fraction : List Char} (rest : List Char)
    (hw : ∀ c ∈ whole, c.isDigit) (hf : ∀ c ∈ fraction, c.isDigit)
    (hr : ∀ c ∈ rest.head?, c.isDigit = false) (hne : whole ≠ []) :
    read? negative (whole ++ '.' :: (fraction ++ rest)) =
      (readExponent? rest).map fun e =>
        ofDecimal negative (ofDigits (whole ++ fraction)) (e - fraction.length) := by
  have hpoint : ∀ c ∈ ('.' :: (fraction ++ rest)).head?, c.isDigit = false := by
    rintro c ⟨⟩
    rfl
  simp only [read?, Text.takeWhile_run hw hpoint, Text.dropWhile_run hw hpoint,
    Text.takeWhile_run hf hr, Text.dropWhile_run hf hr]
  simp [hne]

theorem read?_fraction (negative : Bool) {whole fraction : List Char}
    (hw : ∀ c ∈ whole, c.isDigit) (hf : ∀ c ∈ fraction, c.isDigit) (hne : whole ≠ []) :
    read? negative (whole ++ '.' :: fraction) =
      some (ofDecimal negative (ofDigits (whole ++ fraction)) (-fraction.length)) := by
  have h := read?_pointed negative [] hw hf (by simp) hne
  simpa [readExponent?] using h

/-- A numeral of digits and an exponent. -/
theorem read?_pointless (negative : Bool) {whole : List Char} (rest : List Char)
    (hw : ∀ c ∈ whole, c.isDigit) (hne : whole ≠ []) :
    read? negative (whole ++ 'e' :: rest) =
      (readExponent? ('e' :: rest)).map fun e => ofDecimal negative (ofDigits whole) e := by
  have hstop : ∀ c ∈ ('e' :: rest).head?, c.isDigit = false := by
    rintro c ⟨⟩
    rfl
  simp only [read?, Text.takeWhile_run hw hstop, Text.dropWhile_run hw hstop]
  simp [hne]

@[simp] theorem toList_zeros (n : Nat) : (zeros n).toList = List.replicate n '0' :=
  String.toList_ofList

/-- Positional notation has digits on either side of the point, and they are for the number. -/
theorem positional_eq (negative : Bool) (c : Nat) (p : Int) :
    ∃ whole fraction,
      (positional (Nat.toDigits 10 c) (p + (Nat.toDigits 10 c).length)).toList =
        whole ++ '.' :: fraction ∧
      whole ≠ [] ∧ (c ≠ 0 → whole = ['0'] ∨ whole.head? ≠ some '0') ∧ (∀ d ∈ whole, d.isDigit) ∧
      fraction ≠ [] ∧ (∀ d ∈ fraction, d.isDigit) ∧
      ofDecimal negative (ofDigits (whole ++ fraction)) (-fraction.length) =
        ofDecimal negative c p := by
  have hdigits : ∀ d ∈ Nat.toDigits 10 c, d.isDigit := fun d => Text.isDigit_toDigits
  have hhead : c ≠ 0 → (Nat.toDigits 10 c).head? ≠ some '0' := fun hc =>
    Text.head?_toDigits (Nat.pos_of_ne_zero hc)
  have hread : ofDigits (Nat.toDigits 10 c) = c := Text.ofDigits_toDigits c
  have hlen : 0 < (Nat.toDigits 10 c).length := Nat.length_toDigits_pos
  -- only these facts of the digits are used, wherever the point stands among them
  generalize Nat.toDigits 10 c = digits at hdigits hhead hlen hread ⊢
  have hne : digits ≠ [] := List.ne_nil_of_length_pos hlen
  have hzeros (n : Nat) : ∀ d ∈ List.replicate n '0', d.isDigit := by
    intro d hd
    rw [List.eq_of_mem_replicate hd]
    rfl
  unfold positional
  dsimp only
  split
  · -- the point stands before all digits
    next hp =>
    generalize hk : (-(p + digits.length)).toNat = k
    refine ⟨['0'], List.replicate k '0' ++ digits, by simp, by simp, fun _ => .inl rfl, hzeros 1,
      List.append_ne_nil_of_right_ne_nil _ hne, ?_, ?_⟩
    · intro d hd
      exact (List.mem_append.1 hd).elim (hzeros k d) (hdigits d)
    · have hvalue : ofDigits (['0'] ++ (List.replicate k '0' ++ digits)) = c := by
        rw [← List.append_assoc, ← hread]
        exact Text.ofDigits_zeros_append (k + 1) digits
      have hexp : -(((List.replicate k '0' ++ digits).length : Nat) : Int) = p := by
        simp only [List.length_append, List.length_replicate]
        omega
      rw [hvalue, hexp]
  split
  · -- the point stands among the digits
    next hp0 hp =>
    generalize hk : (p + digits.length).toNat = k
    have hk0 : k ≠ 0 := by omega
    refine ⟨digits.take k, digits.drop k, by simp, by simp [hk0, hne], fun hc => .inr ?_,
      fun d hd => hdigits d (List.mem_of_mem_take hd), ?_,
      fun d hd => hdigits d (List.mem_of_mem_drop hd), ?_⟩
    · rw [List.head?_take, if_neg hk0]
      exact hhead hc
    · rw [ne_eq, List.drop_eq_nil_iff]
      omega
    · have hexp : -(((digits.drop k).length : Nat) : Int) = p := by
        rw [List.length_drop]
        omega
      rw [List.take_append_drop, hread, hexp]
  · -- the point stands behind all digits
    next hp0 hp =>
    generalize hk : (p + digits.length - digits.length).toNat = k
    refine ⟨digits ++ List.replicate k '0', ['0'], by simp, List.append_ne_nil_of_left_ne_nil hne _,
      fun hc => .inr ?_, ?_, by simp, hzeros 1, ?_⟩
    · rw [List.head?_append_of_ne_nil _ hne]
      exact hhead hc
    · intro d hd
      exact (List.mem_append.1 hd).elim (hdigits d) (hzeros k d)
    · have hvalue : ofDigits (digits ++ List.replicate k '0' ++ ['0']) = c * 10 ^ (k + 1) := by
        rw [← hread, List.append_assoc, ← Text.ofDigits_append_zeros, List.replicate_succ']
      have hexp : (-1 : Int) = p - (k + 1 : Nat) := by omega
      rw [hvalue, List.length_singleton, Nat.cast_one, hexp, ofDecimal_mul_pow]

/-- Positional notation is read as the number it is for. -/
theorem read?_positional (negative : Bool) (c : Nat) (p : Int) :
    read? negative (positional (Nat.toDigits 10 c) (p + (Nat.toDigits 10 c).length)).toList =
      some (ofDecimal negative c p) := by
  obtain ⟨whole, fraction, he, hne, -, hw, -, hf, hv⟩ := positional_eq negative c p
  rw [he, read?_fraction negative hw hf hne, hv]

/-- So is scientific notation. -/
theorem read?_scientific (negative plus : Bool) (c : Nat) (p : Int) :
    read? negative
      (scientific plus (Nat.toDigits 10 c) (p + (Nat.toDigits 10 c).length - 1)).toList =
        some (ofDecimal negative c p) := by
  have hdigits : ∀ d ∈ Nat.toDigits 10 c, d.isDigit := fun d => Text.isDigit_toDigits
  have hread : ofDigits (Nat.toDigits 10 c) = c := Text.ofDigits_toDigits c
  obtain ⟨d, ds, hd⟩ := List.exists_cons_of_ne_nil (Nat.toDigits_ne_nil (n := c) (b := 10))
  rw [hd] at hdigits hread ⊢
  generalize he : p + ((d :: ds).length : Nat) - 1 = e
  have hexp := readExponent?_written plus e
  have hfirst : ∀ x ∈ [d], x.isDigit := by simpa using hdigits d List.mem_cons_self
  cases ds with
  | nil =>
    have hpe : e = p := by simpa using he.symm
    have h := read?_pointless negative ((if plus && 0 ≤ e then "+" else "") ++ toString e).toList
      hfirst (by simp)
    rw [hexp, hread, hpe] at h
    simpa [scientific, hpe] using h
  | cons d' ds =>
    have hlater : ∀ x ∈ d' :: ds, x.isDigit := fun x hx => hdigits x (List.mem_cons_of_mem _ hx)
    have hpe : e - ((d' :: ds).length : Nat) = p := by
      simp only [List.length_cons] at he ⊢
      omega
    have h := read?_pointed negative
      ('e' :: ((if plus && 0 ≤ e then "+" else "") ++ toString e).toList) hfirst hlater
      (by rintro x ⟨⟩; rfl) (by simp)
    rw [hexp, List.singleton_append, List.singleton_append, hread, Option.map_some, hpe] at h
    simpa [scientific] using h

/-- An exponent, with its sign or without. -/
def IsExponent (cs : List Char) : Prop :=
  ∃ sign ds, cs = 'e' :: (sign ++ ds) ∧ (sign = [] ∨ sign = ['-'] ∨ sign = ['+']) ∧
    ds ≠ [] ∧ ∀ d ∈ ds, d.isDigit

/-- Digits, and a fraction or an exponent or both. Only zero itself begins with a zero. -/
def IsNumeral (cs : List Char) : Prop :=
  ∃ whole fraction exponent, cs = whole ++ (fraction ++ exponent) ∧
    whole ≠ [] ∧ (whole = ['0'] ∨ whole.head? ≠ some '0') ∧ (∀ c ∈ whole, c.isDigit) ∧
    (fraction = [] ∨ ∃ ds, fraction = '.' :: ds ∧ ds ≠ [] ∧ ∀ d ∈ ds, d.isDigit) ∧
    (exponent = [] ∨ IsExponent exponent) ∧ (fraction ≠ [] ∨ exponent ≠ [])

theorem isExponent_written (plus : Bool) (e : Int) :
    IsExponent ('e' :: ((if plus && 0 ≤ e then "+" else "") ++ toString e).toList) := by
  have hdigits (n : Nat) : ∀ c ∈ Nat.toDigits 10 n, c.isDigit := fun c => Text.isDigit_toDigits
  rw [Int.toString_eq_repr, Int.repr_eq_if]
  by_cases he : 0 ≤ e
  · cases plus with
    | true => exact ⟨['+'], _, by simp [he], by simp, Nat.toDigits_ne_nil, hdigits e.toNat⟩
    | false => exact ⟨[], _, by simp [he], by simp, Nat.toDigits_ne_nil, hdigits e.toNat⟩
  · exact ⟨['-'], _, by simp [he], by simp, Nat.toDigits_ne_nil, hdigits (-e).toNat⟩

theorem isNumeral_positional {c : Nat} (hc : c ≠ 0) (p : Int) :
    IsNumeral (positional (Nat.toDigits 10 c) (p + (Nat.toDigits 10 c).length)).toList := by
  obtain ⟨whole, fraction, he, hne, hz, hw, hfne, hf, -⟩ := positional_eq false c p
  exact ⟨whole, '.' :: fraction, [], by simpa using he, hne, hz hc, hw,
    .inr ⟨fraction, rfl, hfne, hf⟩, .inl rfl, by simp⟩

theorem isNumeral_scientific (plus : Bool) {c : Nat} (hc : c ≠ 0) (e : Int) :
    IsNumeral (scientific plus (Nat.toDigits 10 c) e).toList := by
  have hdigits : ∀ d ∈ Nat.toDigits 10 c, d.isDigit := fun d => Text.isDigit_toDigits
  have hz := Text.head?_toDigits (Nat.pos_of_ne_zero hc)
  obtain ⟨d, ds, hd⟩ := List.exists_cons_of_ne_nil (Nat.toDigits_ne_nil (n := c) (b := 10))
  rw [hd] at hdigits hz ⊢
  have hfirst : ∀ x ∈ [d], x.isDigit := by simpa using hdigits d List.mem_cons_self
  have hexp := isExponent_written plus e
  cases ds with
  | nil =>
    refine ⟨[d], [], _, ?_, by simp, .inr hz, hfirst, .inl rfl, .inr hexp, by simp⟩
    simp [scientific]
  | cons d' ds =>
    have hlater : ∀ x ∈ d' :: ds, x.isDigit := fun x hx => hdigits x (List.mem_cons_of_mem _ hx)
    refine ⟨[d], '.' :: d' :: ds, _, ?_, by simp, .inr hz, hfirst,
      .inr ⟨_, rfl, List.cons_ne_nil _ _, hlater⟩, .inr hexp, by simp⟩
    simp [scientific]

end MobDebug.Double
