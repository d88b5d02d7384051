import MobDebug.Proofs.Literal.Cursor.Words

/-! Hexadecimal numerals, read in place. Their exponent is the only integer that can leave its
width, which is where their texts say so. -/
namespace MobDebug.Literal.Cursor

variable {env : Setting} {s t r : List UInt8} {b x : UInt8} {d : Nat} {c : State}
  {e y : Int} {ds : List Nat} {negative : Bool}

/-! ### Exponents -/

/-- The machine has room for an exponent, or does not care. -/
def Fits (env : Setting) (e : Int) : Prop :=
  env.wraps = true ∨ Width.long.Holds e

instance (env : Setting) (e : Int) : Decidable (Fits env e) :=
  inferInstanceAs (Decidable (_ ∨ _))

/-- An exponent in 64 bits. -/
def cut (e : Int) : Int :=
  (Int64.ofInt e).toInt

theorem holds_long : Width.long.Holds e ↔ -2 ^ 63 ≤ e ∧ e < 2 ^ 63 := by
  simp only [Width.Holds, Width.least, Width.long, if_true]
  omega

theorem cut_of_holds (h : Width.long.Holds e) : cut e = e := by
  rw [holds_long] at h
  exact Int64.toInt_ofInt_of_le h.1 h.2

theorem wrap_long (e : Int) : Width.long.wrap e = cut e := by
  rw [cut, Int64.toInt_ofInt, Int.bmod_def]
  simp only [Width.wrap, Width.least, Width.long, if_true, Int64.size]
  omega

theorem cut_add (e y : Int) : cut (cut e + y) = cut (e + y) := by
  rw [cut, cut, Int64.ofInt_add, Int64.ofInt_toInt, ← Int64.ofInt_add, ← cut]

/-- A sum is exact, or wraps, or stops the machine. -/
theorem keep_cut (he : Fits env e) : keep .long (cut e + y) env c =
    if Fits env (e + y) then .ok (cut (e + y), c) else .error (.breach .overflow) := by
  rw [keep, ← cut_add e y]
  by_cases h : Width.long.Holds (cut e + y)
  · have hfits : Fits env (e + y) := by
      refine he.imp_right fun he => ?_
      rwa [cut_of_holds he] at h
    rw [if_pos h, if_pos hfits, cut_of_holds h]
  · by_cases hw : env.wraps = true
    · rw [if_neg h, if_pos hw, if_pos (.inl hw), wrap_long]
    · have hfits : ¬ Fits env (e + y) := by
        rw [cut_of_holds (he.resolve_left hw)] at h
        exact not_or.2 ⟨hw, h⟩
      rw [if_neg h, if_neg hw, if_neg hfits]

theorem Fits.mono {e e' : Int} (h : Fits env e) (hle : e ≤ e') (hneg : e' ≤ 0) : Fits env e' := by
  refine h.imp_right fun h => ?_
  rw [holds_long] at h ⊢
  omega

theorem fits_zero : Fits env 0 := by
  refine .inr ?_
  rw [holds_long]
  omega

/-! ### Digits -/

/-- The exponent behind one more digit. -/
def lowered (pointed : Bool) (e : Int) : Int :=
  if pointed then e - 4 else e

theorem lowered_nonpos (pointed : Bool) (hneg : e ≤ 0) : lowered pointed e ≤ 0 := by
  rw [lowered]
  split <;> omega

section Digits
variable {h : HexState} {v : Nat}

theorem lower_eq (he : h.exponent = cut e) (hfits : Fits env e) :
    h.lower env c = if Fits env (lowered h.pointed e) then .ok (cut (lowered h.pointed e), c)
      else .error (.breach .overflow) := by
  rw [HexState.lower, lowered, he]
  by_cases hp : h.pointed = true
  · rw [if_pos hp, if_pos hp]
    exact keep_cut hfits
  · rw [if_neg hp, if_neg hp, if_pos hfits]
    rfl

theorem hexByte_digit (hs : b :: s <:+ env.source) (hd : hexDigit? b = some v)
    (hn : h.digits + 1 < 2 ^ 64)
    (hl : h.lower env (env.facing (b :: s) d) = .ok (y, env.facing (b :: s) d)) :
    hexByte h env (env.facing (b :: s) d) =
      .ok (.inl (h.push v y (h.digits + 1)), env.facing s d) := by
  rw [hexByte, bind_of_ok (peek_facing hs), List.head?_cons]
  simp only [hd]
  rw [bind_of_ok hl, bind_of_ok (size_of_lt hn), bind_of_ok (advance_cons hs)]
  rfl

theorem hexByte_overflow (hs : b :: s <:+ env.source) (hd : hexDigit? b = some v)
    (hl : h.lower env (env.facing (b :: s) d) = .error (.breach .overflow)) :
    hexByte h env (env.facing (b :: s) d) = .error (.breach .overflow) := by
  rw [hexByte, bind_of_ok (peek_facing hs), List.head?_cons]
  simp only [hd]
  exact bind_of_error hl

theorem hexByte_point (hs : b :: s <:+ env.source) (hd : hexDigit? b = none)
    (hp : (b == ascii '.' && !h.pointed) = true) :
    hexByte h env (env.facing (b :: s) d) =
      .ok (.inl { h with pointed := true }, env.facing s d) := by
  rw [hexByte, bind_of_ok (peek_facing hs), List.head?_cons]
  simp only [hd, if_pos hp]
  rw [bind_of_ok (advance_cons hs)]
  rfl

theorem hexByte_stop (hs : s <:+ env.source) (hd : ∀ b ∈ s.head?, hexDigit? b = none ∧
    ¬ (b == ascii '.' && !h.pointed) = true) :
    hexByte h env (env.facing s d) = .ok (.inr h, env.facing s d) := by
  rw [hexByte, bind_of_ok (peek_facing hs)]
  rcases s with - | ⟨b, s⟩
  · rfl
  · obtain ⟨hd, hp⟩ := hd b rfl
    simp only [List.head?_cons, hd, if_neg hp]
    rfl

namespace HexState

/-- What is known of a numeral behind more digits. -/
def behind (h : HexState) (e : Int) (scan : HexDigits) : HexState :=
  ⟨scan.digits.foldl (fun n d => n * 16 + UInt64.ofNat d) h.int,
    scan.digits.foldl pushHexDigit h.mantissa, cut (e - 4 * scan.fraction),
    h.digits + scan.digits.length, scan.pointed⟩

/-- All digits at once. -/
def outcome (h : HexState) (env : Setting) (d : Nat) (e : Int) (scan : HexDigits) :
    Except Stop (HexState × State) :=
  if Fits env (e - 4 * scan.fraction) then .ok (h.behind e scan, env.facing scan.rest d)
  else .error (.breach .overflow)

end HexState

theorem hexDigits_stop (hs : s <:+ env.source) (he : h.exponent = cut e) (hfits : Fits env e)
    (hd : ∀ b ∈ s.head?, hexDigit? b = none ∧ ¬ (b == ascii '.' && !h.pointed) = true) :
    loop hexByte h env (env.facing s d) = h.outcome env d e (readHexDigits h.pointed s) := by
  have hscan : readHexDigits h.pointed s = ⟨[], 0, h.pointed, s⟩ := by
    refine readHexDigits_stop (fun b hb => (hd b hb).1) fun hp b hb => ?_
    simpa [hp] using (hd b hb).2
  have hsum : e - 4 * (0 : Nat) = e := by omega
  rw [hscan, HexState.outcome, hsum, if_pos hfits, HexState.behind, hsum, ← he]
  exact loopFrom_done (hexByte_stop hs hd)

/-- By induction on the rest: the digits are read as they are all at once, or the exponent has left
its width at one of them. -/
theorem hexDigits_loop (hs : s <:+ env.source) (hn : h.digits + s.length ≤ env.source.length)
    (he : h.exponent = cut e) (hfits : Fits env e) (hneg : e ≤ 0) :
    loop hexByte h env (env.facing s d) = h.outcome env d e (readHexDigits h.pointed s) := by
  induction s generalizing h e with
  | nil => exact hexDigits_stop hs he hfits (by simp)
  | cons b s ih =>
    have hlt := source_lt env
    have htail := suffix_tail hs
    rw [List.length_cons] at hn
    cases hd : hexDigit? b with
    | some v =>
      have hscan : readHexDigits h.pointed (b :: s) =
          { readHexDigits h.pointed s with
            digits := v :: (readHexDigits h.pointed s).digits
            fraction := if h.pointed then (readHexDigits h.pointed s).fraction + 1
              else (readHexDigits h.pointed s).fraction } := by
        rw [readHexDigits, hd]
      -- what the exponent falls by, for this digit and for those behind it
      have hsum : e - 4 * (readHexDigits h.pointed (b :: s)).fraction =
          lowered h.pointed e - 4 * (readHexDigits h.pointed s).fraction := by
        rw [hscan, lowered]
        cases h.pointed with
        | false => rfl
        | true =>
          simp only [if_true]
          omega
      have hlow := lowered_nonpos h.pointed hneg
      have hlower := lower_eq (c := env.facing (b :: s) d) he hfits
      by_cases hf : Fits env (lowered h.pointed e)
      · rw [if_pos hf] at hlower
        have hstep := hexByte_digit hs hd (by omega) hlower
        have hnext := ih (h := h.push v (cut (lowered h.pointed e)) (h.digits + 1)) htail
          (by dsimp only [HexState.push]; omega) rfl hf hlow
        have hcount : h.digits + (readHexDigits h.pointed (b :: s)).digits.length =
            h.digits + 1 + (readHexDigits h.pointed s).digits.length := by
          rw [hscan, List.length_cons]
          omega
        rw [loop_next hs htail (Nat.lt_succ_self _) hstep, hnext, HexState.outcome,
          HexState.outcome, HexState.behind, HexState.behind, hsum, hcount, hscan]
        rfl
      · rw [if_neg hf] at hlower
        -- The exponent only falls, so it has no room behind the other digits either.
        have hfinal : ¬ Fits env (e - 4 * (readHexDigits h.pointed (b :: s)).fraction) := by
          rw [hsum]
          exact fun h => hf (h.mono (by omega) hlow)
        rw [HexState.outcome, if_neg hfinal]
        exact loopFrom_stop (hexByte_overflow hs hd hlower)
    | none =>
      by_cases hp : (b == ascii '.' && !h.pointed) = true
      · have hscan : readHexDigits h.pointed (b :: s) = readHexDigits true s := by
          simp only [readHexDigits, hd, if_pos hp]
        have hdigits : h.digits + s.length ≤ env.source.length := by omega
        have hnext := ih (h := { h with pointed := true }) htail hdigits he hfits hneg
        rw [loop_next hs htail (Nat.lt_succ_self _) (hexByte_point hs hd hp), hnext, hscan]
        rfl
      · refine hexDigits_stop hs he hfits ?_
        rintro _ ⟨⟩
        exact ⟨hd, hp⟩

end Digits

/-! ### Written exponents -/

section Exponents
variable {sign : List UInt8}

theorem isDigit_lt (h : isDigit b) : b.toNat < 0x80 := by
  have hb := (isDigit_iff.1 h).2
  omega

theorem exponentSign_facing (hs : sign ++ r <:+ env.source) (hsign : Signed negative sign r) :
    exponentSign env (env.facing (sign ++ r) d) = .ok (negative, env.facing r d) := by
  rw [exponentSign, bind_of_ok (peek_facing hs)]
  rcases hsign with ⟨rfl, ⟨rfl, hr⟩ | rfl⟩ | ⟨rfl, rfl⟩
  · rcases r with - | ⟨b, r⟩
    · rfl
    · obtain ⟨hminus, hplus⟩ := hr b rfl
      rw [List.nil_append, List.head?_cons, if_neg (by simpa using hminus),
        if_neg (by simpa using hplus)]
      rfl
  · exact bind_of_ok (advance_facing hs rfl)
  · exact bind_of_ok (advance_facing hs rfl)

/-- The exponent that digits are written for, and the rest. -/
theorem readHexExponent_eq (hsign : Signed negative sign r) :
    (readHexExponent (sign ++ r)).map (fun p => ((p.1, p.2.1), p.2.2.1)) =
      if malformed ((r.takeWhile isDigit).map byteChar) then
        .error ⟨.hexExponent, (r.dropWhile isDigit).length⟩
      else .ok ((negative, Text.ofDigits ((r.takeWhile isDigit).map byteChar)),
        r.dropWhile isDigit) := by
  have hdigits {u : List UInt8} (hl : (r.dropWhile isDigit).length ≤ u.length) :
      (if malformed ((r.takeWhile isDigit).map byteChar) then
        failAt .hexExponent (r.dropWhile isDigit)
      else .ok (negative, Text.ofDigits ((r.takeWhile isDigit).map byteChar),
        (⟨r.dropWhile isDigit, hl⟩ : Rest u))).map (fun p => ((p.1, p.2.1), p.2.2.1)) =
      if malformed ((r.takeWhile isDigit).map byteChar) then
        .error ⟨.hexExponent, (r.dropWhile isDigit).length⟩
      else .ok ((negative, Text.ofDigits ((r.takeWhile isDigit).map byteChar)),
        r.dropWhile isDigit) := by
    split <;> rfl
  rcases hsign with ⟨rfl, ⟨rfl, hr⟩ | rfl⟩ | ⟨rfl, rfl⟩
  · rcases r with - | ⟨b, r⟩
    · rfl
    · obtain ⟨hminus, hplus⟩ := hr b rfl
      rw [List.nil_append, readHexExponent]
      simp only [hminus, hplus, if_false]
      exact hdigits _
  · exact hdigits _
  · exact hdigits _

theorem signed_of_lt {n : Nat} (hn : n < 2 ^ 63) :
    signed negative n env c = .ok (signedExponent negative n, c) := by
  cases negative with
  | false => rfl
  | true =>
    refine keep_of_holds ?_
    rw [holds_long]
    omega

theorem addExponent_facing (hs : sign ++ r <:+ env.source) (hsign : Signed negative sign r)
    (he : y = cut e) (hfits : Fits env e) :
    addExponent y env (env.facing (sign ++ r) d) =
      if malformed ((r.takeWhile isDigit).map byteChar) then
        .error (.fault ⟨.hexExponent, env.source.length - (r.dropWhile isDigit).length⟩)
      else if Fits env (e + signedExponent negative
          (Text.ofDigits ((r.takeWhile isDigit).map byteChar))) then
        .ok (cut (e + signedExponent negative
          (Text.ofDigits ((r.takeWhile isDigit).map byteChar))), env.facing (r.dropWhile isDigit) d)
      else .error (.breach .overflow) := by
  have hr := suffix_right hs
  have hsplit := List.takeWhile_append_dropWhile (p := isDigit) (l := r)
  have hslice := slice_facing (c := env.facing (r.dropWhile isDigit) d) (hsplit.symm ▸ hr) d d
  rw [hsplit] at hslice
  have hascii : ∀ b ∈ r.takeWhile isDigit, b.toNat < 0x80 := fun b hb =>
    isDigit_lt (List.mem_takeWhile_imp hb)
  rw [addExponent, bind_of_ok (exponentSign_facing hs hsign), bind_here,
    bind_of_ok (skipWhile_facing isDigit hr), bind_here, bind_of_ok hslice,
    bind_of_ok (decode_ascii hascii), String.toList_ofList]
  by_cases hm : malformed ((r.takeWhile isDigit).map byteChar)
  · rw [if_pos hm, if_pos hm]
    rfl
  · rw [if_neg hm, if_neg hm]
    have hlt : Text.ofDigits ((r.takeWhile isDigit).map byteChar) < 2 ^ 63 := by
      rw [malformed, Bool.or_eq_true, decide_eq_true_eq, not_or, Nat.not_le] at hm
      exact hm.2
    rw [bind_of_ok (signed_of_lt hlt), he]
    exact keep_cut hfits

end Exponents

/-! ### Hexadecimal numerals -/

section Hexadecimal
variable {u sign : List UInt8} {mark : UInt8} {fraction : Option Nat}

/-- The exponent of two behind the digits, of which these follow the point. -/
def pointExponent (fraction : Option Nat) : Int :=
  0 - 4 * (fraction.getD 0 : Nat)

theorem pointExponent_add (fraction : Option Nat) (e : Int) :
    pointExponent fraction + e = e - 4 * (fraction.getD 0 : Nat) := by
  rw [pointExponent]
  omega

theorem hexDigits_facing (hs : u ++ r <:+ env.source)
    (hscan : readHexDigits false (u ++ r) = ⟨ds, fraction.getD 0, fraction.isSome, r⟩) :
    hexDigits env (env.facing (u ++ r) d) =
      if Fits env (pointExponent fraction) then
        .ok (⟨ds.foldl (fun n d => n * 16 + UInt64.ofNat d) 0, ds.foldl pushHexDigit (.zero false),
          cut (pointExponent fraction), ds.length, fraction.isSome⟩, env.facing r d)
      else .error (.breach .overflow) := by
  have hlen := hs.length_le
  have h := hexDigits_loop (h := ⟨0, .zero false, 0, 0, false⟩) (e := 0) (d := d) hs
    (by rwa [Nat.zero_add]) rfl fits_zero le_rfl
  rw [HexState.outcome, hscan, HexState.behind, Nat.zero_add] at h
  exact h

theorem scaled_cut (ds : List Nat) (e : Int) :
    scaled (ds.foldl pushHexDigit (.zero false)) (cut e) env c =
      .ok (.float (hexFloat ds (Int64.ofInt e)), c) := by
  have hmin : Int32.minValue.toInt = -2 ^ 31 := rfl
  have hmax : Int32.maxValue.toInt = 2 ^ 31 - 1 := rfl
  have hholds : Width.int.Holds (max Int32.minValue.toInt (min Int32.maxValue.toInt (cut e))) := by
    simp only [Width.Holds, Width.least, Width.int, if_true]
    omega
  rw [scaled, bind_of_ok (keep_of_holds hholds)]
  rfl

theorem hexNumeral_overflow (start : Nat) (hs : u ++ r <:+ env.source)
    (hscan : readHexDigits false (u ++ r) = ⟨ds, fraction.getD 0, fraction.isSome, r⟩)
    (hf : ¬ Fits env (pointExponent fraction)) :
    hexNumeral start env (env.facing (u ++ r) d) = .error (.breach .overflow) := by
  have hdigits := hexDigits_facing (d := d) hs hscan
  rw [if_neg hf] at hdigits
  exact bind_of_error hdigits

theorem hexNumeral_empty (start : Nat) (hs : u ++ r <:+ env.source)
    (hscan : readHexDigits false (u ++ r) = ⟨[], fraction.getD 0, fraction.isSome, r⟩)
    (hf : Fits env (pointExponent fraction)) :
    hexNumeral start env (env.facing (u ++ r) d) = .error (.fault ⟨.noHexDigits, start⟩) := by
  have hdigits := hexDigits_facing (d := d) hs hscan
  rw [if_pos hf] at hdigits
  rw [hexNumeral, bind_of_ok hdigits]
  rfl

theorem hexNumeral_plain_facing (start : Nat) (hs : u ++ r <:+ env.source)
    (hscan : readHexDigits false (u ++ r) = ⟨ds, fraction.getD 0, fraction.isSome, r⟩)
    (hf : Fits env (pointExponent fraction)) (hne : ds ≠ [])
    (hp : ∀ b ∈ r.head?, b ≠ ascii 'p' ∧ b ≠ ascii 'P') :
    hexNumeral start env (env.facing (u ++ r) d) = .ok (hexPlain ds fraction, env.facing r d) := by
  have hdigits := hexDigits_facing (d := d) hs hscan
  rw [if_pos hf] at hdigits
  have hpower : ¬ (r.head?.any fun b => b == ascii 'p' || b == ascii 'P') = true := by
    rcases r with - | ⟨b, r⟩
    · nofun
    · simpa using hp b rfl
  have hlen : ds.length ≠ 0 := fun h => hne (List.length_eq_zero_iff.1 h)
  rw [hexNumeral, bind_of_ok hdigits, if_neg hlen, bind_of_ok (peek_facing (suffix_right hs)),
    if_neg hpower]
  cases fraction with
  | none => rfl
  | some fraction =>
    have hexponent : pointExponent (some fraction) = signedExponent false 0 - 4 * fraction := rfl
    rw [hexPlain, hexExponent_eq, ← hexponent]
    exact scaled_cut ds _

theorem hexNumeral_scaled_facing (start : Nat) (hs : u ++ mark :: (sign ++ r) <:+ env.source)
    (hscan : readHexDigits false (u ++ mark :: (sign ++ r)) =
      ⟨ds, fraction.getD 0, fraction.isSome, mark :: (sign ++ r)⟩)
    (hf : Fits env (pointExponent fraction)) (hne : ds ≠ [])
    (hm : mark = ascii 'p' ∨ mark = ascii 'P') (hsign : Signed negative sign r) :
    hexNumeral start env (env.facing (u ++ mark :: (sign ++ r)) d) =
      if malformed ((r.takeWhile isDigit).map byteChar) then
        .error (.fault ⟨.hexExponent, env.source.length - (r.dropWhile isDigit).length⟩)
      else if Fits env (pointExponent fraction + signedExponent negative
          (Text.ofDigits ((r.takeWhile isDigit).map byteChar))) then
        .ok (.float (hexFloat ds (Int64.ofInt (pointExponent fraction + signedExponent negative
          (Text.ofDigits ((r.takeWhile isDigit).map byteChar))))),
          env.facing (r.dropWhile isDigit) d)
      else .error (.breach .overflow) := by
  have hdigits := hexDigits_facing (d := d) hs hscan
  rw [if_pos hf] at hdigits
  have hmark := suffix_right hs
  have hpower : (mark :: (sign ++ r)).head?.any fun b => b == ascii 'p' || b == ascii 'P' := by
    simpa using hm
  have hlen : ds.length ≠ 0 := fun h => hne (List.length_eq_zero_iff.1 h)
  have hadd := addExponent_facing (d := d) (suffix_tail hmark) hsign rfl hf
  rw [hexNumeral, bind_of_ok hdigits, if_neg hlen, bind_of_ok (peek_facing hmark), if_pos hpower,
    bind_of_ok (advance_cons hmark)]
  split
  · next h =>
    rw [if_pos h] at hadd
    exact bind_of_error hadd
  · next h =>
    rw [if_neg h] at hadd
    split
    · next h' =>
      rw [if_pos h'] at hadd
      rw [bind_of_ok hadd]
      exact scaled_cut ds _
    · next h' =>
      rw [if_neg h'] at hadd
      exact bind_of_error hadd

/-! ### Exponents below 64 bits -/

theorem fraction_le_length (pointed : Bool) (s : List UInt8) :
    (readHexDigits pointed s).fraction ≤ (readHexDigits pointed s).digits.length := by
  fun_induction readHexDigits pointed s with
  | case1 => exact le_rfl
  | case2 pointed b r d hd more ih =>
    have hle : more.fraction ≤ more.digits.length := ih
    simp only [List.length_cons]
    split <;> omega
  | case3 _ _ _ _ _ ih => exact ih
  | case4 => exact le_rfl

theorem sunken_point (hx : x = ascii 'x' ∨ x = ascii 'X')
    (hs : ascii '0' :: x :: (u ++ r) <:+ env.source) (hm : HexMantissa u ds fraction)
    (hf : ¬ Width.long.Holds (pointExponent fraction)) : Sunken env.source := by
  rw [holds_long, pointExponent] at hf
  cases fraction with
  | none => exact absurd hf (by simp)
  | some fraction =>
    rw [Option.getD_some] at hf
    refine ⟨_, ds, fraction, 0, ?_, .pointed hx hm, by decide, by omega⟩
    exact (List.prefix_append (ascii '0' :: x :: u) r).isInfix.trans hs.isInfix

theorem sunken_scaled (hx : x = ascii 'x' ∨ x = ascii 'X')
    (hs : ascii '0' :: x :: (u ++ mark :: (sign ++ r)) <:+ env.source)
    (hm : HexMantissa u ds fraction) (hmark : mark = ascii 'p' ∨ mark = ascii 'P')
    (hsign : Signed negative sign r)
    (hd : ¬ malformed ((r.takeWhile isDigit).map byteChar) = true)
    (hf : Width.long.Holds (pointExponent fraction))
    (hf' : ¬ Width.long.Holds (pointExponent fraction + signedExponent negative
      (Text.ofDigits ((r.takeWhile isDigit).map byteChar)))) : Sunken env.source := by
  have hdigits : ∀ b ∈ r.takeWhile isDigit, isDigit b := fun b hb => List.mem_takeWhile_imp hb
  have hs' : negative = false ∧ (sign = [] ∨ sign = [ascii '+']) ∨
      negative = true ∧ sign = [ascii '-'] := by
    rcases hsign with ⟨rfl, ⟨rfl, -⟩ | rfl⟩ | ⟨rfl, rfl⟩ <;> simp
  rw [malformed, Bool.or_eq_true, List.isEmpty_iff, List.map_eq_nil_iff, decide_eq_true_eq, not_or,
    Nat.not_le] at hd
  have hreal := HexReal.scaled hx hm hmark hs' hd.1 hdigits
  have hnat := natAbs_signedExponent negative (Text.ofDigits ((r.takeWhile isDigit).map byteChar))
  generalize signedExponent negative (Text.ofDigits ((r.takeWhile isDigit).map byteChar)) = written
    at hf' hreal hnat
  have hlt : written.natAbs < 2 ^ 63 := hnat ▸ hd.2
  rw [holds_long, pointExponent] at hf hf'
  refine ⟨_, ds, _, written, ?_, hreal, hlt, by omega⟩
  refine List.IsInfix.trans ⟨[], r.dropWhile isDigit, ?_⟩ hs.isInfix
  simp [List.takeWhile_append_dropWhile]

/-! ### Tracking -/

theorem hexNumeral_scaled_tracks (hx : x = ascii 'x' ∨ x = ascii 'X')
    (hs : ascii '0' :: x :: (u ++ mark :: (sign ++ r)) <:+ env.source)
    (hscan : readHexDigits false (u ++ mark :: (sign ++ r)) =
      ⟨ds, fraction.getD 0, fraction.isSome, mark :: (sign ++ r)⟩)
    (hm : HexMantissa u ds fraction) (hf : Fits env (pointExponent fraction))
    (hmark : mark = ascii 'p' ∨ mark = ascii 'P') (hsign : Signed negative sign r) :
    Tracks env d (hexNumeral start env (env.facing (u ++ mark :: (sign ++ r)) d))
      (rested (Literal.hexNumeral (ascii '0' :: x :: (u ++ mark :: (sign ++ r)))
        (u ++ mark :: (sign ++ r)))) := by
  have ht := suffix_tail (suffix_tail hs)
  have hread := readHexExponent_eq hsign
  rw [hexNumeral_scaled_facing _ ht hscan hf hm.ne_nil hmark hsign]
  by_cases hd : malformed ((r.takeWhile isDigit).map byteChar) = true
  · rw [if_pos hd] at hread ⊢
    cases he : readHexExponent (sign ++ r) with
    | error e =>
      rw [he] at hread
      cases hread
      rw [hexNumeral_refused _ hscan hm.ne_nil hmark he]
      exact .failFrom _ _ d (env.facing (r.dropWhile isDigit) d)
    | ok p =>
      rw [he] at hread
      cases hread
  · rw [if_neg hd] at hread ⊢
    obtain ⟨⟨n, w, rest, hl⟩, he, hp⟩ := map_eq_ok.1 hread
    cases hp
    obtain ⟨_, hnum⟩ := (hexNumeral_scaled (ascii '0' :: x :: (u ++ mark :: (sign ++ r))) hscan
      hm.ne_nil hmark).2 ⟨_, _, ⟨hl, he⟩, rfl⟩
    have hrest := suffix_right (suffix_tail (suffix_right ht))
    split
    · rw [hnum, hexExponent_eq, pointExponent_add]
      exact .ok _ ((List.dropWhile_suffix isDigit).trans hrest)
    · next hf' =>
      obtain ⟨hw, hf'⟩ := not_or.1 hf'
      rw [Bool.not_eq_true] at hw
      have hholds : Width.long.Holds (pointExponent fraction) :=
        hf.resolve_left (by simp [hw])
      exact .overflow hw (sunken_scaled hx hs hm hmark hsign hd hholds hf')

theorem hexNumeral_tracks (d' : Nat) (hx : x = ascii 'x' ∨ x = ascii 'X')
    (hs : ascii '0' :: x :: t <:+ env.source) :
    Tracks env d (hexNumeral (env.facing (ascii '0' :: x :: t) d').pos env (env.facing t d))
      (rested (Literal.hexNumeral (ascii '0' :: x :: t) t)) := by
  have ht := suffix_tail (suffix_tail hs)
  obtain ⟨u, ds, fraction, r, rfl, hscan, hmantissa⟩ := readHexDigits_sound t
  by_cases hf : Fits env (pointExponent fraction)
  · by_cases hne : ds = []
    · subst hne
      rw [hexNumeral_none _ (by rw [hscan]), hexNumeral_empty _ ht hscan hf]
      exact .failFrom _ _ d' (env.facing r d)
    by_cases hp : ∃ mark ∈ r.head?, mark = ascii 'p' ∨ mark = ascii 'P'
    · obtain ⟨mark, hr, hmark⟩ := hp
      obtain ⟨r, rfl⟩ := List.head?_eq_some_iff.1 hr
      obtain ⟨negative, sign, r, rfl, hsign⟩ := signed_split r
      exact hexNumeral_scaled_tracks hx hs hscan (hmantissa hne) hf hmark hsign
    · have hplain : ∀ b ∈ r.head?, b ≠ ascii 'p' ∧ b ≠ ascii 'P' :=
        fun b hb => not_or.1 fun he => hp ⟨b, hb, he⟩
      obtain ⟨_, he⟩ := hexNumeral_plain (ascii '0' :: x :: (u ++ r)) hscan hne hplain
      rw [he, hexNumeral_plain_facing _ ht hscan hf hne hplain]
      exact .ok _ (suffix_right ht)
  · obtain ⟨hw, hf'⟩ := not_or.1 hf
    rw [Bool.not_eq_true] at hw
    have hne : ds ≠ [] := by
      rintro rfl
      have hle := fraction_le_length false (u ++ r)
      rw [hscan] at hle
      have hzero : fraction.getD 0 = 0 := Nat.le_zero.1 hle
      exact hf' (by rw [pointExponent, hzero, holds_long]; decide)
    rw [hexNumeral_overflow _ ht hscan hf]
    exact .overflow hw (sunken_point hx hs (hmantissa hne) hf')

end Hexadecimal

end MobDebug.Literal.Cursor
