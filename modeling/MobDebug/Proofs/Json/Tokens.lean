import MobDebug.Proofs.Json.Reader
import MobDebug.Proofs.Double.Shortest

/-! Strings and numbers are read back from what is written of them, whatever stands behind. -/
namespace MobDebug.Json
open Double (IsExponent IsNumeral)

variable {c : Char} {cs rest : List Char} {n : Nat}

/-- What stands behind a tree inside another, or at the end of the text. -/
def Ends (rest : List Char) : Prop :=
  ∀ c ∈ rest.head?, c = ',' ∨ c = ']' ∨ c = '\x7d'

theorem ends_cons (hc : c = ',' ∨ c = ']' ∨ c = '\x7d') (rest : List Char) : Ends (c :: rest) := by
  rintro _ ⟨⟩
  exact hc

theorem Ends.notMem (h : Ends rest) (hc : c ≠ ',' ∧ c ≠ ']' ∧ c ≠ '\x7d') : c ∉ rest.head? := by
  intro hm
  rcases h c hm with rfl | rfl | rfl
  · exact hc.1 rfl
  · exact hc.2.1 rfl
  · exact hc.2.2 rfl

theorem Ends.notDigit (h : Ends rest) : ∀ c ∈ rest.head?, c.isDigit = false := by
  intro c hc
  rcases h c hc with rfl | rfl | rfl <;> rfl

/-! Strings -/

theorem hexValue?_digitChar : ∀ d < 16, Text.hexValue? (Nat.digitChar d) = some d := by
  decide

theorem readUnits?_low (hn : n < 0x20) (rest : List Char) :
    readUnits? ('0' :: '0' :: ((twoHexDigits n).toList ++ rest)) = some (Char.ofNat n, rest) := by
  have hhigh := hexValue?_digitChar (n / 16 % 16) (by omega)
  have hlow := hexValue?_digitChar (n % 16) (by omega)
  have hvalue : n / 16 % 16 * 16 + n % 16 = n := by omega
  have hzero : Text.hexValue? '0' = some 0 := rfl
  have hunit : readUnit? ('0' :: '0' :: ((twoHexDigits n).toList ++ rest)) = some (n, rest) := by
    simp [readUnit?, twoHexDigits, hzero, hhigh, hlow, hvalue]
  have hplain : (n < 0xd800 || 0xdfff < n) = true := by
    rw [Bool.or_eq_true, decide_eq_true_eq]
    exact .inl (by omega)
  rw [readUnits?, hunit]
  simp only [Option.bind_eq_bind, Option.bind_some, hplain, if_true]

theorem readChar?_plain (hquote : c ≠ '"') (hslash : c ≠ '\\') (hlow : ¬ c.toNat < 0x20)
    (rest : List Char) : readChar? (c :: rest) = some (c, rest) := by
  have hplain : (c = '"' || c = '\\' || c.toNat < 0x20) = false := by
    simp only [hquote, hslash, hlow, decide_false, Bool.or_self]
  unfold readChar?
  split
  · next h => exact absurd (List.cons.inj h).1 hslash
  · next h => exact absurd (List.cons.inj h).1 hslash
  · next h =>
    cases h
    rw [hplain, if_neg Bool.false_ne_true]
  · next h => cases h

/-- A character is read back as it is written. -/
theorem readChar?_escape (c : Char) (rest : List Char) :
    readChar? ((escapeChar c).toList ++ rest) = some (c, rest) := by
  unfold escapeChar
  split
  case h_8 hquote hslash _ _ _ _ _ =>
    split
    · next hlow =>
      have h := readUnits?_low hlow rest
      rw [Char.ofNat_toNat] at h
      rw [String.toList_append]
      exact h
    · next hlow =>
      rw [Char.toString_eq_singleton, String.toList_singleton]
      exact readChar?_plain (fun he => hquote he) (fun he => hslash he) hlow rest
  all_goals rfl

/-- So is a text between quotes. -/
theorem readChars?_escaped (h : cs.length < n) (rest : List Char) :
    readChars? n (cs.flatMap (fun c => (escapeChar c).toList) ++ '"' :: rest) =
      some (cs, rest) := by
  induction cs generalizing n with
  | nil =>
    cases n with
    | zero => cases h
    | succ n => rfl
  | cons c cs ih =>
    cases n with
    | zero => cases h
    | succ n =>
      rw [List.flatMap_cons, List.append_assoc, readChars?, readChar?_escape]
      dsimp only
      rw [ih (Nat.lt_of_succ_lt_succ h)]
      rfl

theorem toList_renderString (s : String) : (renderString s).toList =
    '"' :: (s.toList.flatMap (fun c => (escapeChar c).toList) ++ ['"']) := by
  rw [renderString, String.toList_append, String.toList_append, String.toList_join,
    List.flatMap_map]
  rfl

/-! Numbers -/

theorem readWhole?_digits (hd : ∀ c ∈ cs, c.isDigit) (hne : cs ≠ [])
    (hz : cs = ['0'] ∨ cs.head? ≠ some '0') (hr : ∀ c ∈ rest.head?, c.isDigit = false) :
    readWhole? (cs ++ rest) = some (cs, rest) := by
  have hgood : (cs = [] || (cs.head? = some '0' && cs ≠ ['0'])) = false := by
    rcases hz with rfl | hz
    · rfl
    · simp only [hne, hz, decide_false, Bool.false_and, Bool.or_self]
  simp only [readWhole?, Text.takeWhile_run hd hr, Text.dropWhile_run hd hr, hgood,
    Bool.false_eq_true, if_false]

theorem readFraction?_none (h : '.' ∉ rest.head?) : readFraction? rest = some ([], rest) := by
  unfold readFraction?
  split
  · exact absurd rfl h
  · rfl

theorem readFraction?_digits (hd : ∀ c ∈ cs, c.isDigit) (hne : cs ≠ [])
    (hr : ∀ c ∈ rest.head?, c.isDigit = false) :
    readFraction? ('.' :: (cs ++ rest)) = some ('.' :: cs, rest) := by
  simp only [readFraction?, Text.takeWhile_run hd hr, Text.dropWhile_run hd hr, hne, if_false]

theorem readExponent?_none (h : 'e' ∉ rest.head?) (h' : 'E' ∉ rest.head?) :
    readExponent? rest = some ([], rest) := by
  cases rest with
  | nil => rfl
  | cons c rest =>
    have he : (c = 'e' || c = 'E') = false := by
      rw [Bool.or_eq_false_iff, decide_eq_false_iff_not, decide_eq_false_iff_not]
      exact ⟨fun hc => h (hc ▸ rfl), fun hc => h' (hc ▸ rfl)⟩
    rw [readExponent?, he, if_neg Bool.false_ne_true]

theorem readExponent?_exponent (h : IsExponent cs) (hr : ∀ c ∈ rest.head?, c.isDigit = false) :
    readExponent? (cs ++ rest) = some (cs, rest) := by
  obtain ⟨sign, ds, rfl, hsign, hne, hd⟩ := h
  have hs : readSign (sign ++ (ds ++ rest)) = (sign, ds ++ rest) := by
    rcases hsign with rfl | rfl | rfl
    · obtain ⟨d, ds, rfl⟩ := List.exists_cons_of_ne_nil hne
      have hdigit := hd d List.mem_cons_self
      unfold readSign
      split
      · next h =>
        obtain rfl : d = '-' := (List.cons.inj h).1
        cases hdigit
      · next h =>
        obtain rfl : d = '+' := (List.cons.inj h).1
        cases hdigit
      · rfl
    · rfl
    · rfl
  rw [List.cons_append, List.append_assoc]
  simp only [readExponent?, hs, Text.takeWhile_run hd hr, Text.dropWhile_run hd hr, hne,
    decide_true, Bool.true_or, if_true, if_false]

theorem readUnsigned?_toDigits (negative : Bool) (n : Nat) (hr : Ends rest) :
    readUnsigned? negative (Nat.toDigits 10 n ++ rest) =
      some (.int (if negative then -n else n), rest) := by
  have hz : Nat.toDigits 10 n = ['0'] ∨ (Nat.toDigits 10 n).head? ≠ some '0' := by
    rcases Nat.eq_zero_or_pos n with rfl | hn
    · exact .inl (Nat.toDigits_zero 10)
    · exact .inr (Text.head?_toDigits hn)
  have hwhole : readWhole? (Nat.toDigits 10 n ++ rest) = some (Nat.toDigits 10 n, rest) :=
    readWhole?_digits (fun c => Text.isDigit_toDigits) (Text.toDigits_ne_nil n) hz hr.notDigit
  have hfraction := readFraction?_none (hr.notMem (c := '.') (by decide))
  have hexponent := readExponent?_none (hr.notMem (c := 'e') (by decide)) (hr.notMem (by decide))
  simp [readUnsigned?, hwhole, hfraction, hexponent, Text.ofDigits_toDigits]

theorem readUnsigned?_numeral (negative : Bool) (h : IsNumeral cs) {x : Double}
    (hx : Double.read? false cs = some x) (hr : Ends rest) :
    readUnsigned? negative (cs ++ rest) =
      some (.float (if negative then x.negate else x), rest) := by
  obtain ⟨whole, fraction, exponent, rfl, hne, hz, hd, hf, he, hsome⟩ := h
  have hexponent : readExponent? (exponent ++ rest) = some (exponent, rest) := by
    rcases he with rfl | he
    · exact readExponent?_none (hr.notMem (by decide)) (hr.notMem (by decide))
    · exact readExponent?_exponent he hr.notDigit
  have hhead : ∀ c ∈ (exponent ++ rest).head?, c.isDigit = false ∧ c ≠ '.' := by
    intro c hc
    rcases he with rfl | ⟨sign, ds, rfl, -⟩
    · refine ⟨hr.notDigit c hc, ?_⟩
      rintro rfl
      exact hr.notMem (by decide) hc
    · obtain rfl : 'e' = c := Option.some.inj hc
      decide
  have hfraction :
      readFraction? (fraction ++ (exponent ++ rest)) = some (fraction, exponent ++ rest) := by
    rcases hf with rfl | ⟨ds, rfl, hds, hdigits⟩
    · exact readFraction?_none fun hc => (hhead '.' hc).2 rfl
    · exact readFraction?_digits hdigits hds fun c hc => (hhead c hc).1
  have hwhole : readWhole? (whole ++ (fraction ++ (exponent ++ rest))) =
      some (whole, fraction ++ (exponent ++ rest)) := by
    refine readWhole?_digits hd hne hz fun c hc => ?_
    rcases hf with rfl | ⟨ds, rfl, -⟩
    · exact (hhead c hc).1
    · obtain rfl : '.' = c := Option.some.inj hc
      decide
  have hfloat : (fraction = [] && exponent = []) = false := by
    rw [Bool.and_eq_false_iff, decide_eq_false_iff_not, decide_eq_false_iff_not]
    exact hsome
  simp only [readUnsigned?, List.append_assoc, hwhole, hfraction, hexponent, hfloat, hx,
    Option.bind_eq_bind, Option.bind_some, Bool.false_eq_true, if_false]

/-- What a number begins with. -/
def Numeric (cs : List Char) : Prop :=
  ∃ c ds, cs = c :: ds ∧ (c.isDigit ∨ c = '-')

theorem readNumber?_digit (hc : c.isDigit) :
    readNumber? (c :: cs) = readUnsigned? false (c :: cs) := by
  unfold readNumber?
  split
  · next h =>
    obtain rfl : c = '-' := (List.cons.inj h).1
    cases hc
  · rfl

theorem numeric_toDigits (n : Nat) : ∃ c ds, Nat.toDigits 10 n = c :: ds ∧ c.isDigit := by
  obtain ⟨c, ds, h⟩ := List.exists_cons_of_ne_nil (Text.toDigits_ne_nil n)
  exact ⟨c, ds, h, Text.isDigit_toDigits (h ▸ List.mem_cons_self)⟩

theorem numeric_int (i : Int) : Numeric (toString i).toList := by
  rw [Int.toString_eq_repr, Int.repr_eq_if]
  split
  · obtain ⟨c, ds, h, hc⟩ := numeric_toDigits i.toNat
    exact ⟨c, ds, by rw [Nat.toList_repr, h], .inl hc⟩
  · exact ⟨'-', _, by rw [String.toList_append]; rfl, .inr rfl⟩

/-- An integer is read back. -/
theorem readNumber?_int (i : Int) (hr : Ends rest) :
    readNumber? ((toString i).toList ++ rest) = some (.int i, rest) := by
  rw [Int.toString_eq_repr, Int.repr_eq_if]
  split
  · next hi =>
    obtain ⟨c, ds, h, hc⟩ := numeric_toDigits i.toNat
    have hread := readUnsigned?_toDigits false i.toNat hr
    rw [h, List.cons_append, ← readNumber?_digit hc, ← List.cons_append, ← h,
      if_neg Bool.false_ne_true, Int.toNat_of_nonneg hi] at hread
    rw [Nat.toList_repr, hread]
  · next hi =>
    have hread := readUnsigned?_toDigits true (-i).toNat hr
    rw [if_pos rfl, Int.toNat_of_nonneg (by omega), Int.neg_neg] at hread
    rw [String.toList_append, Nat.toList_repr]
    exact hread

theorem numeric_float (f : Double.Finite) : Numeric (f.render format).toList := by
  obtain ⟨text, htext, ⟨whole, fraction, exponent, hcs, hne, -, hd, -⟩, -⟩ :=
    Double.render_eq format f
  rw [htext]
  split
  · exact ⟨'-', text.toList, by rw [String.toList_append]; rfl, .inr rfl⟩
  · obtain ⟨c, ds, rfl⟩ := List.exists_cons_of_ne_nil hne
    exact ⟨c, _, by rw [String.toList_append, hcs]; rfl, .inl (hd c List.mem_cons_self)⟩

/-- A finite number is read back. -/
theorem readNumber?_float (f : Double.Finite) (hr : Ends rest) :
    readNumber? ((f.render format).toList ++ rest) = some (.float (.finite f), rest) := by
  obtain ⟨text, htext, hnum, hread⟩ := Double.render_eq format f
  have hunsigned := readUnsigned?_numeral f.negative hnum hread hr
  obtain ⟨whole, fraction, exponent, hcs, hne, -, hd, -⟩ := hnum
  obtain ⟨c, ds, rfl⟩ := List.exists_cons_of_ne_nil hne
  rw [htext, String.toList_append]
  cases hneg : f.negative with
  | true =>
    rw [hneg, if_pos rfl] at hunsigned
    rw [if_pos rfl]
    refine hunsigned.trans ?_
    simp [Double.negate, ← hneg]
  | false =>
    rw [hneg, if_neg Bool.false_ne_true] at hunsigned
    rw [if_neg Bool.false_ne_true]
    rw [hcs, List.cons_append, List.cons_append, ← readNumber?_digit (hd c List.mem_cons_self),
      ← List.cons_append, ← List.cons_append, ← hcs] at hunsigned
    refine hunsigned.trans ?_
    simp [← hneg]

end MobDebug.Json
