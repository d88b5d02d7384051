import MobDebug.Proofs.Double.Whole
import MobDebug.Proofs.Literal.HexReading
import Mathlib.Data.Int.ModEq
import Mathlib.Data.Nat.Digits.Defs

/-!
Integers in figures, with a minus or without. In base sixteen they wrap into 64 bits. In base ten
they are exact while their absolute value is below `2 ^ 63`, and from there on they are the nearest
double. Zeros in front of the figures are nothing, and none may stand in front of the mark of base
sixteen.
-/
namespace MobDebug.Literal

open Double (zeros)

variable {base d n limit : Nat} {z : Int} {i : Int64} {x : UInt8} {c : Char} {cs : List Char}
  {ds : List Nat} {t : List UInt8} {text other mark sign : String} {m : Number}

/-! ### Figures -/

/-- A figure of a base, letters in either case, and its value. -/
def Figure (base : Nat) (c : Char) (d : Nat) : Prop :=
  d < base ∧ (c = Nat.digitChar d ∨ c = (Nat.digitChar d).toUpper)

instance (base : Nat) (c : Char) (d : Nat) : Decidable (Figure base c d) :=
  inferInstanceAs (Decidable (_ ∧ _))

/-- A number in figures of a base, of which there is at least one. -/
def InFigures (base : Nat) (cs : List Char) (n : Nat) : Prop :=
  ∃ ds, ds ≠ [] ∧ List.Forall₂ (Figure base) cs ds ∧ Nat.ofDigits base ds.reverse = n

theorem Figure.hexDigit? (h : Figure 16 c d) : hexDigit? (ascii c) = some d := by
  obtain ⟨hd, rfl | rfl⟩ := h
  all_goals
    revert d
    decide

theorem Figure.digit (h : Figure 10 c d) : c.isDigit ∧ Text.digitValue c = d := by
  obtain ⟨hd, rfl | rfl⟩ := h
  all_goals
    revert d
    decide

theorem Figure.lt (h : Figure base c d) (hb : base ≤ 16) : c.toNat < 0x80 := by
  have hascii : ∀ d < 16,
      (Nat.digitChar d).toNat < 0x80 ∧ (Nat.digitChar d).toUpper.toNat < 0x80 := by decide
  obtain ⟨hd, rfl | rfl⟩ := h
  · exact (hascii d (Nat.lt_of_lt_of_le hd hb)).1
  · exact (hascii d (Nat.lt_of_lt_of_le hd hb)).2

/-- Put together from the first digit on, a number has its digits at their places. -/
theorem foldl_digits (base : Nat) (ds : List Nat) :
    ds.foldl (fun n d => n * base + d) 0 = Nat.ofDigits base ds.reverse := by
  rw [Nat.ofDigits_eq_foldr, List.foldr_reverse]
  congr 1
  funext n d
  rw [Nat.cast_id, Nat.add_comm, Nat.mul_comm]

theorem hexRun_figures (h : List.Forall₂ (Figure 16) cs ds) : HexRun (cs.map ascii) ds :=
  List.forall₂_map_left_iff.2 (h.imp fun _ _ hc => hc.hexDigit?)

theorem digits_figures (h : List.Forall₂ (Figure 10) cs ds) :
    (∀ c ∈ cs, c.isDigit) ∧ cs.map Text.digitValue = ds := by
  induction h with
  | nil => exact ⟨List.forall_mem_nil _, rfl⟩
  | cons hc _ ih =>
    obtain ⟨hdigit, hvalue⟩ := hc.digit
    exact ⟨List.forall_mem_cons.2 ⟨hdigit, ih.1⟩, by rw [List.map_cons, hvalue, ih.2]⟩

theorem InFigures.ne_nil (h : InFigures base cs n) : cs ≠ [] := by
  rintro rfl
  obtain ⟨ds, hne, h, -⟩ := h
  cases h
  exact hne rfl

theorem InFigures.lt (h : InFigures base cs n) (hb : base ≤ 16) : ∀ c ∈ cs, c.toNat < 0x80 := by
  obtain ⟨ds, -, h, -⟩ := h
  induction h with
  | nil => exact List.forall_mem_nil _
  | cons hc _ ih => exact List.forall_mem_cons.2 ⟨hc.lt hb, ih⟩

/-- Zeros in front change nothing. -/
theorem InFigures.behind_zeros (h : InFigures base cs n) (k : Nat) :
    InFigures base (List.replicate k '0' ++ cs) n := by
  obtain ⟨ds, hne, h, hn⟩ := h
  have hbase : 0 < base := by
    cases h with
    | nil => exact absurd rfl hne
    | cons hc _ => exact Nat.zero_lt_of_lt hc.1
  have hzeros : List.Forall₂ (Figure base) (List.replicate k '0') (List.replicate k 0) := by
    induction k with
    | zero => exact .nil
    | succ k ih => exact .cons ⟨hbase, .inl rfl⟩ ih
  refine ⟨List.replicate k 0 ++ ds, List.append_ne_nil_of_right_ne_nil _ hne,
    List.rel_append hzeros h, ?_⟩
  rw [List.reverse_append, List.reverse_replicate, Nat.ofDigits_append_replicate_zero, hn]

theorem zeros_ofList (k : Nat) (cs : List Char) :
    zeros k ++ String.ofList cs = String.ofList (List.replicate k '0' ++ cs) :=
  String.ofList_append.symm

/-! ### Numerals -/

/-- To wrap at every digit is to wrap once, by induction on the digits from the last. -/
theorem hexInteger_eq (ds : List Nat) : hexInteger ds = Int64.ofInt (hexNumber ds) := by
  have hfold : ds.foldl (fun n d => n * 16 + UInt64.ofNat d) 0 = UInt64.ofNat (hexNumber ds) := by
    induction ds using List.reverseRecOn with
    | nil => rfl
    | append_singleton ds d ih =>
      rw [List.foldl_append, ih, hexNumber_append, UInt64.ofNat_add, UInt64.ofNat_mul]
      rfl
  rw [hexInteger, hfold, UInt64.toInt64_ofNat', Int64.ofInt_eq_ofNat]

theorem bytes_mark (hm : mark ∈ ["0x", "0X"]) :
    ∃ x, (x = ascii 'x' ∨ x = ascii 'X') ∧ Text.bytes mark = [ascii '0', x] := by
  rcases List.mem_pair.1 hm with rfl | rfl
  · exact ⟨ascii 'x', .inl rfl, rfl⟩
  · exact ⟨ascii 'X', .inr rfl, rfl⟩

theorem InFigures.hexadecimal (h : InFigures 16 cs n) (hm : mark ∈ ["0x", "0X"]) :
    Numeral (Text.bytes (mark ++ String.ofList cs)) (.int (Int64.ofInt n)) := by
  obtain ⟨x, hx, hmark⟩ := bytes_mark hm
  rw [Text.bytes_append, hmark, bytes_ofList (h.lt (Nat.le_refl 16))]
  obtain ⟨ds, hne, h, rfl⟩ := h
  rw [← foldl_digits, ← hexNumber, ← hexInteger_eq]
  exact .hex hx (.whole (hexRun_figures h) hne)

/-- The number that an integer in base ten is read as. -/
def decimalNumber (z : Int) : Number :=
  if z.natAbs < 2 ^ 63 then .int (Int64.ofInt z) else .float (.ofInt z)

theorem negate_decimalNumber (z : Int) : (decimalNumber z).negate = decimalNumber (-z) := by
  rw [decimalNumber, decimalNumber, Int.natAbs_neg]
  split
  · rw [Number.negate, Int64.neg_ofInt]
  · rw [Number.negate, Double.negate_ofInt (by omega)]

theorem InFigures.readDecimal? (h : InFigures 10 cs n) :
    readDecimal? cs = some (decimalNumber n) := by
  have hcs := h.ne_nil
  obtain ⟨ds, -, h, rfl⟩ := h
  obtain ⟨hdigits, hvalues⟩ := digits_figures h
  have hall : cs.all Char.isDigit = true := List.all_eq_true.2 hdigits
  have hnumber : Text.ofDigits cs = Nat.ofDigits 10 ds.reverse := by
    rw [← foldl_digits, ← hvalues, List.foldl_map]
    rfl
  rw [Literal.readDecimal?, hall, Bool.true_and, Double.read?_digits false hdigits hcs, hnumber,
    ← Double.ofInt_natCast, ← Int64.ofInt_eq_ofNat, decimalNumber, Int.natAbs_natCast]
  simp only [decide_eq_true_eq, Nat.pow_eq]
  split <;> rfl

theorem InFigures.decimal (h : InFigures 10 cs n) :
    Numeral (Text.bytes (String.ofList cs)) (decimalNumber n) := by
  have hread := h.readDecimal?
  rw [bytes_ofList (h.lt (by decide))]
  exact .decimal ((readDecimal?_isSome h.ne_nil).1 (Option.isSome_of_eq_some hread)) hread

theorem readDecimal?_zeros (k : Nat) :
    readDecimal? (List.replicate (k + 1) '0') = some (decimalNumber 0) := by
  rw [List.replicate_succ']
  have hzero : InFigures 10 ['0'] 0 := ⟨[0], by decide, by decide, rfl⟩
  exact (hzero.behind_zeros k).readDecimal?

/-- Zeros in front of a mark are a numeral with the zero of the mark, and no name may follow it. -/
theorem numeral_zeros_mark (hx : x = ascii 'x' ∨ x = ascii 'X') (k : Nat) (t : List UInt8) :
    numeral (ascii '0') (List.replicate (k + 1) (ascii '0') ++ x :: t) =
      failAt .malformedNumber (x :: t) := by
  have hunmarked : ¬ HexMarked (ascii '0') (List.replicate (k + 1) (ascii '0') ++ x :: t) := by
    rintro ⟨-, y, ⟨⟩, hy⟩
    exact absurd hy (by decide)
  have hlen : decimalLength (List.replicate (k + 1) (ascii '0') ++ x :: t) = k + 1 := by
    have hzeros : ∀ c ∈ List.replicate (k + 1) '0', c.isDigit ∨ c = '.' := by
      intro c hc
      exact .inl (by rw [List.eq_of_mem_replicate hc]; rfl)
    have hstop : decimalLength (x :: t) = 0 := by
      rcases hx with rfl | rfl <;> cases t <;> rfl
    have happend := decimalLength_append hzeros (x :: t)
    rwa [List.map_replicate, List.length_replicate, hstop] at happend
  have hdecimal : ∃ hl, numeral.decimal (ascii '0')
      (List.replicate (k + 1) (ascii '0') ++ x :: t) = .ok (decimalNumber 0, ⟨x :: t, hl⟩) := by
    rw [decimal_eq_ok, hlen, List.take_left' List.length_replicate,
      List.drop_left' List.length_replicate, ← List.replicate_succ, List.map_replicate]
    exact ⟨readDecimal?_zeros (k + 1), rfl⟩
  obtain ⟨hl, hread⟩ := hdecimal
  rw [numeral_of_decimal hunmarked, hread]
  exact if_pos (by rcases hx with rfl | rfl <;> rfl)

/-! ### What is read -/

/-- The text is read as the integer of 64 bits that is congruent to `z`. -/
def ReadsWrapped (limit : Nat) (text : String) (z : Int) : Prop :=
  ∃ i : Int64, i.toInt ≡ z [ZMOD 2 ^ 64] ∧ read limit text = .ok (.number (.int i))

/-- The text is read as the integer `z`, or as the nearest double if its absolute value is `2 ^ 63`
or more. -/
def ReadsRounded (limit : Nat) (text : String) (z : Int) : Prop :=
  (z.natAbs < 2 ^ 63 →
    ∃ i : Int64, i.toInt = z ∧ read limit text = .ok (.number (.int i))) ∧
  (2 ^ 63 ≤ z.natAbs → read limit text = .ok (.number (.float (.ofInt z))))

/-- Just one integer of 64 bits is congruent to `z`. -/
theorem congruent_iff : i.toInt ≡ z [ZMOD 2 ^ 64] ↔ i = .ofInt z := by
  constructor
  · intro h
    have hmod : i.toInt % 2 ^ 64 = z % 2 ^ 64 := h
    have hlow := i.le_toInt
    have hhigh := i.toInt_lt
    rw [← Int64.toInt_inj, Int64.toInt_ofInt, Int64.size, Int.bmod]
    omega
  · rintro rfl
    rw [Int64.toInt_ofInt]
    exact Int.bmod_emod

theorem readsWrapped_iff :
    ReadsWrapped limit text z ↔ read limit text = .ok (.number (.int (.ofInt z))) := by
  constructor
  · rintro ⟨i, hi, hread⟩
    rwa [congruent_iff.1 hi] at hread
  · intro hread
    exact ⟨_, congruent_iff.2 rfl, hread⟩

theorem readsRounded_iff :
    ReadsRounded limit text z ↔ read limit text = .ok (.number (decimalNumber z)) := by
  rw [ReadsRounded, decimalNumber]
  split
  · next hlt =>
    have hz : (Int64.ofInt z).toInt = z := Int64.toInt_ofInt_of_le (by omega) (by omega)
    constructor
    · rintro ⟨hsmall, -⟩
      obtain ⟨i, rfl, hread⟩ := hsmall hlt
      rwa [Int64.ofInt_toInt]
    · intro hread
      exact ⟨fun _ => ⟨_, hz, hread⟩, fun hge => absurd hlt (Nat.not_lt.2 hge)⟩
  · next hge =>
    have hge := Nat.not_lt.1 hge
    constructor
    · rintro ⟨-, hlarge⟩
      exact hlarge hge
    · intro hread
      exact ⟨fun hlt => absurd hlt (Nat.not_lt.2 hge), fun _ => hread⟩

theorem Numeral.readsWrapped (h : Numeral (Text.bytes text) (.int (.ofInt z))) (limit : Nat) :
    ReadsWrapped limit text z ∧ ReadsWrapped limit ("-" ++ text) (-z) := by
  have hread := h.read_signed limit
  rw [Number.negate, Int64.neg_ofInt] at hread
  rwa [readsWrapped_iff, readsWrapped_iff]

theorem Numeral.readsRounded (h : Numeral (Text.bytes text) (decimalNumber z)) (limit : Nat) :
    ReadsRounded limit text z ∧ ReadsRounded limit ("-" ++ text) (-z) := by
  have hread := h.read_signed limit
  rw [negate_decimalNumber] at hread
  rwa [readsRounded_iff, readsRounded_iff]

/-- Numerals of one number are read alike. -/
theorem Numeral.read_alike (h : Numeral (Text.bytes text) m) (ho : Numeral (Text.bytes other) m)
    (hs : sign ∈ ["", "-"]) (limit : Nat) :
    read limit (sign ++ text) = read limit (sign ++ other) := by
  obtain ⟨hplain, hminus⟩ := h.read_signed limit
  obtain ⟨hplain', hminus'⟩ := ho.read_signed limit
  rcases List.mem_pair.1 hs with rfl | rfl
  · rw [String.empty_append, String.empty_append, hplain, hplain']
  · rw [hminus, hminus']

theorem InFigures.read_zeros_mark (h : InFigures 16 cs n) (hm : mark ∈ ["0x", "0X"])
    (hs : sign ∈ ["", "-"]) (k limit : Nat) :
    read limit (sign ++ (zeros (k + 1) ++ (mark ++ String.ofList cs))) =
      .error ⟨.malformedNumber, sign.length + k + 2⟩ := by
  obtain ⟨x, hx, hmark⟩ := bytes_mark hm
  have hbytes : Text.bytes (zeros (k + 1) ++ (mark ++ String.ofList cs)) =
      ascii '0' :: (List.replicate (k + 1) (ascii '0') ++ x :: cs.map ascii) := by
    rw [Text.bytes_append, Text.bytes_append, hmark, zeros, bytes_replicate (by decide),
      bytes_ofList (h.lt (Nat.le_refl 16)), List.cons_append, List.append_cons,
      ← List.replicate_succ', List.replicate_succ]
    rfl
  have hslash : ∀ c ∈ (List.replicate (k + 1) (ascii '0') ++ x :: cs.map ascii).head?,
      c ≠ ascii '/' := by
    rintro _ ⟨⟩
    decide
  have hrefused := numeral_read_refused hbytes (startsNumeral_of_isDigit rfl) hslash
    (numeral_zeros_mark hx k _) limit
  have hlength : (Text.bytes (zeros (k + 1) ++ (mark ++ String.ofList cs))).length =
      k + 2 + (x :: cs.map ascii).length := by
    rw [hbytes, List.length_cons, List.length_append, List.length_replicate, Nat.add_right_comm]
  generalize zeros (k + 1) ++ (mark ++ String.ofList cs) = text at hrefused hlength ⊢
  obtain ⟨hmem, hsign⟩ : sign ++ text ∈ [text, "-" ++ text] ∧
      (Text.bytes sign).length = sign.length := by
    rcases List.mem_pair.1 hs with rfl | rfl
    · exact ⟨by simp, rfl⟩
    · exact ⟨by simp, rfl⟩
  rw [hrefused _ hmem, Text.bytes_append, List.length_append, hsign, hlength, ← Nat.add_assoc,
    Nat.add_sub_cancel, ← Nat.add_assoc]

/-- Behind a mark, integers in figures of base sixteen wrap into 64 bits. In base ten they are exact
as far as 64 bits have room for both signs, and the nearest double beyond. A minus in front negates
the integer before it wraps or is rounded. Zeros in front of the figures change nothing, and in
front of a mark they are refused. -/
theorem integers_exact (limit : Nat) :
    (∀ cs n, InFigures 16 cs n → ∀ mark ∈ ["0x", "0X"],
      ReadsWrapped limit (mark ++ String.ofList cs) n ∧
      ReadsWrapped limit ("-" ++ (mark ++ String.ofList cs)) (-n) ∧
      ∀ k, ∀ sign ∈ ["", "-"],
        read limit (sign ++ (mark ++ (zeros k ++ String.ofList cs))) =
          read limit (sign ++ (mark ++ String.ofList cs)) ∧
        read limit (sign ++ (zeros (k + 1) ++ (mark ++ String.ofList cs))) =
          .error ⟨.malformedNumber, sign.length + k + 2⟩) ∧
    ∀ cs n, InFigures 10 cs n →
      ReadsRounded limit (String.ofList cs) n ∧
      ReadsRounded limit ("-" ++ String.ofList cs) (-n) ∧
      ∀ k, ∀ sign ∈ ["", "-"],
        read limit (sign ++ (zeros k ++ String.ofList cs)) =
          read limit (sign ++ String.ofList cs) := by
  refine ⟨fun cs n h mark hm => ?_, fun cs n h => ?_⟩
  · obtain ⟨hplain, hminus⟩ := (h.hexadecimal hm).readsWrapped limit
    refine ⟨hplain, hminus, fun k sign hs => ⟨?_, h.read_zeros_mark hm hs k limit⟩⟩
    rw [zeros_ofList]
    exact ((h.behind_zeros k).hexadecimal hm).read_alike (h.hexadecimal hm) hs limit
  · obtain ⟨hplain, hminus⟩ := h.decimal.readsRounded limit
    refine ⟨hplain, hminus, fun k sign hs => ?_⟩
    rw [zeros_ofList]
    exact (h.behind_zeros k).decimal.read_alike h.decimal hs limit

/-- The least integer is its own negation where it wraps, and a double in base ten. -/
theorem integers_exact_least :
    InFigures 16 "aB8000000000000000".toList (171 * 2 ^ 64 + 2 ^ 63) ∧
    read 0 "-0XaB8000000000000000" = .ok (.number (.int .minValue)) ∧
    read 0 "-00XaB8000000000000000" = .error ⟨.malformedNumber, 3⟩ ∧
    InFigures 10 "9223372036854775808".toList (2 ^ 63) ∧
    read 0 "-09223372036854775808" = .ok (.number (.float (.ofInt (-2 ^ 63)))) ∧
    InFigures 10 ['7'] 7 ∧ read 0 "-7" = .ok (.number (.int (-7))) := by
  have hwrapped : InFigures 16 "aB8000000000000000".toList (171 * 2 ^ 64 + 2 ^ 63) :=
    ⟨[10, 11, 8, 0, 0, 0, 0, 0, 0, 0, 0, 0, 0, 0, 0, 0, 0, 0], by decide, by decide, by decide⟩
  have hleast : InFigures 10 "9223372036854775808".toList (2 ^ 63) :=
    ⟨[9, 2, 2, 3, 3, 7, 2, 0, 3, 6, 8, 5, 4, 7, 7, 5, 8, 0, 8], by decide, by decide, by decide⟩
  have hseven : InFigures 10 ['7'] 7 := ⟨[7], by decide, by decide, by decide⟩
  obtain ⟨hhex, hdecimal⟩ := integers_exact 0
  obtain ⟨-, hminus, hzeros⟩ := hhex _ _ hwrapped "0X" (by decide)
  obtain ⟨-, ⟨-, hlarge⟩, halike⟩ := hdecimal _ _ hleast
  obtain ⟨-, ⟨hsmall, -⟩, -⟩ := hdecimal _ _ hseven
  obtain ⟨i, hi, hread⟩ := hsmall (by decide)
  obtain rfl : i = -7 := Int64.toInt_inj.1 hi
  exact ⟨hwrapped, readsWrapped_iff.1 hminus, (hzeros 0 "-" (by decide)).2, hleast,
    (halike 1 "-" (by decide)).trans (hlarge (by decide)), hseven, hread⟩

end MobDebug.Literal
