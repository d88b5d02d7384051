import MobDebug.Proofs.Literal.Numerals

/-! Numbers are read back from their text, but for the least integer, which comes back as the float
that it equals. -/
namespace MobDebug.Literal

variable {r rest : List UInt8} {cs : List Char} {n : Number} {x : Double} {i : Int64}
  {table : Parser Value}

/-- The number that the text of a number is read as. -/
def Number.reread : Number → Number
  | .int i => if i = .minValue then .float (.ofInt i.toInt) else .int i
  | .float x => .float x

theorem Number.equal_reread (hn : n ≠ .float .nan) : n.equal n.reread ∧ n.reread.equal n := by
  cases n with
  | int i =>
    by_cases hi : i = .minValue
    · subst hi
      decide
    · simp [Number.reread, hi, Number.equal]
  | float x =>
    cases x with
    | nan => exact absurd rfl hn
    | infinite negative => simp [Number.reread, Number.equal, Double.equal]
    | finite f => simp [Number.reread, Number.equal, Double.equal]

theorem readDecimal?_digits {k : Nat} (hk : k < Nat.pow 2 63) :
    readDecimal? (Nat.toDigits 10 k) = some (.int (Int64.ofNat k)) := by
  have hall : (Nat.toDigits 10 k).all Char.isDigit = true := by
    rw [List.all_eq_true]
    intro c hc
    exact Text.isDigit_toDigits hc
  rw [readDecimal?, Text.ofDigits_toDigits, hall]
  simp only [hk, decide_true, Bool.and_self, if_true]

theorem readDecimal?_least :
    readDecimal? (Nat.toDigits 10 (Nat.pow 2 63)) = some (.float (.ofInt (2 ^ 63))) := by
  decide

theorem readDecimal?_numeral (h : Double.IsNumeral cs) (hx : Double.read? false cs = some x) :
    readDecimal? cs = some (.float x) := by
  rw [readDecimal?, all_isDigit_numeral h, hx]
  rfl

theorem isDecimal_toDigits (k : Nat) : IsDecimal (Nat.toDigits 10 k) :=
  isDecimal_digits (fun _ => Text.isDigit_toDigits) Nat.toDigits_ne_nil

theorem bytes_toDigits (k : Nat) :
    Text.bytes (String.ofList (Nat.toDigits 10 k)) = (Nat.toDigits 10 k).map ascii :=
  bytes_ofList (isDecimal_toDigits k).lt

theorem ofNat_toNat {z : Int} (hz : 0 ≤ z) : Int64.ofNat z.toNat = Int64.ofInt z := by
  rw [← Int64.ofInt_eq_ofNat, Int.toNat_of_nonneg hz]

theorem spells_nonneg (hi : 0 ≤ i.toInt) (hr : Follows rest) :
    Spells table (Text.bytes (Number.int i).render ++ rest) (.number (.int i)) rest := by
  have hlt : i.toInt < 2 ^ 63 := i.toInt_lt
  have htext : (Number.int i).render = String.ofList (Nat.toDigits 10 i.toInt.toNat) := by
    rw [Number.render, Int.toString_eq_repr, Int.repr_eq_if, if_pos hi]
    rfl
  have hk : i.toInt.toNat < Nat.pow 2 63 := by
    change _ < 2 ^ 63
    omega
  have hn := readDecimal?_digits hk
  rw [ofNat_toNat hi, Int64.ofInt_toInt] at hn
  rw [htext, bytes_toDigits]
  exact spells_decimal (isDecimal_toDigits _) hn hr

theorem spells_least (hr : Follows rest) :
    Spells table (Text.bytes (Number.int .minValue).render ++ rest)
      (.number (.float (.ofInt Int64.minValue.toInt))) rest :=
  spells_negative (isDecimal_toDigits (Nat.pow 2 63)) readDecimal?_least hr

theorem spells_below_zero (hi : i.toInt < 0) (hmin : i ≠ .minValue) (hr : Follows rest) :
    Spells table (Text.bytes (Number.int i).render ++ rest) (.number (.int i)) rest := by
  have hle : -2 ^ 63 ≤ i.toInt := i.le_toInt
  have hne : i.toInt ≠ -2 ^ 63 := by
    intro he
    exact hmin (Int64.toInt.inj he)
  have htext : (Number.int i).render = "-" ++ String.ofList (Nat.toDigits 10 (-i.toInt).toNat) := by
    rw [Number.render, Int.toString_eq_repr, Int.repr_eq_if, if_neg (by omega)]
    rfl
  have hk : (-i.toInt).toNat < Nat.pow 2 63 := by
    change _ < 2 ^ 63
    omega
  have hs : Spells table _ (.number (Number.negate _)) rest :=
    spells_negative (isDecimal_toDigits _) (readDecimal?_digits hk) hr
  rw [ofNat_toNat (by omega), Number.negate, Int64.neg_ofInt, Int.neg_neg, Int64.ofInt_toInt] at hs
  rw [htext, Text.bytes_append, bytes_toDigits]
  exact hs

theorem spells_int (i : Int64) (hr : Follows rest) :
    Spells table (Text.bytes (Number.int i).render ++ rest)
      (.number (Number.int i).reread) rest := by
  by_cases hmin : i = .minValue
  · subst hmin
    exact spells_least hr
  · rw [Number.reread, if_neg hmin]
    by_cases hi : 0 ≤ i.toInt
    · exact spells_nonneg hi hr
    · exact spells_below_zero (by omega) hmin hr

theorem mathHuge_eq (hr : Follows rest) :
    Gives (mathHuge (Text.bytes "math.huge" ++ rest)) (.float (.infinite false)) rest := by
  have hend : rest.head?.any continuesName = false := by
    rw [Option.any_eq_false]
    intro b hb
    simpa using hr.continuesName b hb
  refine ⟨by simp; decide, ?_⟩
  unfold mathHuge
  split
  · next h =>
    rw [strip?_append] at h
    cases h
    simp only [hend, Bool.false_eq_true, if_false]
  · next h =>
    rw [strip?_append] at h
    cases h

/-- The name of infinity, in two parts. -/
theorem name?_huge (rest : List UInt8) :
    ∃ b t, Text.bytes "math.huge" ++ rest = b :: t ∧ startsName b ∧
      ∃ h, name? (b :: t) = some ⟨"math", Text.bytes ".huge" ++ rest, h⟩ := by
  have hw : IsWord "math" := ⟨'m', _, rfl, by decide, by decide⟩
  exact name?_bytes hw (by rintro _ ⟨⟩; rfl)

theorem spells_huge (hr : Follows rest) :
    Spells table (Text.bytes "math" ++ (Text.bytes ".huge" ++ rest))
      (.number (.float (.infinite false))) rest := by
  have hw : IsWord "math" := ⟨'m', _, rfl, by decide, by decide⟩
  have hdot : ∀ c ∈ (Text.bytes ".huge" ++ rest).head?, continuesName c = false := by
    rintro _ ⟨⟩
    rfl
  have hs : Solid (Text.bytes ".huge" ++ rest) := solid_cons rfl (by decide)
  have heq : (Text.bytes ".huge" ++ rest).head? ≠ some (ascii '=') := by
    rintro ⟨⟩
  refine spells_named hw hdot (equalsSign?_none (skips_solid hs) heq) ?_
  intro hl
  have hn : named (Text.bytes "math" ++ (Text.bytes ".huge" ++ rest)) ⟨"math", _, hl⟩ =
      (mathHuge (Text.bytes "math.huge" ++ rest)).map (·.map .number) := rfl
  rw [hn]
  exact (mathHuge_eq hr).map Value.number

theorem spells_minus_huge (hr : Follows rest) :
    Spells table (ascii '-' :: (Text.bytes "math.huge" ++ rest))
      (.number (.float (.infinite true))) rest := by
  have hgives := mathHuge_eq hr
  obtain ⟨b, t, ht, hb, hn, hname⟩ := name?_huge rest
  rw [ht] at hgives ⊢
  obtain ⟨hrest, hm⟩ := hgives
  obtain ⟨hl, hs⟩ := skips_solid (solid_of_startsName (r := t) hb)
  have hnegated : Gives (negated (b :: t)) (.number (.float (.infinite true))) rest := by
    refine ⟨hrest, ?_⟩
    simp only [negated, bind, Except.bind, hs, hname, Option.map_some, if_true, hm]
    rfl
  refine spells_unnamed (solid_minus (startsName_ne hb rfl)) (by decide) (by decide) ?_
  exact hnegated.behind _

theorem spells_finite (f : Double.Finite) (hr : Follows rest) :
    Spells table (Text.bytes (Number.float (.finite f)).render ++ rest)
      (.number (.float (.finite f))) rest := by
  obtain ⟨text, htext, hnum, hread⟩ := Double.render_eq Number.format f
  have hbytes : Text.bytes text = text.toList.map ascii := bytes_ascii (isDecimal_numeral hnum).lt
  have hn := readDecimal?_numeral hnum hread
  rw [Number.render, htext, Text.bytes_append, hbytes]
  obtain ⟨negative, m, e, hc⟩ := f
  cases negative with
  | false => exact spells_decimal (isDecimal_numeral hnum) hn hr
  | true =>
    rw [if_pos rfl]
    exact spells_negative (isDecimal_numeral hnum) hn hr

theorem spells_nan (hr : Follows rest) :
    Spells table (Text.bytes (Number.float .nan).render ++ rest) (.number (.float .nan)) rest := by
  refine spells_unnamed (solid_cons rfl (by decide)) (by decide) rfl (literal_nan ?_)
  rw [Option.any_eq_false]
  intro b hb
  simpa using hr.continuesName b hb

theorem spells_number (n : Number) (hr : Follows rest) :
    Spells table (Text.bytes n.render ++ rest) (.number n.reread) rest := by
  cases n with
  | int i => exact spells_int i hr
  | float x =>
    cases x with
    | nan => exact spells_nan hr
    | infinite negative =>
      cases negative with
      | false => exact spells_huge hr
      | true => exact spells_minus_huge hr
    | finite f => exact spells_finite f hr

end MobDebug.Literal
