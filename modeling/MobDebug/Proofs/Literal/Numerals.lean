import MobDebug.Proofs.Double.Shortest
import MobDebug.Proofs.Literal.Names

/-! Numerals are read to their end, and numbers are read back from theirs. -/
namespace MobDebug.Literal

open Double (IsExponent IsNumeral)

variable {b : UInt8} {r s rest : List UInt8} {cs : List Char} {n : Number} {table : Parser Value}

/-- Where a digit starts, nothing but a numeral does. -/
theorem isDigit_ne (hb : isDigit b) {c : UInt8} (hc : isDigit c = false) : b ≠ c := by
  rintro rfl
  rw [hb] at hc
  cases hc

theorem decimalLength_cons (hb : isDigit b ∨ b = ascii '.') :
    decimalLength (b :: s) = decimalLength s + 1 := by
  have hb : (isDigit b || b == ascii '.') = true := by simpa using hb
  cases s with
  | nil => simp [decimalLength, hb]
  | cons c s => rw [decimalLength, if_pos hb]

theorem decimalLength_append (h : ∀ c ∈ cs, c.isDigit ∨ c = '.') (s : List UInt8) :
    decimalLength (cs.map ascii ++ s) = cs.length + decimalLength s := by
  induction cs with
  | nil => simp
  | cons c cs ih =>
    obtain ⟨hc, hcs⟩ := List.forall_mem_cons.1 h
    have hb : isDigit (ascii c) ∨ ascii c = ascii '.' := by
      rcases hc with hc | rfl
      · exact .inl (isDigit_ascii hc)
      · exact .inr rfl
    rw [List.map_cons, List.cons_append, decimalLength_cons hb, ih hcs, List.length_cons]
    omega

theorem decimalLength_follows (hr : Follows rest) : decimalLength rest = 0 := by
  cases rest with
  | nil => rfl
  | cons b rest =>
    rcases hr b rfl with rfl | rfl | rfl <;> cases rest <;> rfl

/-- An exponent mark of either case, a sign or none, and digits are taken together. -/
theorem decimalLength_mark {mark : Char} {sign ds : List Char} (hm : mark = 'e' ∨ mark = 'E')
    (hsign : sign = [] ∨ sign = ['-'] ∨ sign = ['+']) (hne : ds ≠ []) (hds : ∀ c ∈ ds, c.isDigit)
    (hr : decimalLength rest = 0) :
    decimalLength ((mark :: (sign ++ ds)).map ascii ++ rest) =
      (mark :: (sign ++ ds)).length := by
  have hd := decimalLength_append (fun d hd => .inl (hds d hd)) rest
  rw [hr] at hd
  have hpoint : (isDigit (ascii mark) || ascii mark == ascii '.') = false := by
    rcases hm with rfl | rfl <;> rfl
  have hmark : (ascii mark == ascii 'e' || ascii mark == ascii 'E') = true := by
    rcases hm with rfl | rfl <;> rfl
  rcases hsign with rfl | rfl | rfl
  · obtain ⟨d, ds, rfl⟩ := List.exists_cons_of_ne_nil hne
    have hdigit := isDigit_ascii (hds d List.mem_cons_self)
    have hplus : ascii d ≠ ascii '+' := isDigit_ne hdigit rfl
    have hminus : ascii d ≠ ascii '-' := isDigit_ne hdigit rfl
    have he : decimalLength (ascii mark :: ascii d :: (ds.map ascii ++ rest)) =
        decimalLength (ascii d :: (ds.map ascii ++ rest)) + 1 := by
      rw [decimalLength, hpoint, if_neg Bool.false_ne_true, if_pos hmark,
        if_neg (by simp [hplus, hminus])]
    exact he.trans (congrArg (· + 1) hd)
  all_goals
    have he (sign : UInt8) (hs : (sign == ascii '+' || sign == ascii '-') = true) :
        decimalLength (ascii mark :: sign :: (ds.map ascii ++ rest)) =
          decimalLength (ds.map ascii ++ rest) + 2 := by
      rw [decimalLength, hpoint, if_neg Bool.false_ne_true, if_pos hmark, if_pos hs]
    exact (he _ rfl).trans (congrArg (· + 2) hd)

theorem decimalLength_exponent (h : IsExponent cs) (hr : Follows rest) :
    decimalLength (cs.map ascii ++ rest) = cs.length := by
  obtain ⟨sign, ds, rfl, hsign, hne, hds⟩ := h
  exact decimalLength_mark (.inl rfl) hsign hne hds (decimalLength_follows hr)

/-- A numeral that is taken whole, whatever may follow it. -/
structure IsDecimal (cs : List Char) : Prop where
  head : ∃ c ds, cs = c :: ds ∧ c.isDigit
  chars : ∀ c ∈ cs, c.isDigit ∨ c = '.' ∨ c = 'e' ∨ c = '+' ∨ c = '-'
  whole : ∀ rest, Follows rest → decimalLength (cs.tail.map ascii ++ rest) + 1 = cs.length

theorem isDecimal_digits (h : ∀ c ∈ cs, c.isDigit) (hne : cs ≠ []) : IsDecimal cs := by
  obtain ⟨c, cs, rfl⟩ := List.exists_cons_of_ne_nil hne
  refine ⟨⟨c, cs, rfl, h c List.mem_cons_self⟩, fun d hd => .inl (h d hd), ?_⟩
  · intro rest hr
    rw [List.tail_cons, decimalLength_append fun d hd => .inl (h d (List.mem_cons_of_mem _ hd)),
      decimalLength_follows hr, List.length_cons]

theorem chars_exponent (h : IsExponent cs) :
    ∀ c ∈ cs, c.isDigit ∨ c = '.' ∨ c = 'e' ∨ c = '+' ∨ c = '-' := by
  obtain ⟨sign, ds, rfl, hsign, -, hds⟩ := h
  intro c hc
  rcases List.mem_cons.1 hc with rfl | hc
  · simp
  rcases List.mem_append.1 hc with hc | hc
  · rcases hsign with rfl | rfl | rfl <;> simp_all
  · exact .inl (hds c hc)

theorem isDecimal_numeral (h : IsNumeral cs) : IsDecimal cs := by
  obtain ⟨whole, fraction, exponent, rfl, hne, -, hw, hf, he, -⟩ := h
  obtain ⟨c, ds, rfl⟩ := List.exists_cons_of_ne_nil hne
  have hchars : ∀ d ∈ ds ++ fraction, d.isDigit ∨ d = '.' := by
    intro d hd
    rcases List.mem_append.1 hd with hd | hd
    · exact .inl (hw d (List.mem_cons_of_mem _ hd))
    rcases hf with rfl | ⟨fs, rfl, -, hf⟩
    · cases hd
    · rcases List.mem_cons.1 hd with rfl | hd
      · exact .inr rfl
      · exact .inl (hf d hd)
  rw [List.cons_append, ← List.append_assoc]
  refine ⟨⟨c, _, rfl, hw c List.mem_cons_self⟩, ?_, ?_⟩
  · intro d hd
    rcases List.mem_cons.1 hd with rfl | hd
    · exact .inl (hw d List.mem_cons_self)
    rcases List.mem_append.1 hd with hd | hd
    · exact (hchars d hd).imp_right .inl
    · rcases he with rfl | he
      · cases hd
      · exact chars_exponent he d hd
  · intro rest hr
    have hexp : decimalLength (exponent.map ascii ++ rest) = exponent.length := by
      rcases he with rfl | he
      · exact decimalLength_follows hr
      · exact decimalLength_exponent he hr
    rw [List.tail_cons, List.map_append, List.append_assoc, decimalLength_append hchars, hexp]
    simp only [List.length_cons, List.length_append]

theorem all_isDigit_numeral (h : IsNumeral cs) : cs.all Char.isDigit = false := by
  obtain ⟨whole, fraction, exponent, rfl, -, -, -, hf, he, hne⟩ := h
  rw [List.all_eq_false]
  rcases hf with rfl | ⟨fs, rfl, -⟩
  · rcases he with rfl | ⟨sign, ds, rfl, -⟩
    · simp at hne
    · exact ⟨'e', by simp, by decide⟩
  · exact ⟨'.', by simp, by decide⟩

theorem IsDecimal.lt (h : IsDecimal cs) : ∀ c ∈ cs, c.toNat < 0x80 := by
  intro c hc
  rcases h.chars c hc with hc | rfl | rfl | rfl | rfl
  · have := isDigit_bounds hc
    omega
  all_goals decide

/-- What stands second in a numeral, or behind it. -/
theorem IsDecimal.second (h : IsDecimal cs) (hr : Follows rest) :
    ∀ b ∈ (cs.tail.map ascii ++ rest).head?, b ≠ ascii 'x' ∧ b ≠ ascii 'X' ∧ b ≠ ascii '/' := by
  intro b hb
  cases hc : cs.tail with
  | nil =>
    rw [hc] at hb
    rcases hr b hb with rfl | rfl | rfl <;> decide
  | cons c ds =>
    rw [hc] at hb
    obtain rfl : ascii c = b := by simpa using hb
    have hmem : c ∈ cs := List.mem_of_mem_tail (hc ▸ List.mem_cons_self)
    rcases h.chars c hmem with hd | rfl | rfl | rfl | rfl
    · have hd := isDigit_iff.1 (isDigit_ascii hd)
      refine ⟨?_, ?_, ?_⟩ <;>
      · intro he
        rw [he] at hd
        exact absurd hd (by decide)
    all_goals decide

/-- A numeral is read whole. -/
theorem numeral_reads {c : Char} (h : IsDecimal (c :: cs)) (hn : readDecimal? (c :: cs) = some n)
    (hr : Follows rest) : Gives (numeral (ascii c) (cs.map ascii ++ rest)) n rest := by
  have hlen : decimalLength (cs.map ascii ++ rest) = (cs.map ascii).length := by
    have := h.whole rest hr
    simpa using this
  have htext : (ascii c :: (cs.map ascii ++ rest).take
      (decimalLength (cs.map ascii ++ rest))).map byteChar = c :: cs := by
    rw [hlen, List.take_left, ← List.map_cons, map_byteChar h.lt]
  have hrest : (cs.map ascii ++ rest).drop (decimalLength (cs.map ascii ++ rest)) = rest := by
    rw [hlen, List.drop_left]
  have hdecimal : ∃ hs, numeral.decimal (ascii c) (cs.map ascii ++ rest) = .ok (n, ⟨rest, hs⟩) := by
    refine ⟨by simp, ?_⟩
    simp only [numeral.decimal, htext, hn, hrest]
  have hend : rest.head?.any continuesName = false := by
    rw [Option.any_eq_false]
    intro b hb
    simpa using hr.head (by decide) b hb
  have hsecond := h.second hr
  rw [List.tail_cons] at hsecond
  generalize cs.map ascii ++ rest = s at hdecimal hsecond
  obtain ⟨hs, hdecimal⟩ := hdecimal
  refine ⟨Nat.lt_succ_of_le hs, ?_⟩
  unfold numeral
  cases s with
  | nil => simp only [hdecimal, hend, Bool.false_eq_true, if_false, Parsed.upTo]
  | cons x t =>
    obtain ⟨hx, hX, -⟩ := hsecond x rfl
    simp only [hx, hX, or_self, and_false, if_false, hdecimal, hend, Bool.false_eq_true,
      Parsed.upTo]

theorem startsNumeral_of_isDigit (hb : isDigit b) : startsNumeral (b :: r) := by
  cases r <;> simp [startsNumeral, hb]

theorem startsName_of_isDigit (hb : isDigit b) : startsName b = false := by
  rw [isDigit_iff] at hb
  rw [← Bool.not_eq_true, startsName_iff]
  omega

theorem solid_of_isDigit (hb : isDigit b) : Solid (b :: r) := by
  refine solid_cons ?_ (isDigit_ne hb rfl)
  rw [isDigit_iff] at hb
  rw [← Bool.not_eq_true, isSpace_iff]
  omega

/-- A numeral starts with a digit or a point. -/
theorem digit_or_point (hn : startsNumeral (b :: r)) : isDigit b ∨ b = ascii '.' := by
  cases r with
  | nil => exact .inl hn
  | cons c r =>
    simp only [startsNumeral, Bool.or_eq_true, Bool.and_eq_true, beq_iff_eq] at hn
    exact hn.imp_right And.left

theorem startsNumeral_ne (hn : startsNumeral (b :: r)) {c : UInt8} (hc : isDigit c = false)
    (hp : c ≠ ascii '.') : b ≠ c := by
  rcases digit_or_point hn with hb | rfl
  · exact isDigit_ne hb hc
  · exact hp.symm

theorem startsName_of_numeral (hn : startsNumeral (b :: r)) : startsName b = false := by
  rcases digit_or_point hn with hb | rfl
  · exact startsName_of_isDigit hb
  · rfl

theorem solid_of_numeral (hn : startsNumeral (b :: r)) : Solid (b :: r) := by
  rcases digit_or_point hn with hb | rfl
  · exact solid_of_isDigit hb
  · exact solid_cons rfl (by decide)

theorem literal_numeral (hn : startsNumeral (b :: r)) (hz : ∀ t,
      b :: r = ascii '0' :: ascii '/' :: ascii '0' :: t → t.head?.any continuesName) :
    literal table b r = (numeral b r).map (·.map .number) := by
  have h1 : b ≠ ascii '\x7b' := startsNumeral_ne hn rfl (by decide)
  have h2 : ¬ (b = ascii '"' ∨ b = ascii '\'') :=
    not_or.2 ⟨startsNumeral_ne hn rfl (by decide), startsNumeral_ne hn rfl (by decide)⟩
  have h3 : b ≠ ascii '[' := startsNumeral_ne hn rfl (by decide)
  have h4 : b ≠ ascii '-' := startsNumeral_ne hn rfl (by decide)
  simp only [literal, h1, h2, h3, h4, hn, if_false, if_true]
  rcases r with - | ⟨c, - | ⟨d, t⟩⟩
  · rfl
  · rfl
  · refine if_neg ?_
    rintro ⟨rfl, rfl, rfl, ht⟩
    rw [hz t rfl] at ht
    cases ht

theorem literal_of_numeral (hn : startsNumeral (b :: r)) (hr : ∀ c ∈ r.head?, c ≠ ascii '/') :
    literal table b r = (numeral b r).map (·.map .number) := by
  refine literal_numeral hn ?_
  rintro t ⟨⟩
  exact absurd rfl (hr _ rfl)

theorem literal_nan (hr : r.head?.any continuesName = false) :
    Gives (literal table (ascii '0') (ascii '/' :: ascii '0' :: r)) (.number (.float .nan)) r := by
  have hl : literal table (ascii '0') (ascii '/' :: ascii '0' :: r) =
      if ascii '0' = ascii '0' ∧ ascii '/' = ascii '/' ∧ ascii '0' = ascii '0' ∧
        !r.head?.any continuesName then
        .ok (.behind (ascii '0') (.behind (ascii '/')
          (.ofByte (.number (.float .nan)) (ascii '0') r)))
      else (numeral (ascii '0') (ascii '/' :: ascii '0' :: r)).map (·.map .number) := rfl
  rw [hl, if_pos (by simp [hr])]
  exact ⟨_, rfl⟩

theorem spells_decimal (h : IsDecimal cs) (hn : readDecimal? cs = some n) (hr : Follows rest) :
    Spells table (cs.map ascii ++ rest) (.number n) rest := by
  obtain ⟨c, ds, rfl, hc⟩ := h.head
  have hb := isDigit_ascii hc
  have hslash : ∀ b ∈ (ds.map ascii ++ rest).head?, b ≠ ascii '/' := by
    intro b hb
    exact (h.second hr b hb).2.2
  rw [List.map_cons, List.cons_append]
  refine spells_unnamed (solid_of_isDigit hb)
    ⟨isDigit_ne hb rfl, isDigit_ne hb rfl, isDigit_ne hb rfl⟩ (startsName_of_isDigit hb) ?_
  rw [literal_of_numeral (startsNumeral_of_isDigit hb) hslash]
  exact (numeral_reads h hn hr).map Value.number

/-- Behind a minus, a numeral is negated. -/
theorem spells_negative (h : IsDecimal cs) (hn : readDecimal? cs = some n) (hr : Follows rest) :
    Spells table (ascii '-' :: (cs.map ascii ++ rest)) (.number n.negate) rest := by
  obtain ⟨c, ds, rfl, hc⟩ := h.head
  have hb := isDigit_ascii hc
  refine spells_unnamed (solid_minus (isDigit_ne hb rfl)) (by decide) (by decide) ?_
  obtain ⟨hl, hs⟩ := skips_solid (s := ascii c :: (ds.map ascii ++ rest)) (solid_of_isDigit hb)
  have hname : name? (ascii c :: (ds.map ascii ++ rest)) = none := by
    simp [name?, startsName_of_isDigit hb]
  have hnegated : Gives (negated (ascii c :: (ds.map ascii ++ rest))) (.number n.negate) rest := by
    obtain ⟨hrest, hnum⟩ := numeral_reads h hn hr
    refine ⟨Nat.lt_of_lt_of_le hrest hl, ?_⟩
    simp only [negated, bind, Except.bind, hs, hname, Option.map_none, reduceCtorEq, if_false,
      startsNumeral_of_isDigit hb, if_true, hnum]
    rfl
  exact hnegated.behind _

end MobDebug.Literal
