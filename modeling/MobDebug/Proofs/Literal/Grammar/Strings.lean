import MobDebug.Proofs.Literal.Grammar.Numerals
import MobDebug.Proofs.Literal.Quotation

/-! Quoted strings are read as the grammar has them, escape by escape. -/
namespace MobDebug.Literal

variable {b q : UInt8} {r s t e read content rest : List UInt8} {ds : List Nat} {n m code : Nat}
  {next : Option UInt8}

/-! ### Digits in escapes -/

/-- The number of decimal digits, from the number of those before them. -/
def decimalFrom (n : Nat) (ds : List UInt8) : Nat :=
  ds.foldl (fun n b => n * 10 + (b.toNat - 48)) n

theorem ofDigits_byteChar (ds : List UInt8) :
    Text.ofDigits (ds.map byteChar) = decimalFrom 0 ds := by
  have hdigit (n : Nat) (b : UInt8) :
      n * 10 + Text.digitValue (byteChar b) = n * 10 + (b.toNat - 48) := by
    rw [Text.digitValue, toNat_byteChar]
    rfl
  simp only [Text.ofDigits, List.foldl_map, hdigit, decimalFrom]

theorem ofDigits_cons (b : UInt8) (ds : List UInt8) :
    Text.ofDigits ((b :: ds).map byteChar) = decimalFrom (b.toNat - 48) ds := by
  rw [ofDigits_byteChar, decimalFrom, List.foldl_cons, Nat.zero_mul, Nat.zero_add]
  rfl

theorem readDigits_sound (count n : Nat) (s : List UInt8) :
    ∃ ds t, s = ds ++ t ∧ ds.length ≤ count ∧ (∀ b ∈ ds, isDigit b) ∧
      (ds.length = count ∨ ∀ b ∈ t.head?, isDigit b = false) ∧
      ∃ h, readDigits count n s = (decimalFrom n ds, ⟨t, h⟩) := by
  induction count generalizing n s with
  | zero => exact ⟨[], s, rfl, Nat.le_refl _, by simp, .inl rfl, Nat.le_refl _, rfl⟩
  | succ count ih =>
    rcases s with - | ⟨b, s⟩
    · exact ⟨[], [], rfl, Nat.zero_le _, by simp, .inr (by simp), Nat.le_refl _, rfl⟩
    by_cases hb : isDigit b
    · obtain ⟨ds, t, rfl, hlen, hd, hstop, h, hr⟩ := ih (n * 10 + (b.toNat - 48)) s
      refine ⟨b :: ds, t, rfl, Nat.succ_le_succ hlen, List.forall_mem_cons.2 ⟨hb, hd⟩, ?_,
        Nat.le_succ_of_le h, ?_⟩
      · exact hstop.imp_left (congrArg (· + 1))
      · rw [readDigits, if_pos hb, hr]
        rfl
    · refine ⟨[], b :: s, rfl, Nat.zero_le _, by simp, .inr ?_, Nat.le_refl _, ?_⟩
      · simpa using hb
      · rw [readDigits, if_neg hb]
        rfl

theorem readDigits_complete {ds : List UInt8} {count : Nat} (hd : ∀ b ∈ ds, isDigit b)
    (hlen : ds.length ≤ count) (hstop : ds.length = count ∨ ∀ b ∈ t.head?, isDigit b = false) :
    ∃ h, readDigits count n (ds ++ t) = (decimalFrom n ds, ⟨t, h⟩) := by
  induction ds generalizing count n with
  | nil =>
    refine ⟨Nat.le_refl _, ?_⟩
    rcases count with - | count
    · rfl
    · rcases t with - | ⟨b, t⟩
      · rfl
      · have hb : isDigit b = false := (hstop.resolve_left (by simp)) b rfl
        change readDigits (count + 1) n (b :: t) = _
        rw [readDigits, hb, if_neg Bool.false_ne_true]
        rfl
  | cons b ds ih =>
    obtain ⟨hb, hd⟩ := List.forall_mem_cons.1 hd
    rcases count with - | count
    · simp at hlen
    obtain ⟨h, hr⟩ := @ih (n * 10 + (b.toNat - 48)) count hd (Nat.le_of_succ_le_succ hlen)
      (hstop.imp_left Nat.succ.inj)
    refine ⟨Nat.le_succ_of_le h, ?_⟩
    change readDigits (count + 1) n (b :: (ds ++ t)) = _
    rw [readDigits, if_pos hb, hr]
    rfl

/-- The number of hexadecimal digits, from the number of those before them. -/
def hexFrom (n : Nat) (ds : List Nat) : Nat :=
  ds.foldl (fun n d => n * 16 + d) n

theorem le_hexFrom (n : Nat) (ds : List Nat) : n ≤ hexFrom n ds := by
  induction ds generalizing n with
  | nil => exact Nat.le_refl n
  | cons d ds ih =>
    have := ih (n * 16 + d)
    simp only [hexFrom, List.foldl_cons] at this ⊢
    omega

theorem readCode_sound {any found : Bool} {h : rest.length ≤ s.length}
    (hs : readCode any n s = .ok (found, code, ⟨rest, h⟩)) :
    ∃ t ds, s = t ++ rest ∧ HexRun t ds ∧ code = hexFrom n ds ∧ found = (any || !ds.isEmpty) := by
  induction s generalizing any n with
  | nil =>
    cases hs
    exact ⟨[], [], rfl, .nil, rfl, by simp⟩
  | cons b s ih =>
    rw [readCode] at hs
    split at hs
    · next d hb =>
      split at hs
      · obtain ⟨⟨found, code, r, hr⟩, hmore, he⟩ := map_eq_ok.1 hs
        cases he
        obtain ⟨t, ds, ht, hrun, hcode, hfound⟩ := ih hmore
        refine ⟨b :: t, d :: ds, congrArg (b :: ·) ht, .cons hb hrun, hcode, ?_⟩
        simpa using hfound
      · cases hs
    · cases hs
      exact ⟨[], [], rfl, .nil, rfl, by simp⟩

theorem readCode_complete (any : Bool) (ht : HexRun t ds) (hlt : hexFrom n ds < UInt32.size)
    (hr : ∀ b ∈ rest.head?, hexDigit? b = none) :
    ∃ h, readCode any n (t ++ rest) = .ok (any || !ds.isEmpty, hexFrom n ds, ⟨rest, h⟩) := by
  induction ht generalizing any n with
  | nil =>
    refine ⟨Nat.le_refl _, ?_⟩
    rcases rest with - | ⟨b, rest⟩
    · simp [readCode, hexFrom, Rest.nothing]
    · change readCode any n (b :: rest) = _
      rw [readCode, hr b rfl]
      simp [hexFrom, Rest.all]
  | @cons b d t ds hb _ ih =>
    have hle := le_hexFrom (n * 16 + d) ds
    obtain ⟨h, hs⟩ := @ih (n * 16 + d) true hlt
    refine ⟨Nat.le_succ_of_le h, ?_⟩
    change readCode any n (b :: (t ++ rest)) = _
    rw [readCode, hb]
    dsimp only
    rw [if_pos (Nat.lt_of_le_of_lt hle hlt), hs]
    simp [Except.map, Rest.behind, hexFrom]

/-- A code point in braces, with any number of digits. -/
theorem codeEscape_sound {h : rest.length ≤ s.length}
    (hs : codeEscape s = .ok (read, ⟨rest, h⟩)) :
    ∃ t ds, s = ascii '\x7b' :: (t ++ ascii '\x7d' :: rest) ∧ HexRun t ds ∧ ds ≠ [] ∧
      (hexNumber ds).isValidChar ∧ read = String.utf8EncodeChar (Char.ofNat (hexNumber ds)) := by
  rcases s with - | ⟨b, s⟩
  · cases hs
  rw [codeEscape] at hs
  split at hs
  · cases hs
  · next hb =>
    split at hs
    · cases hs
    · next found code r hr hcode =>
      split at hs
      · cases hs
      · next c u hr' _ =>
        obtain ⟨t, ds, rfl, ht, rfl, rfl⟩ := readCode_sound hcode
        split at hs
        · cases hs
        · next hc =>
          split at hs
          · next hv =>
            cases hs
            simp only [Bool.false_or, Bool.not_not, Bool.or_eq_true, List.isEmpty_iff,
              bne_iff_ne, ne_eq, not_or, Decidable.not_not] at hb hc
            obtain ⟨hne, rfl⟩ := hc
            rw [hb]
            exact ⟨t, ds, rfl, ht, hne, hv, rfl⟩
          · cases hs

theorem codeEscape_complete (ht : HexRun t ds) (hne : ds ≠ []) (hv : (hexNumber ds).isValidChar)
    (rest : List UInt8) :
    ∃ h, codeEscape (ascii '\x7b' :: (t ++ ascii '\x7d' :: rest)) =
      .ok (String.utf8EncodeChar (Char.ofNat (hexNumber ds)), ⟨rest, h⟩) := by
  have hlt : hexFrom 0 ds < UInt32.size := by
    rcases hv with hv | ⟨-, hv⟩
    · exact Nat.lt_trans hv (by decide)
    · exact Nat.lt_trans hv (by decide)
  have hbrace : ∀ b ∈ (ascii '\x7d' :: rest).head?, hexDigit? b = none := by
    rintro _ ⟨⟩
    decide
  obtain ⟨h, hcode⟩ := readCode_complete false ht hlt hbrace
  have hany : ¬ (!(false || !ds.isEmpty) || false) = true := by simpa using hne
  refine ⟨by simp; omega, ?_⟩
  rw [codeEscape, hcode]
  simp only [bne_self_eq_false, Bool.false_eq_true, if_false]
  rw [if_neg hany, if_pos (show (hexFrom 0 ds).isValidChar from hv)]
  rfl

/-! ### Escapes -/

/-- All the space that follows belongs to the escape. -/
theorem escape_of_space (r : List UInt8) :
    Escape (ascii 'z' :: r.takeWhile isSpace) [] (r.dropWhile isSpace).head? := by
  refine .gap (fun b hb => List.mem_takeWhile_imp hb) fun b hb => ?_
  have := List.head?_dropWhile_not isSpace r
  rw [hb] at this
  simpa using this

/-- Up to three digits are one escape, if they are the number of a byte. -/
theorem escape_of_digits (hb : isDigit b) (r : List UInt8) :
    ∃ ds u h, r = ds ++ u ∧
      readDigits 2 (b.toNat - 48) r = (decimalFrom (b.toNat - 48) ds, ⟨u, h⟩) ∧
      (decimalFrom (b.toNat - 48) ds < 256 →
        Escape (b :: ds) [UInt8.ofNat (decimalFrom (b.toNat - 48) ds)] u.head?) := by
  obtain ⟨ds, u, rfl, hlen, hd, hstop, h, hread⟩ := readDigits_sound 2 (b.toNat - 48) r
  refine ⟨ds, u, h, rfl, hread, fun hlt => ?_⟩
  rw [← ofDigits_cons] at hlt ⊢
  exact .decimal (List.cons_ne_nil b ds) (Nat.succ_le_succ hlen) (List.forall_mem_cons.2 ⟨hb, hd⟩)
    hlt (hstop.imp_left (congrArg (· + 1)))

/-- What is read behind a backslash is an escape, as long as it can be. -/
theorem escape_sound {h : t.length ≤ s.length} (hs : Literal.escape s = .ok (read, ⟨t, h⟩)) :
    ∃ e, s = e ++ t ∧ Escape e read t.head? := by
  rcases s with - | ⟨b, r⟩
  · cases hs
  unfold Literal.escape at hs
  dsimp only at hs
  split at hs
  · next byte hb =>
    cases hs
    exact ⟨[b], rfl, .named hb⟩
  split at hs
  · next hb =>
    split at hs
    · next c u =>
      split at hs
      · next hc =>
        cases hs
        -- two line ends that differ are read as one
        rw [Bool.and_eq_true, bne_iff_ne] at hc
        exact ⟨[b, c], rfl, .lineEnds hb hc.1 hc.2⟩
      · next hc =>
        cases hs
        refine ⟨[b], rfl, .lineEnd hb ?_⟩
        rintro _ ⟨⟩ hl
        by_contra hne
        exact hc (by simp [hl, hne])
    · cases hs
      exact ⟨[b], rfl, .lineEnd hb (by simp)⟩
  split at hs
  · next hb =>
    cases hs
    rw [eq_of_beq hb]
    refine ⟨ascii 'z' :: r.takeWhile isSpace, ?_, escape_of_space r⟩
    -- all the spaces are left out, so what follows is none: the escape is as long as it can be
    rw [List.cons_append, List.takeWhile_append_dropWhile]
  split at hs
  · next hb =>
    rw [eq_of_beq hb]
    split at hs
    · next hi lo u =>
      split at hs
      · next h l hh hl =>
        cases hs
        exact ⟨[ascii 'x', hi, lo], rfl, .hex hh hl⟩
      · cases hs
    · cases hs
  split at hs
  · next hb =>
    obtain ⟨ds, u, hu, rfl, hread, hescape⟩ := escape_of_digits hb r
    rw [hread] at hs
    dsimp only at hs
    split at hs
    · next hlt =>
      cases hs
      exact ⟨b :: ds, rfl, hescape hlt⟩
    · cases hs
  split at hs
  · next hb =>
    rw [eq_of_beq hb]
    obtain ⟨⟨code, u, hu⟩, hcode, he⟩ := map_eq_ok.1 hs
    cases he
    obtain ⟨v, ds, hv, hrun, hne, hvalid, rfl⟩ := codeEscape_sound hcode
    refine ⟨ascii 'u' :: ascii '\x7b' :: (v ++ [ascii '\x7d']),
      (congrArg (ascii 'u' :: ·) hv).trans ?_, .code hrun hne hvalid⟩
    simp only [List.cons_append, List.append_assoc, List.nil_append]
  · cases hs

theorem namedEscape?_lineEnd (hb : isLineEnd b) : namedEscape? b = none := by
  simp only [isLineEnd, Bool.or_eq_true, beq_iff_eq] at hb
  rcases hb with rfl | rfl <;> decide

/-- A digit begins no escape of another kind. -/
theorem isDigit_escape (hb : isDigit b) : namedEscape? b = none ∧ isLineEnd b = false ∧
    (b == ascii 'z') = false ∧ (b == ascii 'x') = false := by
  have hne {c : UInt8} (hc : isDigit c = false) : (b == c) = false := by
    rw [beq_eq_false_iff_ne]
    exact isDigit_ne hb hc
  refine ⟨?_, ?_, hne rfl, hne rfl⟩
  · simp only [namedEscape?, hne (c := ascii 'a') rfl, hne (c := ascii 'b') rfl,
      hne (c := ascii 'f') rfl, hne (c := ascii 'n') rfl, hne (c := ascii 'r') rfl,
      hne (c := ascii 't') rfl, hne (c := ascii 'v') rfl, hne (c := ascii '\\') rfl,
      hne (c := ascii '"') rfl, hne (c := ascii '\'') rfl, Bool.false_eq_true, if_false,
      Bool.or_self]
  · simp only [isLineEnd, hne (c := 0x0a) rfl, hne (c := 0x0d) rfl, Bool.or_self]

theorem escape_lineEnd (hb : isLineEnd b) (ht : ∀ c ∈ t.head?, isLineEnd c → c = b) :
    ∃ h, Literal.escape (b :: t) = .ok ([0x0a], ⟨t, h⟩) := by
  refine ⟨Nat.le_succ _, ?_⟩
  rcases t with - | ⟨c, t⟩
  · simp only [Literal.escape, namedEscape?_lineEnd hb, hb, if_true]
    rfl
  · have hc : (isLineEnd c && c != b) = false := by
      by_contra hc
      simp only [Bool.not_eq_false, Bool.and_eq_true, bne_iff_ne] at hc
      exact hc.2 (ht c rfl hc.1)
    simp only [Literal.escape, namedEscape?_lineEnd hb, hb, hc, if_true, Bool.false_eq_true,
      if_false]
    rfl

theorem escape_hex {hi lo : UInt8} {h l : Nat} (hh : hexDigit? hi = some h)
    (hl : hexDigit? lo = some l) (t : List UInt8) :
    ∃ hr, Literal.escape (ascii 'x' :: hi :: lo :: t) =
      .ok ([UInt8.ofNat (h * 16 + l)], ⟨t, hr⟩) := by
  have hnamed : namedEscape? (ascii 'x') = none := rfl
  have hend : isLineEnd (ascii 'x') = false := rfl
  have hz : (ascii 'x' == ascii 'z') = false := rfl
  refine ⟨by simp; omega, ?_⟩
  simp only [Literal.escape, hnamed, hend, hz, BEq.rfl, hh, hl, Bool.false_eq_true, if_false,
    if_true]
  rfl

theorem escape_decimal {ds : List UInt8} (hb : isDigit b) (hd : ∀ b ∈ ds, isDigit b)
    (hlen : ds.length ≤ 2) (ht : ds.length = 2 ∨ ∀ b ∈ t.head?, isDigit b = false)
    (hlt : decimalFrom (b.toNat - 48) ds < 256) :
    ∃ h, Literal.escape (b :: (ds ++ t)) =
      .ok ([UInt8.ofNat (decimalFrom (b.toNat - 48) ds)], ⟨t, h⟩) := by
  obtain ⟨hnamed, hend, hz, hx⟩ := isDigit_escape hb
  obtain ⟨hl, hread⟩ := @readDigits_complete t (b.toNat - 48) ds 2 hd hlen ht
  refine ⟨Nat.le_succ_of_le hl, ?_⟩
  simp only [Literal.escape, hnamed, hend, hz, hx, hb, hread, hlt, Bool.false_eq_true, if_false,
    if_true]
  rfl

/-- An escape is read where one stands. -/
theorem Escape.reads (h : Escape e read t.head?) :
    ∃ hl, Literal.escape (e ++ t) = .ok (read, ⟨t, hl⟩) := by
  generalize hnext : t.head? = next at h
  cases h with
  | named h => exact escape_named h t
  | lineEnd hb hn => exact escape_lineEnd hb (hnext ▸ hn)
  | @lineEnds b c _ hb hc hne =>
    have hc : (isLineEnd c && c != b) = true := by rw [hc, bne_iff_ne.2 hne, Bool.and_self]
    refine ⟨Nat.le_succ_of_le (Nat.le_succ _), ?_⟩
    change Literal.escape (b :: c :: t) = _
    simp only [Literal.escape, namedEscape?_lineEnd hb, hb, hc, if_true]
    rfl
  | @gap g _ hg hn =>
    have hdrop : (g ++ t).dropWhile isSpace = t := Text.dropWhile_run hg (hnext ▸ hn)
    have hgap : Literal.escape (ascii 'z' :: (g ++ t)) = .ok ([], ⟨(g ++ t).dropWhile isSpace,
        Nat.le_succ_of_le (length_dropWhile_le isSpace (g ++ t))⟩) := rfl
    refine ⟨by simp; omega, ?_⟩
    simp only [List.cons_append, hgap, hdrop]
  | hex hh hl => exact escape_hex hh hl t
  | @decimal ds _ hne hcount hd hlt hn =>
    obtain ⟨b, ds, rfl⟩ := List.exists_cons_of_ne_nil hne
    obtain ⟨hb, hd⟩ := List.forall_mem_cons.1 hd
    rw [ofDigits_cons] at hlt ⊢
    exact escape_decimal hb hd (Nat.le_of_succ_le_succ hcount)
      (hn.imp Nat.succ.inj fun hn => hnext ▸ hn) hlt
  | @code s ds _ hrun hne hv =>
    obtain ⟨hl, he⟩ := codeEscape_complete hrun hne hv t
    have hu : Literal.escape (ascii 'u' :: (ascii '\x7b' :: (s ++ ascii '\x7d' :: t))) =
        (codeEscape (ascii '\x7b' :: (s ++ ascii '\x7d' :: t))).map
          fun p => (p.1, p.2.behind (ascii 'u')) := rfl
    rw [he] at hu
    have hs : ascii 'u' :: ascii '\x7b' :: (s ++ [ascii '\x7d']) ++ t =
        ascii 'u' :: (ascii '\x7b' :: (s ++ ascii '\x7d' :: t)) := by
      simp only [List.cons_append, List.append_assoc, List.nil_append]
    rw [hs]
    exact ⟨_, hu⟩

/-! ### Whole strings -/

theorem Quoted.ne_nil (h : Quoted q s content) : s ≠ [] := by
  cases h <;> simp

/-- What is read up to a closing quote is the rest of a quoted string. -/
theorem quotation_sound (hs : Gives (quotation q s) content rest) :
    ∃ t, s = t ++ rest ∧ Quoted q t content := by
  induction hn : s.length using Nat.strong_induction_on generalizing s content with
  | _ n ih =>
  subst hn
  rcases s with - | ⟨b, s⟩
  · exact absurd hs.choose (Nat.not_lt_zero _)
  rw [quotation] at hs
  split at hs
  · next hb =>
    obtain ⟨hl, hs⟩ := hs
    cases hs
    exact ⟨[b], rfl, hb ▸ .close⟩
  split at hs
  · exact absurd hs.choose_spec (by simp [failAt])
  split at hs
  · next hb =>
    split at hs
    · exact absurd hs.choose_spec (by simp)
    · next read r he =>
      obtain ⟨r, hr⟩ := r
      obtain ⟨content, hmore, rfl⟩ := hs.of_map (read ++ ·) (fun _ => rfl) fun _ => rfl
      obtain ⟨e, rfl, hescape⟩ := escape_sound he
      obtain ⟨t, rfl, hquoted⟩ := ih r.length (Nat.lt_succ_of_le hr) hmore rfl
      have hhead : (t ++ rest).head? = t.head? := by
        obtain ⟨c, t, rfl⟩ := List.exists_cons_of_ne_nil hquoted.ne_nil
        rfl
      rw [hb]
      exact ⟨ascii '\\' :: (e ++ t), by simp, .escape (hhead ▸ hescape) hquoted⟩
  · next hq hl hb =>
    obtain ⟨content, hmore, rfl⟩ := hs.of_map (b :: ·) (fun _ => rfl) fun _ => rfl
    obtain ⟨t, rfl, hquoted⟩ := ih _ (Nat.lt_succ_self _) hmore rfl
    exact ⟨b :: t, rfl, .raw hq (Bool.not_eq_true _ ▸ hl) hb hquoted⟩

/-- A quoted string is read up to its closing quote, whatever follows. -/
theorem Quoted.reads (h : Quoted q t content) (hq : ascii '\\' ≠ q) (rest : List UInt8) :
    Gives (quotation q (t ++ rest)) content rest := by
  induction h with
  | close => exact quotation_end q rest
  | raw hq hl hb _ ih => exact quotation_raw hq hl hb ih
  | @escape e read s content he h ih =>
    rw [List.cons_append, List.append_assoc]
    refine quotation_escape hq (Escape.reads ?_) ih
    obtain ⟨b, s, rfl⟩ := List.exists_cons_of_ne_nil h.ne_nil
    exact he

end MobDebug.Literal
