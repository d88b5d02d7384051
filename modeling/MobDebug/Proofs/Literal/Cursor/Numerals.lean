import MobDebug.Proofs.Literal.Cursor.Hexadecimals

/-! Numerals with and without a minus, read in place. -/
namespace MobDebug.Literal.Cursor

variable {env : Setting} {s r : List UInt8} {b x : UInt8} {d d' : Nat} {c : State}

theorem startsNumeral_facing (hs : b :: r <:+ env.source) :
    startsNumeral b env (env.facing (b :: r) d) =
      .ok (Literal.startsNumeral (b :: r), env.facing (b :: r) d) := by
  rw [startsNumeral, bind_of_ok (peekAt_facing hs (by decide))]
  rcases r with - | ⟨x, r⟩
  · simp [Literal.startsNumeral]
    rfl
  · rfl

/-! ### Decimal numerals -/

theorem decimalByte_point (hs : b :: s <:+ env.source) (hb : (isDigit b || b == ascii '.') = true) :
    decimalByte env (env.facing (b :: s) d) = .ok (.inl (), env.facing s d) := by
  rw [decimalByte, bind_of_ok (peek_facing hs), List.head?_cons]
  simp only [if_pos hb]
  rw [bind_of_ok (advance_cons hs)]
  rfl

theorem decimalByte_stop (hs : b :: s <:+ env.source)
    (hb : ¬ (isDigit b || b == ascii '.') = true)
    (he : ¬ (b == ascii 'e' || b == ascii 'E') = true) :
    decimalByte env (env.facing (b :: s) d) = .ok (.inr (), env.facing (b :: s) d) := by
  rw [decimalByte, bind_of_ok (peek_facing hs), List.head?_cons]
  simp only [if_neg hb, if_neg he]
  rfl

theorem decimalByte_mark (hs : b :: s <:+ env.source)
    (hb : ¬ (isDigit b || b == ascii '.') = true)
    (he : (b == ascii 'e' || b == ascii 'E') = true) (hc : ¬ s.head?.any isSign = true) :
    decimalByte env (env.facing (b :: s) d) = .ok (.inl (), env.facing s d) := by
  rw [decimalByte, bind_of_ok (peek_facing hs), List.head?_cons]
  simp only [if_neg hb, if_pos he]
  rw [bind_of_ok (advance_cons hs), bind_of_ok (peek_facing (suffix_tail hs)), if_neg hc]
  rfl

theorem decimalByte_signed (hs : b :: x :: s <:+ env.source)
    (hb : ¬ (isDigit b || b == ascii '.') = true)
    (he : (b == ascii 'e' || b == ascii 'E') = true) (hx : isSign x = true) :
    decimalByte env (env.facing (b :: x :: s) d) = .ok (.inl (), env.facing s d) := by
  rw [decimalByte, bind_of_ok (peek_facing hs), List.head?_cons]
  simp only [if_neg hb, if_pos he]
  rw [bind_of_ok (advance_cons hs), bind_of_ok (peek_facing (suffix_tail hs)), List.head?_cons,
    Option.any_some, if_pos hx, bind_of_ok (advance_cons (suffix_tail hs))]
  rfl

theorem skipDecimal_facing (hs : s <:+ env.source) :
    skipDecimal env (env.facing s d) = .ok ((), env.facing (s.drop (decimalLength s)) d) := by
  have hstep {s t : List UInt8} (hs : s <:+ env.source) (ht : t <:+ env.source)
      (hlt : t.length < s.length)
      (h : decimalByte env (env.facing s d) = .ok (.inl (), env.facing t d)) :
      skipDecimal env (env.facing s d) = skipDecimal env (env.facing t d) :=
    loop_next hs ht hlt h
  have hdone {s : List UInt8}
      (h : decimalByte env (env.facing s d) = .ok (.inr (), env.facing s d)) :
      skipDecimal env (env.facing s d) = .ok ((), env.facing s d) :=
    loopFrom_done h
  have hnil (hs : [] <:+ env.source) : decimalByte env (env.facing [] d) =
      .ok (.inr (), env.facing [] d) := by
    rw [decimalByte, bind_of_ok (peek_facing hs)]
    rfl
  fun_induction decimalLength s with
  | case1 => exact hdone (hnil hs)
  | case2 b hb =>
    have htail := suffix_tail hs
    refine (hstep hs htail Nat.one_pos ?_).trans (hdone (hnil htail))
    by_cases hp : (isDigit b || b == ascii '.') = true
    · exact decimalByte_point hs hp
    · exact decimalByte_mark hs hp (by simpa [or_assoc, hp] using hb) nofun
  | case3 b hb =>
    simp only [Bool.or_eq_true, not_or] at hb
    refine hdone (decimalByte_stop hs ?_ ?_) <;> simp [hb]
  | case4 b x s hb ih =>
    exact (hstep hs (suffix_tail hs) (Nat.lt_succ_self _) (decimalByte_point hs hb)).trans
      (ih (suffix_tail hs))
  | case5 b x s hb he hx ih =>
    have htail := suffix_tail (suffix_tail hs)
    have hlt : s.length < (b :: x :: s).length :=
      Nat.lt_succ_of_lt (Nat.lt_succ_self s.length)
    exact (hstep hs htail hlt (decimalByte_signed hs hb he hx)).trans (ih htail)
  | case6 b x s hb he hx ih =>
    exact (hstep hs (suffix_tail hs) (Nat.lt_succ_self _) (decimalByte_mark hs hb he hx)).trans
      (ih (suffix_tail hs))
  | case7 b x s hb he => exact hdone (decimalByte_stop hs hb he)

/-- A byte that a decimal numeral may have behind its first. -/
def isDecimalByte (b : UInt8) : Bool :=
  isDigit b || b == ascii '.' || (b == ascii 'e' || b == ascii 'E') || isSign b

theorem isDecimalByte_lt (h : isDecimalByte b) : b.toNat < 0x80 := by
  simp only [isDecimalByte, isSign, Bool.or_eq_true, beq_iff_eq] at h
  rcases h with ((h | rfl) | rfl | rfl) | rfl | rfl
  · exact isDigit_lt h
  all_goals decide

theorem take_decimalLength (s : List UInt8) : ∀ b ∈ s.take (decimalLength s), isDecimalByte b := by
  fun_induction decimalLength s <;> simp_all [isDecimalByte, isSign, or_assoc] <;> tauto

theorem decimalLength_cons (hb : (isDigit b || b == ascii '.') = true) :
    decimalLength (b :: s) = decimalLength s + 1 := by
  rcases s with - | ⟨x, s⟩ <;> simp [decimalLength, hb]

theorem decimal_tracks (hs : b :: s <:+ env.source) (hb : (isDigit b || b == ascii '.') = true) :
    Tracks env d (decimal (env.facing (b :: s) d').pos env (env.facing (b :: s) d))
      (rested (Literal.numeral.decimal b s)) := by
  have hskip := skipDecimal_facing (d := d) hs
  rw [decimalLength_cons hb, List.drop_succ_cons] at hskip
  have hsplit : b :: s.take (decimalLength s) ++ s.drop (decimalLength s) = b :: s := by
    rw [List.cons_append, List.take_append_drop]
  have hslice := slice_facing (c := env.facing (s.drop (decimalLength s)) d) (hsplit.symm ▸ hs) d' d
  rw [hsplit] at hslice
  have hascii : ∀ c ∈ b :: s.take (decimalLength s), c.toNat < 0x80 := by
    refine fun c hc => isDecimalByte_lt ?_
    rcases List.mem_cons.1 hc with rfl | hc
    · rw [isDecimalByte, hb, Bool.true_or, Bool.true_or]
    · exact take_decimalLength s c hc
  rw [decimal, bind_of_ok hskip, bind_here, bind_of_ok hslice, bind_of_ok (decode_ascii hascii),
    String.toList_ofList, Literal.numeral.decimal]
  cases readDecimal? ((b :: s.take (decimalLength s)).map byteChar) with
  | some n => exact .ok n ((List.drop_suffix _ s).trans (suffix_tail hs))
  | none => exact .failFrom _ _ d' (env.facing (s.drop (decimalLength s)) d)

/-! ### Numerals -/

theorem unlessContinued_tracks {m : Scan Number} {read : Except Failure (Number × Rest s)}
    (hm : Tracks env d (m env c) (rested read)) :
    Tracks env d ((m >>= numeral.unlessContinued) env c)
      (parsed (Literal.unlessContinued b read)) := by
  rcases read with e | ⟨n, r, hr⟩
  · exact hm.bind_error
  · refine hm.bind_ok fun hr => ?_
    rw [numeral.unlessContinued, bind_of_ok (peek_facing hr), Literal.unlessContinued]
    dsimp only
    split
    · exact .fail _ _
    · exact .ok n hr

theorem isHex_iff : isHex (b :: s) = true ↔ HexMarked b s := by
  rcases s with - | ⟨x, s⟩ <;> simp [isHex, HexMarked]

theorem first_of_startsNumeral (hn : Literal.startsNumeral (b :: s) = true) :
    (isDigit b || b == ascii '.') = true := by
  rcases s with - | ⟨x, s⟩
  · exact Bool.or_eq_true_iff.2 (.inl hn)
  · simp only [Literal.startsNumeral, Bool.or_eq_true, Bool.and_eq_true] at hn ⊢
    exact hn.imp_right And.left

theorem numeral_tracks (hs : b :: s <:+ env.source) (hn : Literal.startsNumeral (b :: s) = true) :
    Tracks env d (numeral env (env.facing (b :: s) d)) (parsed (Literal.numeral b s)) := by
  rw [numeral, bind_here, bind_of_ok (rest_facing hs)]
  by_cases hx : HexMarked b s
  · rw [if_pos (isHex_iff.2 hx)]
    obtain ⟨rfl, x, hx, hmark⟩ := hx
    obtain ⟨t, rfl⟩ := List.head?_eq_some_iff.1 hx
    have hskip : advance 2 env (env.facing (ascii '0' :: x :: t) d) = .ok ((), env.facing t d) :=
      advance_facing (s := [ascii '0', x]) hs rfl
    rw [bind_of_ok hskip, numeral_of_hex hmark]
    refine unlessContinued_tracks ?_
    have hread := hexNumeral_tracks d hmark hs (d := d)
    cases he : Literal.hexNumeral (ascii '0' :: x :: t) t <;> rwa [he] at hread
  · rw [if_neg fun h => hx (isHex_iff.1 h), numeral_of_decimal hx]
    exact unlessContinued_tracks (decimal_tracks hs (first_of_startsNumeral hn))

theorem negated_tracks (hs : s <:+ env.source) :
    Tracks env d (negated env (env.facing s d)) (parsed (Literal.negated s)) := by
  refine (skipTrivia_tracks hs).seq fun ⟨t, ht⟩ _ hr => ?_
  rw [bind_of_ok (peekName_facing hr)]
  dsimp only
  split
  · have hread := (mathHuge_tracks (d := d) hr).map fun n => Value.number n.negate
    dsimp only at hread
    cases he : Literal.mathHuge t <;> rwa [he] at hread
  · rw [bind_of_ok (peek_facing hr)]
    rcases t with - | ⟨b, r⟩
    · exact .fail _ _
    · dsimp only [List.head?_cons]
      rw [bind_of_ok (startsNumeral_facing hr)]
      split
      · next hn =>
        have hread := (numeral_tracks (d := d) hr hn).map fun n => Value.number n.negate
        cases he : Literal.numeral b r <;> rwa [he] at hread
      · exact .fail _ _

end MobDebug.Literal.Cursor
