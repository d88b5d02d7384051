import MobDebug.Proofs.Literal.Cursor.Numerals

/-! Strings and their escapes, read in place. -/
namespace MobDebug.Literal.Cursor

variable {env : Setting} {s r t : List UInt8} {b quote : UInt8} {d n count : Nat} {c : State}

/-! ### Escapes -/

theorem lineEscape_tracks (hs : r <:+ env.source) (b : UInt8) :
    Tracks env d (lineEscape b env (env.facing r d))
      (.ok ([0x0a], if r.head?.any (fun c => isLineEnd c && c != b) then r.tail else r)) := by
  rw [lineEscape, bind_of_ok (peek_facing hs)]
  split
  · next h =>
    obtain ⟨x, r, rfl⟩ := List.exists_cons_of_ne_nil (l := r) (by rintro rfl; cases h)
    rw [bind_of_ok (advance_cons hs)]
    exact .ok _ (suffix_tail hs)
  · exact .ok _ hs

theorem hexEscape_tracks {hi lo : UInt8} {h l : Nat} (hs : hi :: lo :: t <:+ env.source)
    (hh : hexDigit? hi = some h) (hl : hexDigit? lo = some l) :
    Tracks env d (hexEscape env (env.facing (hi :: lo :: t) d))
      (.ok ([UInt8.ofNat (h * 16 + l)], t)) := by
  have hh' := hexDigit?_lt hh
  have hl' := hexDigit?_lt hl
  have hskip : advance 2 env (env.facing (hi :: lo :: t) d) = .ok ((), env.facing t d) :=
    advance_facing (s := [hi, lo]) hs rfl
  have hhigh : h * 16 < 2 ^ 32 := by omega
  have hword : h * 16 + l < 2 ^ 32 := by omega
  have hbyte : h * 16 + l < 2 ^ 8 := by omega
  rw [hexEscape, bind_of_ok (peek_facing hs), bind_of_ok (peekAt_facing hs (by decide))]
  simp only [List.head?_cons, List.getElem?_cons_succ, List.getElem?_cons_zero, Option.bind_some,
    hh, hl]
  rw [bind_of_ok hskip, bind_of_ok (natural_of_lt rfl hhigh), bind_of_ok (natural_of_lt rfl hword),
    bind_of_ok (natural_of_lt rfl hbyte)]
  exact .ok _ (suffix_right (s := [hi, lo]) hs)

theorem hexEscape_fault (hs : r <:+ env.source)
    (hr : r.head?.bind hexDigit? = none ∨ r[1]?.bind hexDigit? = none) :
    Tracks env d (hexEscape env (env.facing r d)) (.error ⟨.hexEscape, r.length⟩) := by
  rw [hexEscape, bind_of_ok (peek_facing hs), bind_of_ok (peekAt_facing hs (by decide))]
  rcases hr with hr | hr
  · simp only [hr]
    exact .fail _ _
  · cases r.head?.bind hexDigit? <;> simp only [hr] <;> exact .fail _ _

theorem digitValue_of_isDigit (hb : isDigit b) : digitValue b env c = .ok (b.toNat - 48, c) := by
  obtain ⟨hlow, hhigh⟩ := isDigit_iff.1 hb
  have hzero : (ascii '0').toNat = 48 := by decide
  have hsub : (b.toNat : Int) - (ascii '0').toNat = (b.toNat - 48 : Nat) := by omega
  have hlt : b.toNat - 48 < 2 ^ 8 := by omega
  rw [digitValue, hsub, natural_of_lt rfl hlt]

/-- By induction on how many more digits there may be: with them the number stays below a
thousand. -/
theorem moreDigits_facing (hs : s <:+ env.source) (hn : (n + 1) * 10 ^ count ≤ 1000) :
    moreDigits count n env (env.facing s d) =
      .ok ((readDigits count n s).1, env.facing (readDigits count n s).2.1 d) ∧
      (readDigits count n s).2.1 <:+ env.source := by
  induction count generalizing n s with
  | zero => exact ⟨rfl, hs⟩
  | succ count ih =>
    rw [moreDigits, bind_of_ok (peek_facing hs)]
    rcases s with - | ⟨b, r⟩
    · exact ⟨rfl, hs⟩
    · by_cases hb : isDigit b = true
      · obtain ⟨hlow, hhigh⟩ := isDigit_iff.1 hb
        have hk : (n * 10 + (b.toNat - 48) + 1) * 10 ^ count ≤ 1000 := by
          refine Nat.le_trans (Nat.mul_le_mul_right (m := (n + 1) * 10) _ (by omega)) ?_
          rwa [Nat.mul_assoc, ← Nat.pow_succ']
        have hsmall : n * 10 + (b.toNat - 48) + 1 ≤ 1000 :=
          Nat.le_trans (Nat.le_mul_of_pos_right _ (Nat.pow_pos (by decide))) hk
        have htens : n * 10 < 2 ^ 32 := by omega
        have hsum : n * 10 + (b.toNat - 48) < 2 ^ 32 := by omega
        simp only [List.head?_cons, if_pos hb, readDigits]
        rw [bind_of_ok (natural_of_lt rfl htens), bind_of_ok (digitValue_of_isDigit hb),
          bind_of_ok (natural_of_lt rfl hsum), bind_of_ok (advance_cons hs)]
        exact ih (suffix_tail hs) hk
      · simp only [List.head?_cons, if_neg hb, readDigits]
        exact ⟨rfl, hs⟩

theorem decimalEscape_tracks (hs : r <:+ env.source) (hb : isDigit b) :
    Tracks env d (decimalEscape b env (env.facing r d))
      (if (readDigits 2 (b.toNat - 48) r).1 < 256 then
        .ok ([UInt8.ofNat (readDigits 2 (b.toNat - 48) r).1], (readDigits 2 (b.toNat - 48) r).2.1)
      else .error ⟨.decimalEscape, (readDigits 2 (b.toNat - 48) r).2.1.length⟩) := by
  obtain ⟨hlow, hhigh⟩ := isDigit_iff.1 hb
  have hn : (b.toNat - 48 + 1) * 10 ^ 2 ≤ 1000 := by omega
  obtain ⟨hmore, hrest⟩ := moreDigits_facing (d := d) hs hn
  rw [decimalEscape, bind_of_ok (digitValue_of_isDigit hb), bind_of_ok hmore]
  split
  · exact .ok _ hrest
  · exact .fail _ _

/-! ### Code points -/

theorem readCode_any {any found : Bool} {code m : Nat} {rest : Rest s}
    (h : readCode any code s = .ok (found, m, rest)) :
    found = true ↔ any = true ∨ rest.1.length < s.length := by
  induction s generalizing any code found m with
  | nil =>
    cases h
    simp [Rest.nothing]
  | cons b s ih =>
    rw [readCode] at h
    split at h
    · split at h
      · obtain ⟨⟨found, m, rest⟩, hread, he⟩ := map_eq_ok.1 h
        cases he
        have hlt : rest.1.length < s.length + 1 := Nat.lt_succ_of_le rest.2
        exact iff_of_true ((ih hread).2 (.inl rfl)) (.inr hlt)
      · cases h
    · cases h
      simp [Rest.all]

theorem codeDigit_stop (code k : Nat) (hs : s <:+ env.source)
    (hd : s.head?.bind hexDigit? = none) :
    codeDigit code k env (env.facing s d) = .ok (.inr (code, k), env.facing s d) := by
  rw [codeDigit, bind_of_ok (peek_facing hs)]
  simp only [hd]
  rfl

theorem codeDigit_digit {code k v : Nat} (hs : b :: s <:+ env.source) (hd : hexDigit? b = some v)
    (hlt : code * 16 + v < UInt32.size) (hk : k + 1 < 2 ^ 64) :
    codeDigit code k env (env.facing (b :: s) d) =
      .ok (.inl (code * 16 + v, k + 1), env.facing s d) := by
  rw [codeDigit, bind_of_ok (peek_facing hs), List.head?_cons]
  simp only [Option.bind_some, hd, if_pos hlt]
  rw [bind_of_ok (size_of_lt hk), bind_of_ok (advance_cons hs)]
  rfl

/-- By induction on the digits: as many are counted as are taken off. -/
theorem codeDigits_loop (code k : Nat) (any : Bool) (hs : s <:+ env.source)
    (hk : k + s.length ≤ env.source.length) :
    Tracks env d (loop (fun (code, digits) => codeDigit code digits) (code, k) env (env.facing s d))
      ((readCode any code s).map fun p =>
        ((p.2.1, k + (s.length - p.2.2.1.length)), p.2.2.1)) := by
  induction s generalizing code k any with
  | nil =>
    have hstop := codeDigit_stop code k (d := d) hs rfl
    simp only [readCode, Except.map, Rest.nothing, Nat.sub_self]
    exact Tracks.loop_done (hstop ▸ .ok _ hs)
  | cons b s ih =>
    have hlt := source_lt env
    rw [List.length_cons] at hk
    cases hd : hexDigit? b with
    | none =>
      have hstop := codeDigit_stop code k (d := d) hs hd
      simp only [readCode, hd, Except.map, Rest.all, Nat.sub_self]
      exact Tracks.loop_done (hstop ▸ .ok _ hs)
    | some v =>
      by_cases hsize : code * 16 + v < UInt32.size
      · have hstep := codeDigit_digit (d := d) hs hd hsize (k := k) (by omega)
        rw [loop_next hs (suffix_tail hs) (Nat.lt_succ_self _) hstep]
        have hnext := ih (code * 16 + v) (k + 1) true (suffix_tail hs) (by omega)
        simp only [readCode, hd, if_pos hsize]
        cases hr : readCode true (code * 16 + v) s with
        | error e => rwa [hr] at hnext
        | ok p =>
          obtain ⟨found, m, rest⟩ := p
          have hle := rest.2
          have hcount :
              k + (s.length + 1 - rest.1.length) = k + 1 + (s.length - rest.1.length) := by omega
          rw [hr] at hnext
          simp only [Except.map, Rest.behind, List.length_cons, hcount]
          exact hnext
      · have hfail : codeDigit code k env (env.facing (b :: s) d) =
            fail .codeTooLarge env (env.facing (b :: s) d) := by
          rw [codeDigit, bind_of_ok (peek_facing hs), List.head?_cons]
          simp only [Option.bind_some, hd, if_neg hsize]
        simp only [readCode, hd, if_neg hsize]
        exact Tracks.loop_error (hfail ▸ .fail _ _)

theorem codeEscape_tracks (hs : s <:+ env.source) :
    Tracks env d (codeEscape env (env.facing s d)) (rested (Literal.codeEscape s)) := by
  rw [codeEscape, bind_of_ok (peek_facing hs)]
  rcases s with - | ⟨b, r⟩
  · exact .fail _ _
  have hr := suffix_tail hs
  unfold Literal.codeEscape
  dsimp only
  by_cases hb : b = ascii '\x7b'
  · have hne : ¬ (b != ascii '\x7b') = true := by simpa using hb
    have hdigits := codeDigits_loop 0 0 false (d := d) hr
      (by rw [Nat.zero_add]; exact hr.length_le)
    rw [List.head?_cons, if_pos (congrArg some hb), if_neg hne, bind_of_ok (advance_cons hs)]
    rcases hread : readCode false 0 r with e | ⟨any, code, rest, hle⟩ <;> rw [hread] at hdigits
    · exact hdigits.bind_error
    refine hdigits.bind_ok fun hrest => ?_
    have hcount : decide (0 + (r.length - rest.length) = 0) = !any := by
      have hany := readCode_any hread
      rw [Bool.eq_iff_iff, decide_eq_true_eq, Bool.not_eq_true', ← Bool.not_eq_true, hany]
      simp only [Bool.false_eq_true, false_or]
      omega
    rw [bind_of_ok (peek_facing hrest)]
    dsimp only
    rw [hcount]
    rcases rest with - | ⟨x, t⟩
    · rw [if_pos (by simp)]
      exact .fail _ _
    have ht := suffix_tail hrest
    have hbrace : (some x != some (ascii '\x7d')) = (x != ascii '\x7d') := rfl
    rw [List.head?_cons, hbrace]
    dsimp only
    split
    · exact .fail _ _
    · rw [bind_of_ok (advance_cons hrest)]
      split
      · exact .ok _ ht
      · exact .fail _ _
  · have hne : (b != ascii '\x7b') = true := by simpa using hb
    rw [List.head?_cons, if_neg (by simpa using hb), if_pos hne]
    exact .fail _ _

theorem escape_tracks (hs : s <:+ env.source) :
    Tracks env d (escape env (env.facing s d)) (rested (Literal.escape s)) := by
  rw [escape, bind_of_ok (peek_facing hs)]
  rcases s with - | ⟨b, r⟩
  · exact .fail _ _
  have hr := suffix_tail hs
  rw [List.head?_cons]
  dsimp only
  rw [bind_of_ok (advance_cons hs)]
  unfold Literal.escape
  dsimp only
  cases namedEscape? b with
  | some byte => exact .ok _ hr
  | none =>
    dsimp only
    by_cases hline : isLineEnd b = true
    · rw [if_pos hline, if_pos hline]
      have hread := lineEscape_tracks (d := d) hr b
      rcases r with - | ⟨x, t⟩
      · exact hread
      · dsimp only
        split <;> next hx =>
          simp only [List.head?_cons, Option.any_some, hx] at hread
          exact hread
    rw [if_neg hline, if_neg hline]
    by_cases hz : (b == ascii 'z') = true
    -- the spaces that are skipped end where the list of bytes without them begins
    · rw [if_pos hz, if_pos hz, bind_of_ok (skipWhile_facing isSpace hr)]
      exact .ok _ ((List.dropWhile_suffix isSpace).trans hr)
    rw [if_neg hz, if_neg hz]
    by_cases hx : (b == ascii 'x') = true
    · rw [if_pos hx, if_pos hx]
      split
      · next hi lo t =>
        split
        · next h l hh hl => exact hexEscape_tracks hr hh hl
        · next hno =>
          -- two bytes, of which one is no digit
          refine hexEscape_fault hr ?_
          by_contra hsome
          rw [not_or, ← ne_eq, ← ne_eq, Option.ne_none_iff_exists',
            Option.ne_none_iff_exists'] at hsome
          obtain ⟨⟨h, hh⟩, l, hl⟩ := hsome
          exact hno h l hh hl
      · next hno =>
        refine hexEscape_fault hr ?_
        -- fewer than two bytes are left
        rcases r with - | ⟨hi, - | ⟨lo, t⟩⟩
        · exact .inl rfl
        · exact .inr rfl
        · exact absurd rfl (hno hi lo t)
    rw [if_neg hx, if_neg hx]
    by_cases hd : isDigit b = true
    · rw [if_pos hd, if_pos hd]
      have hread := decimalEscape_tracks (d := d) hr hd
      split <;> next hlt =>
        simp only [hlt, if_true, if_false] at hread
        exact hread
    rw [if_neg hd, if_neg hd]
    by_cases hu : (b == ascii 'u') = true
    · rw [if_pos hu, if_pos hu]
      have hread := codeEscape_tracks (d := d) hr
      cases he : Literal.codeEscape r <;> rwa [he] at hread
    · rw [if_neg hu, if_neg hu]
      exact .fail _ _

/-! ### Strings -/

/-- One byte or escape of a string, or its end. -/
theorem quotedByte_tracks (hs : b :: r <:+ env.source) (quote : UInt8) (content : List UInt8) :
    Tracks env d (quotedByte quote content env (env.facing (b :: r) d))
      (if b = quote then .ok (.inr content, r)
      else if isLineEnd b then .error ⟨.lineEndInString, r.length⟩
      else if b = ascii '\\' then
        (rested (Literal.escape r)).map fun p => (.inl (content ++ p.1), p.2)
      else .ok (.inl (content ++ [b]), r)) := by
  have hr := suffix_tail hs
  rw [quotedByte, bind_of_ok (peek_facing hs), List.head?_cons]
  dsimp only
  rw [bind_of_ok (advance_cons hs)]
  by_cases hq : b = quote
  · rw [if_pos hq, if_pos hq]
    exact .ok _ hr
  rw [if_neg hq, if_neg hq]
  by_cases hline : isLineEnd b = true
  · rw [if_pos hline, if_pos hline]
    exact .fail _ _
  rw [if_neg hline, if_neg hline]
  by_cases hb : b = ascii '\\'
  · rw [if_pos hb, if_pos hb]
    exact (escape_tracks hr).map fun p => Sum.inl (content ++ p)
  · rw [if_neg hb, if_neg hb]
    exact .ok _ hr

theorem quotedByte_end (hs : [] <:+ env.source) (content : List UInt8) :
    Tracks env d (quotedByte quote content env (env.facing [] d))
      (.error ⟨.unterminatedString, 0⟩) := by
  rw [quotedByte, bind_of_ok (peek_facing hs)]
  exact .fail _ _

theorem quotedBytes_tracks (hs : s <:+ env.source) (content : List UInt8) :
    Tracks env d (loop (quotedByte quote) content env (env.facing s d))
      ((Literal.quotation quote s).map fun p => (content ++ p.value, p.rest)) := by
  fun_induction Literal.quotation quote s generalizing content with
  | case1 => exact (quotedByte_end hs content).loop_error
  | case2 r =>
    have hstep := quotedByte_tracks (d := d) hs quote content
    rw [if_pos rfl] at hstep
    rw [Except.map, Parsed.ofByte, List.append_nil]
    exact hstep.loop_done
  | case3 b r hq hline =>
    have hstep := quotedByte_tracks (d := d) hs quote content
    rw [if_neg hq, if_pos hline] at hstep
    exact hstep.loop_error
  | case4 r e he hq hline =>
    have hstep := quotedByte_tracks (d := d) hs quote content
    rw [if_neg hq, if_neg hline, if_pos rfl, he] at hstep
    exact hstep.loop_error
  | case5 r read rest he hle hq hline ih =>
    have hstep := quotedByte_tracks (d := d) hs quote content
    rw [if_neg hq, if_neg hline, if_pos rfl, he] at hstep
    refine hstep.loop_next hs (Nat.lt_succ_of_le hle) fun hrest => ?_
    have hnext := ih hrest (content ++ read)
    cases hx : Literal.quotation quote rest.1 with
    | error e => rwa [hx] at hnext
    | ok p =>
      rw [hx, Except.map, List.append_assoc] at hnext
      exact hnext
  | case6 b r hq hline hb ih =>
    have hstep := quotedByte_tracks (d := d) hs quote content
    rw [if_neg hq, if_neg hline, if_neg hb] at hstep
    refine hstep.loop_next hs (Nat.lt_succ_self _) fun hrest => ?_
    have hnext := ih hrest (content ++ [b])
    cases hx : Literal.quotation quote r with
    | error e => rwa [hx] at hnext
    | ok p =>
      rw [hx, Except.map, List.append_assoc] at hnext
      exact hnext

theorem quotation_tracks (quote : UInt8) (hs : s <:+ env.source) :
    Tracks env d (quotation quote env (env.facing s d)) (parsed (Literal.quotation quote s)) :=
  quotedBytes_tracks hs []

end MobDebug.Literal.Cursor
