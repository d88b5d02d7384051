import MobDebug.Proofs.Literal.Cursor.Reader
import MobDebug.Proofs.Literal.Cursor.Tracking

/-! Trivia and long brackets, read in place. -/
namespace MobDebug.Literal.Cursor

variable {env : Setting} {s t r u : List UInt8} {b : UInt8} {d level : Nat}

theorem skipWhile_facing (p : UInt8 → Bool) (hs : s <:+ env.source) :
    skipWhile p env (env.facing s d) = .ok ((), env.facing (s.dropWhile p) d) := by
  induction s with
  | nil =>
    refine loopFrom_done ?_
    rw [bind_of_ok (peek_facing hs)]
    rfl
  | cons b s ih =>
    by_cases hb : p b = true
    · rw [List.dropWhile_cons_of_pos hb, ← ih (suffix_tail hs)]
      refine loop_next hs (suffix_tail hs) (Nat.lt_succ_self _) ?_
      rw [bind_of_ok (peek_facing hs), List.head?_cons, Option.any_some, if_pos hb,
        bind_of_ok (advance_cons hs)]
      rfl
    · rw [List.dropWhile_cons_of_neg hb]
      refine loopFrom_done ?_
      rw [bind_of_ok (peek_facing hs), List.head?_cons, Option.any_some, if_neg hb]
      rfl

/-! ### Long brackets -/

theorem peekBehind_facing (hs : b :: t <:+ env.source) (hl : level + 1 < 2 ^ 63) :
    peekBehind level env (env.facing (b :: t) d) = .ok (t[level]?, env.facing (b :: t) d) := by
  rw [peekBehind, Nat.add_comm, bind_of_ok (size_of_lt (by omega)), peekAt_facing hs hl,
    List.getElem?_cons_succ]

/-- By induction on what is behind the signs that are counted. -/
theorem countSigns_facing (hs : b :: (r ++ u) <:+ env.source) :
    loopFrom id countSign r.length env (env.facing (b :: (r ++ u)) d) =
      .ok (r.length + (u.takeWhile (· == ascii '=')).length, env.facing (b :: (r ++ u)) d) := by
  have hlt := suffix_lt hs
  rw [List.length_cons, List.length_append] at hlt
  induction u generalizing r with
  | nil =>
    refine loopFrom_done ?_
    rw [countSign, bind_of_ok (peekBehind_facing hs (by omega)), List.append_nil,
      List.getElem?_eq_none le_rfl, if_neg nofun]
    rfl
  | cons x u ih =>
    have hpos := pos_facing hs d
    simp only [List.length_cons, List.length_append] at hlt hpos
    have hpeek := peekBehind_facing (d := d) hs (by omega : r.length + 1 < 2 ^ 63)
    rw [List.getElem?_append_right le_rfl, Nat.sub_self, List.getElem?_cons_zero] at hpeek
    by_cases hx : x = ascii '='
    · have hstep : countSign r.length env (env.facing (b :: (r ++ x :: u)) d) =
          .ok (.inl (r.length + 1), env.facing (b :: (r ++ x :: u)) d) := by
        rw [countSign, bind_of_ok hpeek, if_pos (congrArg some hx),
          bind_of_ok (size_of_lt (by omega))]
        rfl
      have htake : (x :: u).takeWhile (· == ascii '=') = x :: u.takeWhile (· == ascii '=') :=
        List.takeWhile_cons_of_pos (beq_iff_eq.2 hx)
      have hmove : r ++ x :: u = (r ++ [x]) ++ u := by simp
      rw [loopFrom_next hstep (by simp) (by simp only [id]; omega), htake]
      have hlen : (r ++ [x]).length = r.length + 1 := List.length_append
      rw [hmove] at hs ⊢
      rw [List.length_cons, ← Nat.add_assoc, Nat.add_right_comm, ← hlen]
      exact ih hs (by omega)
    · have htake : (x :: u).takeWhile (· == ascii '=') = [] :=
        List.takeWhile_cons_of_neg (by simpa using hx)
      refine loopFrom_done ?_
      rw [countSign, bind_of_ok hpeek, if_neg (by simpa using hx), htake]
      rfl

theorem bracketLevel_facing (hs : b :: t <:+ env.source) :
    bracketLevel env (env.facing (b :: t) d) =
      .ok ((t.takeWhile (· == ascii '=')).length, env.facing (b :: t) d) := by
  have h := countSigns_facing (r := []) (d := d) hs
  rwa [List.length_nil, Nat.zero_add] at h

theorem skipLineBreak_facing (hs : s <:+ env.source) :
    skipLineBreak env (env.facing s d) = .ok ((), env.facing (dropLineBreak s) d) := by
  rw [skipLineBreak, bind_of_ok (rest_facing hs)]
  fun_cases dropLineBreak s with
  | case1 r => exact advance_facing (s := [0x0d, 0x0a]) hs rfl
  | case2 r hr =>
    have hfirst : ¬ [0x0d, 0x0a].isPrefixOf (0x0d :: r) = true := by
      rcases r with - | ⟨x, r⟩
      · nofun
      · simpa using fun h : 0x0a = x => hr r (h ▸ rfl)
    rw [if_neg hfirst, bind_of_ok (peek_facing hs)]
    exact advance_cons hs
  | case3 r =>
    rw [if_neg nofun, bind_of_ok (peek_facing hs)]
    exact advance_cons hs
  | case4 s h1 h2 h3 =>
    rcases s with - | ⟨x, r⟩
    · rw [if_neg nofun, bind_of_ok (peek_facing hs)]
      rfl
    · have hx : x ≠ 0x0d := fun h => h2 r (h ▸ rfl)
      have hx' : x ≠ 0x0a := fun h => h3 r (h ▸ rfl)
      rw [if_neg (by simp [hx.symm]), bind_of_ok (peek_facing hs),
        if_neg (by simp [isLineEnd, hx, hx'])]
      rfl

theorem closer_prefix (level : Nat) (r : List UInt8) :
    (List.replicate level (ascii '=') ++ [ascii ']']).isPrefixOf r =
      ((r.take level).all (· == ascii '=') && r[level]? == some (ascii ']')) := by
  induction level generalizing r with
  | zero =>
    rcases r with - | ⟨x, r⟩
    · rfl
    · exact (Bool.and_true _).trans Bool.beq_comm
  | succ level ih =>
    rcases r with - | ⟨x, r⟩
    · rfl
    · rw [List.replicate_succ, List.cons_append, List.isPrefixOf_cons_cons, ih, Bool.beq_comm]
      simp [Bool.and_assoc]

theorem closing?_cons (level : Nat) (b : UInt8) (r : List UInt8) :
    (closing? level (b :: r)).isSome = (b == ascii ']' &&
      ((r.take level).all (· == ascii '=') && r[level]? == some (ascii ']'))) := by
  rw [closing?, strip?, List.cons_append, List.isPrefixOf_cons_cons, closer_prefix, Bool.beq_comm]
  generalize (b == ascii ']' && _) = closed
  cases closed <;> rfl

/-- A closing bracket is found where one stands. -/
theorem closesAt_facing (hs : b :: r <:+ env.source) (hl : level + 1 < 2 ^ 63) :
    closesAt level b env (env.facing (b :: r) d) =
      .ok ((closing? level (b :: r)).isSome, env.facing (b :: r) d) := by
  have hlt := source_lt env
  have hpos := pos_facing hs d
  have hpos' := pos_facing (suffix_tail hs) d
  rw [List.length_cons] at hpos
  have hnext : (env.facing (b :: r) d).pos + 1 = (env.facing r d).pos := by omega
  rw [closesAt, closing?_cons]
  by_cases hb : b = ascii ']'
  · rw [if_pos hb, bind_here, hnext, bind_of_ok (size_of_lt (by omega)),
      bind_of_ok (sliceFrom_facing (suffix_tail hs) d)]
    by_cases ht : (r.take level).all (· == ascii '=') = true
    · rw [if_pos ht, bind_of_ok (peekBehind_facing hs hl), ht, beq_iff_eq.2 hb]
      rfl
    · rw [if_neg ht, Bool.eq_false_iff.2 ht, Bool.false_and, Bool.and_false]
      rfl
  · rw [if_neg hb, beq_eq_false_iff_ne.2 hb, Bool.false_and]
    rfl

theorem length_closer (level : Nat) : (closer level).length = level + 2 := by
  simp [closer, closerStem]

/-- By induction on what is left of the text. -/
theorem bracketContent_facing (d d' : Nat) (hs : r ++ s <:+ env.source) (hl : level + 2 < 2 ^ 63) :
    bracketContent level (env.facing (r ++ s) d').pos env (env.facing s d) =
      .ok (match splitAtClosing level s with
        | some (content, rest) => (some (r ++ content), env.facing rest d)
        | none => (none, env.facing [] d)) := by
  induction s generalizing r with
  | nil =>
    refine loopFrom_done ?_
    rw [contentByte, bind_of_ok (peek_facing (suffix_right hs))]
    rfl
  | cons b s ih =>
    have hbs := suffix_right hs
    have hclose := closesAt_facing (d := d) hbs (by omega : level + 1 < 2 ^ 63)
    rw [splitAtClosing]
    cases hc : closing? level (b :: s) with
    | some rest =>
      have hsplit : b :: s = closer level ++ rest := strip?_eq_some.1 hc
      have hskip : skipBracket level env (env.facing (b :: s) d) = .ok ((), env.facing rest d) := by
        rw [hsplit] at hbs ⊢
        rw [skipBracket, bind_of_ok (size_of_lt (by omega))]
        exact advance_facing hbs (length_closer level).symm
      rw [hc] at hclose
      refine loopFrom_done ?_
      rw [contentByte, bind_of_ok (peek_facing hbs), List.head?_cons]
      dsimp only
      rw [bind_of_ok hclose, Option.isSome_some, if_pos rfl, bind_here,
        bind_of_ok (slice_facing hs d' d), bind_of_ok hskip, List.append_nil]
      rfl
    | none =>
      -- the byte belongs to the content, which still begins where it began
      have hmove : r ++ b :: s = (r ++ [b]) ++ s := by simp
      rw [hc] at hclose
      rw [hmove] at hs ⊢
      have hnext := ih hs
      rw [bracketContent] at hnext ⊢
      rw [loop_next hbs (suffix_tail hbs) (Nat.lt_succ_self _), hnext]
      · cases splitAtClosing level s with
        | none => rfl
        | some p => simp
      · rw [contentByte, bind_of_ok (peek_facing hbs), List.head?_cons]
        dsimp only
        rw [bind_of_ok hclose, Option.isSome_none, if_neg Bool.false_ne_true,
          bind_of_ok (advance_cons hbs)]
        rfl

/-- A long bracket, and the rest behind it; or no bracket, and the whole text. -/
def bracketed (s : List UInt8) : Except Failure (Option (List UInt8) × List UInt8) :=
  (Literal.longBracket s).map fun
    | some p => (some p.value, p.rest)
    | none => (none, s)

/-- What stands behind the signs at the start of a text. -/
theorem getElem?_signs (t : List UInt8) :
    t[(t.takeWhile (· == ascii '=')).length]? = (t.dropWhile (· == ascii '=')).head? := by
  conv_lhs => rw [← List.takeWhile_append_dropWhile (p := (· == ascii '=')) (l := t)]
  rw [List.getElem?_append_right (by simp), List.takeWhile_append_dropWhile, Nat.sub_self,
    List.head?_eq_getElem?]

theorem longBracket_tracks (hs : ascii '[' :: t <:+ env.source) :
    Tracks env d (longBracket env (env.facing (ascii '[' :: t) d))
      (bracketed (ascii '[' :: t)) := by
  have hlevel := bracketLevel_facing (d := d) hs
  have hlen := (List.takeWhile_prefix (p := (· == ascii '=')) (l := t)).length_le
  have hlt := suffix_lt hs
  have hpeek := getElem?_signs t
  rw [List.length_cons] at hlt
  rw [longBracket, bind_here, bind_of_ok hlevel, bind_of_ok (peekBehind_facing hs (by omega)),
    hpeek]
  cases ho : opening? t with
  | none =>
    have hstop : (t.dropWhile (· == ascii '=')).head? ≠ some (ascii '[') := by
      intro hd
      obtain ⟨r, hr⟩ := List.head?_eq_some_iff.1 hd
      simp [opening?, hr] at ho
    rw [if_neg hstop, bracketed, longBracket_unopened ho]
    exact .ok none hs
  | some o =>
    obtain ⟨level, r⟩ := o
    have ht := opening?_eq_some.1 ho
    have hrun : ∀ b ∈ List.replicate level (ascii '='), (b == ascii '=') = true :=
      fun b hb => beq_iff_eq.2 (List.eq_of_mem_replicate hb)
    have hstop : ∀ b ∈ (ascii '[' :: r).head?, (b == ascii '=') = false := by
      rintro _ ⟨⟩
      rfl
    have hopen : ascii '[' :: t = opener level ++ r := by
      rw [ht]
      simp [opener]
    -- the signs of the opening are bytes of the text, so the level has room in the machine
    have hbound : level + 2 < 2 ^ 63 := by
      have hl := congrArg List.length ht
      simp only [List.length_append, List.length_replicate, List.length_cons] at hl
      omega
    have hr : r <:+ env.source := by
      rw [hopen] at hs
      exact suffix_right hs
    have hskip : skipBracket level env (env.facing (ascii '[' :: t) d) =
        .ok ((), env.facing r d) := by
      rw [hopen] at hs ⊢
      rw [skipBracket, bind_of_ok (size_of_lt (by omega))]
      exact advance_facing hs (by simp [opener])
    have hbreak : dropLineBreak r <:+ env.source := (dropLineBreak_suffix r).trans hr
    -- the content starts behind the line break, and so does the position it is cut out from
    have hcontent := bracketContent_facing (r := []) (s := dropLineBreak r) d d hbreak hbound
    rw [List.nil_append] at hcontent
    simp only [ht, Text.takeWhile_run hrun hstop, Text.dropWhile_run hrun hstop,
      List.length_replicate, List.head?_cons, if_pos]
    rw [← ht, bind_of_ok hskip, bind_of_ok (skipLineBreak_facing hr), bind_here,
      bind_of_ok hcontent]
    cases hc : splitAtClosing level (dropLineBreak r) with
    | none =>
      dsimp only
      rw [bracketed, longBracket_unclosed ho hc, bind_of_ok (moveTo_facing _ _ _ _)]
      exact .fail _ _
    | some p =>
      obtain ⟨content, rest⟩ := p
      obtain ⟨_, he⟩ := longBracket_closed ho hc
      have hsplit := (splitAtClosing_sound hc).1
      rw [hsplit, ← List.append_assoc] at hbreak
      rw [bracketed, he]
      exact .ok _ (suffix_right hbreak)

/-! ### Comments -/

theorem bracketComment_tracks (hs : s <:+ env.source) :
    Tracks env d (bracketComment env (env.facing s d))
      ((bracketed s).map fun p => (p.1.isSome, p.2)) := by
  rw [bracketComment, bind_of_ok (peek_facing hs)]
  rcases s with - | ⟨b, t⟩
  · exact .ok false hs
  · by_cases hb : b = ascii '['
    · subst hb
      rw [List.head?_cons, if_pos rfl]
      exact (longBracket_tracks hs).map Option.isSome
    · rw [List.head?_cons, if_neg (by simpa using hb), bracketed, longBracket_other hb]
      exact .ok false hs

theorem skipComment_plain (hs : s <:+ env.source)
    (ht : strip? dashes (s.dropWhile isSpace) = none) :
    skipComment env (env.facing s d) = .ok (.inr (), env.facing (s.dropWhile isSpace) d) := by
  have hspace := (List.dropWhile_suffix isSpace).trans hs
  have hdashes : ¬ dashes.isPrefixOf (s.dropWhile isSpace) = true := by
    rw [List.isPrefixOf_iff_prefix]
    exact strip?_eq_none.1 ht
  rw [skipComment, bind_of_ok (skipWhile_facing isSpace hs), bind_of_ok (rest_facing hspace),
    if_neg hdashes]
  rfl

theorem skipComment_dashes (hs : s <:+ env.source)
    (ht : strip? dashes (s.dropWhile isSpace) = some t) :
    Tracks env d (skipComment env (env.facing s d)) ((bracketed t).map fun p =>
      (.inl (), if p.1.isSome then p.2 else p.2.dropWhile (· != ascii '\n'))) := by
  have hspace := (List.dropWhile_suffix isSpace).trans hs
  have hsplit := strip?_eq_some.1 ht
  have hskip := skipWhile_facing (d := d) isSpace hs
  rw [hsplit] at hspace hskip
  have hdashes : dashes.isPrefixOf (dashes ++ t) = true :=
    List.isPrefixOf_iff_prefix.2 (List.prefix_append _ _)
  have hbracket := bracketComment_tracks (d := d) (suffix_right hspace)
  rw [skipComment, bind_of_ok hskip, bind_of_ok (rest_facing hspace), if_pos hdashes,
    bind_of_ok (advance_facing (n := 2) hspace rfl)]
  cases hb : bracketed t with
  | error e =>
    rw [hb] at hbracket
    exact hbracket.bind_error
  | ok p =>
    rw [hb] at hbracket
    refine hbracket.bind_ok fun hr => ?_
    rcases p with ⟨content | _, r⟩
    · rw [Option.isSome_none, if_neg Bool.false_ne_true, bind_of_ok (skipWhile_facing _ hr)]
      exact .ok _ ((List.dropWhile_suffix _).trans hr)
    · exact .ok _ hr

/-- The rest behind trivia. -/
def skipped (s : List UInt8) : Except Failure (Unit × List UInt8) :=
  (Literal.skipTrivia s).map fun r => ((), r.1)

theorem skipTrivia_tracks (hs : s <:+ env.source) :
    Tracks env d (skipTrivia env (env.facing s d)) (skipped s) := by
  rw [skipped]
  fun_induction Literal.skipTrivia s with
  | case1 s afterSpace _ ht =>
    rw [skipTrivia, loop, loopFrom_done (skipComment_plain hs ht)]
    exact .ok () ((List.dropWhile_suffix isSpace).trans hs)
  | case2 s afterSpace _ t ht _ e hb =>
    have hround := skipComment_dashes (d := d) hs ht
    rw [bracketed, hb] at hround
    exact hround.loop_error
  | case3 s afterSpace hle t ht hl bracket hb hlt ih =>
    have hround := skipComment_dashes (d := d) hs ht
    rw [bracketed, hb] at hround
    have hle' : bracket.rest.length < s.length := by omega
    refine hround.loop_next hs hle' fun hr => ?_
    have h := ih hr
    cases hr : Literal.skipTrivia bracket.rest <;> rwa [hr] at h
  | case4 s afterSpace hle t ht hl hb hline ih =>
    have hround := skipComment_dashes (d := d) hs ht
    rw [bracketed, hb] at hround
    have hlt : (t.dropWhile (· != ascii '\n')).length < s.length := by omega
    refine hround.loop_next hs hlt fun hr => ?_
    have h := ih hr
    cases hr : Literal.skipTrivia (t.dropWhile (· != ascii '\n')) <;> rwa [hr] at h

end MobDebug.Literal.Cursor
