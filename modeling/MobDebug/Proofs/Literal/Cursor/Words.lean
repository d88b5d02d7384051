import MobDebug.Proofs.Literal.Cursor.Trivia

/-! Names, and the literals that begin with one, read in place. -/
namespace MobDebug.Literal.Cursor

variable {env : Setting} {s t r : List UInt8} {b : UInt8} {d : Nat} {c : State} {name : String}

theorem decode_ascii (h : ∀ b ∈ s, b.toNat < 0x80) :
    decode s env c = .ok (String.ofList (s.map byteChar), c) := by
  have hlt : ∀ c ∈ s.map byteChar, c.toNat < 0x80 := by
    intro c hc
    obtain ⟨b, hb, rfl⟩ := List.mem_map.1 hc
    rw [toNat_byteChar]
    exact h b hb
  have hbytes : Text.bytes (String.ofList (s.map byteChar)) = s := by
    rw [bytes_ofList hlt, map_ascii_byteChar]
  have hdecode := Text.decode?_bytes (String.ofList (s.map byteChar))
  rw [hbytes] at hdecode
  rw [decode, hdecode]
  rfl

theorem continuesName_lt (h : continuesName b) : b.toNat < 0x80 := by
  rw [← toNat_byteChar]
  exact lt_of_isNameChar (isNameChar_byteChar h)

/-! ### Names -/

theorem peekName_facing (hs : s <:+ env.source) :
    peekName env (env.facing s d) = .ok ((name? s).map (·.value), env.facing s d) := by
  rw [peekName, bind_of_ok (rest_facing hs)]
  rcases s with - | ⟨b, r⟩
  · rfl
  · by_cases hb : startsName b = true
    · have hcont : continuesName b = true := by rw [continuesName, hb, Bool.true_or]
      have htake : (b :: r).takeWhile continuesName = b :: r.takeWhile continuesName :=
        List.takeWhile_cons_of_pos hcont
      have hascii : ∀ c ∈ b :: r.takeWhile continuesName, c.toNat < 0x80 := by
        intro c hc
        rw [← htake] at hc
        exact continuesName_lt (List.mem_takeWhile_imp hc)
      rw [List.head?_cons, Option.any_some, if_pos hb, htake, bind_of_ok (decode_ascii hascii),
        name?, if_pos hb]
      rfl
    · rw [List.head?_cons, Option.any_some, if_neg hb, name?, if_neg hb]
      rfl

theorem skipName_facing {p : Parsed String s} (hs : s <:+ env.source) (h : name? s = some p) :
    skipName p.value env (env.facing s d) = .ok ((), env.facing p.rest d) ∧
      p.rest <:+ env.source := by
  obtain ⟨name, rest, hl⟩ := p
  obtain ⟨rfl, -, -⟩ := name?_sound h
  exact ⟨advance_facing hs rfl, suffix_right hs⟩

theorem expect_tracks (wanted : UInt8) (hs : s <:+ env.source) :
    Tracks env d (expect wanted env (env.facing s d)) (parsed (Literal.expect wanted s)) := by
  have hskip := skipTrivia_tracks (d := d) hs
  rw [skipped] at hskip
  rw [expect, Literal.expect]
  rcases hk : Literal.skipTrivia s with e | ⟨t, ht⟩ <;> rw [hk] at hskip
  · exact hskip.bind_error
  · refine hskip.bind_ok fun ht => ?_
    rw [bind_of_ok (peek_facing ht)]
    rcases t with - | ⟨b, r⟩
    · exact .fail _ _
    · by_cases hb : b = wanted
      · simp only [List.head?_cons, if_pos hb, advance_cons ht]
        exact .ok _ (suffix_tail ht)
      · simp only [List.head?_cons, if_neg hb]
        exact .fail _ _

theorem functionPlaceholder_tracks (hs : s <:+ env.source) :
    Tracks env d (functionPlaceholder env (env.facing s d))
      ((Literal.functionPlaceholder s).map fun p => (.function, p.rest)) := by
  refine (expect_tracks (ascii '(') hs).seq fun opened _ hr => ?_
  refine (expect_tracks (ascii ')') hr).seq fun closed _ hr => ?_
  refine (skipTrivia_tracks hr).seq fun ⟨t, ht⟩ _ hr => ?_
  rw [bind_of_ok (peekName_facing hr)]
  dsimp only
  cases hn : name? t with
  | none => exact .fail _ _
  | some p =>
    by_cases hp : p.value = "end"
    · obtain ⟨hskip, hr⟩ := skipName_facing (d := d) hr hn
      have hword : advance 3 env (env.facing t d) = .ok ((), env.facing p.rest d) := by
        rw [skipName, hp] at hskip
        exact hskip
      simp only [Option.map_some, hp, if_true, bind_of_ok hword]
      exact .ok _ hr
    · simp only [Option.map_some, Option.some.injEq, hp, if_false]
      exact .fail _ _

/-- A word is in front, and what stands behind it does not go on a name. -/
theorem standsAlone_facing {word : List UInt8} (hs : s <:+ env.source)
    (hw : word.length < 2 ^ 63) :
    standsAlone word env (env.facing s d) =
      .ok ((strip? word s).any (!·.head?.any continuesName), env.facing s d) := by
  rw [standsAlone, bind_of_ok (rest_facing hs)]
  cases hw' : strip? word s with
  | none =>
    have hp : ¬ word.isPrefixOf s = true := by
      rw [List.isPrefixOf_iff_prefix]
      exact strip?_eq_none.1 hw'
    rw [if_neg hp]
    rfl
  | some r =>
    have hsplit := strip?_eq_some.1 hw'
    have hp : word.isPrefixOf s = true := by
      rw [List.isPrefixOf_iff_prefix, hsplit]
      exact List.prefix_append _ _
    have hnext : s[word.length]? = r.head? := by
      rw [hsplit, List.getElem?_append_right le_rfl, Nat.sub_self, List.head?_eq_getElem?]
    rw [if_pos hp, bind_of_ok (peekAt_facing hs hw), hnext]
    rfl

theorem mathHuge_tracks (hs : s <:+ env.source) :
    Tracks env d (mathHuge env (env.facing s d)) (parsed (Literal.mathHuge s)) := by
  have halone := standsAlone_facing (d := d) hs
    (by decide : (Text.bytes "math.huge").length < 2 ^ 63)
  rw [Literal.mathHuge]
  split
  · next r hr =>
    have hsplit := strip?_eq_some.1 hr
    rw [hr, Option.any_some] at halone
    rw [mathHuge, bind_of_ok halone]
    by_cases hc : r.head?.any continuesName = true
    · rw [if_pos hc, hc]
      exact .fail _ _
    · have hskip : advance 9 env (env.facing s d) = .ok ((), env.facing r d) := by
        rw [hsplit] at hs ⊢
        exact advance_facing hs rfl
      rw [hsplit] at hs
      rw [if_neg hc, Bool.eq_false_iff.2 hc, Bool.not_false, if_pos rfl, bind_of_ok hskip]
      exact .ok _ (suffix_right hs)
  · next hr =>
    rw [hr] at halone
    rw [mathHuge, bind_of_ok halone]
    exact .fail _ _

/-! ### References -/

theorem nilOrReference_alone_tracks (hs : s <:+ env.source)
    (hp : ¬ (dashes ++ [ascii '[']).isPrefixOf (s.dropWhile isSpace) = true) :
    Tracks env d (nilOrReference env (env.facing s d)) (.ok (.nil, s)) := by
  have hspace := (List.dropWhile_suffix isSpace).trans hs
  rw [nilOrReference, bind_here, bind_of_ok (skipWhile_facing isSpace hs),
    bind_of_ok (rest_facing hspace), if_neg hp, bind_of_ok (moveTo_facing s _ d d)]
  exact .ok _ hs

theorem nilOrReference_bracket_tracks (hs : s <:+ env.source)
    (ht : s.dropWhile isSpace = dashes ++ ascii '[' :: t) :
    Tracks env d (nilOrReference env (env.facing s d)) ((bracketed (ascii '[' :: t)).map fun
      | (some content, r) => (commentedNil content, r)
      | (none, _) => (.nil, s)) := by
  have hspace := (List.dropWhile_suffix isSpace).trans hs
  have hskip := skipWhile_facing (d := d) isSpace hs
  rw [ht] at hspace hskip
  have hp : (dashes ++ [ascii '[']).isPrefixOf (dashes ++ ascii '[' :: t) = true := rfl
  have hbracket := longBracket_tracks (d := d) (suffix_right hspace)
  rw [nilOrReference, bind_here, bind_of_ok hskip, bind_of_ok (rest_facing hspace), if_pos hp,
    bind_of_ok (advance_facing (n := 2) hspace rfl)]
  rcases hb : bracketed (ascii '[' :: t) with e | ⟨_ | content, r⟩ <;> rw [hb] at hbracket
  · exact hbracket.bind_error
  · refine hbracket.bind_ok fun _ => ?_
    dsimp only
    rw [bind_of_ok (moveTo_facing s _ d d)]
    exact .ok _ hs
  · exact hbracket.bind_ok fun hr => .ok _ hr

theorem nilOrReference_tracks (hs : s <:+ env.source) :
    Tracks env d (nilOrReference env (env.facing s d)) (rested (Literal.nilOrReference s)) := by
  rw [Literal.nilOrReference]
  dsimp only
  split
  · next ht =>
    refine nilOrReference_alone_tracks hs fun hp => strip?_eq_none.1 ht ?_
    exact (List.prefix_append _ _).trans (List.isPrefixOf_iff_prefix.1 hp)
  · next t ht =>
    have hsplit := strip?_eq_some.1 ht
    by_cases hb : t.head? = some (ascii '[')
    · obtain ⟨r, rfl⟩ := List.head?_eq_some_iff.1 hb
      have hread := nilOrReference_bracket_tracks (d := d) hs hsplit
      rw [bracketed] at hread
      split <;> next hl => rw [hl] at hread; exact hread
    · have hnone : Literal.longBracket t = .ok none := by
        rcases t with - | ⟨b, r⟩
        · rfl
        · exact longBracket_other (by simpa using hb)
      have hread := nilOrReference_alone_tracks (d := d) hs fun hp => by
        obtain ⟨r, hr⟩ := List.isPrefixOf_iff_prefix.1 hp
        rw [hsplit, List.append_assoc] at hr
        exact hb (by rw [← List.append_cancel_left hr]; rfl)
      split <;> next hl =>
        cases hnone.symm.trans hl <;> exact hread

/-! ### Literals -/

theorem named_tracks {p : Parsed String s} (hs : s <:+ env.source) (hn : name? s = some p) :
    Tracks env d (named env (env.facing s d)) (parsed (Literal.named s p)) := by
  obtain ⟨hskip, hr⟩ := skipName_facing (d := d) hs hn
  rw [named, bind_here, bind_of_ok (peekName_facing hs), hn]
  dsimp only [Option.map_some]
  rw [bind_of_ok hskip, Literal.named]
  by_cases hnil : p.value = "nil"
  · have hread := nilOrReference_tracks (d := d) hr
    rw [if_pos hnil, if_pos hnil]
    cases hx : Literal.nilOrReference p.rest <;> rwa [hx] at hread
  rw [if_neg hnil, if_neg hnil]
  by_cases htrue : p.value = "true"
  · rw [if_pos htrue, if_pos htrue]
    exact .ok _ hr
  rw [if_neg htrue, if_neg htrue]
  by_cases hfalse : p.value = "false"
  · rw [if_pos hfalse, if_pos hfalse]
    exact .ok _ hr
  rw [if_neg hfalse, if_neg hfalse]
  by_cases hmath : p.value = "math"
  · have hread := (mathHuge_tracks (d := d) hs).map Value.number
    rw [if_pos hmath, if_pos hmath, bind_of_ok (moveTo_facing s p.rest d d)]
    cases hx : Literal.mathHuge s <;> rwa [hx] at hread
  rw [if_neg hmath, if_neg hmath]
  by_cases hfunction : p.value = "function"
  · have hread := functionPlaceholder_tracks (d := d) hr
    rw [if_pos hfunction, if_pos hfunction]
    cases hx : Literal.functionPlaceholder p.rest <;> rwa [hx] at hread
  · rw [if_neg hfunction, if_neg hfunction, bind_of_ok (moveTo_facing s p.rest d d)]
    exact .fail _ _

end MobDebug.Literal.Cursor
