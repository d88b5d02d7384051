import MobDebug.Proofs.Literal.Cursor.Tables

/-! Whole texts, read in place. -/
namespace MobDebug.Literal.Cursor

variable {env : Setting} {s r : List UInt8} {b : UInt8} {d k : Nat} {table : Scan Value}
  {reader : Parser Value}

theorem number_nan_tracks (hs : zeroOverZero ++ r <:+ env.source)
    (hr : r.head?.any continuesName = false) :
    Tracks env d (number env (env.facing (zeroOverZero ++ r) d)) (.ok (.float .nan, r)) := by
  have halone := standsAlone_facing (d := d) hs (by decide : zeroOverZero.length < 2 ^ 63)
  have hstrip : strip? zeroOverZero (zeroOverZero ++ r) = some r := strip?_eq_some.2 rfl
  rw [hstrip, Option.any_some, hr] at halone
  have hskip : advance 3 env (env.facing (zeroOverZero ++ r) d) = .ok ((), env.facing r d) :=
    advance_facing hs rfl
  rw [number, bind_of_ok halone, Bool.not_false, if_pos rfl, bind_of_ok hskip]
  exact .ok _ (suffix_right hs)

theorem number_numeral_tracks (hs : b :: r <:+ env.source)
    (hn : Literal.startsNumeral (b :: r) = true)
    (hz : ¬ (strip? zeroOverZero (b :: r)).any (!·.head?.any continuesName) = true) :
    Tracks env d (number env (env.facing (b :: r) d)) (parsed (Literal.numeral b r)) := by
  have halone := standsAlone_facing (d := d) hs (by decide : zeroOverZero.length < 2 ^ 63)
  rw [number, bind_of_ok halone, if_neg hz]
  exact numeral_tracks hs hn

theorem literal_number_tracks (reader : Parser Value) (hs : b :: r <:+ env.source)
    (hn : Literal.startsNumeral (b :: r) = true) :
    Tracks env d ((number >>= fun n => pure (Value.number n)) env (env.facing (b :: r) d))
      (parsed (Literal.literal reader b r)) := by
  by_cases hz : (strip? zeroOverZero (b :: r)).any (!·.head?.any continuesName) = true
  · cases ht : strip? zeroOverZero (b :: r) with
    | none =>
      rw [ht] at hz
      cases hz
    | some t =>
      rw [ht, Option.any_some, Bool.not_eq_true'] at hz
      obtain ⟨rfl, rfl⟩ := List.cons.inj (strip?_eq_some.1 ht)
      obtain ⟨_, he⟩ : Gives (Literal.literal reader _ _) _ t := literal_nan hz
      have hread := (number_nan_tracks (d := d) hs hz).map Value.number
      rw [List.append_eq, List.cons_append, List.singleton_append, he]
      exact hread
  · have hread := (number_numeral_tracks (d := d) hs hn hz).map Value.number
    have hzero : ∀ t, b :: r = ascii '0' :: ascii '/' :: ascii '0' :: t →
        t.head?.any continuesName := by
      intro t ht
      have hstrip : strip? zeroOverZero (b :: r) = some t := strip?_eq_some.2 ht
      simpa [hstrip] using hz
    rw [literal_numeral hn hzero]
    cases hx : Literal.numeral b r <;> rwa [hx] at hread

theorem literal_tracks (hs : b :: r <:+ env.source)
    (htable : Tracks env d (table env (env.facing (b :: r) d)) (parsed (reader (b :: r)))) :
    Tracks env d (literal table b env (env.facing (b :: r) d))
      (parsed (Literal.literal reader b r)) := by
  have hr := suffix_tail hs
  rw [literal]
  by_cases hopen : b = ascii '\x7b'
  · unfold Literal.literal
    rw [if_pos hopen, if_pos hopen]
    exact htable
  rw [if_neg hopen]
  by_cases hquote : b = ascii '"' ∨ b = ascii '\''
  · have hread := (quotation_tracks b (d := d) hr).map fun content =>
      Value.str (Text.decodeLossy content)
    rw [if_pos hquote, bind_of_ok (advance_cons hs), literal_quote hquote]
    cases hx : Literal.quotation b r <;> rwa [hx] at hread
  rw [if_neg hquote]
  by_cases hbracket : b = ascii '['
  · subst hbracket
    have hread := longBracket_tracks (d := d) hs
    rw [bracketed] at hread
    unfold Literal.literal
    rw [if_pos rfl, if_neg hopen, if_neg hquote, if_pos rfl]
    rcases hx : Literal.longBracket (ascii '[' :: r) with e | - | bracket <;> rw [hx] at hread
    · exact hread.bind_error
    · exact hread.bind_ok fun _ => .fail _ _
    · exact hread.bind_ok fun hr => .ok _ hr
  rw [if_neg hbracket]
  by_cases hminus : b = ascii '-'
  · have hread := negated_tracks (d := d) hr
    unfold Literal.literal
    rw [if_pos hminus, bind_of_ok (advance_cons hs), if_neg hopen, if_neg hquote, if_neg hbracket,
      if_pos hminus]
    cases hx : Literal.negated r <;> rwa [hx] at hread
  rw [if_neg hminus, bind_of_ok (startsNumeral_facing hs)]
  by_cases hn : Literal.startsNumeral (b :: r) = true
  · rw [if_pos hn]
    exact literal_number_tracks reader hs hn
  unfold Literal.literal
  rw [if_neg hn, if_neg hopen, if_neg hquote, if_neg hbracket, if_neg hminus, if_neg hn]
  by_cases hname : startsName b = true
  · rw [if_pos hname, name?, if_pos hname]
    exact named_tracks hs (if_pos hname)
  · rw [if_neg hname, name?, if_neg hname]
    exact .fail _ _

theorem literalAfterTrivia_tracks (hs : s <:+ env.source)
    (htable : ∀ b r, b :: r <:+ env.source →
      Tracks env d (table env (env.facing (b :: r) d)) (parsed (reader (b :: r)))) :
    Tracks env d (literalAfterTrivia table env (env.facing s d))
      (parsed (Literal.literalAfterTrivia reader s)) := by
  have hskip := skipTrivia_tracks (d := d) hs
  rw [skipped] at hskip
  rw [literalAfterTrivia, Literal.literalAfterTrivia]
  rcases hx : Literal.skipTrivia s with e | ⟨- | ⟨b, r⟩, hl⟩ <;> rw [hx] at hskip
  · exact hskip.bind_error
  · refine hskip.bind_ok fun hr => ?_
    rw [bind_of_ok (peek_facing hr)]
    exact .fail _ _
  · refine hskip.bind_ok fun hr => ?_
    have hread := literal_tracks hr (htable b r hr)
    rw [bind_of_ok (peek_facing hr)]
    dsimp only [List.head?_cons]
    cases hy : Literal.literal reader b r <;> rwa [hy] at hread

theorem advancing_tracks {α : Type} {m : Scan α} {x : Except Failure (Parsed α s)}
    (hs : s <:+ env.source) (hm : Tracks env d (m env (env.facing s d)) (parsed x)) :
    Tracks env d (advancing m env (env.facing s d)) (parsed x) := by
  rw [advancing, bind_here]
  rcases x with e | p
  · exact hm.bind_error
  · refine hm.bind_ok fun hr => ?_
    have hpos := pos_facing hs d
    have hpos' := pos_facing hr d
    have hshort := p.shorter
    rw [bind_here, if_pos (by omega)]
    exact .ok _ hr

/-- By induction on how many tables may still be opened. -/
theorem value_tracks (hs : s <:+ env.source) (hk : d + k = env.limit) :
    Tracks env d (value (k + 1) env (env.facing s d)) (parsed (Literal.value env.limit k s)) := by
  induction k generalizing d s with
  | zero =>
    -- No table may be opened here, so the value that would be read in one is never asked for.
    refine advancing_tracks hs (literalAfterTrivia_tracks hs fun b r hr => ?_)
    exact table_deep_tracks _ _ (by omega)
  | succ k ih =>
    refine advancing_tracks hs (literalAfterTrivia_tracks hs fun b r hr => ?_)
    exact table_tracks hr (by omega) fun s hs => ih hs (by omega)

/-- What `read` gives, before the places of its faults are counted from the start. -/
def whole (limit : Nat) (s : List UInt8) : Except Failure Value := do
  let p ← Literal.value limit limit s
  let rest ← Literal.skipTrivia p.rest
  if rest.1.isEmpty then .ok p.value else failAt .trailingInput rest.1

theorem parse_tracks (env : Setting) :
    Tracks env 0 (parse env (env.facing env.source 0))
      ((whole env.limit env.source).map fun v => (v, [])) := by
  have hs := List.suffix_refl env.source
  rw [parse, bind_limit]
  refine (value_tracks hs (Nat.zero_add _)).seq fun p _ hr => ?_
  refine (skipTrivia_tracks hr).seq fun ⟨t, _⟩ _ ht => ?_
  have hpos : (env.facing t 0).pos + t.length = env.source.length := pos_facing ht 0
  rw [bind_here, bind_of_ok rfl]
  dsimp only
  rcases t with - | ⟨b, t⟩
  · rw [List.length_nil, Nat.add_zero] at hpos
    rw [if_pos hpos]
    exact .ok _ ht
  · rw [List.length_cons] at hpos
    rw [if_neg (by omega)]
    exact .fail _ _

theorem read_whole (limit : Nat) (text : String) :
    read limit text = (whole limit (Text.bytes text)).mapError fun e =>
      ⟨e.fault, (Text.bytes text).length - e.left⟩ := rfl

theorem run_facing (env : Setting) :
    run env = (parse env (env.facing env.source 0)).map Prod.fst := by
  rw [run, Setting.facing, Nat.sub_self]

/-- The machine ends as the reader does, or where the exponent of a numeral leaves its width. -/
theorem run_cases (env : Setting) :
    run env = (read env.limit env.text).mapError .fault ∨
      run env = .error (.breach .overflow) ∧ env.wraps = false ∧ Sunken env.source := by
  have htracks := parse_tracks env
  rw [run_facing, read_whole, ← Setting.source]
  generalize parse env (env.facing env.source 0) = y at htracks
  generalize whole env.limit env.source = x at htracks
  rcases x with e | v
  · cases htracks with
    | fault => exact .inl rfl
    | overflow hw h => exact .inr ⟨rfl, hw, h⟩
  · cases htracks with
    | ok => exact .inl rfl
    | overflow hw h => exact .inr ⟨rfl, hw, h⟩

end MobDebug.Literal.Cursor
