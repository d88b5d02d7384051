import MobDebug.Proofs.Literal.Grammar
import Mathlib.Data.List.TakeWhile

/-! Long brackets are read up to their first closing bracket, and what is skipped between tokens is
trivia: all of it, and nothing else. -/
namespace MobDebug.Literal

variable {lead s t u r g rest raw content : List UInt8} {b : UInt8} {level : Nat}

theorem strip?_eq_some : strip? lead s = some r ↔ s = lead ++ r := by
  constructor
  · intro h
    unfold strip? at h
    split at h
    · next hp =>
      obtain ⟨t, rfl⟩ := List.isPrefixOf_iff_prefix.1 hp
      rw [List.drop_left] at h
      cases h
      rfl
    · cases h
  · rintro rfl
    exact strip?_append lead r

theorem strip?_eq_none : strip? lead s = none ↔ ¬ lead <+: s := by
  rw [strip?, ite_eq_right_iff, List.isPrefixOf_iff_prefix]
  simp

theorem map_eq_ok {α β : Type} {f : α → β} {x : Except Failure α} {y : β} :
    x.map f = .ok y ↔ ∃ a, x = .ok a ∧ f a = y := by
  cases x <;> simp [Except.map]

/-- A reading that was made of another of the same rest. -/
theorem Gives.of_map {α β : Type} {x : Except Failure (Parsed α s)} {φ : Parsed α s → Parsed β t}
    {y : β} (h : Gives (x.map φ) y r) (f : α → β) (hv : ∀ p, (φ p).value = f p.value)
    (hr : ∀ p, (φ p).rest = p.rest) : ∃ a, Gives x a r ∧ f a = y := by
  obtain ⟨_, he⟩ := h
  obtain ⟨p, rfl, hp⟩ := map_eq_ok.1 he
  have hvalue : f p.value = y := (hv p).symm.trans (congrArg Parsed.value hp)
  have hrest : p.rest = r := (hr p).symm.trans (congrArg Parsed.rest hp)
  obtain ⟨a, r, h⟩ := p
  subst hrest
  exact ⟨a, ⟨h, rfl⟩, hvalue⟩

/-! ### Long brackets -/

theorem splitAtClosing_sound (h : splitAtClosing level s = some (content, rest)) :
    s = content ++ (closer level ++ rest) ∧ ¬ closer level <:+: content ++ closerStem level := by
  induction s generalizing content with
  | nil => cases h
  | cons b s ih =>
    rw [splitAtClosing] at h
    split at h
    · next hc =>
      cases h
      have hs : strip? (closer level) (b :: s) = some rest := hc
      rw [strip?_eq_some.1 hs]
      refine ⟨rfl, fun hi => ?_⟩
      have := hi.length_le
      simp only [closer, List.length_append, List.length_cons, List.length_nil] at this
      omega
    · next hc =>
      obtain ⟨⟨c, t⟩, hs, he⟩ := Option.map_eq_some_iff.1 h
      cases he
      obtain ⟨rfl, hfirst⟩ := ih hs
      refine ⟨rfl, fun hi => ?_⟩
      rcases List.infix_cons_iff.1 hi with hp | hi
      · -- a closing bracket at this byte would have been found
        refine strip?_eq_none.1 hc (hp.trans ?_)
        exact ⟨[ascii ']'] ++ rest, by simp [closer]⟩
      · exact hfirst hi

theorem splitAtClosing_complete (h : ¬ closer level <:+: content ++ closerStem level)
    (rest : List UInt8) :
    splitAtClosing level (content ++ (closer level ++ rest)) = some (content, rest) := by
  induction content with
  | nil =>
    have hc : closing? level (closer level ++ rest) = some rest := strip?_append _ _
    rw [List.nil_append]
    rw [closer, closerStem, List.cons_append, List.cons_append] at hc ⊢
    rw [splitAtClosing, hc]
  | cons b content ih =>
    have hc : closing? level (b :: (content ++ (closer level ++ rest))) = none := by
      refine strip?_eq_none.2 fun hp => h ?_
      refine (List.prefix_of_prefix_length_le hp ?_ ?_).isInfix
      · exact ⟨[ascii ']'] ++ rest, by simp [closer]⟩
      · simp only [closerStem, List.length_append, List.length_cons, List.length_nil]
        omega
    rw [List.cons_append, splitAtClosing, hc]
    dsimp only
    rw [ih fun hi => h (hi.trans (List.suffix_cons b _).isInfix)]
    rfl

theorem opening?_eq_some :
    opening? s = some (level, r) ↔ s = List.replicate level (ascii '=') ++ ascii '[' :: r := by
  constructor
  · intro h
    have hs := List.takeWhile_append_dropWhile (p := (· == ascii '=')) (l := s)
    have hrun : s.takeWhile (· == ascii '=') =
        List.replicate (s.takeWhile (· == ascii '=')).length (ascii '=') := by
      refine List.eq_replicate_of_mem fun b hb => ?_
      simpa using List.mem_takeWhile_imp hb
    unfold opening? at h
    split at h
    · next b t hd =>
      split at h
      · next hb =>
        cases h
        rw [← hrun, ← hb, ← hd, hs]
      · cases h
    · cases h
  · rintro rfl
    have hrun : ∀ b ∈ List.replicate level (ascii '='), (b == ascii '=') = true := by
      intro b hb
      rw [List.eq_of_mem_replicate hb]
      rfl
    have hstop : ∀ b ∈ (ascii '[' :: r).head?, (b == ascii '=') = false := by
      rintro b ⟨⟩
      rfl
    simp only [opening?, Text.dropWhile_run hrun hstop, Text.takeWhile_run hrun hstop,
      List.length_replicate, if_true]

theorem opener_iff :
    opener level <+: b :: t ↔ b = ascii '[' ∧ ∃ r, opening? t = some (level, r) := by
  simp only [opening?_eq_some]
  constructor
  · rintro ⟨r, hr⟩
    obtain ⟨rfl, rfl⟩ :
        ascii '[' = b ∧ List.replicate level (ascii '=') ++ [ascii '['] ++ r = t := by
      simpa [opener] using hr
    exact ⟨rfl, r, by simp⟩
  · rintro ⟨rfl, r, rfl⟩
    exact ⟨r, by simp [opener]⟩

theorem dropLineBreak_return (hs : s.head? ≠ some 0x0a) : dropLineBreak (0x0d :: s) = s := by
  unfold dropLineBreak
  split <;> simp_all

theorem dropLineBreak_other (h : b ≠ 0x0d) (h' : b ≠ 0x0a) : dropLineBreak (b :: s) = b :: s := by
  unfold dropLineBreak
  split <;> simp_all

/-- A line break is dropped in front of a closing bracket as in front of anything else. -/
theorem dropLineBreak_append (ht : t.head? = some (ascii ']')) :
    dropLineBreak (raw ++ t) = dropLineBreak raw ++ t := by
  have hne : t.head? ≠ some 0x0a := by
    rw [ht]
    decide
  rcases raw with - | ⟨b, raw⟩
  · obtain ⟨t, rfl⟩ := List.head?_eq_some_iff.1 ht
    rfl
  by_cases hb : b = 0x0d
  · subst hb
    by_cases hr : raw.head? = some 0x0a
    · obtain ⟨raw, rfl⟩ := List.head?_eq_some_iff.1 hr
      rfl
    · rw [dropLineBreak_return hr, List.cons_append, dropLineBreak_return]
      cases raw with
      | nil => exact hne
      | cons c raw => exact hr
  by_cases hb' : b = 0x0a
  · subst hb'
    rfl
  · rw [dropLineBreak_other hb hb', List.cons_append, dropLineBreak_other hb hb']

theorem dropLineBreak_suffix (s : List UInt8) : dropLineBreak s <:+ s := by
  unfold dropLineBreak
  split
  · exact ⟨[0x0d, 0x0a], rfl⟩
  · exact List.suffix_cons _ _
  · exact List.suffix_cons _ _
  · exact List.suffix_rfl

theorem head?_closer (level : Nat) (rest : List UInt8) :
    (closer level ++ rest).head? = some (ascii ']') := rfl

theorem longBracket_other (hb : b ≠ ascii '[') : longBracket (b :: t) = .ok none := by
  rw [longBracket, if_neg hb]

theorem longBracket_unopened (ho : opening? t = none) :
    longBracket (ascii '[' :: t) = .ok none := by
  rw [longBracket, if_pos rfl]
  split
  · rfl
  · next ho' => cases ho.symm.trans ho'

theorem longBracket_unclosed (ho : opening? t = some (level, r))
    (hc : splitAtClosing level (dropLineBreak r) = none) :
    longBracket (ascii '[' :: t) = failAt .unterminatedBracket (ascii '[' :: t) := by
  rw [longBracket, if_pos rfl]
  split
  · next ho' => cases ho.symm.trans ho'
  · next ho' =>
    cases ho.symm.trans ho'
    split
    · rfl
    · next hc' => cases hc.symm.trans hc'

theorem longBracket_closed (ho : opening? t = some (level, r))
    (hc : splitAtClosing level (dropLineBreak r) = some (content, rest)) :
    ∃ hr, longBracket (ascii '[' :: t) = .ok (some ⟨content, rest, hr⟩) := by
  have hlen := length_of_splitAtClosing hc
  have hdrop := length_dropLineBreak_le r
  have hopen := length_of_opening? ho
  refine ⟨by simp; omega, ?_⟩
  rw [longBracket, if_pos rfl]
  split
  · next ho' => cases ho.symm.trans ho'
  · next ho' =>
    cases ho.symm.trans ho'
    split
    · next hc' => cases hc.symm.trans hc'
    · next hc' =>
      cases hc.symm.trans hc'
      rfl

theorem longBracket_eq_none : longBracket s = .ok none ↔ ∀ level, ¬ opener level <+: s := by
  rcases s with - | ⟨b, t⟩
  · simp [longBracket, opener]
  simp only [opener_iff]
  by_cases hb : b = ascii '['
  · subst hb
    cases ho : opening? t with
    | none => simp [longBracket_unopened ho]
    | some o =>
      obtain ⟨level, r⟩ := o
      refine iff_of_false ?_ fun h => h level ⟨rfl, r, rfl⟩
      cases hc : splitAtClosing level (dropLineBreak r) with
      | none =>
        rw [longBracket_unclosed ho hc]
        simp [failAt]
      | some c =>
        obtain ⟨content, rest⟩ := c
        obtain ⟨hr, he⟩ := longBracket_closed ho hc
        simp [he]
  · simp [longBracket_other hb, hb]

/-- What is dropped before the content is part of the bracket still. -/
theorem longBracket_split (ho : opening? t = some (level, r))
    (hc : splitAtClosing level (dropLineBreak r) = some (content, rest)) :
    ∃ b, ascii '[' :: t = b ++ rest ∧ LongBracket b content := by
  obtain ⟨hd, hfirst⟩ := splitAtClosing_sound hc
  obtain ⟨k, hk⟩ := dropLineBreak_suffix r
  have hline : dropLineBreak (k ++ content ++ (closer level ++ rest)) =
      dropLineBreak (k ++ content) ++ (closer level ++ rest) :=
    dropLineBreak_append (head?_closer level rest)
  rw [List.append_assoc, ← hd, hk, hd] at hline
  have hraw : dropLineBreak (k ++ content) = content := (List.append_cancel_right hline).symm
  refine ⟨_, ?_, .mk hraw hfirst⟩
  rw [opening?_eq_some.1 ho, ← hk, hd]
  simp [opener]

/-- A long bracket is read where one stands, up to its end. -/
theorem longBracket_eq_some : (∃ h, longBracket s = .ok (some ⟨content, rest, h⟩)) ↔
    ∃ b, s = b ++ rest ∧ LongBracket b content := by
  constructor
  · rintro ⟨h, hs⟩
    rcases s with - | ⟨b, t⟩
    · simp [longBracket] at hs
    by_cases hb : b = ascii '['
    · subst hb
      cases ho : opening? t with
      | none => simp [longBracket_unopened ho] at hs
      | some o =>
        obtain ⟨level, r⟩ := o
        cases hc : splitAtClosing level (dropLineBreak r) with
        | none => simp [longBracket_unclosed ho hc, failAt] at hs
        | some c =>
          obtain ⟨content, rest⟩ := c
          obtain ⟨hr, he⟩ := longBracket_closed ho hc
          cases he.symm.trans hs
          exact longBracket_split ho hc
    · simp [longBracket_other hb] at hs
  · rintro ⟨_, rfl, hb⟩
    obtain @⟨level, raw, _, rfl, hfirst⟩ := hb
    have ho : opening? (List.replicate level (ascii '=') ++ ascii '[' ::
        (raw ++ (closer level ++ rest))) = some (level, raw ++ (closer level ++ rest)) :=
      opening?_eq_some.2 rfl
    have hc := splitAtClosing_complete hfirst rest
    rw [← dropLineBreak_append (head?_closer level rest)] at hc
    have hs : opener level ++ (raw ++ closer level) ++ rest = ascii '[' ::
        (List.replicate level (ascii '=') ++ ascii '[' :: (raw ++ (closer level ++ rest))) := by
      simp only [opener, List.cons_append, List.append_assoc, List.nil_append]
    rw [hs]
    exact longBracket_closed ho hc

/-! ### Trivia -/

theorem Skips.unique (h : Skips s t) (h' : Skips s u) : t = u := by
  obtain ⟨_, h⟩ := h
  obtain ⟨_, h'⟩ := h'
  cases h.symm.trans h'
  rfl

/-- What is skipped: space, then nothing, a comment in brackets or a line, and so on. -/
theorem skips_inv (h : Skips s t) :
    (strip? dashes (s.dropWhile isSpace) = none ∧ t = s.dropWhile isSpace) ∨
    ∃ c, strip? dashes (s.dropWhile isSpace) = some c ∧
      ((∃ content r, (∃ hr, longBracket c = .ok (some ⟨content, r, hr⟩)) ∧ Skips r t) ∨
        (longBracket c = .ok none ∧ Skips (c.dropWhile (· != ascii '\n')) t)) := by
  obtain ⟨hl, h⟩ := h
  rw [skipTrivia] at h
  split at h
  · next ht =>
    cases h
    exact .inl ⟨ht, rfl⟩
  · next c ht =>
    refine .inr ⟨c, ht, ?_⟩
    split at h
    · cases h
    · next bracket hb =>
      obtain ⟨content, r, hr⟩ := bracket
      obtain ⟨⟨u, hu⟩, hs, he⟩ := map_eq_ok.1 h
      cases he
      exact .inl ⟨content, r, ⟨hr, hb⟩, hu, hs⟩
    · next hb =>
      obtain ⟨⟨u, hu⟩, hs, he⟩ := map_eq_ok.1 h
      cases he
      exact .inr ⟨hb, hu, hs⟩

theorem skips_line (h : strip? dashes (s.dropWhile isSpace) = some t)
    (hb : longBracket t = .ok none) (hr : Skips (t.dropWhile (· != ascii '\n')) u) :
    Skips s u := by
  obtain ⟨hu, hr⟩ := hr
  have hlen := length_of_strip? h
  have hle := length_dropWhile_le isSpace s
  have hline := length_dropWhile_le (· != ascii '\n') t
  refine ⟨by simp [dashes] at hlen; omega, ?_⟩
  rw [skipTrivia]
  split
  · next ht => cases h.symm.trans ht
  · next t' ht =>
    cases h.symm.trans ht
    split
    · next he => cases hb.symm.trans he
    · next hs => cases hb.symm.trans hs
    · simp only [hr, Except.map]

theorem skips_cons (hb : isSpace b) : Skips (b :: s) t ↔ Skips s t := by
  have hd : (b :: s).dropWhile isSpace = s.dropWhile isSpace := List.dropWhile_cons_of_pos hb
  constructor
  · intro h
    rcases skips_inv h with ⟨hn, rfl⟩ | ⟨c, hc, ⟨content, r, hr, hs⟩ | ⟨hn, hs⟩⟩
    · rw [hd] at hn ⊢
      exact skips_plain hn
    · rw [hd] at hc
      exact skips_comment hc hr hs
    · rw [hd] at hc
      exact skips_line hc hn hs
  · intro h
    rcases skips_inv h with ⟨hn, rfl⟩ | ⟨c, hc, ⟨content, r, hr, hs⟩ | ⟨hn, hs⟩⟩
    · rw [← hd] at hn ⊢
      exact skips_plain hn
    · rw [← hd] at hc
      exact skips_comment hc hr hs
    · rw [← hd] at hc
      exact skips_line hc hn hs

theorem trivia_spaces (hg : ∀ b ∈ g, isSpace b) : Trivia g := by
  induction g with
  | nil => exact .none
  | cons b g ih =>
    obtain ⟨hb, hg⟩ := List.forall_mem_cons.1 hg
    exact .space hb (ih hg)

theorem Trivia.append (hg : Trivia g) (hr : Trivia r) : Trivia (g ++ r) := by
  induction hg with
  | none => exact hr
  | space hb _ ih => exact .space hb ih
  | line hc _ ih =>
    rw [List.append_assoc, List.cons_append]
    exact .line hc ih
  | long hs _ ih =>
    rw [List.append_assoc, List.append_assoc]
    exact .long hs ih

theorem Trivia.append_trailing (hg : Trivia g) (hr : Trailing r) : Trailing (g ++ r) := by
  cases hr with
  | closed hr => exact .closed (hg.append hr)
  | line hr hc =>
    rw [← List.append_assoc]
    exact .line (hg.append hr) hc

/-- No line end belongs to an opening bracket. -/
theorem opener_prefix_line (h : opener level <+: r ++ ascii '\n' :: s) : opener level <+: r := by
  rcases List.prefix_or_prefix_of_prefix h (List.prefix_append r _) with h | ⟨k, hk⟩
  · exact h
  rw [← hk, List.prefix_append_right_inj] at h
  cases k with
  | nil =>
    rw [List.append_nil] at hk
    exact ⟨[], by rw [hk, List.append_nil]⟩
  | cons b k =>
    obtain ⟨rfl, -⟩ := List.cons_prefix_cons.1 h
    have hm : ascii '\n' ∈ opener level := hk ▸ List.mem_append_right r List.mem_cons_self
    simp only [opener, List.mem_cons, List.mem_append, List.mem_replicate, List.not_mem_nil,
      or_false] at hm
    rcases hm with hm | ⟨-, hm⟩ | hm <;> exact absurd hm (by decide)

theorem strip?_dashes (s : List UInt8) : strip? dashes ((dashes ++ s).dropWhile isSpace) = some s :=
  strip?_append dashes s

theorem dropWhile_line (hr : ascii '\n' ∉ r) (hs : ∀ b ∈ s.head?, b = ascii '\n') :
    (r ++ s).dropWhile (· != ascii '\n') = s := by
  refine Text.dropWhile_run (fun b hb => ?_) (fun b hb => ?_)
  · rw [bne_iff_ne]
    rintro rfl
    exact hr hb
  · rw [hs b hb]
    rfl

/-- A comment in a line is skipped up to the end of the line. -/
theorem LineComment.skips (hc : LineComment g) (hs : ∀ b ∈ s.head?, b = ascii '\n')
    (h : Skips s t) : Skips (g ++ s) t := by
  obtain @⟨body, hl, hb⟩ := hc
  rw [List.append_assoc]
  refine skips_line (strip?_dashes (body ++ s)) (longBracket_eq_none.2 fun level hp => ?_) ?_
  · refine hb level ?_
    cases s with
    | nil => rwa [List.append_nil] at hp
    | cons b s =>
      obtain rfl := hs b rfl
      exact opener_prefix_line hp
  · rwa [dropWhile_line hl hs]

theorem Trivia.skips (hg : Trivia g) (h : Skips s t) : Skips (g ++ s) t := by
  induction hg with
  | none => exact h
  | space hb _ ih => exact (skips_cons hb).2 ih
  | line hc _ ih =>
    rw [List.append_assoc]
    exact hc.skips (by rintro _ ⟨⟩; rfl) ((skips_cons rfl).2 ih)
  | @long b content g hs _ ih =>
    have hbracket : ∃ h, longBracket (b ++ (g ++ s)) = .ok (some ⟨content, g ++ s, h⟩) :=
      longBracket_eq_some.2 ⟨b, rfl, hs⟩
    rw [List.append_assoc, List.append_assoc]
    exact skips_comment (strip?_dashes (b ++ (g ++ s))) hbracket ih

/-- What is skipped in front of `t`: trivia, to the end of the text if `t` is empty. -/
structure Gap (g t : List UInt8) : Prop where
  solid : Solid t
  skipped : Trivia g ∨ t = [] ∧ Trailing g

theorem Gap.append (hr : Trivia r) (hg : Gap g t) : Gap (r ++ g) t := by
  refine ⟨hg.solid, ?_⟩
  rcases hg.skipped with h | ⟨ht, h⟩
  · exact .inl (hr.append h)
  · exact .inr ⟨ht, hr.append_trailing h⟩

theorem Gap.trivia_of_ne_nil (hg : Gap g t) (ht : t ≠ []) : Trivia g :=
  hg.skipped.elim id fun h => absurd h.1 ht

theorem Gap.trivia (hg : Gap g (b :: t)) : Trivia g :=
  hg.trivia_of_ne_nil (List.cons_ne_nil b t)

theorem gap_nil : Gap g [] ↔ Trailing g := by
  constructor
  · rintro ⟨-, h | ⟨-, h⟩⟩
    · exact .closed h
    · exact h
  · exact fun h => ⟨solid_nil, .inr ⟨rfl, h⟩⟩

theorem solid_dropWhile (h : strip? dashes (s.dropWhile isSpace) = none) :
    Solid (s.dropWhile isSpace) := by
  refine ⟨fun b hb => ?_, h⟩
  have := List.head?_dropWhile_not isSpace s
  rw [hb] at this
  simpa using this

theorem lineComment_takeWhile (h : longBracket t = .ok none) :
    LineComment (dashes ++ t.takeWhile (· != ascii '\n')) := by
  refine .mk (fun hm => ?_) fun level hp => ?_
  · simpa using List.mem_takeWhile_imp hm
  · exact longBracket_eq_none.1 h level (hp.trans (List.takeWhile_prefix _))

theorem skips_sound (h : Skips s t) : ∃ g, s = g ++ t ∧ Gap g t := by
  induction hn : s.length using Nat.strong_induction_on generalizing s with
  | _ n ih =>
  subst hn
  have hsplit := List.takeWhile_append_dropWhile (p := isSpace) (l := s)
  have hspace : Trivia (s.takeWhile isSpace) := trivia_spaces fun b hb => List.mem_takeWhile_imp hb
  -- spaces come first, and then a comment, of which less is left to read
  have hle := length_dropWhile_le isSpace s
  rcases skips_inv h with ⟨hn, rfl⟩ | ⟨c, hc, ⟨content, r, hr, hs⟩ | ⟨hn, hs⟩⟩
  · exact ⟨_, hsplit.symm, solid_dropWhile hn, .inl hspace⟩
  · rw [strip?_eq_some.1 hc] at hsplit hle
    obtain ⟨b, rfl, hb⟩ := longBracket_eq_some.1 hr
    obtain ⟨g, rfl, hg⟩ := ih r.length (by simp [dashes] at hle; omega) hs rfl
    refine ⟨s.takeWhile isSpace ++ (dashes ++ (b ++ [])) ++ g, ?_, ?_⟩
    · rw [List.append_nil, List.append_assoc, List.append_assoc, List.append_assoc, hsplit]
    · exact hg.append (hspace.append (.long hb .none))
  · rw [strip?_eq_some.1 hc] at hsplit hle
    have hline := List.takeWhile_append_dropWhile (p := (· != ascii '\n')) (l := c)
    have hcomment := lineComment_takeWhile hn
    have hend := List.head?_dropWhile_not (· != ascii '\n') c
    generalize c.takeWhile (· != ascii '\n') = body at hline hcomment
    generalize c.dropWhile (· != ascii '\n') = r at hline hs hend
    subst hline
    rcases r with - | ⟨b, r⟩
    -- the comment is not ended by a line break but by the text
    · obtain rfl := hs.unique (skips_solid solid_nil)
      refine ⟨s.takeWhile isSpace ++ (dashes ++ body), ?_, solid_nil, .inr ⟨rfl, ?_⟩⟩
      · rw [List.append_nil] at hsplit ⊢
        exact hsplit.symm
      · exact .line hspace hcomment
    · obtain rfl : b = ascii '\n' := by simpa using hend
      obtain ⟨g, rfl, hg⟩ := ih r.length (by simp [dashes] at hle; omega)
        ((skips_cons rfl).1 hs) rfl
      refine ⟨s.takeWhile isSpace ++ (dashes ++ body ++ ascii '\n' :: []) ++ g, ?_, ?_⟩
      · simpa only [List.append_assoc, List.cons_append, List.nil_append] using hsplit.symm
      · exact hg.append (hspace.append (.line hcomment .none))

/-- Exactly trivia is skipped. -/
theorem skips_iff : Skips s t ↔ ∃ g, s = g ++ t ∧ Gap g t := by
  refine ⟨skips_sound, ?_⟩
  rintro ⟨g, rfl, ht, hg | ⟨rfl, hg⟩⟩
  · exact hg.skips (skips_solid ht)
  · rw [List.append_nil]
    cases hg with
    | closed hg =>
      have := hg.skips (skips_solid solid_nil)
      rwa [List.append_nil] at this
    | line hg hc =>
      have := hc.skips (by simp) (skips_solid solid_nil)
      rw [List.append_nil] at this
      exact hg.skips this

end MobDebug.Literal
