import MobDebug.Proofs.Literal.Grammar.Strings
import MobDebug.Proofs.Literal.Placeholders

/-! Names, and the literals that begin with one: a comment behind nil may mark a reference, and
functions have no body. -/
namespace MobDebug.Literal

variable {b : UInt8} {s t g m rest content : List UInt8} {v : Value} {name label : String}

/-! ### Names -/

/-- A name is a word, as long as it can be. -/
theorem name?_sound {h : rest.length < s.length} (hs : name? s = some ⟨name, rest, h⟩) :
    s = Text.bytes name ++ rest ∧ IsWord name ∧ ∀ c ∈ rest.head?, continuesName c = false := by
  rcases s with - | ⟨b, s⟩
  · cases hs
  unfold name? at hs
  dsimp only at hs
  split at hs
  · next hb =>
    cases hs
    have hall : ∀ c ∈ s.takeWhile continuesName, continuesName c := fun c hc =>
      List.mem_takeWhile_imp hc
    have hword : IsWord (String.ofList ((b :: s.takeWhile continuesName).map byteChar)) := by
      refine ⟨byteChar b, (s.takeWhile continuesName).map byteChar, by simp,
        isNameStart_byteChar hb, ?_⟩
      rw [List.all_map, List.all_eq_true]
      exact fun c hc => isNameChar_byteChar (hall c hc)
    refine ⟨?_, hword, ?_⟩
    · rw [bytes_ascii hword.lt, String.toList_ofList, map_ascii_byteChar, List.cons_append,
        List.takeWhile_append_dropWhile]
    · intro c hc
      have := List.head?_dropWhile_not continuesName s
      rw [hc] at this
      simpa using this
  · cases hs

/-! ### References -/

theorem referenceLabel?_eq_some : referenceLabel? content = some label ↔ Marks content label := by
  unfold referenceLabel? Marks
  constructor
  · intro h
    split at h
    · next body hb =>
      split at h
      · next hl =>
        cases h
        refine ⟨body, hb, fun c hc => ?_, rfl⟩
        rw [hc] at hl
        simpa using hl
      · cases h
    · cases h
  · rintro ⟨body, hb, hl, rfl⟩
    rw [hb]
    have hall : body.head?.all Text.isBlank = true := by
      cases hc : body.head? with
      | none => rfl
      | some c => exact hl c hc
    simp only [hall, if_true]

/-- After space a comment in brackets follows, with this content, and `rest` behind it. -/
def Commented (s content rest : List UInt8) : Prop :=
  ∃ g b, s = g ++ (dashes ++ (b ++ rest)) ∧ (∀ c ∈ g, isSpace c) ∧ LongBracket b content

theorem commented_iff : Commented s content rest ↔
    ∃ t, strip? dashes (s.dropWhile isSpace) = some t ∧
      ∃ h, longBracket t = .ok (some ⟨content, rest, h⟩) := by
  constructor
  · rintro ⟨g, b, rfl, hg, hb⟩
    have hdrop : (g ++ (dashes ++ (b ++ rest))).dropWhile isSpace = dashes ++ (b ++ rest) :=
      Text.dropWhile_run hg (by rintro _ ⟨⟩; rfl)
    refine ⟨b ++ rest, ?_, longBracket_eq_some.2 ⟨b, rfl, hb⟩⟩
    rw [hdrop]
    exact strip?_append _ _
  · rintro ⟨t, ht, hs⟩
    obtain ⟨b, rfl, hb⟩ := longBracket_eq_some.1 hs
    refine ⟨s.takeWhile isSpace, b, ?_, fun c hc => List.mem_takeWhile_imp hc, hb⟩
    rw [← strip?_eq_some.1 ht, List.takeWhile_append_dropWhile]

theorem Commented.unique {content' rest' : List UInt8} (h : Commented s content rest)
    (h' : Commented s content' rest') : content = content' := by
  obtain ⟨t, ht, _, hb⟩ := commented_iff.1 h
  obtain ⟨t', ht', _, hb'⟩ := commented_iff.1 h'
  cases ht.symm.trans ht'
  cases hb.symm.trans hb'
  rfl

/-- A comment in brackets is skipped, with the space before it. -/
theorem Commented.skips (h : Commented s content rest) : Skips s t ↔ Skips rest t := by
  obtain ⟨u, hu, hb⟩ := commented_iff.1 h
  refine ⟨fun hs => ?_, skips_comment hu hb⟩
  obtain ⟨_, hb⟩ := hb
  rcases skips_inv hs with ⟨hn, -⟩ | ⟨c, hc, ⟨content', r, ⟨_, hb'⟩, hr⟩ | ⟨hb', -⟩⟩
  · cases hu.symm.trans hn
  · cases hu.symm.trans hc
    cases hb.symm.trans hb'
    exact hr
  · cases hu.symm.trans hc
    cases hb.symm.trans hb'

theorem marked_iff : Marked s ↔ ∃ content rest label,
    Commented s content rest ∧ referenceLabel? content = some label := by
  constructor
  · rintro ⟨_, label, ⟨hg, hs, hm⟩, rest, rfl⟩
    refine ⟨_, rest, label, ⟨_, _, ?_, hg, hs⟩, referenceLabel?_eq_some.2 hm⟩
    rw [List.append_assoc, List.append_assoc]
  · rintro ⟨content, rest, label, ⟨g, b, rfl, hg, hb⟩, hl⟩
    refine ⟨_, label, .mk hg hb (referenceLabel?_eq_some.1 hl), rest, ?_⟩
    rw [List.append_assoc, List.append_assoc]

theorem Marked.append (h : Marked s) (t : List UInt8) : Marked (s ++ t) := by
  obtain ⟨m, label, hm, hp⟩ := h
  exact ⟨m, label, hm, hp.trans (List.prefix_append s t)⟩

/-- What nil means if a comment in brackets follows. -/
def commentedNil (content : List UInt8) : Value :=
  match referenceLabel? content with
  | some label => .reference label
  | none => .nil

theorem nilOrReference_commented (h : Commented s content rest) :
    ∃ hr, nilOrReference s = .ok (commentedNil content, ⟨rest, hr⟩) := by
  obtain ⟨t, ht, hb, he⟩ := commented_iff.1 h
  have hlen := length_of_strip? ht
  have hle := length_dropWhile_le isSpace s
  refine ⟨by simp [dashes] at hlen; omega, ?_⟩
  unfold nilOrReference
  dsimp only
  split
  · next ht' => cases ht.symm.trans ht'
  · next t' ht' =>
    cases ht.symm.trans ht'
    split
    · next he' => cases he.symm.trans he'
    · next he' => cases he.symm.trans he'
    · next he' =>
      cases he.symm.trans he'
      rfl

theorem nilOrReference_alone (h : strip? dashes (s.dropWhile isSpace) = none ∨
    ∃ t, strip? dashes (s.dropWhile isSpace) = some t ∧ longBracket t = .ok none) :
    nilOrReference s = .ok (.nil, .all s) := by
  unfold nilOrReference
  dsimp only
  rcases h with h | ⟨t, h, hb⟩
  · split
    · rfl
    · next ht => cases h.symm.trans ht
  · split
    · rfl
    · next ht =>
      cases h.symm.trans ht
      split
      · next he => cases hb.symm.trans he
      · rfl
      · next he => cases hb.symm.trans he

/-- Nil is alone unless a comment in brackets directly follows. -/
theorem nilOrReference_inv {h : rest.length ≤ s.length}
    (hs : nilOrReference s = .ok (v, ⟨rest, h⟩)) :
    (∃ content, Commented s content rest ∧ v = commentedNil content) ∨
      v = .nil ∧ rest = s ∧ ¬ Marked s := by
  unfold nilOrReference at hs
  dsimp only at hs
  split at hs
  · next ht =>
    cases hs
    refine .inr ⟨rfl, rfl, fun hm => ?_⟩
    obtain ⟨content, r, label, hc, -⟩ := marked_iff.1 hm
    obtain ⟨t, ht', -⟩ := commented_iff.1 hc
    cases ht.symm.trans ht'
  · next t ht =>
    split at hs
    · cases hs
    · next hb =>
      cases hs
      refine .inr ⟨rfl, rfl, fun hm => ?_⟩
      obtain ⟨content, r, label, hc, -⟩ := marked_iff.1 hm
      obtain ⟨t', ht', hl, hb'⟩ := commented_iff.1 hc
      cases ht.symm.trans ht'
      cases hb.symm.trans hb'
    · next bracket hb =>
      cases hs
      exact .inl ⟨bracket.value, commented_iff.2 ⟨t, ht, bracket.shorter, hb⟩, rfl⟩

/-- Behind nil either a marking comment is read, or nothing that the trivia there would not be. -/
theorem nilOrReference_sound {h : rest.length ≤ s.length}
    (hs : nilOrReference s = .ok (v, ⟨rest, h⟩)) (ht : Skips rest t) :
    (∃ m label, s = m ++ rest ∧ Mark m label ∧ v = .reference label) ∨
      v = .nil ∧ ∃ g, s = g ++ t ∧ Gap g t ∧ ¬ Marked g := by
  rcases nilOrReference_inv hs with ⟨content, hc, rfl⟩ | ⟨rfl, rfl, hm⟩
  · unfold commentedNil
    cases hl : referenceLabel? content with
    | some label =>
      obtain ⟨g, b, rfl, hg, hb⟩ := hc
      refine .inl ⟨_, label, ?_, .mk hg hb (referenceLabel?_eq_some.1 hl), rfl⟩
      rw [List.append_assoc, List.append_assoc]
    | none =>
      obtain ⟨g, rfl, hg⟩ := skips_sound (hc.skips.2 ht)
      refine .inr ⟨rfl, g, rfl, hg, fun hm => ?_⟩
      obtain ⟨content', r, label, hc', hl'⟩ := marked_iff.1 (hm.append t)
      rw [hc.unique hc', hl'] at hl
      cases hl
  · obtain ⟨g, rfl, hg⟩ := skips_sound ht
    exact .inr ⟨rfl, g, rfl, hg, fun hm' => hm (hm'.append t)⟩

theorem Mark.commented (h : Mark m label) (rest : List UInt8) :
    ∃ content, Marks content label ∧ Commented (m ++ rest) content rest := by
  obtain @⟨g, b, content, label, hg, hb, hm⟩ := h
  refine ⟨content, hm, g, b, ?_, hg, hb⟩
  rw [List.append_assoc, List.append_assoc]

theorem Mark.reads (h : Mark m label) (rest : List UInt8) :
    ∃ hr, nilOrReference (m ++ rest) = .ok (.reference label, ⟨rest, hr⟩) := by
  obtain ⟨content, hm, hc⟩ := h.commented rest
  have := nilOrReference_commented hc
  rwa [commentedNil, referenceLabel?_eq_some.2 hm] at this

/-- What a marking comment is taken from ends like all of it. -/
theorem Mark.trailing (h : Mark m label) (ht : Trailing (m ++ rest)) : Trailing rest := by
  obtain ⟨content, -, hc⟩ := h.commented rest
  have hs : Skips (m ++ rest) [] :=
    skips_iff.2 ⟨m ++ rest, (List.append_nil _).symm, gap_nil.2 ht⟩
  obtain ⟨g, rfl, hg⟩ := skips_sound (hc.skips.1 hs)
  rw [List.append_nil]
  exact gap_nil.1 hg

/-- Nil is read as such in front of trivia that begins with no marking comment. -/
theorem Gap.nilOrReference (hg : Gap g t) (hm : ¬ Marked g) :
    ∃ rest h, Literal.nilOrReference (g ++ t) = .ok (.nil, ⟨rest, h⟩) ∧ Skips rest t := by
  have hs : Skips (g ++ t) t := skips_iff.2 ⟨g, rfl, hg⟩
  rcases skips_inv hs with ⟨hn, -⟩ | ⟨c, hc, ⟨content, r, hb, hr⟩ | ⟨hb, -⟩⟩
  · exact ⟨g ++ t, _, nilOrReference_alone (.inl hn), hs⟩
  · have hcomment := commented_iff.2 ⟨c, hc, hb⟩
    obtain ⟨hl, he⟩ := nilOrReference_commented hcomment
    refine ⟨r, hl, ?_, hr⟩
    cases hlabel : referenceLabel? content with
    | none => rw [he, commentedNil, hlabel]
    | some label =>
      refine absurd ?_ hm
      obtain ⟨g', rfl, -⟩ := skips_sound hr
      obtain ⟨sp, b, hsplit, hsp, hbracket⟩ := hcomment
      refine marked_iff.2 ⟨content, g', label, ⟨sp, b, ?_, hsp, hbracket⟩, hlabel⟩
      have hall : g ++ t = sp ++ (dashes ++ (b ++ g')) ++ t := by
        simpa only [List.append_assoc] using hsplit
      exact List.append_cancel_right hall
  · exact ⟨g ++ t, _, nilOrReference_alone (.inr ⟨c, hc, hb⟩), hs⟩

/-! ### Functions and infinity -/

theorem bind_eq_ok {α β : Type} {x : Except Failure α} {f : α → Except Failure β} {y : β} :
    x >>= f = .ok y ↔ ∃ a, x = .ok a ∧ f a = .ok y := by
  cases x <;> simp [bind, Except.bind]

theorem expect_sound {wanted : UInt8} {u : Unit} (h : Gives (expect wanted s) u rest) :
    Skips s (wanted :: rest) := by
  obtain ⟨hl, h⟩ := h
  unfold expect at h
  split at h
  · cases h
  · cases h
  · next b r hr hs =>
    split at h
    · next hb =>
      cases h
      exact ⟨hr, hb ▸ hs⟩
    · cases h

/-- A reading in front of a byte skips closed trivia only. -/
theorem skips_cons_sound (h : Skips s (b :: rest)) : ∃ g, s = g ++ b :: rest ∧ Trivia g := by
  obtain ⟨g, rfl, hg⟩ := skips_sound h
  exact ⟨g, rfl, hg.trivia⟩

theorem functionPlaceholder_sound {u : Unit} (h : Gives (functionPlaceholder s) u rest) :
    ∃ g₁ g₂ g₃, Trivia g₁ ∧ Trivia g₂ ∧ Trivia g₃ ∧
      s = g₁ ++ ascii '(' :: (g₂ ++ ascii ')' :: (g₃ ++ (Text.bytes "end" ++ rest))) := by
  obtain ⟨_, h⟩ := h
  obtain ⟨⟨_, r₁, hr₁⟩, hopen, h⟩ := bind_eq_ok.1 h
  obtain ⟨⟨_, r₂, hr₂⟩, hclose, h⟩ := bind_eq_ok.1 h
  obtain ⟨⟨t, ht⟩, hs, h⟩ := bind_eq_ok.1 h
  dsimp only at h
  split at h
  · next name hn =>
    split at h
    · next hname =>
      cases h
      obtain ⟨name, rest, hrest⟩ := name
      obtain rfl : name = "end" := hname
      obtain ⟨rfl, -, -⟩ := name?_sound hn
      obtain ⟨g₁, rfl, h₁⟩ := skips_cons_sound (expect_sound ⟨hr₁, hopen⟩)
      obtain ⟨g₂, rfl, h₂⟩ := skips_cons_sound (expect_sound ⟨hr₂, hclose⟩)
      obtain ⟨g₃, rfl, h₃⟩ := skips_cons_sound ⟨ht, hs⟩
      exact ⟨g₁, g₂, g₃, h₁, h₂, h₃, rfl⟩
    · cases h
  · cases h

theorem Stops.continuesName (h : Stops rest) : ∀ c ∈ rest.head?, continuesName c = false :=
  h.head (by decide)

/-- A name in front of what ends one. -/
theorem name?_word (hw : IsWord name) (hr : ∀ c ∈ rest.head?, continuesName c = false) :
    ∃ h, name? (Text.bytes name ++ rest) = some ⟨name, rest, h⟩ := by
  obtain ⟨b, t, hb, -, hn⟩ := name?_bytes hw hr
  rw [hb]
  exact hn

theorem solid_word (hw : IsWord name) (hr : ∀ c ∈ rest.head?, continuesName c = false) :
    Solid (Text.bytes name ++ rest) := by
  obtain ⟨b, t, hb, hs, -⟩ := name?_bytes hw hr
  rw [hb]
  exact solid_of_startsName hs

theorem functionPlaceholder_complete {g₁ g₂ g₃ : List UInt8} (h₁ : Trivia g₁) (h₂ : Trivia g₂)
    (h₃ : Trivia g₃) (hr : Stops rest) :
    Gives (functionPlaceholder
      (g₁ ++ ascii '(' :: (g₂ ++ ascii ')' :: (g₃ ++ (Text.bytes "end" ++ rest))))) () rest := by
  have hopen := h₁.skips (skips_solid (solid_cons (b := ascii '(')
    (s := g₂ ++ ascii ')' :: (g₃ ++ (Text.bytes "end" ++ rest))) rfl (by decide)))
  have hclose := h₂.skips (skips_solid (solid_cons (b := ascii ')')
    (s := g₃ ++ (Text.bytes "end" ++ rest)) rfl (by decide)))
  obtain ⟨hs, hskip⟩ := h₃.skips (skips_solid (solid_word isWord_end hr.continuesName))
  obtain ⟨hn, hname⟩ := name?_word isWord_end hr.continuesName
  obtain ⟨ho, he₁⟩ := expect_eq hopen
  obtain ⟨hc, he₂⟩ := expect_eq hclose
  refine ⟨Nat.lt_trans hn (Nat.lt_of_le_of_lt hs (Nat.lt_trans hc ho)), ?_⟩
  simp only [functionPlaceholder, bind, Except.bind, he₁, he₂, hskip, hname, if_true]

theorem gives_mathHuge {n : Number} : Gives (mathHuge s) n rest ↔
    s = Text.bytes "math.huge" ++ rest ∧ rest.head?.any continuesName = false ∧
      n = .float (.infinite false) := by
  unfold mathHuge
  split
  · next r hr =>
    rw [strip?_eq_some] at hr
    subst hr
    split
    · next hc =>
      refine iff_of_false ?_ ?_
      · rintro ⟨_, h⟩
        cases h
      · rintro ⟨he, hr, -⟩
        rw [← List.append_cancel_left he, hc] at hr
        cases hr
    · next hc =>
      constructor
      · rintro ⟨_, h⟩
        cases h
        exact ⟨rfl, Bool.not_eq_true _ ▸ hc, rfl⟩
      · rintro ⟨he, -, rfl⟩
        cases List.append_cancel_left he
        exact ⟨_, rfl⟩
  · next hn =>
    refine iff_of_false ?_ ?_
    · rintro ⟨_, h⟩
      cases h
    · rintro ⟨rfl, -⟩
      rw [strip?_append] at hn
      cases hn

/-! ### Negative numbers -/

theorem isWord_math : IsWord "math" := ⟨'m', _, rfl, by decide, by decide⟩

/-- A minus stands before trivia and a magnitude. -/
theorem negated_sound (h : Gives (negated s) v rest) :
    ∃ g m n, s = g ++ (m ++ rest) ∧ Trivia g ∧ Magnitude m n ∧ v = .number n.negate := by
  obtain ⟨hl, h⟩ := h
  obtain ⟨⟨t, ht⟩, hs, h⟩ := bind_eq_ok.1 h
  dsimp only at h
  split at h
  · obtain ⟨n, hn, rfl⟩ := Gives.of_map (x := mathHuge t) ⟨hl, h⟩
      (fun n => Value.number n.negate) (fun _ => rfl) fun _ => rfl
    obtain ⟨rfl, -, rfl⟩ := gives_mathHuge.1 hn
    obtain ⟨g, rfl, hg⟩ := skips_cons_sound ⟨ht, hs⟩
    exact ⟨g, Text.bytes "math.huge", _, rfl, hg, .huge, rfl⟩
  · split at h
    · next b r ht _ =>
      split at h
      · obtain ⟨n, hn, rfl⟩ := Gives.of_map (x := numeral b r) ⟨hl, h⟩
          (fun n => Value.number n.negate) (fun _ => rfl) fun _ => rfl
        obtain ⟨m, hm, hnumeral⟩ := numeral_sound hn
        obtain ⟨g, rfl, hg⟩ := skips_cons_sound ⟨ht, hs⟩
        exact ⟨g, m, n, by rw [hm], hg, .numeral hnumeral, rfl⟩
      · cases h
    · cases h

theorem negated_numeral {r : List UInt8} {n : Number} (hs : Skips s (b :: r))
    (hn : startsNumeral (b :: r)) (h : Gives (numeral b r) n rest) :
    Gives (negated s) (.number n.negate) rest := by
  obtain ⟨hl, hs⟩ := hs
  obtain ⟨hr, h⟩ := h
  have hname : name? (b :: r) = none := by
    simp only [name?, startsName_of_numeral hn, Bool.false_eq_true, if_false]
  refine ⟨Nat.lt_of_lt_of_le hr hl, ?_⟩
  simp only [negated, bind, Except.bind, hs, hname, hn, h, Option.map_none, reduceCtorEq, if_false,
    if_true]
  rfl

theorem negated_huge {n : Number} {hl : rest.length < t.length} (hs : Skips s t)
    (hn : name? t = some ⟨"math", rest, hl⟩) (h : Gives (mathHuge t) n g) :
    Gives (negated s) (.number n.negate) g := by
  obtain ⟨hl, hs⟩ := hs
  obtain ⟨hr, h⟩ := h
  refine ⟨Nat.lt_of_lt_of_le hr hl, ?_⟩
  simp only [negated, bind, Except.bind, hs, hn, h, Option.map_some, if_true]
  rfl

theorem negated_complete {n : Number} (hg : Trivia g) (hm : Magnitude m n) (hr : Stops rest) :
    Gives (negated (g ++ (m ++ rest))) (.number n.negate) rest := by
  cases hm with
  | numeral hm =>
    obtain ⟨b, t, rfl, hn, -⟩ := hm.starts rest
    exact negated_numeral (hg.skips (skips_solid (solid_of_numeral hn))) hn (hm.reads hr)
  | huge =>
    have hs : Text.bytes "math.huge" ++ rest = Text.bytes "math" ++ (Text.bytes ".huge" ++ rest) :=
      rfl
    have hpoint : ∀ c ∈ (Text.bytes ".huge" ++ rest).head?, continuesName c = false := by
      rintro _ ⟨⟩
      rfl
    obtain ⟨hl, hname⟩ := name?_word isWord_math hpoint
    have hhuge := gives_mathHuge.2 ⟨rfl, hr.not_continuesName, rfl⟩
    rw [hs] at hhuge ⊢
    exact negated_huge (hg.skips (skips_solid (solid_word isWord_math hpoint))) hname hhuge

end MobDebug.Literal
