import MobDebug.Proofs.Literal.Names
import MobDebug.Proofs.Text.Blank
import MobDebug.Proofs.Literal.Trivia
import MobDebug.Proofs.Text.Utf8
import Mathlib.Data.List.Infix

/-! Nil, and what a comment makes of it or stands in for: references and functions. -/
namespace MobDebug.Literal

/-! ### Brackets of level zero, and comments in them -/

section Brackets
variable {b : UInt8} {s t r u content rest : List UInt8} {c : Char} {cs : List Char}

theorem closing?_none (h : b ≠ ascii ']' ∨ t.head? ≠ some (ascii ']')) :
    closing? 0 (b :: t) = none := by
  unfold closing? strip?
  refine if_neg fun hp => ?_
  obtain ⟨r, hr⟩ := List.isPrefixOf_iff_prefix.1 hp
  obtain ⟨rfl, rfl⟩ : ascii ']' = b ∧ ascii ']' :: r = t := by simpa using hr
  simp at h

theorem splitAtClosing_cons (hc : closing? 0 (b :: t) = none)
    (h : splitAtClosing 0 t = some (content, rest)) :
    splitAtClosing 0 (b :: t) = some (b :: content, rest) := by
  rw [splitAtClosing, hc]
  simp only [h, Option.map_some]

/-- No byte of another character closes a bracket. -/
theorem splitAtClosing_char (hc : c ≠ ']') (h : splitAtClosing 0 t = some (content, rest)) :
    splitAtClosing 0 (String.utf8EncodeChar c ++ t) =
      some (String.utf8EncodeChar c ++ content, rest) := by
  have hne : ∀ b ∈ String.utf8EncodeChar c, b ≠ ascii ']' := by
    rintro _ hb rfl
    have hm : ']' ∈ [c] := Text.mem_of_mem_flatMap (b := ascii ']') (by decide) (by simpa using hb)
    exact hc (List.mem_singleton.1 hm).symm
  generalize String.utf8EncodeChar c = bs at hne ⊢
  induction bs with
  | nil => exact h
  | cons b bs ih =>
    obtain ⟨hb, hbs⟩ := List.forall_mem_cons.1 hne
    exact splitAtClosing_cons (closing?_none (.inl hb)) (ih hbs)

/-- A text that has no closing bracket, even together with one byte of it, ends at the bracket. -/
theorem splitAtClosing_text (h : ¬ [']', ']'] <:+: cs ++ [']']) (rest : List UInt8) :
    splitAtClosing 0 (cs.flatMap String.utf8EncodeChar ++ ascii ']' :: ascii ']' :: rest) =
      some (cs.flatMap String.utf8EncodeChar, rest) := by
  induction cs with
  | nil => rfl
  | cons c cs ih =>
    have ih := ih fun hi => h (hi.trans (List.suffix_cons c _).isInfix)
    rw [List.flatMap_cons, List.append_assoc]
    by_cases hc : c = ']'
    · subst hc
      refine splitAtClosing_cons (closing?_none (.inr ?_)) ih
      cases cs with
      | nil => exact absurd List.infix_rfl h
      | cons d ds =>
        intro hd
        have hne : d ≠ ']' := by
          rintro rfl
          exact h ⟨[], ds ++ [']'], rfl⟩
        obtain ⟨b, bs, hb⟩ := List.exists_cons_of_ne_nil (String.utf8EncodeChar_ne_nil (c := d))
        rw [List.flatMap_cons, hb] at hd
        obtain rfl : b = ascii ']' := by simpa using hd
        have hm : ']' ∈ [d] := Text.mem_of_mem_flatMap (b := ascii ']') (by decide) (by simp [hb])
        exact hne (List.mem_singleton.1 hm).symm
    · exact splitAtClosing_char hc ih

/-- A text that a long bracket may hold: it neither closes it nor begins with a line break. -/
structure Bracketed (cs : List Char) : Prop where
  unclosed : ¬ [']', ']'] <:+: cs ++ [']']
  start : ∀ t, dropLineBreak (cs.flatMap String.utf8EncodeChar ++ t) =
    cs.flatMap String.utf8EncodeChar ++ t

theorem longBracket_text (h : Bracketed cs) (rest : List UInt8) :
    ∃ hr, longBracket (ascii '[' :: ascii '[' ::
        (cs.flatMap String.utf8EncodeChar ++ ascii ']' :: ascii ']' :: rest)) =
      .ok (some ⟨cs.flatMap String.utf8EncodeChar, rest, hr⟩) := by
  have hs := splitAtClosing_text h.unclosed rest
  have hl := h.start (ascii ']' :: ascii ']' :: rest)
  generalize cs.flatMap String.utf8EncodeChar = content at hs hl ⊢
  refine ⟨by simp; omega, ?_⟩
  rw [longBracket, if_pos rfl]
  split
  · next ho => cases ho
  · next level t ho =>
    cases ho
    split
    · next hc =>
      rw [hl] at hc
      exact absurd (hs.symm.trans hc) (by simp)
    · next content' rest' hc =>
      rw [hl] at hc
      cases hs.symm.trans hc
      rfl

/-- A comment of one long bracket, behind a space. -/
def comment (cs : List Char) (rest : List UInt8) : List UInt8 :=
  Text.bytes " --[[" ++ (cs.flatMap String.utf8EncodeChar ++ ascii ']' :: ascii ']' :: rest)

theorem skips_bracket (h : Bracketed cs) (hs : Skips rest t) : Skips (comment cs rest) t :=
  skips_comment rfl (longBracket_text h rest) hs

end Brackets

/-! ### Placeholders -/

variable {r s t rest : List UInt8} {cs : List Char} {label : String} {table : Parser Value}

theorem nilOrReference_nil (h : Follows rest) : nilOrReference rest = .ok (.nil, .all rest) := by
  unfold nilOrReference
  dsimp only
  split
  · rfl
  · next ht =>
    rw [dropWhile_solid h.solid, h.solid.2] at ht
    cases ht

theorem isWord_nil : IsWord "nil" := ⟨'n', _, rfl, by decide, by decide⟩

theorem isWord_function : IsWord "function" := ⟨'f', _, rfl, by decide, by decide⟩

theorem isWord_end : IsWord "end" := ⟨'e', _, rfl, by decide, by decide⟩

theorem spells_nil (h : Follows rest) : Spells table (Text.bytes "nil" ++ rest) .nil rest := by
  refine spells_named isWord_nil h.continuesName (h.equalsSign?_none (skips_solid h.solid)) ?_
  intro hl
  refine ⟨hl, ?_⟩
  rw [named, if_pos rfl, nilOrReference_nil h]
  rfl

theorem nilOrReference_comment (h : Bracketed cs)
    (hl : referenceLabel? (cs.flatMap String.utf8EncodeChar) = some label) (rest : List UInt8) :
    ∃ hr, nilOrReference (comment cs rest) = .ok (.reference label, ⟨rest, hr⟩) := by
  obtain ⟨hb, he⟩ := longBracket_text h rest
  refine ⟨by simp [comment]; omega, ?_⟩
  unfold nilOrReference
  dsimp only
  split
  · next ht => cases ht
  · next t ht =>
    cases ht
    split
    · next hf => cases he.symm.trans hf
    · next hf => cases he.symm.trans hf
    · next hf =>
      cases he.symm.trans hf
      simp only [hl]

theorem spells_comment (h : Bracketed cs)
    (hl : referenceLabel? (cs.flatMap String.utf8EncodeChar) = some label) (hr : Follows rest) :
    Spells table (Text.bytes "nil" ++ comment cs rest) (.reference label) rest := by
  have hspace : ∀ c ∈ (comment cs rest).head?, continuesName c = false := by
    rintro _ ⟨⟩
    rfl
  have hskip := skips_bracket h (skips_solid hr.solid)
  refine spells_named isWord_nil hspace (hr.equalsSign?_none hskip) ?_
  intro hs
  obtain ⟨ht, hn⟩ := nilOrReference_comment h hl rest
  refine ⟨by simp at hs ⊢; omega, ?_⟩
  rw [named, if_pos rfl, hn]
  rfl

/-- A label that a reference may have: trimmed, and nothing in it or at its end closes a comment. -/
structure IsLabel (label : String) : Prop where
  trimmed : Text.trim label.toList = label.toList
  unclosed : ¬ [']', ']'] <:+: label.toList
  last : label.toList.getLast? ≠ some ']'

/-- What a reference says about itself. -/
def mark (label : String) : List Char :=
  if label.isEmpty then ['r', 'e', 'f'] else 'r' :: 'e' :: 'f' :: ' ' :: label.toList

theorem bracketed_mark (h : IsLabel label) : Bracketed (mark label) := by
  have hlabel : ¬ [']', ']'] <:+: label.toList ++ [']'] := by
    intro hi
    rcases List.infix_concat_iff.1 hi with hs | hi
    · rcases List.suffix_concat_iff.1 hs with he | ⟨t, he, ht⟩
      · cases he
      · obtain rfl : [']'] = t := List.append_cancel_right he
        obtain ⟨cs, hcs⟩ := ht
        exact h.last (by rw [← hcs, List.getLast?_concat])
    · exact h.unclosed hi
  unfold mark
  split
  · exact ⟨by decide, fun t => rfl⟩
  · refine ⟨?_, fun t => rfl⟩
    simpa [List.infix_cons_iff] using hlabel

theorem trimmed_mark (hlabel : Text.Trimmed label.toList) : Text.Trimmed (mark label) := by
  unfold mark
  split
  · exact ⟨by simp; decide, by simp; decide⟩
  · next hne =>
    have hne : label.toList ≠ [] := by simpa [String.isEmpty_iff] using hne
    refine ⟨by simp; decide, ?_⟩
    obtain ⟨c, cs, hc⟩ := List.exists_cons_of_ne_nil hne
    rw [hc] at hlabel ⊢
    simpa only [List.getLast?_cons_cons] using hlabel.2

/-- What is a mark but for blanks around it is one. -/
theorem referenceLabel?_of_trim {content : List UInt8} (h : Text.Trimmed label.toList)
    (ht : Text.trim (Text.decodeLossy content).toList = mark label) :
    referenceLabel? content = some label := by
  rw [referenceLabel?, ht]
  by_cases he : label.isEmpty
  · rw [String.isEmpty_iff.1 he]
    rfl
  · have htrim : Text.trim (' ' :: label.toList) = label.toList := h.trim_eq
    have hblank : (' ' :: label.toList).head?.all Text.isBlank = true := rfl
    simp only [mark, he, Bool.false_eq_true, if_false, hblank, if_true, htrim,
      String.ofList_toList]

theorem referenceLabel?_mark (h : IsLabel label) :
    referenceLabel? ((mark label).flatMap String.utf8EncodeChar) = some label := by
  have hlabel := Text.trimmed_of_trim_eq h.trimmed
  apply referenceLabel?_of_trim hlabel
  rw [Text.decodeLossy_flatMap, String.toList_ofList, (trimmed_mark hlabel).trim_eq]

theorem spells_reference (h : IsLabel label) (hr : Follows rest) :
    Spells table (Text.bytes (Value.render (.reference label)) ++ rest)
      (.reference label) rest := by
  have he : Text.bytes (Value.render (.reference label)) ++ rest =
      Text.bytes "nil" ++ comment (mark label) rest := by
    simp only [Value.render, mark, comment]
    split
    · rfl
    · simp only [Text.bytes_append, List.append_assoc]
      rfl
  rw [he]
  exact spells_comment (bracketed_mark h) (referenceLabel?_mark h) hr

/-- A function behind its first word. -/
def skippedBody (rest : List UInt8) : List UInt8 :=
  Text.bytes "()" ++ comment "..skipped..".toList (Text.bytes " end" ++ rest)

theorem functionPlaceholder_eq (hr : Follows rest) :
    Gives (functionPlaceholder (skippedBody rest)) () rest := by
  have hc : Bracketed "..skipped..".toList := ⟨by decide, fun t => rfl⟩
  obtain ⟨b, t, ht, hb, hn, hname⟩ := name?_bytes isWord_end hr.continuesName
  have hspace : Text.bytes " end" ++ rest = ascii ' ' :: (Text.bytes "end" ++ rest) := rfl
  have hskip : Skips (comment "..skipped..".toList (Text.bytes " end" ++ rest)) (b :: t) := by
    apply skips_bracket hc
    rw [hspace, ht]
    exact skips_space (solid_of_startsName hb) rfl
  obtain ⟨hopen, he1⟩ : Gives (expect (ascii '(') (skippedBody rest)) ()
      (ascii ')' :: comment "..skipped..".toList (Text.bytes " end" ++ rest)) :=
    expect_eq (skips_solid (solid_cons rfl (by decide)))
  obtain ⟨hclose, he2⟩ := expect_eq
    (skips_solid (solid_cons (s := comment "..skipped..".toList (Text.bytes " end" ++ rest))
      (b := ascii ')') rfl (by decide)))
  obtain ⟨hs, he3⟩ := hskip
  refine ⟨by simp at *; omega, ?_⟩
  simp only [functionPlaceholder, bind, Except.bind, he1, he2, he3, hname, if_true]

theorem spells_function (hr : Follows rest) :
    Spells table (Text.bytes (Value.render .function) ++ rest) .function rest := by
  have he : Text.bytes (Value.render .function) ++ rest =
      Text.bytes "function" ++ skippedBody rest := rfl
  have hs : Solid (skippedBody rest) := solid_cons rfl (by decide)
  have heq : (skippedBody rest).head? ≠ some (ascii '=') := by
    rintro ⟨⟩
  rw [he]
  refine spells_named isWord_function (by rintro _ ⟨⟩; rfl)
    (equalsSign?_none (skips_solid hs) heq) ?_
  intro hl
  obtain ⟨hf, hp⟩ := functionPlaceholder_eq hr
  refine ⟨Nat.lt_trans hf hl, ?_⟩
  simp only [named, hp]
  rfl

end MobDebug.Literal
