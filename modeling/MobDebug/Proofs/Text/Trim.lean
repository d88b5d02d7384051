import MobDebug.Proofs.Text.Words

/-! What trimming takes from a text, and the parts of a text before and after a blank. -/
namespace MobDebug.Text

variable {cs before middle after : List Char} {c : Char}

/-- A text is blanks, what trimming leaves, and blanks. -/
theorem exists_trim (cs : List Char) :
    ∃ before after, cs = before ++ (trim cs ++ after) ∧ Blank before ∧ Blank after := by
  refine ⟨cs.takeWhile isBlank, ((trimStart cs).reverse.takeWhile isBlank).reverse, ?_,
    fun c hc => List.mem_takeWhile_imp hc,
    fun c hc => List.mem_takeWhile_imp (List.mem_reverse.1 hc)⟩
  have hend : trim cs ++ ((trimStart cs).reverse.takeWhile isBlank).reverse = trimStart cs := by
    rw [trim, trimEnd, ← List.reverse_append, List.takeWhile_append_dropWhile,
      List.reverse_reverse]
  rw [hend, trimStart, List.takeWhile_append_dropWhile]

theorem trimStart_blank_append (h : Blank before) (cs : List Char) :
    trimStart (before ++ cs) = trimStart cs := by
  rw [trimStart, List.dropWhile_append_of_pos h]
  rfl

theorem trimEnd_append_blank (h : Blank after) (cs : List Char) :
    trimEnd (cs ++ after) = trimEnd cs := by
  have hr : Blank after.reverse := fun c hc => h c (List.mem_reverse.1 hc)
  rw [trimEnd, List.reverse_append, ← trimStart, trimStart_blank_append hr]
  rfl

/-- What is trimmed is left, whatever blanks are around it. -/
theorem trim_around (hb : Blank before) (hm : Trimmed middle) (ha : Blank after) :
    trim (before ++ (middle ++ after)) = middle := by
  rw [trim, trimStart_blank_append hb]
  cases middle with
  | nil =>
    have hnil := trim_blank ha
    rwa [trim] at hnil
  | cons c cs =>
    have hc : isBlank c = false := hm.1 c rfl
    rw [trimStart_append ⟨c, List.mem_cons_self, hc⟩, trimStart_eq hm.1,
      trimEnd_append_blank ha, trimEnd_eq hm.2]

theorem trim_append_blank (hm : Trimmed middle) (ha : Blank after) :
    trim (middle ++ after) = middle := by
  have hbefore : Blank [] := nofun
  exact trim_around hbefore hm ha

theorem trim_blank_append (hb : Blank before) (hm : Trimmed middle) :
    trim (before ++ middle) = middle := by
  have hafter : Blank [] := nofun
  have h := trim_around hb hm hafter
  rwa [List.append_nil] at h

theorem trim_ne_nil (hc : c ∈ cs) (hb : isBlank c = false) : trim cs ≠ [] := by
  intro hnil
  obtain ⟨before, after, he, hbefore, hafter⟩ := exists_trim cs
  rw [he, hnil, List.nil_append, List.mem_append] at hc
  rcases hc with hm | hm
  · exact absurd ((hbefore c hm).symm.trans hb) nofun
  · exact absurd ((hafter c hm).symm.trans hb) nofun

theorem trim_cons (hb : isBlank c = false) (cs : List Char) :
    trim (c :: cs) = trimEnd (c :: cs) := by
  have hstart : trimStart (c :: cs) = c :: cs := trimStart_eq (by rintro d ⟨⟩; exact hb)
  rw [trim, hstart]

/-- The ends of a text that is put together. -/
theorem trimmed_append (hb : before ≠ []) (hh : ∀ c ∈ before.head?, isBlank c = false)
    (ha : after ≠ []) (hl : ∀ c ∈ after.getLast?, isBlank c = false) :
    Trimmed (before ++ after) := by
  constructor
  · rwa [List.head?_append_of_ne_nil _ hb]
  · rwa [List.getLast?_append_of_ne_nil _ ha]

/-- The parts before and after the first blank. -/
theorem splitFirst_eq_some : splitFirst cs = some (before, after) ↔
    ∃ c, cs = before ++ c :: after ∧ isBlank c ∧ ∀ d ∈ before, isBlank d = false := by
  induction cs generalizing before with
  | nil => simp [splitFirst]
  | cons d cs ih =>
    rw [splitFirst]
    split
    · next hd =>
      constructor
      · rintro ⟨⟩
        exact ⟨d, rfl, hd, nofun⟩
      · rintro ⟨c, he, -, hbefore⟩
        cases before with
        | nil =>
          obtain ⟨rfl, rfl⟩ := List.cons.inj he
          rfl
        | cons e before =>
          obtain ⟨rfl, -⟩ := List.cons.inj he
          -- the first character is blank, so nothing stands before it
          rw [hbefore d List.mem_cons_self] at hd
          cases hd
    · next hd =>
      rw [Bool.not_eq_true] at hd
      constructor
      · intro h
        obtain ⟨⟨front, rest⟩, hsplit, he⟩ := Option.map_eq_some_iff.1 h
        cases he
        obtain ⟨c, rfl, hc, hfront⟩ := ih.1 hsplit
        exact ⟨c, rfl, hc, List.forall_mem_cons.2 ⟨hd, hfront⟩⟩
      · rintro ⟨c, he, hc, hbefore⟩
        cases before with
        | nil =>
          obtain ⟨rfl, -⟩ := List.cons.inj he
          cases hd.symm.trans hc
        | cons e before =>
          obtain ⟨rfl, rfl⟩ := List.cons.inj he
          rw [ih.2 ⟨c, rfl, hc, (List.forall_mem_cons.1 hbefore).2⟩]
          rfl

theorem splitFirst_eq_none (h : ∀ c ∈ cs, isBlank c = false) : splitFirst cs = none := by
  refine Option.eq_none_iff_forall_ne_some.2 fun ⟨before, after⟩ hs => ?_
  obtain ⟨c, rfl, hc, -⟩ := splitFirst_eq_some.1 hs
  rw [h c (by simp)] at hc
  cases hc

/-- The parts before and after the last blank. -/
theorem splitLast_eq_some : splitLast cs = some (before, after) ↔
    ∃ c, cs = before ++ c :: after ∧ isBlank c ∧ ∀ d ∈ after, isBlank d = false := by
  rw [splitLast]
  constructor
  · intro h
    obtain ⟨⟨back, front⟩, hsplit, he⟩ := Option.map_eq_some_iff.1 h
    cases he
    obtain ⟨c, hcs, hc, hback⟩ := splitFirst_eq_some.1 hsplit
    refine ⟨c, ?_, hc, fun d hd => hback d (List.mem_reverse.1 hd)⟩
    rw [← List.reverse_reverse cs, hcs]
    simp
  · rintro ⟨c, rfl, hc, hafter⟩
    have hsplit : splitFirst (before ++ c :: after).reverse =
        some (after.reverse, before.reverse) :=
      splitFirst_eq_some.2 ⟨c, by simp, hc, fun d hd => hafter d (List.mem_reverse.1 hd)⟩
    rw [hsplit]
    simp

end MobDebug.Text
