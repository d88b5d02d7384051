import MobDebug.Proofs.Text.Blank

/-! Where the words of a text stand: between blanks, each as long as it can be. -/
namespace MobDebug.Text

variable {cs first last : List Char} {ws : List (List Char)}

/-- Nothing but blanks. -/
def Blank (cs : List Char) : Prop := ∀ c ∈ cs, isBlank c

/-- Something, and no blank in it. -/
def Unbroken (cs : List Char) : Prop := cs ≠ [] ∧ ∀ c ∈ cs, isBlank c = false

instance (cs : List Char) : Decidable (Blank cs) := List.decidableBAll (isBlank ·) cs

instance (cs : List Char) : Decidable (Unbroken cs) :=
  haveI := List.decidableBAll (isBlank · = false) cs
  inferInstanceAs (Decidable (cs ≠ [] ∧ _))

/-- What begins and ends with a blank, whatever is between. -/
structure Gap (cs : List Char) : Prop where
  first : ∃ c ∈ cs.head?, isBlank c
  last : ∃ c ∈ cs.getLast?, isBlank c

theorem Unbroken.words (h : Unbroken cs) : words cs = [cs] := words_word h.1 h.2

theorem words_blank_append {before : List Char} (h : Blank before) (cs : List Char) :
    words (before ++ cs) = words cs := by
  induction before with
  | nil => rfl
  | cons c before ih =>
    obtain ⟨hc, hbefore⟩ := List.forall_mem_cons.1 h
    rw [List.cons_append, ← List.nil_append (c :: (before ++ cs)), words_blank hc, ih hbefore]
    rfl

theorem words_append_blank {after : List Char} (h : Blank after) (cs : List Char) :
    words (cs ++ after) = words cs := by
  cases after with
  | nil => rw [List.append_nil]
  | cons c after =>
    obtain ⟨hc, hafter⟩ := List.forall_mem_cons.1 h
    have hnil := words_blank_append hafter []
    rw [List.append_nil] at hnil
    rw [words_blank hc, hnil]
    exact List.append_nil _

theorem words_word_append {word rest : List Char} (h : Unbroken word)
    (hrest : ∀ c ∈ rest.head?, isBlank c) : words (word ++ rest) = word :: words rest := by
  cases rest with
  | nil =>
    rw [List.append_nil]
    exact h.words
  | cons c rest =>
    have hc := hrest c rfl
    have hnil := words_blank hc [] rest
    rw [words_blank hc, h.words, ← List.nil_append (c :: rest), hnil]
    rfl

/-- Blanks, and then nothing or a word that ends at a blank. -/
theorem blank_or_word (cs : List Char) : Blank cs ∨ ∃ before word rest,
    cs = before ++ (word ++ rest) ∧ Blank before ∧ Unbroken word ∧
      ∀ c ∈ rest.head?, isBlank c := by
  by_cases hrest : cs.dropWhile isBlank = []
  · exact .inl (List.dropWhile_eq_nil_iff.1 hrest)
  · refine .inr ⟨cs.takeWhile isBlank, (cs.dropWhile isBlank).takeWhile (!isBlank ·),
      (cs.dropWhile isBlank).dropWhile (!isBlank ·), ?_, ?_, ⟨?_, ?_⟩, ?_⟩
    · rw [List.takeWhile_append_dropWhile, List.takeWhile_append_dropWhile]
    · exact fun c hc => List.mem_takeWhile_imp hc
    · obtain ⟨c, rest, he⟩ := List.exists_cons_of_ne_nil hrest
      have hstop : ∀ d ∈ (cs.dropWhile isBlank).head?, isBlank d = false := head_dropWhile
      have hc : isBlank c = false := hstop c (by rw [he]; rfl)
      rw [he, List.takeWhile_cons_of_pos (by rw [hc]; rfl)]
      exact List.cons_ne_nil _ _
    · exact fun c hc => by simpa using List.mem_takeWhile_imp hc
    · intro c hc
      have hstop := List.head?_dropWhile_not (!isBlank ·) (cs.dropWhile isBlank)
      rw [Option.mem_def.1 hc] at hstop
      simpa using hstop

theorem words_eq_nil : words cs = [] ↔ Blank cs := by
  constructor
  · intro h
    rcases blank_or_word cs with hb | ⟨before, word, rest, rfl, hb, hw, hrest⟩
    · exact hb
    · rw [words_blank_append hb, words_word_append hw hrest] at h
      cases h
  · intro h
    exact words_append_blank h []

/-- The first word of a text. -/
theorem of_words_cons (h : words cs = first :: ws) : ∃ before rest,
    cs = before ++ (first ++ rest) ∧ Blank before ∧ Unbroken first ∧
      (∀ c ∈ rest.head?, isBlank c) ∧ words rest = ws := by
  rcases blank_or_word cs with hb | ⟨before, word, rest, rfl, hb, hw, hrest⟩
  · rw [words_eq_nil.2 hb] at h
    cases h
  · rw [words_blank_append hb, words_word_append hw hrest] at h
    cases h
    exact ⟨before, rest, rfl, hb, hw, hrest, rfl⟩

theorem Gap.of_blank (hne : cs ≠ []) (h : Blank cs) : Gap cs :=
  ⟨⟨_, List.head?_eq_some_head hne, h _ (List.head_mem hne)⟩,
    ⟨_, List.getLast?_eq_some_getLast hne, h _ (List.getLast_mem hne)⟩⟩

/-- Before a word of a text that begins with a blank there are blanks. -/
theorem gap_before {before word rest : List Char}
    (h : ∃ c ∈ (before ++ (word ++ rest)).head?, isBlank c) (hb : Blank before)
    (hw : Unbroken word) : Gap before := by
  refine .of_blank ?_ hb
  rintro rfl
  obtain ⟨d, word, rfl⟩ := List.exists_cons_of_ne_nil hw.1
  obtain ⟨c, hc, hblank⟩ := h
  cases hc
  rw [hw.2 d List.mem_cons_self] at hblank
  cases hblank

/-- The last word of a text that begins with a blank. -/
theorem of_words_concat (hcs : ∃ c ∈ cs.head?, isBlank c) (h : words cs = ws ++ [last]) :
    ∃ gap after, cs = gap ++ (last ++ after) ∧ Gap gap ∧ Unbroken last ∧ Blank after := by
  induction ws generalizing cs with
  | nil =>
    obtain ⟨gap, after, rfl, hgap, hlast, -, hafter⟩ := of_words_cons h
    exact ⟨gap, after, rfl, gap_before hcs hgap hlast, hlast, words_eq_nil.1 hafter⟩
  | cons w ws ih =>
    obtain ⟨before, rest, rfl, hbefore, hw, hrest, hws⟩ := of_words_cons h
    have hne : rest ≠ [] := by
      rintro rfl
      exact List.append_ne_nil_of_right_ne_nil ws (List.cons_ne_nil last []) hws.symm
    have hhead : ∃ c ∈ rest.head?, isBlank c :=
      ⟨_, List.head?_eq_some_head hne, hrest _ (List.head?_eq_some_head hne)⟩
    obtain ⟨gap, after, rfl, hgap, hlast, hafter⟩ := ih hhead hws
    have hfirst := gap_before hcs hbefore hw
    refine ⟨before ++ (w ++ gap), after, by simp [List.append_assoc], ⟨?_, ?_⟩, hlast, hafter⟩
    · obtain ⟨c, hc, hblank⟩ := hfirst.first
      exact ⟨c, by rw [List.head?_append, Option.mem_def.1 hc]; rfl, hblank⟩
    · obtain ⟨c, hc, hblank⟩ := hgap.last
      refine ⟨c, ?_, hblank⟩
      rw [List.getLast?_append, List.getLast?_append, Option.mem_def.1 hc]
      rfl

/-- The words of a text between whose first and last one there is anything. -/
theorem words_around {before gap after : List Char} (hbefore : Blank before)
    (hfirst : Unbroken first) (hgap : Gap gap) (hlast : Unbroken last) (hafter : Blank after) :
    ∃ ws, words (before ++ (first ++ (gap ++ (last ++ after)))) = first :: (ws ++ [last]) := by
  obtain ⟨c, hc, hblank⟩ := hgap.last
  obtain ⟨gap, rfl⟩ := List.getLast?_eq_some_iff.1 hc
  refine ⟨words gap, ?_⟩
  have hhead : ∀ d ∈ ((gap ++ [c]) ++ (last ++ after)).head?, isBlank d := by
    intro d hd
    obtain ⟨e, he, hblank⟩ := hgap.first
    rw [List.head?_append, Option.mem_def.1 he] at hd
    cases hd
    exact hblank
  rw [words_blank_append hbefore, words_word_append hfirst hhead, List.append_assoc,
    List.singleton_append, words_blank hblank, words_append_blank hafter, hlast.words]

/-- A text has two words or more if it is made like this. -/
theorem words_ends : (∃ ws, words cs = first :: (ws ++ [last])) ↔
    ∃ before gap after, cs = before ++ (first ++ (gap ++ (last ++ after))) ∧ Blank before ∧
      Unbroken first ∧ Gap gap ∧ Unbroken last ∧ Blank after := by
  constructor
  · rintro ⟨ws, h⟩
    obtain ⟨before, rest, rfl, hbefore, hfirst, hrest, hws⟩ := of_words_cons h
    have hne : rest ≠ [] := by
      rintro rfl
      exact List.append_ne_nil_of_right_ne_nil ws (List.cons_ne_nil last []) hws.symm
    obtain ⟨gap, after, rfl, hgap, hlast, hafter⟩ := of_words_concat
      ⟨_, List.head?_eq_some_head hne, hrest _ (List.head?_eq_some_head hne)⟩ hws
    exact ⟨before, gap, after, rfl, hbefore, hfirst, hgap, hlast, hafter⟩
  · rintro ⟨before, gap, after, rfl, hbefore, hfirst, hgap, hlast, hafter⟩
    exact words_around hbefore hfirst hgap hlast hafter

end MobDebug.Text
