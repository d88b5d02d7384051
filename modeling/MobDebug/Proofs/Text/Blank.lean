import MobDebug.Text.Blank
import MobDebug.Proofs.Lists
import Mathlib.Data.List.TakeWhile

/-! Trimmed texts, and the words of a text. -/
namespace MobDebug.Text

variable {cs : List Char}

/-- No blank at either end. -/
def Trimmed (cs : List Char) : Prop :=
  (∀ c ∈ cs.head?, isBlank c = false) ∧ ∀ c ∈ cs.getLast?, isBlank c = false

theorem trimStart_eq (h : ∀ c ∈ cs.head?, isBlank c = false) : trimStart cs = cs :=
  dropWhile_stop h

theorem trimEnd_eq (h : ∀ c ∈ cs.getLast?, isBlank c = false) : trimEnd cs = cs := by
  have hr : trimStart cs.reverse = cs.reverse := trimStart_eq (by rwa [List.head?_reverse])
  rw [trimEnd, ← trimStart, hr, List.reverse_reverse]

theorem Trimmed.trim_eq (h : Trimmed cs) : trim cs = cs := by
  rw [trim, trimStart_eq h.1, trimEnd_eq h.2]

theorem head_dropWhile : ∀ c ∈ (cs.dropWhile isBlank).head?, isBlank c = false := by
  intro c hc
  have hd := List.head?_dropWhile_not isBlank cs
  rw [Option.mem_def.1 hc] at hd
  exact hd

theorem head_trimStart (h : trimStart cs = cs) : ∀ c ∈ cs.head?, isBlank c = false := by
  rw [← h]
  exact head_dropWhile

/-- What trimming leaves as it is has no blank at either end. -/
theorem trimmed_of_trim_eq (h : trim cs = cs) : Trimmed cs := by
  have hstart : trimStart cs <:+ cs := List.dropWhile_suffix isBlank
  have hend : trimStart (trimStart cs).reverse <:+ (trimStart cs).reverse :=
    List.dropWhile_suffix isBlank
  have hlen : (trimStart (trimStart cs).reverse).length = cs.length := by
    rw [← List.length_reverse, ← congrArg List.length h]
    rfl
  have hle := hend.length_le
  rw [List.length_reverse] at hle
  have hs : trimStart cs = cs := hstart.eq_of_length (Nat.le_antisymm hstart.length_le (by omega))
  rw [hs] at hend hlen
  refine ⟨head_trimStart hs, ?_⟩
  rw [← List.head?_reverse]
  apply head_trimStart
  exact hend.eq_of_length (by rw [hlen, List.length_reverse])

/-- Trimming leaves no blank at either end. -/
theorem trimmed_trim (cs : List Char) : Trimmed (trim cs) := by
  have hprefix : trim cs <+: trimStart cs := by
    rw [← List.reverse_suffix, trim, trimEnd, List.reverse_reverse]
    exact List.dropWhile_suffix _
  refine ⟨?_, ?_⟩
  · intro c hc
    obtain ⟨t, ht⟩ := hprefix
    refine @head_dropWhile cs c ?_
    rw [← trimStart, ← ht, List.head?_append, Option.mem_def.1 hc]
    rfl
  · rw [trim, trimEnd, List.getLast?_reverse]
    exact head_dropWhile

/-- What stands behind something that is not blank is not at the start. -/
theorem trimStart_append {before : List Char} (h : ∃ c ∈ before, isBlank c = false) :
    trimStart (before ++ cs) = trimStart before ++ cs := by
  obtain ⟨c, hc, hb⟩ := h
  rw [trimStart, trimStart, List.dropWhile_append, if_neg]
  intro he
  have hall := List.dropWhile_eq_nil_iff.1 (List.isEmpty_iff.1 he) c hc
  rw [hb] at hall
  cases hall

theorem trimEnd_append {after : List Char} (h : ∃ c ∈ after, isBlank c = false) :
    trimEnd (cs ++ after) = cs ++ trimEnd after := by
  have hr : trimStart (after.reverse ++ cs.reverse) = trimStart after.reverse ++ cs.reverse :=
    trimStart_append (by simpa using h)
  simp only [trimStart] at hr
  rw [trimEnd, trimEnd, List.reverse_append, hr, List.reverse_append, List.reverse_reverse]

/-- Between two characters that are not blank, nothing is trimmed away. -/
theorem mem_trim {before after : List Char} {c : Char} (hb : ∃ d ∈ before, isBlank d = false)
    (ha : ∃ d ∈ after, isBlank d = false) : c ∈ trim (before ++ c :: after) := by
  have hcons : ∃ d ∈ c :: after, isBlank d = false := by
    obtain ⟨d, hd, hblank⟩ := ha
    exact ⟨d, List.mem_cons_of_mem c hd, hblank⟩
  rw [trim, trimStart_append hb, List.append_cons, trimEnd_append ha]
  simp

theorem trim_blank (h : ∀ c ∈ cs, isBlank c) : trim cs = [] := by
  rw [trim, trimStart, List.dropWhile_eq_nil_iff.2 h]
  rfl

theorem wordsAfter_blank {c : Char} (hc : isBlank c) (word before after : List Char) :
    wordsAfter word (before ++ c :: after) = wordsAfter word before ++ words after := by
  induction before generalizing word with
  | nil => cases word <;> simp [wordsAfter, words, hc]
  | cons d before ih =>
    rw [List.cons_append, wordsAfter, wordsAfter, ih, ih]
    split
    · split <;> simp
    · rfl

/-- The words on both sides of a blank. -/
theorem words_blank {c : Char} (hc : isBlank c) (before after : List Char) :
    words (before ++ c :: after) = words before ++ words after :=
  wordsAfter_blank hc [] before after

theorem wordsAfter_word {word : List Char} (hw : word ≠ []) (h : ∀ c ∈ cs, isBlank c = false) :
    wordsAfter word cs = [word.reverse ++ cs] := by
  induction cs generalizing word with
  | nil => simp [wordsAfter, hw]
  | cons c cs ih =>
    obtain ⟨hc, hcs⟩ := List.forall_mem_cons.1 h
    rw [wordsAfter, hc, if_neg Bool.false_ne_true, ih (List.cons_ne_nil c word) hcs]
    simp

/-- A text without blanks is one word. -/
theorem words_word (hne : cs ≠ []) (h : ∀ c ∈ cs, isBlank c = false) : words cs = [cs] := by
  cases cs with
  | nil => exact absurd rfl hne
  | cons c cs =>
    obtain ⟨hc, hcs⟩ := List.forall_mem_cons.1 h
    rw [words, wordsAfter, hc, if_neg Bool.false_ne_true,
      wordsAfter_word (List.cons_ne_nil c []) hcs]
    rfl

end MobDebug.Text
