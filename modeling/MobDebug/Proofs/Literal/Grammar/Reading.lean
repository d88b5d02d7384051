import MobDebug.Proofs.Literal.Grammar.Tables
import MobDebug.Proofs.Literal.RoundTrip

/-! A text is read if and only if it is a literal of the grammar between trivia. -/
namespace MobDebug.Literal

variable {limit : Nat} {text : String} {v : Value}

/-- By induction on the levels that are left: the reader for the next one reads the entries. -/
theorem recognizes_tableReader (limit d : Nat) :
    Recognizes (tableReader limit d) (DerivesTable d) := by
  induction d with
  | zero =>
    refine ⟨fun h => ?_, fun h => h.elim, fun h => h.elim⟩
    exact absurd h.choose_spec (by simp [tableReader, failAt])
  | succ d ih => exact recognizes_tableOf ih

theorem mapError_eq_ok {α β γ : Type} {f : α → β} {x : Except α γ} {y : γ} :
    x.mapError f = .ok y ↔ x = .ok y := by
  cases x <;> simp [Except.mapError]

theorem read_eq_ok : read limit text = .ok v ↔
    ∃ rest, Gives (value limit limit (Text.bytes text)) v rest ∧ Skips rest [] := by
  simp only [read, mapError_eq_ok, bind_eq_ok]
  constructor
  · rintro ⟨⟨w, r, hr⟩, hw, ⟨u, hu⟩, hs, he⟩
    split at he
    · next hempty =>
      cases he
      obtain rfl := List.isEmpty_iff.1 hempty
      exact ⟨r, ⟨hr, hw⟩, hu, hs⟩
    · cases he
  · rintro ⟨r, ⟨hr, hw⟩, hu, hs⟩
    exact ⟨⟨v, r, hr⟩, hw, ⟨[], hu⟩, hs, rfl⟩

theorem read_eq_ok_iff : read limit text = .ok v ↔
    ∃ g l g', Text.bytes text = g ++ (l ++ g') ∧ Trivia g ∧ Derives limit l v ∧ Trailing g' ∧
      (v = .nil → ¬ Marked g') := by
  have hT := recognizes_tableReader limit limit
  rw [read_eq_ok, value_eq]
  constructor
  · rintro ⟨rest, hv, hrest⟩
    obtain ⟨g, u, hu, hg, l, g', rfl, hl, hg', hm⟩ := item_sound hT hv hrest
    rw [List.append_nil] at hu
    exact ⟨g, l, g', hu, hg, hl, gap_nil.1 hg', hm⟩
  · rintro ⟨g, l, g', hu, hg, hl, hg', hm⟩
    have hs : Stands (DerivesTable limit) (l ++ g') v [] :=
      ⟨l, g', by rw [List.append_nil], hl, gap_nil.2 hg', hm⟩
    rw [hu]
    exact item_reads hT hs (by simp [Ends]) (hg.skips (skips_solid (hs.solid hT)))

theorem not_marked_nil : ¬ Marked [] := by
  rintro ⟨m, _, ⟨-, -, -⟩, hm⟩
  simp [dashes] at hm

/-- A literal alone is read as what it stands for. -/
theorem read_derives {l : List UInt8} (hs : Text.bytes text = l) (hl : Derives limit l v) :
    read limit text = .ok v :=
  read_eq_ok_iff.2 ⟨[], l, [], by simp [hs], .none, hl, .closed .none, fun _ => not_marked_nil⟩

/-- A comment that marks a reference only makes another literal of nil. -/
theorem read_of_derives {g l g' : List UInt8} (hs : Text.bytes text = g ++ (l ++ g'))
    (hg : Trivia g) (hl : Derives limit l v) (hg' : Trailing g') :
    ∃ v, read limit text = .ok v := by
  by_cases hm : v = .nil ∧ Marked g'
  · obtain ⟨rfl, m, label, hmark, r, rfl⟩ := hm
    have hnil : l = Text.bytes "nil" := by
      cases hl with
      | nil => rfl
      | table h =>
        obtain ⟨-, t, ht⟩ := (recognizes_tableReader limit limit).start h
        cases ht
    subst hnil
    rw [← List.append_assoc (Text.bytes "nil")] at hs
    exact ⟨.reference label, read_eq_ok_iff.2
      ⟨g, _, r, hs, hg, .reference hmark, hmark.trailing hg', by rintro ⟨⟩⟩⟩
  · exact ⟨v, read_eq_ok_iff.2 ⟨g, l, g', hs, hg, hl, hg', not_and.1 hm⟩⟩

/-- A text is read if and only if it is a literal, at most `limit` tables deep, between space and
comments. What is read is what the literal stands for, where a comment that marks a reference is
part of it. -/
theorem read_recognizes (limit : Nat) (text : String) :
    ((∃ v, read limit text = .ok v) ↔ ∃ g l g' v, Text.bytes text = g ++ (l ++ g') ∧ Trivia g ∧
      Derives limit l v ∧ Trailing g') ∧
    ∀ v, read limit text = .ok v ↔ ∃ g l g', Text.bytes text = g ++ (l ++ g') ∧ Trivia g ∧
      Derives limit l v ∧ Trailing g' ∧ (v = .nil → ¬ Marked g') := by
  refine ⟨⟨?_, ?_⟩, fun v => read_eq_ok_iff⟩
  · rintro ⟨v, h⟩
    obtain ⟨g, l, g', hs, hg, hl, hg', -⟩ := read_eq_ok_iff.1 h
    exact ⟨g, l, g', v, hs, hg, hl, hg'⟩
  · rintro ⟨g, l, g', v, hs, hg, hl, hg'⟩
    exact read_of_derives hs hg hl hg'

end MobDebug.Literal
