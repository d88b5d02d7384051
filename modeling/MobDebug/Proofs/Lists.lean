import Mathlib.Data.List.Forall2
import Mathlib.Data.List.Nodup

/-! Lists: runs at their start, keys that they have once, and what may fail on the way through. -/
namespace MobDebug

/-! ### Runs -/

namespace Text
variable {α : Type} {p : α → Bool} {xs ys : List α}

theorem takeWhile_run (hx : ∀ a ∈ xs, p a) (hy : ∀ a ∈ ys.head?, p a = false) :
    (xs ++ ys).takeWhile p = xs := by
  rw [List.takeWhile_append_of_pos hx]
  cases ys with
  | nil => simp
  | cons y ys => simp [hy y rfl]

theorem dropWhile_stop (hy : ∀ a ∈ ys.head?, p a = false) : ys.dropWhile p = ys := by
  cases ys with
  | nil => rfl
  | cons y ys => simp [hy y rfl]

theorem dropWhile_run (hx : ∀ a ∈ xs, p a) (hy : ∀ a ∈ ys.head?, p a = false) :
    (xs ++ ys).dropWhile p = ys := by
  rw [List.dropWhile_append_of_pos hx, dropWhile_stop hy]

end Text

/-! ### Keys -/

section Lookup
variable {α β : Type} [BEq α] [LawfulBEq α] {l : List (α × β)} {k : α} {v : β}

theorem mem_of_lookup (h : l.lookup k = some v) : (k, v) ∈ l := by
  obtain ⟨l₁, l₂, rfl, -⟩ := List.lookup_eq_some_iff.1 h
  simp

theorem lookup_of_mem (hn : (l.map (·.1)).Nodup) (h : (k, v) ∈ l) : l.lookup k = some v := by
  induction l with
  | nil => cases h
  | cons p l ih =>
    rw [List.map_cons, List.nodup_cons] at hn
    rcases List.mem_cons.1 h with rfl | h
    · exact List.lookup_cons_self
    · have hk : k ≠ p.1 := fun he => hn.1 (he ▸ List.mem_map_of_mem h)
      rw [List.lookup_cons, beq_eq_false_iff_ne.2 hk]
      exact ih hn.2 h

theorem lookup_eq_some_iff_mem (hn : (l.map (·.1)).Nodup) :
    l.lookup k = some v ↔ (k, v) ∈ l :=
  ⟨mem_of_lookup, lookup_of_mem hn⟩

end Lookup

/-! ### Traversal -/

section Traversal
variable {α β ε : Type} {f : α → Except ε β} {l : List α} {a : α} {e : ε}

theorem mapM_ok {g : α → β} (h : ∀ a ∈ l, f a = .ok (g a)) : l.mapM f = .ok (l.map g) := by
  induction l with
  | nil => rfl
  | cons a l ih =>
    obtain ⟨ha, hl⟩ := List.forall_mem_cons.1 h
    rw [List.mapM_cons, ha, ih hl]
    rfl

/-- What goes through does so element by element. -/
theorem mapM_eq_ok {ys : List β} :
    l.mapM f = .ok ys ↔ List.Forall₂ (fun a y => f a = .ok y) l ys := by
  induction l generalizing ys with
  | nil =>
    rw [List.mapM_nil, List.forall₂_nil_left_iff]
    exact ⟨fun h => (Except.ok.inj h).symm, fun h => congrArg Except.ok h.symm⟩
  | cons a l ih =>
    rw [List.mapM_cons, List.forall₂_cons_left_iff]
    constructor
    · intro h
      cases ha : f a with
      | error e =>
        rw [ha] at h
        cases h
      | ok y =>
        cases hl : l.mapM f with
        | error e =>
          rw [ha, hl] at h
          cases h
        | ok rest =>
          rw [ha, hl] at h
          exact ⟨y, rest, rfl, ih.1 hl, (Except.ok.inj h).symm⟩
    · rintro ⟨y, rest, ha, hrest, rfl⟩
      rw [ha, ih.2 hrest]
      rfl

/-- Of several failures the first is handed on. -/
theorem mapM_error (ha : a ∈ l) (he : f a = .error e) :
    ∃ b ∈ l, ∃ e, f b = .error e ∧ l.mapM f = .error e := by
  induction l with
  | nil => cases ha
  | cons b l ih =>
    rw [List.mapM_cons]
    cases hb : f b with
    | error e' => exact ⟨b, List.mem_cons_self, e', hb, rfl⟩
    | ok y =>
      have hne : a ≠ b := by
        rintro rfl
        cases he.symm.trans hb
      obtain ⟨c, hc, e', he', hm⟩ := ih (List.mem_of_ne_of_mem hne ha)
      refine ⟨c, List.mem_cons_of_mem b hc, e', he', ?_⟩
      rw [hm]
      rfl

end Traversal

end MobDebug
