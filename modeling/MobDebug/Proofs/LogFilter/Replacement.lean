import MobDebug.LogFilter.Basic
import MobDebug.Proofs.LogFilter.Order
import Mathlib.Data.List.Induction

/-!
Directives replace one another: of those that are about the same only the last stays. So directives
behind others override them, and leave them in force where they say nothing.
-/
namespace MobDebug.LogFilter
open Directive (Same)

variable {d e x : Directive} {l ds es : List Directive}

/-- The most specific directive comes first, and no two are about the same. -/
def Sorted (l : List Directive) : Prop :=
  l.Pairwise fun a b => a.order b = .gt

theorem not_same_of_gt (h : d.order e = .gt) : ¬ d.Same e := by
  intro hs
  rw [Same, h] at hs
  cases hs

/-! ### One directive -/

/-- An insertion takes away what is about the same. -/
theorem mem_insert (h : Sorted l) : x ∈ insert d l ↔ x = d ∨ x ∈ l ∧ ¬ d.Same x := by
  induction l with
  | nil => simp [insert]
  | cons other rest ih =>
    obtain ⟨hother, hrest⟩ := List.pairwise_cons.1 h
    rw [insert]
    cases ho : d.order other with
    | lt =>
      -- the place is further on
      have hne : ¬ d.Same other := by
        intro hs
        rw [Same, ho] at hs
        cases hs
      rw [List.mem_cons, ih hrest, List.mem_cons]
      constructor
      · rintro (rfl | rfl | ⟨hx, hs⟩)
        · exact .inr ⟨.inl rfl, hne⟩
        · exact .inl rfl
        · exact .inr ⟨.inr hx, hs⟩
      · rintro (rfl | ⟨rfl | hx, hs⟩)
        · exact .inr (.inl rfl)
        · exact .inl rfl
        · exact .inr (.inr ⟨hx, hs⟩)
    | eq =>
      -- the one that is replaced is the only one about the same, for the list is sorted
      have hne : ∀ y ∈ rest, ¬ d.Same y := by
        intro y hy
        exact not_same_of_gt (Std.TransCmp.gt_of_eq_of_gt ho (hother y hy))
      rw [List.mem_cons, List.mem_cons]
      constructor
      · rintro (rfl | hx)
        · exact .inl rfl
        · exact .inr ⟨.inr hx, hne x hx⟩
      · rintro (rfl | ⟨rfl | hx, hs⟩)
        · exact .inl rfl
        · exact absurd ho hs
        · exact .inr hx
    | gt =>
      -- nothing about the same comes any more
      have hne : ∀ y ∈ other :: rest, ¬ d.Same y := by
        intro y hy
        rcases List.mem_cons.1 hy with rfl | hy
        · exact not_same_of_gt ho
        · exact not_same_of_gt (Std.TransCmp.gt_trans ho (hother y hy))
      rw [List.mem_cons]
      constructor
      · rintro (rfl | hx)
        · exact .inl rfl
        · exact .inr ⟨hx, hne x hx⟩
      · rintro (rfl | ⟨hx, -⟩)
        · exact .inl rfl
        · exact .inr hx

/-- The directives that speak of targets only. -/
def plain (ds : List Directive) : List Directive :=
  ds.filter (!·.isDynamic)

/-- The directives that speak of fields, but can be settled without them. -/
def settled (ds : List Directive) : List Directive :=
  (ds.filter (·.isDynamic)).filterMap (·.toStatic?)

end MobDebug.LogFilter
