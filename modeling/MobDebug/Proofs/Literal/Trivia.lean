import MobDebug.Literal.Trivia
import MobDebug.Proofs.Lists
import Mathlib.Data.List.Basic

/-! What a reader gives, and where space and comments end. -/
namespace MobDebug.Literal

variable {α β : Type} {s t r u rest : List UInt8} {a : α} {b : UInt8}

/-- A reading is of `a`, and leaves `r`. -/
def Gives (x : Except Failure (Parsed α s)) (a : α) (r : List UInt8) : Prop :=
  ∃ h, x = .ok ⟨a, r, h⟩

namespace Gives
variable {x : Except Failure (Parsed α s)}

theorem map (h : Gives x a r) (f : α → β) : Gives (x.map (·.map f)) (f a) r := by
  obtain ⟨h, rfl⟩ := h
  exact ⟨h, rfl⟩

theorem behind (h : Gives x a r) (b : UInt8) : Gives (x.map (·.behind b)) a r := by
  obtain ⟨h, rfl⟩ := h
  exact ⟨_, rfl⟩

theorem map_behind (h : Gives x a r) (f : α → β) (b : UInt8) :
    Gives (x.map fun p => (p.map f).behind b) (f a) r := by
  obtain ⟨h, rfl⟩ := h
  exact ⟨_, rfl⟩

theorem widen (h : Gives x a r) (hl : s.length ≤ t.length) :
    Gives (x.map (·.widen hl)) a r := by
  obtain ⟨h, rfl⟩ := h
  exact ⟨_, rfl⟩

end Gives

theorem strip?_append (lead s : List UInt8) : strip? lead (lead ++ s) = some s := by
  rw [strip?, if_pos (List.isPrefixOf_iff_prefix.2 (List.prefix_append _ _)), List.drop_left]

/-- The text begins with a token, or has ended. -/
def Solid (s : List UInt8) : Prop :=
  (∀ b ∈ s.head?, isSpace b = false) ∧ strip? [ascii '-', ascii '-'] s = none

theorem solid_nil : Solid [] := ⟨by simp, rfl⟩

theorem solid_cons (hs : isSpace b = false) (hd : b ≠ ascii '-') : Solid (b :: s) := by
  refine ⟨by simpa using hs, ?_⟩
  simp [strip?, List.isPrefixOf, hd.symm]

theorem solid_minus {c : UInt8} (hc : c ≠ ascii '-') : Solid (ascii '-' :: c :: s) := by
  refine ⟨by rintro b ⟨⟩; rfl, ?_⟩
  simp [strip?, List.isPrefixOf, hc.symm]

/-- What may follow a literal: a separator, the end of a table or of a key, or nothing. -/
def Follows (rest : List UInt8) : Prop :=
  ∀ b ∈ rest.head?, b = ascii ',' ∨ b = ascii '\x7d' ∨ b = ascii ']'

theorem follows_nil : Follows [] := by simp [Follows]

theorem follows_cons (h : b = ascii ',' ∨ b = ascii '\x7d' ∨ b = ascii ']') :
    Follows (b :: rest) := by
  rintro _ ⟨⟩
  exact h

theorem Follows.solid (h : Follows rest) : Solid rest := by
  cases rest with
  | nil => exact solid_nil
  | cons b rest => obtain rfl | rfl | rfl := h b rfl <;> exact solid_cons rfl (by decide)

/-- No byte that satisfies `p` follows, unless one of the three does. -/
theorem Follows.head (h : Follows rest) {p : UInt8 → Bool}
    (hp : p (ascii ',') = false ∧ p (ascii '\x7d') = false ∧ p (ascii ']') = false) :
    ∀ b ∈ rest.head?, p b = false := by
  intro b hb
  rcases h b hb with rfl | rfl | rfl
  · exact hp.1
  · exact hp.2.1
  · exact hp.2.2

/-- Space and comments at the start of `s` end in front of `t`. -/
def Skips (s t : List UInt8) : Prop := ∃ h, skipTrivia s = .ok ⟨t, h⟩

theorem skips_plain (h : strip? [ascii '-', ascii '-'] (s.dropWhile isSpace) = none) :
    Skips s (s.dropWhile isSpace) := by
  refine ⟨length_dropWhile_le isSpace s, ?_⟩
  rw [skipTrivia]
  split
  · rfl
  · next ht => exact absurd (h.symm.trans ht) (by simp)

theorem dropWhile_solid (h : Solid s) : s.dropWhile isSpace = s :=
  Text.dropWhile_stop h.1

theorem skips_solid (h : Solid s) : Skips s s := by
  have hd := dropWhile_solid h
  have hs := skips_plain (s := s) (by rw [hd]; exact h.2)
  rwa [hd] at hs

theorem skips_space (h : Solid s) (hb : isSpace b) : Skips (b :: s) s := by
  have hd : (b :: s).dropWhile isSpace = s := by
    rw [List.dropWhile_cons_of_pos hb, dropWhile_solid h]
  have hs := skips_plain (s := b :: s) (by rw [hd]; exact h.2)
  rwa [hd] at hs

theorem skips_comment {content : List UInt8}
    (h : strip? [ascii '-', ascii '-'] (s.dropWhile isSpace) = some t)
    (hb : ∃ hr, longBracket t = .ok (some ⟨content, r, hr⟩)) (hr : Skips r u) : Skips s u := by
  obtain ⟨hshort, hb⟩ := hb
  obtain ⟨hu, hr⟩ := hr
  have hlen := length_of_strip? h
  have hle := length_dropWhile_le isSpace s
  refine ⟨by simp at hlen; omega, ?_⟩
  rw [skipTrivia]
  split
  · next ht => exact absurd (h.symm.trans ht) (by simp)
  · next t' ht =>
    cases h.symm.trans ht
    split
    · next he => exact absurd (hb.symm.trans he) (by simp)
    · next bracket hs =>
      cases hb.symm.trans hs
      simp only [hr, Except.map]
    · next hs => exact absurd (hb.symm.trans hs) (by simp)

end MobDebug.Literal
