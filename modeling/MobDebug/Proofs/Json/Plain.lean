import MobDebug.Proofs.Json.Trees
import MobDebug.Proofs.Wire.Lines

/-! The text of a tree has no control characters, whatever its strings hold; so it stands on one
line. -/
namespace MobDebug.Json

/-- A text without the characters below the space. -/
def Plain (cs : List Char) : Prop := ∀ c ∈ cs, 0x20 ≤ c.toNat

instance (cs : List Char) : Decidable (Plain cs) :=
  List.decidableBAll (fun c : Char => 0x20 ≤ c.toNat) cs

variable {cs ds : List Char} {c : Char}

theorem Plain.nil : Plain [] := List.forall_mem_nil _

theorem Plain.append (hc : Plain cs) (hd : Plain ds) : Plain (cs ++ ds) :=
  fun c hm => (List.mem_append.1 hm).elim (hc c) (hd c)

theorem Plain.cons (hc : 0x20 ≤ c.toNat) (hd : Plain ds) : Plain (c :: ds) :=
  List.forall_mem_cons.2 ⟨hc, hd⟩

theorem plain_digits (h : ∀ d ∈ cs, d.isDigit) : Plain cs := by
  intro d hd
  have hdigit := h d hd
  simp only [Char.isDigit, Bool.and_eq_true, decide_eq_true_eq, UInt32.le_iff_toNat_le] at hdigit
  exact Nat.le_trans (by decide) hdigit.1

theorem plain_escapeChar (c : Char) : Plain (escapeChar c).toList := by
  have hdigit : ∀ d < 16, 0x20 ≤ (Nat.digitChar d).toNat := by decide
  unfold escapeChar
  split
  case h_8 =>
    split
    · rw [String.toList_append]
      refine .append (by decide) ?_
      rw [twoHexDigits, String.toList_ofList]
      exact .cons (hdigit _ (by omega)) (.cons (hdigit _ (by omega)) .nil)
    · next hlow =>
      intro d hd
      obtain rfl : d = c := by simpa using hd
      exact Nat.not_lt.1 hlow
  all_goals decide

theorem plain_renderString (s : String) : Plain (renderString s).toList := by
  rw [toList_renderString]
  refine .cons (by decide) (.append (fun c hc => ?_) (.cons (by decide) .nil))
  obtain ⟨d, -, hd⟩ := List.mem_flatMap.1 hc
  exact plain_escapeChar d c hd

theorem plain_int (i : Int) : Plain (toString i).toList := by
  rw [Int.toString_eq_repr, Int.repr_eq_if]
  split
  · rw [Nat.toList_repr]
    exact plain_digits fun _ => Text.isDigit_toDigits
  · rw [String.toList_append, Nat.toList_repr]
    exact .append (.cons (by decide) .nil) (plain_digits fun _ => Text.isDigit_toDigits)

theorem plain_numeral (h : Double.IsNumeral cs) : Plain cs := by
  obtain ⟨whole, fraction, exponent, rfl, -, -, hd, hf, he, -⟩ := h
  refine (plain_digits hd).append (.append ?_ ?_)
  · rcases hf with rfl | ⟨ds, rfl, -, hds⟩
    · exact .nil
    · exact .cons (by decide) (plain_digits hds)
  · rcases he with rfl | ⟨sign, ds, rfl, hsign, -, hds⟩
    · exact .nil
    · refine .cons (by decide) (.append ?_ (plain_digits hds))
      rcases hsign with rfl | rfl | rfl <;> decide

theorem plain_renderFloat (x : Double) : Plain (renderFloat x).toList := by
  cases x with
  | finite f =>
    obtain ⟨text, htext, hnum, -⟩ := Double.render_eq format f
    rw [renderFloat, htext, String.toList_append]
    refine .append ?_ (plain_numeral hnum)
    cases f.negative <;> decide
  | nan | infinite =>
    rw [renderFloat]
    decide

theorem plain_bool (b : Bool) : Plain (toString b).toList := by
  cases b <;> decide

mutual

theorem plain_render : (j : Json) → Plain j.render.toList
  | .null => plain_renderFloat .nan
  | .bool b => plain_bool b
  | .int i => plain_int i
  | .float x => plain_renderFloat x
  | .str s => plain_renderString s
  | .arr js => by
    rw [toList_render_arr]
    exact .cons (by decide) ((plain_renderElements js).append (.cons (by decide) .nil))
  | .obj ms => by
    rw [toList_render_obj]
    exact .cons (by decide) ((plain_renderMembers ms).append (.cons (by decide) .nil))

theorem plain_renderElements : (js : List Json) → Plain (renderElements js).toList
  | [] => .nil
  | j :: js => by
    rw [toList_renderElements]
    refine (plain_render j).append ?_
    split
    · exact .nil
    · exact .cons (by decide) (plain_renderElements js)

theorem plain_renderMembers : (ms : List (String × Json)) → Plain (renderMembers ms).toList
  | [] => .nil
  | (name, j) :: ms => by
    rw [toList_renderMembers]
    refine (plain_renderString name).append (.cons (by decide) ((plain_render j).append ?_))
    split
    · exact .nil
    · exact .cons (by decide) (plain_renderMembers ms)

end

/-- The text of a tree stands on one line. -/
theorem render_single (j : Json) : Wire.SingleLine j.render := by
  intro c hc
  have hplain := plain_render j c hc
  simp only [Wire.isLineEnd, Bool.or_eq_false_iff, beq_eq_false_iff_ne]
  constructor <;> rintro rfl <;> exact absurd hplain (by decide)

end MobDebug.Json
