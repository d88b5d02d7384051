import MobDebug.Proofs.Literal.Cursor.Literals

/-!
What a run of the machine ends with. It never leaves the text, never takes bytes for characters that
are none and never stands still. The one integer that can leave its width is the exponent of a
hexadecimal numeral.
-/
namespace MobDebug.Literal.Cursor

variable {env : Setting} {t u sign es : List UInt8} {x mark : UInt8} {d fraction : Nat}
  {written : Int} {negative : Bool} {ds : List Nat}

theorem read_offset_le {limit : Nat} {text : String} {e : Error} (h : read limit text = .error e) :
    e.offset ≤ (Text.bytes text).length := by
  rw [read_whole] at h
  cases hx : whole limit (Text.bytes text) with
  | ok v =>
    rw [hx] at h
    cases h
  | error e' =>
    rw [hx] at h
    cases h
    exact Nat.sub_le _ _

/-- A run ends as the reader does, at a place of the text if it is a fault, but for an integer that
leaves its width where integers do not wrap. -/
theorem run_safe (env : Setting) :
    match run env with
    | .ok v => read env.limit env.text = .ok v
    | .error (.fault e) => read env.limit env.text = .error e ∧ e.offset ≤ env.source.length
    | .error (.breach b) => b = .overflow ∧ env.wraps = false := by
  rcases run_cases env with he | ⟨he, hw, -⟩
  · rw [he]
    cases hr : read env.limit env.text with
    | ok v => rfl
    | error e => exact ⟨rfl, read_offset_le hr⟩
  · rw [he]
    exact ⟨rfl, hw⟩

/-! ### A numeral alone -/

end MobDebug.Literal.Cursor
