import MobDebug.Wire.Frame
import MobDebug.Proofs.Literal.Ascii
import MobDebug.Proofs.Text.Blank
import MobDebug.Proofs.Text.Digits

/-! The header line of a frame says what the frame holds. -/
namespace MobDebug.Wire

variable {h rest line : List UInt8}

/-- A line that ends with its only line end, and that is short enough for a header. -/
structure HeaderLine (h : List UInt8) : Prop where
  ended : ∃ line, h = line ++ [0x0a] ∧ 0x0a ∉ line
  bounded : h.length ≤ maxHeader

namespace HeaderLine

theorem of_line (hn : 0x0a ∉ line) (hl : line.length < maxHeader) : HeaderLine (line ++ [0x0a]) :=
  ⟨⟨line, rfl, hn⟩, by simpa using Nat.succ_le_of_lt hl⟩

theorem drop_lt (hh : HeaderLine h) (length : Nat) (rest : List UInt8) :
    (rest.drop length).length < (h ++ rest).length := by
  obtain ⟨line, rfl, -⟩ := hh.ended
  simp only [List.length_drop, List.length_append, List.length_singleton]
  omega

theorem append_ne_nil (hh : HeaderLine h) (rest : List UInt8) : h ++ rest ≠ [] := by
  obtain ⟨line, rfl, -⟩ := hh.ended
  simp

/-- The line end of a header is within its bound. -/
theorem mem_take (hh : HeaderLine h) (rest : List UInt8) : 0x0a ∈ (h ++ rest).take maxHeader := by
  have hp : h <+: (h ++ rest).take maxHeader :=
    List.prefix_take_iff.2 ⟨List.prefix_append h rest, hh.bounded⟩
  obtain ⟨line, rfl, -⟩ := hh.ended
  exact hp.subset (by simp)

end HeaderLine

namespace Response
variable (r : Response)

/-- The words of a header line, apart by blanks. -/
def headerText : List Char :=
  (toString r.status.code).toList ++ ' ' ::
    (r.status.reason.toList ++ ' ' :: Nat.toDigits 10 (Text.bytes r.body).length)

theorem toList_headerLine : r.headerLine.toList = r.headerText ++ ['\n'] := by
  simp [headerLine, headerText]

/-- What the codes and reasons are made of. -/
theorem status_texts (status : Status) :
    (∀ c ∈ (toString status.code).toList, c.toNat < 0x80 ∧ Text.isBlank c = false) ∧
      (∀ c ∈ status.reason.toList, c.toNat < 0x80 ∧ isLineEnd c = false) ∧
      (toString status.code).toList.length = 3 ∧ status.reason.toList.length ≤ 11 ∧
      Status.ofToken? (toString status.code) = some status := by
  have hcode : (toString status.code).toList.all fun c =>
      c.toNat < 0x80 ∧ Text.isBlank c = false := by cases status <;> decide
  have hreason : status.reason.toList.all fun c =>
      c.toNat < 0x80 ∧ isLineEnd c = false := by cases status <;> decide
  refine ⟨fun c hc => ?_, fun c hc => ?_, by cases status <;> decide⟩
  · exact of_decide_eq_true (List.all_eq_true.1 hcode c hc)
  · exact of_decide_eq_true (List.all_eq_true.1 hreason c hc)

theorem isBlank_of_isLineEnd {c : Char} (h : isLineEnd c) : Text.isBlank c := by
  simp only [isLineEnd, Bool.or_eq_true, beq_iff_eq] at h
  rcases h with rfl | rfl <;> decide

theorem digit_plain {c : Char} (h : c.isDigit) : c.toNat < 0x80 ∧ Text.isBlank c = false := by
  obtain ⟨hlow, hhigh⟩ := Literal.isDigit_bounds h
  refine ⟨by omega, ?_⟩
  simp [Text.isBlank]
  omega

/-- What a header line is made of. -/
theorem mem_headerText {c : Char} (hc : c ∈ r.headerText) :
    c.toNat < 0x80 ∧ isLineEnd c = false := by
  have hplain {c : Char} (h : c.toNat < 0x80 ∧ Text.isBlank c = false) :
      c.toNat < 0x80 ∧ isLineEnd c = false := by
    refine ⟨h.1, ?_⟩
    by_contra hend
    rw [isBlank_of_isLineEnd (Bool.not_eq_false _ ▸ hend)] at h
    exact absurd h.2 nofun
  obtain ⟨hcode, hreason, -⟩ := status_texts r.status
  simp only [headerText, List.mem_append, List.mem_cons] at hc
  rcases hc with hc | rfl | hc | rfl | hc
  · exact hplain (hcode c hc)
  · decide
  · exact hreason c hc
  · decide
  · exact hplain (digit_plain (Text.isDigit_toDigits hc))

theorem length_headerText (h : (Text.bytes r.body).length < UInt64.size) :
    r.headerText.length < maxHeader := by
  obtain ⟨-, -, hcode, hreason, -⟩ := status_texts r.status
  have hdigits : (Nat.toDigits 10 (Text.bytes r.body).length).length ≤ 20 := by
    refine (Nat.length_toDigits_le_iff (by decide) (by decide)).2 ?_
    exact Nat.lt_of_lt_of_le h (by decide)
  simp only [headerText, List.length_append, List.length_cons, maxHeader]
  omega

theorem bytes_headerLine :
    Text.bytes r.headerLine = r.headerText.map Literal.ascii ++ [0x0a] := by
  rw [Literal.bytes_ascii, toList_headerLine, List.map_append]
  · rfl
  · intro c hc
    rw [toList_headerLine, List.mem_append, List.mem_singleton] at hc
    rcases hc with hc | rfl
    · exact (r.mem_headerText hc).1
    · decide

/-- A response has a header line. -/
theorem headerLine_header (h : (Text.bytes r.body).length < UInt64.size) :
    HeaderLine (Text.bytes r.headerLine) := by
  rw [bytes_headerLine]
  apply HeaderLine.of_line
  · intro hm
    obtain ⟨c, hc, he⟩ := List.mem_map.1 hm
    obtain ⟨hascii, hend⟩ := r.mem_headerText hc
    have hcode : c.toNat = 10 := by
      rw [← Literal.toNat_ascii hascii, he]
      rfl
    have hline : c = '\n' := by
      rw [← Char.ofNat_toNat c, hcode]
    rw [hline] at hend
    exact absurd hend (by decide)
  · rw [List.length_map]
    exact r.length_headerText h

end Response
end MobDebug.Wire
