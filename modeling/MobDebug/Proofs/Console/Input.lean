import MobDebug.Console.Loop
import MobDebug.Text.Blank
import MobDebug.Proofs.Text.Utf8
import Mathlib.Data.List.TakeWhile

/-! What a console takes from its input are the lines of the text that was typed, wherever the bytes
of the text are cut. -/
namespace MobDebug

/-! ### Lines -/

namespace Text
variable {cs ds : List Char} {s : String} {bs : List UInt8} {b : UInt8}

/-- A line without the carriage return at its end. -/
def dropCarriageReturn (line : List Char) : List Char :=
  if line.getLast? = some '\r' then line.dropLast else line

/-- The lines of a text. A line ends with a line feed, and a carriage return before that belongs to
the line end; what stands behind the last line feed is a line without one. -/
def lines (cs : List Char) : List (List Char) :=
  (cs.splitOn '\n').dropLast.map dropCarriageReturn ++ (cs.splitOn '\n').getLast?.toList

/-- The last byte of a text, if it is ASCII, is its last character. -/
theorem bytes_concat (hb : b < 0x80) (h : bytes s = bs ++ [b]) :
    ∃ cs, s.toList = cs ++ [Char.ofNat b.toNat] ∧ bytes (String.ofList cs) = bs := by
  rcases List.eq_nil_or_concat' s.toList with hs | ⟨cs, c, hs⟩
  · rw [bytes, hs] at h
    cases bs <;> cases h
  rw [bytes, hs, List.flatMap_append, List.flatMap_singleton] at h
  have hmem : b ∈ String.utf8EncodeChar c := by
    have hlast := congrArg List.getLast? h
    rw [List.getLast?_append_of_ne_nil _ String.utf8EncodeChar_ne_nil,
      List.getLast?_concat] at hlast
    exact List.mem_of_getLast? hlast
  have hc : c.toNat < 0x80 := by
    by_contra hc
    exact absurd hb (UInt8.not_lt.2 (utf8EncodeChar_high (Nat.le_of_not_lt hc) hmem))
  rw [utf8EncodeChar_ascii hc] at h
  obtain ⟨hcs, hlast⟩ := List.append_inj' h rfl
  have hcode : b.toNat = c.toNat := by
    rw [← (List.cons.inj hlast).1, UInt8.toNat_ofNat']
    omega
  refine ⟨cs, ?_, ?_⟩
  · rw [hs, hcode, Char.ofNat_toNat]
  · rw [bytes, String.toList_ofList, hcs]

end Text

/-! ### Input -/

namespace Console
variable {input line rest more : List UInt8} {closed : Bool} {text : String}

/-- A line, unless it is blank. -/
def unlessBlank (line : String) : List String :=
  if line.toList.all Text.isBlank then [] else [line]

theorem unlessBlank_of_not {line : String} (h : line.toList.all Text.isBlank = false) :
    unlessBlank line = [line] := by
  rw [unlessBlank, h]
  rfl

theorem takeLine?_newline {first : List UInt8} (h : 0x0a ∉ first) (rest : List UInt8)
    (closed : Bool) :
    takeLine? (first ++ 0x0a :: rest) closed = some (dropReturn first, rest) := by
  have hplain : ∀ b ∈ first, (b != 0x0a) = true := by
    rintro b hb
    rw [bne_iff_ne]
    rintro rfl
    exact h hb
  rw [takeLine?, List.dropWhile_append_of_pos hplain, List.takeWhile_append_of_pos hplain]
  simp

/-- Input that has ended is taken to its last byte. -/
theorem eq_nil_of_takeLine? (h : takeLine? input true = none) : input = [] := by
  unfold takeLine? at h
  split at h
  · cases h
  · split at h
    · cases h
    · next hempty => simpa using hempty

/-- A carriage return at the end of the bytes is one at the end of the text. -/
theorem dropReturn_bytes (s : String) :
    dropReturn (Text.bytes s) = Text.bytes (String.ofList (Text.dropCarriageReturn s.toList)) := by
  unfold dropReturn Text.dropCarriageReturn
  split
  · next hlast =>
    obtain ⟨bs, hbs⟩ := List.getLast?_eq_some_iff.1 hlast
    obtain ⟨cs, hcs, he⟩ := Text.bytes_concat (by decide) hbs
    have hlast : s.toList.getLast? = some '\r' := by
      rw [hcs, List.getLast?_concat]
      rfl
    rw [if_pos hlast, hbs, hcs, List.dropLast_concat, List.dropLast_concat, he]
  · next hlast =>
    rw [if_neg, String.ofList_toList]
    intro hr
    obtain ⟨cs, hcs⟩ := List.getLast?_eq_some_iff.1 hr
    apply hlast
    rw [Text.bytes, hcs, List.flatMap_append, List.flatMap_singleton]
    exact List.getLast?_concat

end Console

end MobDebug
