import MobDebug.Literal.Printer
import MobDebug.Literal.Numeral
import MobDebug.Proofs.Text.Utf8

/-! ASCII texts as bytes. Names and numerals are made of nothing else. -/
namespace MobDebug.Literal

variable {b : UInt8} {c : Char} {cs : List Char} {s : String}

theorem startsName_iff : startsName b ↔
    b.toNat = 95 ∨ (97 ≤ b.toNat ∧ b.toNat ≤ 122) ∨ (65 ≤ b.toNat ∧ b.toNat ≤ 90) := by
  simp only [startsName, Bool.or_eq_true, Bool.and_eq_true, beq_iff_eq, decide_eq_true_eq,
    UInt8.le_iff_toNat_le, ← UInt8.toNat_inj, or_assoc]
  rfl

theorem isDigit_iff : isDigit b ↔ 48 ≤ b.toNat ∧ b.toNat ≤ 57 := by
  simp only [isDigit, Bool.and_eq_true, decide_eq_true_eq, UInt8.le_iff_toNat_le]
  rfl

theorem isSpace_iff : isSpace b ↔ b.toNat = 32 ∨ (9 ≤ b.toNat ∧ b.toNat ≤ 13) := by
  simp only [isSpace, Bool.or_eq_true, Bool.and_eq_true, beq_iff_eq, decide_eq_true_eq,
    UInt8.le_iff_toNat_le, ← UInt8.toNat_inj]
  rfl

theorem toNat_ascii (h : c.toNat < 0x80) : (ascii c).toNat = c.toNat := by
  have he : (ascii c).toNat = c.toNat % 256 := UInt32.toNat_toUInt8 c.val
  omega

theorem byteChar_ascii (h : c.toNat < 0x80) : byteChar (ascii c) = c := by
  rw [byteChar, toNat_ascii h, Char.ofNat_toNat]

theorem toNat_byteChar (b : UInt8) : (byteChar b).toNat = b.toNat := by
  have hvalid : b.toNat.isValidChar := .inl (Nat.lt_trans b.toNat_lt (by decide))
  rw [byteChar, Char.ofNat, dif_pos hvalid]
  rfl

theorem ascii_byteChar (b : UInt8) : ascii (byteChar b) = b := by
  have hlt : b.toNat < 256 := b.toNat_lt
  have he : (ascii (byteChar b)).toNat = (byteChar b).toNat % 256 := UInt32.toNat_toUInt8 _
  rw [← UInt8.toNat_inj, he, toNat_byteChar]
  omega

theorem map_ascii_byteChar (s : List UInt8) : (s.map byteChar).map ascii = s := by
  rw [List.map_map]
  exact (List.map_congr_left fun b _ => ascii_byteChar b).trans (List.map_id s)

theorem map_byteChar (h : ∀ c ∈ cs, c.toNat < 0x80) : (cs.map ascii).map byteChar = cs := by
  rw [List.map_map]
  exact (List.map_congr_left fun c hc => byteChar_ascii (h c hc)).trans (List.map_id cs)

theorem flatMap_ascii (h : ∀ c ∈ cs, c.toNat < 0x80) :
    cs.flatMap String.utf8EncodeChar = cs.map ascii := by
  induction cs with
  | nil => rfl
  | cons c cs ih =>
    obtain ⟨hc, hcs⟩ := List.forall_mem_cons.1 h
    rw [List.flatMap_cons, Text.utf8EncodeChar_ascii hc, ih hcs]
    rfl

theorem bytes_ascii (h : ∀ c ∈ s.toList, c.toNat < 0x80) : Text.bytes s = s.toList.map ascii :=
  flatMap_ascii h

theorem bytes_ofList (h : ∀ c ∈ cs, c.toNat < 0x80) :
    Text.bytes (String.ofList cs) = cs.map ascii := by
  rw [Text.bytes, String.toList_ofList, flatMap_ascii h]

theorem bytes_replicate (hc : c.toNat < 0x80) (k : Nat) :
    Text.bytes (String.ofList (List.replicate k c)) = List.replicate k (ascii c) := by
  have hascii : ∀ d ∈ List.replicate k c, d.toNat < 0x80 := by
    intro d hd
    rwa [List.eq_of_mem_replicate hd]
  rw [bytes_ofList hascii, List.map_replicate]

theorem isDigit_bounds (h : c.isDigit) : 48 ≤ c.toNat ∧ c.toNat ≤ 57 := by
  simpa [Char.isDigit, UInt32.le_iff_toNat_le] using h

theorem isNameStart_bounds (h : isNameStart c) :
    c.toNat = 95 ∨ (97 ≤ c.toNat ∧ c.toNat ≤ 122) ∨ (65 ≤ c.toNat ∧ c.toNat ≤ 90) := by
  have hranges : (c == '_' || (decide (65 ≤ c.val ∧ c.val ≤ 90) ||
      (97 ≤ c.val && c.val ≤ 122))) = true := h
  simp only [Bool.or_eq_true, beq_iff_eq, Bool.and_eq_true, decide_eq_true_eq] at hranges
  rcases hranges with rfl | h | h
  · exact .inl rfl
  · exact .inr (.inr h)
  · exact .inr (.inl h)

theorem isNameChar_iff : isNameChar c ↔ isNameStart c ∨ c.isDigit := by
  simp [isNameChar, isNameStart, Char.isAlphanum, or_assoc]

theorem isDigit_ascii (h : c.isDigit) : isDigit (ascii c) := by
  have hb := isDigit_bounds h
  rw [isDigit_iff, toNat_ascii (by omega)]
  exact hb

theorem startsName_ascii (h : isNameStart c) : startsName (ascii c) := by
  have hb := isNameStart_bounds h
  rw [startsName_iff, toNat_ascii (by omega)]
  exact hb

theorem continuesName_ascii (h : isNameChar c) : continuesName (ascii c) := by
  rw [continuesName, Bool.or_eq_true]
  rcases isNameChar_iff.1 h with h | h
  · exact .inl (startsName_ascii h)
  · exact .inr (isDigit_ascii h)

theorem isNameStart_iff : isNameStart c ↔
    c.toNat = 95 ∨ (97 ≤ c.toNat ∧ c.toNat ≤ 122) ∨ (65 ≤ c.toNat ∧ c.toNat ≤ 90) := by
  refine ⟨isNameStart_bounds, fun h => ?_⟩
  have hranges : (c == '_' || (decide (65 ≤ c.val ∧ c.val ≤ 90) ||
      (97 ≤ c.val && c.val ≤ 122))) = true := by
    simp only [Bool.or_eq_true, beq_iff_eq, Bool.and_eq_true, decide_eq_true_eq]
    rcases h with h | h | h
    · exact .inl (Char.toNat_inj.1 h)
    · exact .inr (.inr h)
    · exact .inr (.inl h)
  exact hranges

theorem isNameStart_byteChar (h : startsName b) : isNameStart (byteChar b) := by
  rw [isNameStart_iff, toNat_byteChar]
  exact startsName_iff.1 h

theorem isDigit_byteChar (h : isDigit b) : (byteChar b).isDigit := by
  have hb := isDigit_iff.1 h
  rw [← toNat_byteChar b] at hb
  simpa [Char.isDigit, UInt32.le_iff_toNat_le] using hb

theorem isNameChar_byteChar (h : continuesName b) : isNameChar (byteChar b) := by
  rw [continuesName, Bool.or_eq_true] at h
  exact isNameChar_iff.2 (h.imp isNameStart_byteChar isDigit_byteChar)

theorem lt_of_isNameChar (h : isNameChar c) : c.toNat < 0x80 := by
  rcases isNameChar_iff.1 h with h | h
  · have := isNameStart_bounds h
    omega
  · have := isDigit_bounds h
    omega

end MobDebug.Literal
