import MobDebug.Literal.Printer
import MobDebug.Literal.Quotation
import MobDebug.Proofs.Literal.Trivia
import MobDebug.Proofs.Text.Utf8

/-! A string is read back from its quotation. -/
namespace MobDebug.Literal

variable {q b byte : UInt8} {r t read content rest : List UInt8} {i j k : Nat}

theorem quotation_end (q : UInt8) (rest : List UInt8) :
    Gives (quotation q (q :: rest)) [] rest := by
  refine ⟨by simp, ?_⟩
  rw [quotation, if_pos rfl]
  rfl

theorem quotation_raw (hq : b ≠ q) (hl : isLineEnd b = false) (hb : b ≠ ascii '\\')
    (h : Gives (quotation q r) content rest) :
    Gives (quotation q (b :: r)) (b :: content) rest := by
  obtain ⟨hr, h⟩ := h
  refine ⟨Nat.lt_succ_of_lt hr, ?_⟩
  rw [quotation, if_neg hq, hl, if_neg Bool.false_ne_true, if_neg hb, h]
  rfl

theorem quotation_escape (hq : ascii '\\' ≠ q) (he : ∃ hr, escape r = .ok (read, ⟨t, hr⟩))
    (h : Gives (quotation q t) content rest) :
    Gives (quotation q (ascii '\\' :: r)) (read ++ content) rest := by
  obtain ⟨hr, he⟩ := he
  obtain ⟨hs, h⟩ := h
  refine ⟨by simp; omega, ?_⟩
  rw [quotation, if_neg hq, if_neg (by decide), if_pos rfl, he]
  dsimp only
  rw [h]
  rfl

theorem escape_named (h : namedEscape? b = some byte) (r : List UInt8) :
    ∃ hr, escape (b :: r) = .ok ([byte], ⟨r, hr⟩) := by
  refine ⟨by simp, ?_⟩
  simp only [escape, h]
  rfl

theorem escape_digits (hi : i < 10) (hj : j < 10) (hk : k < 10) (hn : i * 100 + j * 10 + k < 256)
    (r : List UInt8) :
    ∃ hr, escape (UInt8.ofNat (48 + i) :: UInt8.ofNat (48 + j) :: UInt8.ofNat (48 + k) :: r) =
      .ok ([UInt8.ofNat (i * 100 + j * 10 + k)], ⟨r, hr⟩) := by
  have hdigit : ∀ n < 10, isDigit (UInt8.ofNat (48 + n)) ∧
      (UInt8.ofNat (48 + n)).toNat - 48 = n := by decide
  have hother : ∀ n < 10, namedEscape? (UInt8.ofNat (48 + n)) = none ∧
      isLineEnd (UInt8.ofNat (48 + n)) = false ∧ UInt8.ofNat (48 + n) ≠ ascii 'z' ∧
      UInt8.ofNat (48 + n) ≠ ascii 'x' := by decide
  obtain ⟨hni, hli, hzi, hxi⟩ := hother i hi
  refine ⟨by simp; omega, ?_⟩
  have he : (i * 10 + j) * 10 + k = i * 100 + j * 10 + k := by omega
  simp only [escape, hni, hli, hzi, hxi, hdigit i hi, hdigit j hj, hdigit k hk, readDigits, he, hn,
    beq_iff_eq, if_true, if_false, Bool.false_eq_true, Rest.behind, Rest.all]

theorem bytes_threeDigits (n : Nat) :
    Text.bytes (threeDigits n) =
      [UInt8.ofNat (48 + n / 100 % 10), UInt8.ofNat (48 + n / 10 % 10),
        UInt8.ofNat (48 + n % 10)] := by
  have hdigit : ∀ k < 10, String.utf8EncodeChar (Nat.digitChar k) = [UInt8.ofNat (48 + k)] := by
    decide
  simp only [Text.bytes, threeDigits, String.toList_ofList, List.flatMap_cons, List.flatMap_nil,
    hdigit _ (Nat.mod_lt _ (show 0 < 10 by decide)), List.singleton_append]

theorem isLineEnd_eq_false (h : 0x20 ≤ b.toNat) : isLineEnd b = false := by
  simp only [isLineEnd, Bool.or_eq_false_iff, beq_eq_false_iff_ne]
  constructor
  · rintro rfl
    exact absurd h (by decide)
  · rintro rfl
    exact absurd h (by decide)

/-- A character that needs no escape is read as its bytes. -/
theorem quotation_plain {c : Char} (hq : c ≠ '"') (hs : c ≠ '\\') (hc : 0x20 ≤ c.toNat)
    (h : Gives (quotation (ascii '"') t) content rest) :
    Gives (quotation (ascii '"') (String.utf8EncodeChar c ++ t))
      (String.utf8EncodeChar c ++ content) rest := by
  have hne : ∀ b ∈ String.utf8EncodeChar c,
      b ≠ ascii '"' ∧ isLineEnd b = false ∧ b ≠ ascii '\\' := by
    intro b hb
    by_cases hascii : c.toNat < 0x80
    · rw [Text.utf8EncodeChar_ascii hascii, List.mem_singleton] at hb
      have hn : b.toNat = c.toNat := by
        rw [hb, UInt8.toNat_ofNat']
        omega
      refine ⟨?_, ?_, ?_⟩
      · rintro rfl
        exact hq (Char.toNat_inj.1 hn.symm)
      · exact isLineEnd_eq_false (hn ▸ hc)
      · rintro rfl
        exact hs (Char.toNat_inj.1 hn.symm)
    · have hhigh := Text.utf8EncodeChar_high (Nat.not_lt.1 hascii) hb
      refine ⟨?_, ?_, ?_⟩
      · rintro rfl
        exact absurd hhigh (by decide)
      · exact isLineEnd_eq_false (Nat.le_trans (by decide) (UInt8.le_iff_toNat_le.1 hhigh))
      · rintro rfl
        exact absurd hhigh (by decide)
  generalize String.utf8EncodeChar c = bs at hne ⊢
  induction bs with
  | nil => exact h
  | cons b bs ih =>
    obtain ⟨hq, hl, hs⟩ := hne b List.mem_cons_self
    exact quotation_raw hq hl hs (ih fun b hb => hne b (List.mem_cons_of_mem _ hb))

/-- One character of a quoted string is read back. -/
theorem quotation_escapeChar (c : Char) (h : Gives (quotation (ascii '"') t) content rest) :
    Gives (quotation (ascii '"') (Text.bytes (escapeChar c) ++ t))
      (String.utf8EncodeChar c ++ content) rest := by
  have hq : ascii '\\' ≠ ascii '"' := by decide
  by_cases h1 : c = '"'
  · subst h1
    exact quotation_escape hq (escape_named (b := ascii '"') rfl t) h
  by_cases h2 : c = '\\'
  · subst h2
    exact quotation_escape hq (escape_named (b := ascii '\\') rfl t) h
  by_cases h3 : c = '\n'
  · subst h3
    exact quotation_escape hq (escape_named (b := ascii 'n') rfl t) h
  by_cases h4 : c = '\r'
  · subst h4
    exact quotation_escape hq (escape_named (b := ascii 'r') rfl t) h
  by_cases h5 : c = '\t'
  · subst h5
    exact quotation_escape hq (escape_named (b := ascii 't') rfl t) h
  -- no character with an escape of its own is left
  have he : escapeChar c =
      if c.toNat < 0x20 || c.toNat == 0x7f then "\\" ++ threeDigits c.toNat else c.toString := by
    unfold escapeChar
    split <;> simp_all
  rw [he]
  by_cases hcontrol : (c.toNat < 0x20 || c.toNat == 0x7f) = true
  · have hlt : c.toNat < 128 := by
      rw [Bool.or_eq_true, decide_eq_true_eq, beq_iff_eq] at hcontrol
      omega
    -- three digits spell the whole code
    have hn : c.toNat / 100 % 10 * 100 + c.toNat / 10 % 10 * 10 + c.toNat % 10 = c.toNat := by omega
    rw [if_pos hcontrol, Text.bytes_append, bytes_threeDigits, Text.utf8EncodeChar_ascii hlt]
    have hd := escape_digits (i := c.toNat / 100 % 10) (j := c.toNat / 10 % 10) (k := c.toNat % 10)
      (by omega) (by omega) (by omega) (by omega) t
    rw [hn] at hd
    exact quotation_escape hq hd h
  · have hge : 0x20 ≤ c.toNat := by
      rw [Bool.or_eq_true, decide_eq_true_eq, beq_iff_eq] at hcontrol
      omega
    have hb : Text.bytes c.toString = String.utf8EncodeChar c := by
      simp [Text.bytes, Char.toString]
    rw [if_neg hcontrol, hb]
    exact quotation_plain h1 h2 hge h

/-- A string is read back from its quotation. -/
theorem quotation_quoteString (s : String) (rest : List UInt8) :
    ∃ r, Text.bytes (quoteString s) ++ rest = ascii '"' :: r ∧
      Gives (quotation (ascii '"') r) (Text.bytes s) rest := by
  have hchars (cs : List Char) : Gives
      (quotation (ascii '"') (Text.bytes (String.join (cs.map escapeChar)) ++ ascii '"' :: rest))
      (cs.flatMap String.utf8EncodeChar) rest := by
    induction cs with
    | nil => exact quotation_end _ rest
    | cons c cs ih =>
      have hj : Text.bytes (String.join ((c :: cs).map escapeChar)) =
          Text.bytes (escapeChar c) ++ Text.bytes (String.join (cs.map escapeChar)) := by
        rw [List.map_cons, String.join_cons, Text.bytes_append]
      rw [hj, List.append_assoc]
      exact quotation_escapeChar c ih
  refine ⟨_, ?_, hchars s.toList⟩
  rw [quoteString, Text.bytes_append, Text.bytes_append, List.append_assoc, List.append_assoc]
  rfl

end MobDebug.Literal
