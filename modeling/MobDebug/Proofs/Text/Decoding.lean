import MobDebug.Proofs.Text.Utf8

/-! Bytes that are read without a gap are the bytes of the text that is read. -/
namespace MobDebug.Text
namespace Decoding

variable {low high b : UInt8} {missing code n m k l : Nat} {cs : List Char} {bs : List UInt8}

theorem toNat_val_ofNat (h : n.isValidChar) : (Char.ofNat n).val.toNat = n := by
  rw [Char.ofNat, dif_pos h]
  rfl

theorem encode_two (hn : 2 ≤ n) (hn' : n < 32) (hm : m < 64) :
    String.utf8EncodeChar (Char.ofNat (n * 0x40 + m)) =
      [UInt8.ofNat (n + 0xc0), UInt8.ofNat (m + 0x80)] := by
  have hv := toNat_val_ofNat (n := n * 0x40 + m) (.inl (by omega))
  simp only [String.utf8EncodeChar, hv]
  rw [if_neg (by omega), if_pos (by omega), show (n * 0x40 + m) / 64 % 32 = n by omega,
    show (n * 0x40 + m) % 64 = m by omega]

theorem encode_three (hn : n < 16) (hm : m < 64) (hk : k < 64) (hlow : n = 0 → 32 ≤ m)
    (hhigh : n = 13 → m < 32) :
    String.utf8EncodeChar (Char.ofNat ((n * 0x40 + m) * 0x40 + k)) =
      [UInt8.ofNat (n + 0xe0), UInt8.ofNat (m + 0x80), UInt8.ofNat (k + 0x80)] := by
  have hvalid : ((n * 0x40 + m) * 0x40 + k).isValidChar := by
    by_cases h : n < 13 ∨ (n = 13 ∧ m < 32)
    · exact .inl (by omega)
    · exact .inr ⟨by omega, by omega⟩
  have hv := toNat_val_ofNat hvalid
  simp only [String.utf8EncodeChar, hv]
  rw [if_neg (by omega), if_neg (by omega), if_pos (by omega),
    show ((n * 0x40 + m) * 0x40 + k) / 4096 % 16 = n by omega,
    show ((n * 0x40 + m) * 0x40 + k) / 64 % 64 = m by omega,
    show ((n * 0x40 + m) * 0x40 + k) % 64 = k by omega]

theorem encode_four (hn : n < 5) (hm : m < 64) (hk : k < 64) (hl : l < 64) (hlow : n = 0 → 16 ≤ m)
    (hhigh : n = 4 → m < 16) :
    String.utf8EncodeChar (Char.ofNat (((n * 0x40 + m) * 0x40 + k) * 0x40 + l)) =
      [UInt8.ofNat (n + 0xf0), UInt8.ofNat (m + 0x80), UInt8.ofNat (k + 0x80),
        UInt8.ofNat (l + 0x80)] := by
  have hv := toNat_val_ofNat (n := ((n * 0x40 + m) * 0x40 + k) * 0x40 + l)
    (.inr ⟨by omega, by omega⟩)
  simp only [String.utf8EncodeChar, hv]
  rw [if_neg (by omega), if_neg (by omega), if_neg (by omega),
    show (((n * 0x40 + m) * 0x40 + k) * 0x40 + l) / 262144 % 8 = n by omega,
    show (((n * 0x40 + m) * 0x40 + k) * 0x40 + l) / 4096 % 64 = m by omega,
    show (((n * 0x40 + m) * 0x40 + k) * 0x40 + l) / 64 % 64 = k by omega,
    show (((n * 0x40 + m) * 0x40 + k) * 0x40 + l) % 64 = l by omega]

/-- The first byte of several, and the bounds it sets for the second. -/
theorem leadByte_cases (h : leadByte b = some (low, high, missing, code)) :
    (missing = 1 ∧ b = UInt8.ofNat (code + 0xc0) ∧ 2 ≤ code ∧ code < 32 ∧ low = 0x80 ∧
      high = 0xbf) ∨
    (missing = 2 ∧ b = UInt8.ofNat (code + 0xe0) ∧ code < 16 ∧
      low = (if code = 0 then 0xa0 else 0x80) ∧ high = if code = 13 then 0x9f else 0xbf) ∨
    (missing = 3 ∧ b = UInt8.ofNat (code + 0xf0) ∧ code < 5 ∧
      low = (if code = 0 then 0x90 else 0x80) ∧ high = if code = 4 then 0x8f else 0xbf) := by
  have hall : ∀ n < 256, ∀ p ∈ leadByte (UInt8.ofNat n),
      (p.2.2.1 = 1 ∧ UInt8.ofNat n = UInt8.ofNat (p.2.2.2 + 0xc0) ∧ 2 ≤ p.2.2.2 ∧ p.2.2.2 < 32 ∧
        p.1 = 0x80 ∧ p.2.1 = 0xbf) ∨
      (p.2.2.1 = 2 ∧ UInt8.ofNat n = UInt8.ofNat (p.2.2.2 + 0xe0) ∧ p.2.2.2 < 16 ∧
        p.1 = (if p.2.2.2 = 0 then 0xa0 else 0x80) ∧
        p.2.1 = if p.2.2.2 = 13 then 0x9f else 0xbf) ∨
      (p.2.2.1 = 3 ∧ UInt8.ofNat n = UInt8.ofNat (p.2.2.2 + 0xf0) ∧ p.2.2.2 < 5 ∧
        p.1 = (if p.2.2.2 = 0 then 0x90 else 0x80) ∧
        p.2.1 = if p.2.2.2 = 4 then 0x8f else 0xbf) := by
    decide +kernel
  have hb := hall b.toNat b.toNat_lt (low, high, missing, code)
  rw [UInt8.ofNat_toNat] at hb
  exact hb h

/-- Within a character a byte follows, and it is in its bounds. -/
theorem run_inside (hlow : 0x80 ≤ low) (hhigh : high ≤ 0xbf)
    (h : (inside low high missing code).run bs = cs.map some) :
    ∃ n rest, n < 64 ∧ low.toNat ≤ n + 0x80 ∧ n + 0x80 ≤ high.toNat ∧
      bs = UInt8.ofNat (n + 0x80) :: rest ∧
      if missing ≤ 1 then
        ∃ ds, cs = Char.ofNat (code * 0x40 + n) :: ds ∧ between.run rest = ds.map some
      else (inside 0x80 0xbf (missing - 1) (code * 0x40 + n)).run rest = cs.map some := by
  cases bs with
  | nil => cases cs <;> cases h
  | cons b rest =>
    by_cases hb : low ≤ b ∧ b ≤ high
    · simp only [UInt8.le_iff_toNat_le] at hlow hhigh hb
      change 128 ≤ _ at hlow
      change _ ≤ 191 at hhigh
      have he : b = UInt8.ofNat (b.toNat - 0x80 + 0x80) := by
        rw [Nat.sub_add_cancel (by omega), UInt8.ofNat_toNat]
      refine ⟨b.toNat - 0x80, rest, by omega, by omega, by omega, by rw [← he], ?_⟩
      rw [he, run, feed_inside (by omega) (by omega) (by omega)] at h
      split
      · next hm =>
        rw [if_pos hm] at h
        cases cs with
        | nil => cases h
        | cons c ds =>
          obtain ⟨hc, hd⟩ := List.cons.inj h
          exact ⟨ds, by rw [Option.some.inj hc], hd⟩
      · next hm =>
        rw [if_neg hm] at h
        exact h
    · have hout : (low ≤ b && b ≤ high) = false := by
        rwa [← Bool.not_eq_true, Bool.and_eq_true, decide_eq_true_eq, decide_eq_true_eq]
      rw [run, feed, hout, if_neg Bool.false_ne_true] at h
      cases cs <;> cases h

/-- What is read first encodes the first character, and the rest is read for the others. -/
theorem exists_first_of_run (h : between.run (b :: bs) = cs.map some) :
    ∃ c ds rest, cs = c :: ds ∧ b :: bs = String.utf8EncodeChar c ++ rest ∧
      between.run rest = ds.map some := by
  by_cases hascii : b < 0x80
  · rw [run, feed, start, if_pos hascii] at h
    cases cs with
    | nil => cases h
    | cons c ds =>
      obtain ⟨hc, hd⟩ := List.cons.inj h
      have hlt : b.toNat < 0x80 := hascii
      have hcode : (Char.ofNat b.toNat).toNat = b.toNat := toNat_val_ofNat (.inl (by omega))
      refine ⟨c, ds, bs, rfl, ?_, hd⟩
      rw [← Option.some.inj hc, utf8EncodeChar_ascii (by rw [hcode]; exact hlt), hcode,
        UInt8.ofNat_toNat]
      rfl
  · rw [run, feed, start, if_neg hascii] at h
    cases hlead : leadByte b with
    | none =>
      rw [hlead] at h
      cases cs <;> cases h
    | some p =>
      obtain ⟨low, high, missing, code⟩ := p
      rw [hlead] at h
      change (inside low high missing code).run bs = cs.map some at h
      -- two, three or four bytes; of the last two the first byte narrows the bounds of the second
      rcases leadByte_cases hlead with ⟨rfl, rfl, hcode, hcode', rfl, rfl⟩ |
        ⟨rfl, rfl, hcode, rfl, rfl⟩ | ⟨rfl, rfl, hcode, rfl, rfl⟩
      · obtain ⟨n, rest, hn, -, -, rfl, ds, rfl, hr⟩ :=
          run_inside (UInt8.le_refl _) (UInt8.le_refl _) h
        exact ⟨_, ds, rest, rfl, by rw [encode_two hcode hcode' hn]; rfl, hr⟩
      · obtain ⟨n, more, hn, hlow, hhigh, rfl, hsecond⟩ :=
          run_inside (by split <;> decide) (by split <;> decide) h
        obtain ⟨m, rest, hm, -, -, rfl, ds, rfl, hr⟩ :=
          run_inside (UInt8.le_refl _) (UInt8.le_refl _) hsecond
        refine ⟨_, ds, rest, rfl, ?_, hr⟩
        rw [encode_three hcode hn hm]
        · rfl
        · rintro rfl
          change 160 ≤ n + 128 at hlow
          omega
        · rintro rfl
          change n + 128 ≤ 159 at hhigh
          omega
      · obtain ⟨n, more, hn, hlow, hhigh, rfl, hsecond⟩ :=
          run_inside (by split <;> decide) (by split <;> decide) h
        obtain ⟨m, more, hm, -, -, rfl, hthird⟩ :=
          run_inside (UInt8.le_refl _) (UInt8.le_refl _) hsecond
        obtain ⟨k, rest, hk, -, -, rfl, ds, rfl, hr⟩ :=
          run_inside (UInt8.le_refl _) (UInt8.le_refl _) hthird
        refine ⟨_, ds, rest, rfl, ?_, hr⟩
        rw [encode_four hcode hn hm hk]
        · rfl
        · rintro rfl
          change 144 ≤ n + 128 at hlow
          omega
        · rintro rfl
          change n + 128 ≤ 143 at hhigh
          omega

/-- Bytes that give characters and no gap encode these characters. -/
theorem eq_flatMap_of_run (h : between.run bs = cs.map some) :
    bs = cs.flatMap String.utf8EncodeChar := by
  induction hlen : bs.length using Nat.strongRecOn generalizing bs cs with
  | ind length ih =>
    subst hlen
    cases bs with
    | nil =>
      cases cs with
      | nil => rfl
      | cons => cases h
    | cons b bs =>
      obtain ⟨c, ds, rest, rfl, hb, hr⟩ := exists_first_of_run h
      have hlt : rest.length < (b :: bs).length := by
        rw [hb, List.length_append]
        exact Nat.lt_add_of_pos_left (List.length_pos_of_ne_nil String.utf8EncodeChar_ne_nil)
      rw [hb, List.flatMap_cons, ← ih _ hlt hr rfl]

end Decoding

theorem mapM_id_eq_some {xs : List (Option Char)} {cs : List Char} (h : xs.mapM id = some cs) :
    xs = cs.map some := by
  induction xs generalizing cs with
  | nil =>
    cases h
    rfl
  | cons x xs ih =>
    rw [List.mapM_cons] at h
    obtain ⟨c, hc, h⟩ := Option.bind_eq_some_iff.1 h
    obtain ⟨ds, hds, h⟩ := Option.bind_eq_some_iff.1 h
    cases h
    rw [List.map_cons, ← ih hds]
    exact congrArg (· :: xs) hc

/-- Bytes are well-formed if they are those of a text. -/
theorem decode?_eq_some {bs : List UInt8} {s : String} : decode? bs = some s ↔ bytes s = bs := by
  constructor
  · intro h
    obtain ⟨cs, hcs, rfl⟩ := Option.map_eq_some_iff.1 h
    rw [bytes, String.toList_ofList]
    exact (Decoding.eq_flatMap_of_run (mapM_id_eq_some hcs)).symm
  · rintro rfl
    exact decode?_bytes s

end MobDebug.Text
