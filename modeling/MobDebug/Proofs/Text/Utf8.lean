import MobDebug.Text.Utf8
import Mathlib.Data.List.Basic

/-! A text is read back from its bytes, and an ASCII byte stands for itself only. -/
namespace MobDebug.Text
namespace Decoding

variable {low high : UInt8} {missing code n : Nat}

theorem start_two (hn : n < 32) (h : 2 ≤ n) :
    start (UInt8.ofNat (n + 0xc0)) = ([], .inside 0x80 0xbf 1 n) := by
  have h : ∀ n < 32, 2 ≤ n → start (UInt8.ofNat (n + 0xc0)) = ([], .inside 0x80 0xbf 1 n) := by
    decide
  exact h n hn ‹_›

theorem start_three (hn : n < 16) :
    start (UInt8.ofNat (n + 0xe0)) =
      ([], .inside (if n = 0 then 0xa0 else 0x80) (if n = 13 then 0x9f else 0xbf) 2 n) := by
  revert n
  decide

theorem start_four (hn : n < 5) :
    start (UInt8.ofNat (n + 0xf0)) =
      ([], .inside (if n = 0 then 0x90 else 0x80) (if n = 4 then 0x8f else 0xbf) 3 n) := by
  revert n
  decide

theorem feed_inside (hn : n < 64) (hl : low.toNat ≤ n + 0x80) (hh : n + 0x80 ≤ high.toNat) :
    (inside low high missing code).feed (UInt8.ofNat (n + 0x80)) =
      if missing ≤ 1 then ([some (Char.ofNat (code * 0x40 + n))], .between)
      else ([], .inside 0x80 0xbf (missing - 1) (code * 0x40 + n)) := by
  have hb : (UInt8.ofNat (n + 0x80)).toNat = n + 0x80 := by
    rw [UInt8.toNat_ofNat']
    omega
  have hin : (low ≤ UInt8.ofNat (n + 0x80) && UInt8.ofNat (n + 0x80) ≤ high) = true := by
    simp only [Bool.and_eq_true, decide_eq_true_eq, UInt8.le_iff_toNat_le, hb]
    exact ⟨hl, hh⟩
  have hc : (n + 0x80) % 0x40 = n := by omega
  simp only [feed, hin, hb, hc, if_true]

theorem run_lead {b : UInt8} {state : Decoding} (h : start b = ([], state)) (bs : List UInt8) :
    between.run (b :: bs) = state.run bs := by
  simp [run, feed, h]

theorem run_middle (missing : Nat) (hn : n < 64) (hl : low.toNat ≤ n + 0x80)
    (hh : n + 0x80 ≤ high.toNat) (bs : List UInt8) :
    (inside low high (missing + 2) code).run (UInt8.ofNat (n + 0x80) :: bs) =
      (inside 0x80 0xbf (missing + 1) (code * 0x40 + n)).run bs := by
  rw [run, feed_inside hn hl hh, if_neg (by omega)]
  rfl

theorem run_last (hn : n < 64) (hl : low.toNat ≤ n + 0x80) (hh : n + 0x80 ≤ high.toNat)
    (bs : List UInt8) :
    (inside low high 1 code).run (UInt8.ofNat (n + 0x80) :: bs) =
      some (Char.ofNat (code * 0x40 + n)) :: between.run bs := by
  rw [run, feed_inside hn hl hh, if_pos (Nat.le_refl 1)]
  rfl

/-- A whole character is read before the rest. -/
theorem run_utf8EncodeChar (c : Char) (bs : List UInt8) :
    between.run (String.utf8EncodeChar c ++ bs) = some c :: between.run bs := by
  have hv : c.val.toNat < 0xd800 ∨ (0xdfff < c.val.toNat ∧ c.val.toNat < 0x110000) := c.valid
  have hc : Char.ofNat c.val.toNat = c := Char.ofNat_toNat c
  unfold String.utf8EncodeChar
  generalize c.val.toNat = v at hv hc
  dsimp only
  subst hc
  -- one, two, three or four bytes
  split
  · have hb : (UInt8.ofNat v).toNat = v := by
      rw [UInt8.toNat_ofNat']
      omega
    have hs : start (UInt8.ofNat v) = ([some (Char.ofNat v)], .between) := by
      rw [start, if_pos (by rw [UInt8.lt_iff_toNat_lt, hb]; change v < 128; omega), hb]
    simp [run, feed, hs]
  split
  · rw [List.cons_append, List.cons_append, List.nil_append,
      run_lead (start_two (n := v / 64 % 32) (by omega) (by omega)),
      run_last (by omega) (by change 128 ≤ _; omega) (by change _ ≤ 191; omega)]
    have hcode : v / 64 % 32 * 0x40 + v % 64 = v := by omega
    rw [hcode]
  split
  · have hlow : (if v / 4096 % 16 = 0 then 0xa0 else 0x80 : UInt8).toNat ≤ v / 64 % 64 + 0x80 := by
      split
      · change 160 ≤ _
        omega
      · change 128 ≤ _
        omega
    have hhigh : v / 64 % 64 + 0x80 ≤
        (if v / 4096 % 16 = 13 then 0x9f else 0xbf : UInt8).toNat := by
      split
      · change _ ≤ 159
        omega
      · change _ ≤ 191
        omega
    rw [List.cons_append, List.cons_append, List.cons_append, List.nil_append,
      run_lead (start_three (n := v / 4096 % 16) (by omega)),
      run_middle 0 (by omega) hlow hhigh,
      run_last (by omega) (by change 128 ≤ _; omega) (by change _ ≤ 191; omega)]
    have hcode : (v / 4096 % 16 * 0x40 + v / 64 % 64) * 0x40 + v % 64 = v := by omega
    rw [hcode]
  · have hlow : (if v / 262144 % 8 = 0 then 0x90 else 0x80 : UInt8).toNat ≤
        v / 4096 % 64 + 0x80 := by
      split
      · change 144 ≤ _
        omega
      · change 128 ≤ _
        omega
    have hhigh : v / 4096 % 64 + 0x80 ≤
        (if v / 262144 % 8 = 4 then 0x8f else 0xbf : UInt8).toNat := by
      split
      · change _ ≤ 143
        omega
      · change _ ≤ 191
        omega
    rw [List.cons_append, List.cons_append, List.cons_append, List.cons_append, List.nil_append,
      run_lead (start_four (n := v / 262144 % 8) (by omega)),
      run_middle 1 (by omega) hlow hhigh,
      run_middle 0 (by omega) (by change 128 ≤ _; omega) (by change _ ≤ 191; omega),
      run_last (by omega) (by change 128 ≤ _; omega) (by change _ ≤ 191; omega)]
    have hcode : ((v / 262144 % 8 * 0x40 + v / 4096 % 64) * 0x40 + v / 64 % 64) * 0x40 + v % 64 =
        v := by
      omega
    rw [hcode]

theorem run_flatMap (cs : List Char) :
    between.run (cs.flatMap String.utf8EncodeChar) = cs.map some := by
  induction cs with
  | nil => rfl
  | cons c cs ih => rw [List.flatMap_cons, run_utf8EncodeChar, ih, List.map_cons]

end Decoding

theorem decodeLossy_flatMap (cs : List Char) :
    decodeLossy (cs.flatMap String.utf8EncodeChar) = String.ofList cs := by
  simp [decodeLossy, Decoding.run_flatMap, Function.comp_def]

theorem decodeLossy_bytes (s : String) : decodeLossy (bytes s) = s := by
  rw [bytes, decodeLossy_flatMap, String.ofList_toList]

theorem decode?_bytes (s : String) : decode? (bytes s) = some s := by
  have h (cs : List Char) : (cs.map some).mapM id = some cs := by
    induction cs with
    | nil => rfl
    | cons c cs ih => simp [ih]
  rw [decode?, bytes, Decoding.run_flatMap, h, Option.map_some, String.ofList_toList]

theorem utf8EncodeChar_ascii {c : Char} (h : c.toNat < 0x80) :
    String.utf8EncodeChar c = [UInt8.ofNat c.toNat] := by
  unfold String.utf8EncodeChar
  exact if_pos (Nat.le_of_lt_succ h)

/-- The bytes of a character beyond ASCII are beyond ASCII. -/
theorem utf8EncodeChar_high {c : Char} {b : UInt8} (h : 0x80 ≤ c.toNat)
    (hb : b ∈ String.utf8EncodeChar c) : 0x80 ≤ b := by
  have h : ¬ c.val.toNat ≤ 127 := Nat.not_le_of_gt h
  have high (n : Nat) (h1 : 0x80 ≤ n) (h2 : n < 256) : 0x80 ≤ UInt8.ofNat n := by
    rw [UInt8.le_iff_toNat_le, UInt8.toNat_ofNat']
    change 128 ≤ _
    omega
  unfold String.utf8EncodeChar at hb
  generalize c.val.toNat = v at h hb
  simp only [h, if_false] at hb
  split at hb
  · simp only [List.mem_cons, List.not_mem_nil, or_false] at hb
    rcases hb with rfl | rfl <;> exact high _ (by omega) (by omega)
  split at hb
  · simp only [List.mem_cons, List.not_mem_nil, or_false] at hb
    rcases hb with rfl | rfl | rfl <;> exact high _ (by omega) (by omega)
  · simp only [List.mem_cons, List.not_mem_nil, or_false] at hb
    rcases hb with rfl | rfl | rfl | rfl <;> exact high _ (by omega) (by omega)

/-- An ASCII byte of a text is a character of it. -/
theorem mem_of_mem_flatMap {cs : List Char} {b : UInt8} (hb : b < 0x80)
    (h : b ∈ cs.flatMap String.utf8EncodeChar) : Char.ofNat b.toNat ∈ cs := by
  obtain ⟨c, hc, h⟩ := List.mem_flatMap.1 h
  by_cases ha : c.toNat < 0x80
  · rw [utf8EncodeChar_ascii ha, List.mem_singleton] at h
    have he : b.toNat = c.toNat := by
      rw [h, UInt8.toNat_ofNat']
      omega
    rwa [he, Char.ofNat_toNat]
  · have := utf8EncodeChar_high (Nat.le_of_not_lt ha) h
    exact absurd hb (UInt8.not_lt.2 this)

/-- An ASCII byte of a text is the last byte of a character. -/
theorem flatMap_split {cs : List Char} {a c : List UInt8} {b : UInt8} (hb : b < 0x80)
    (h : cs.flatMap String.utf8EncodeChar = a ++ b :: c) :
    ∃ ds es, cs = ds ++ es ∧ ds.flatMap String.utf8EncodeChar = a ++ [b] ∧
      es.flatMap String.utf8EncodeChar = c := by
  induction cs generalizing a with
  | nil => simp at h
  | cons ch cs ih =>
    have hafter {a : List UInt8} (h : cs.flatMap String.utf8EncodeChar = a ++ b :: c) :
        ∃ ds es, ch :: cs = ds ++ es ∧
          ds.flatMap String.utf8EncodeChar = String.utf8EncodeChar ch ++ a ++ [b] ∧
          es.flatMap String.utf8EncodeChar = c := by
      obtain ⟨ds, es, rfl, hd, he⟩ := ih h
      refine ⟨ch :: ds, es, rfl, ?_, he⟩
      rw [List.flatMap_cons, hd, List.append_assoc]
    rw [List.flatMap_cons, List.append_eq_append_iff] at h
    rcases h with ⟨a, rfl, h⟩ | ⟨s, hs, h⟩
    · exact hafter h
    rcases s with - | ⟨_, s⟩
    · rw [List.append_nil] at hs
      subst hs
      simpa using hafter (a := []) h.symm
    · obtain ⟨rfl, rfl⟩ := List.cons.inj h
      have hmem : b ∈ String.utf8EncodeChar ch := hs ▸ List.mem_append_right a List.mem_cons_self
      have ha : ch.toNat < 0x80 := by
        by_contra ha
        exact absurd hb (UInt8.not_lt.2 (utf8EncodeChar_high (Nat.le_of_not_lt ha) hmem))
      rw [utf8EncodeChar_ascii ha] at hs
      rcases List.append_eq_singleton_iff.1 hs.symm with ⟨rfl, hb⟩ | ⟨-, hb⟩
      · cases hb
        exact ⟨[ch], cs, rfl, by simpa using utf8EncodeChar_ascii ha, rfl⟩
      · cases hb

theorem bytes_split {text : String} {a c : List UInt8} {b : UInt8} (hb : b < 0x80)
    (h : bytes text = a ++ b :: c) :
    ∃ head tail, text = head ++ tail ∧ bytes head = a ++ [b] ∧ bytes tail = c := by
  obtain ⟨ds, es, hs, hd, he⟩ := flatMap_split hb h
  refine ⟨String.ofList ds, String.ofList es, ?_, ?_, ?_⟩
  · rw [← String.ofList_append, ← hs, String.ofList_toList]
  · rwa [bytes, String.toList_ofList]
  · rwa [bytes, String.toList_ofList]

theorem bytes_eq_nil {s : String} : bytes s = [] ↔ s = "" := by
  constructor
  · intro h
    rw [← decodeLossy_bytes s, h]
    rfl
  · rintro rfl
    rfl

end MobDebug.Text
