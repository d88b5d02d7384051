import MobDebug.Proofs.Wire.Header
import Mathlib.Data.List.TakeWhile

/-! A stream is cut into frames by its bytes alone. How it begins is one of three: a frame, a fault
that no further byte can mend, or less than a frame. -/
namespace MobDebug.Wire

variable {limit : Nat} {s t h b rest : List UInt8} {r : Response} {fault : ProtocolFault}
  {part : Unfinished}

/-- A header line and a body that are the frame of a response. -/
structure Carries (limit : Nat) (h b : List UInt8) (r : Response) : Prop where
  line : HeaderLine h
  header : Header.read h = .ok ⟨r.status, b.length⟩
  bounded : b.length ≤ limit
  body : r.body = Text.decodeLossy b

/-- The start of a stream is no frame, however the stream goes on. -/
inductive Bad (limit : Nat) (s : List UInt8) : ProtocolFault → Prop where
  | unended (hn : 0x0a ∉ s.take maxHeader) (hl : maxHeader ≤ s.length) :
      Bad limit s (.headerTooLong maxHeader)
  | header {h rest : List UInt8} {fault : ProtocolFault} (hs : s = h ++ rest) (hh : HeaderLine h)
      (hr : Header.read h = .error fault) : Bad limit s fault
  | body {h rest : List UInt8} {header : Header} (hs : s = h ++ rest) (hh : HeaderLine h)
      (hr : Header.read h = .ok header) (hl : limit < header.length) :
      Bad limit s (.bodyTooLong header.length limit)

/-- The stream is less than a frame so far. -/
inductive Cut (limit : Nat) (s : List UInt8) : Unfinished → Prop where
  | nothing (hs : s = []) : Cut limit s .nothing
  | header (hs : s ≠ []) (hn : 0x0a ∉ s) (hl : s.length < maxHeader) : Cut limit s .header
  | body {h b : List UInt8} {header : Header} (hs : s = h ++ b) (hh : HeaderLine h)
      (hr : Header.read h = .ok header) (hl : header.length ≤ limit)
      (hb : b.length < header.length) : Cut limit s (.body header.length)

theorem takeWhile_line {line : List UInt8} (hn : 0x0a ∉ line) (rest : List UInt8) :
    (line ++ 0x0a :: rest).takeWhile (· != 0x0a) = line := by
  apply Text.takeWhile_run
  · intro b hb
    simpa using ne_of_mem_of_not_mem hb hn
  · simp

theorem dropWhile_line {line : List UInt8} (hn : 0x0a ∉ line) (rest : List UInt8) :
    (line ++ 0x0a :: rest).dropWhile (· != 0x0a) = 0x0a :: rest := by
  apply Text.dropWhile_run
  · intro b hb
    simpa using ne_of_mem_of_not_mem hb hn
  · simp

theorem dropWhile_unended (hn : 0x0a ∉ s) : s.dropWhile (· != 0x0a) = [] := by
  rw [List.dropWhile_eq_nil_iff]
  intro b hb
  simpa using ne_of_mem_of_not_mem hb hn

/-- A stream has no line end, or a first one. -/
theorem line_cases (s : List UInt8) :
    0x0a ∉ s ∨ ∃ line rest, s = line ++ 0x0a :: rest ∧ 0x0a ∉ line := by
  by_cases hn : 0x0a ∈ s
  · obtain ⟨line, rest, hs, hline⟩ := List.eq_append_cons_of_mem hn
    exact .inr ⟨line, rest, hs, hline⟩
  · exact .inl hn

/-- A stream begins with a frame, or it never will, or it has to go on. -/
theorem begins (limit : Nat) (s : List UInt8) :
    (∃ h b rest r, s = h ++ (b ++ rest) ∧ Carries limit h b r) ∨ (∃ fault, Bad limit s fault) ∨
      ∃ part, Cut limit s part := by
  rcases line_cases s with hn | ⟨line, rest, hs, hn⟩
  · by_cases hl : maxHeader ≤ s.length
    · exact .inr (.inl ⟨_, .unended (fun hm => hn (List.mem_of_mem_take hm)) hl⟩)
    · by_cases he : s = []
      · exact .inr (.inr ⟨_, .nothing he⟩)
      · exact .inr (.inr ⟨_, .header he hn (Nat.lt_of_not_le hl)⟩)
  · by_cases hl : maxHeader ≤ line.length
    · refine .inr (.inl ⟨_, .unended ?_ ?_⟩)
      · rw [hs, List.take_append_of_le_length hl]
        exact fun hm => hn (List.mem_of_mem_take hm)
      · rw [hs, List.length_append]
        omega
    have hh := HeaderLine.of_line hn (Nat.lt_of_not_le hl)
    have hs : s = (line ++ [0x0a]) ++ rest := by simp [hs]
    cases hr : Header.read (line ++ [0x0a]) with
    | error fault => exact .inr (.inl ⟨_, .header hs hh hr⟩)
    | ok header =>
      by_cases hlimit : limit < header.length
      · exact .inr (.inl ⟨_, .body hs hh hr hlimit⟩)
      by_cases hshort : rest.length < header.length
      · exact .inr (.inr ⟨_, .body hs hh hr (Nat.le_of_not_lt hlimit) hshort⟩)
      have hlen : (rest.take header.length).length = header.length := by
        rw [List.length_take]
        omega
      refine .inl ⟨_, rest.take header.length, rest.drop header.length,
        ⟨header.status, Text.decodeLossy (rest.take header.length)⟩, ?_, hh, ?_, ?_, rfl⟩
      · rw [List.take_append_drop, hs]
      · rw [hlen, hr]
      · omega

/-- Behind a header line only the header counts. -/
theorem readFrame_line (hh : HeaderLine h) (rest : List UInt8) :
    readFrame limit (h ++ rest) =
      match Header.read h with
      | .error fault => .fault fault
      | .ok ⟨status, length⟩ =>
        if limit < length then .fault (.bodyTooLong length limit)
        else if rest.length < length then .short (.body length)
        else .frame ⟨status, Text.decodeLossy (rest.take length)⟩ (rest.drop length)
          (hh.drop_lt length rest) := by
  obtain ⟨line, rfl, hn⟩ := hh.ended
  have hbound : ¬ maxHeader ≤ line.length := by
    have := hh.bounded
    rw [List.length_append, List.length_singleton] at this
    omega
  have hs : line ++ [0x0a] ++ rest = line ++ 0x0a :: rest := by simp
  have ht := takeWhile_line hn rest
  have hd := dropWhile_line hn rest
  rw [← hs] at ht hd
  unfold readFrame
  dsimp only
  split
  · next lineEnd tail hr =>
    obtain ⟨rfl, rfl⟩ := List.cons.inj (hd.symm.trans hr)
    rw [ht]
    exact if_neg hbound
  · next hr => exact absurd (hd.symm.trans hr) (List.cons_ne_nil _ _)

/-- A line that is too long is no header, whether it ends or not. -/
theorem readFrame_unended (hn : 0x0a ∉ s.take maxHeader) (hl : maxHeader ≤ s.length) :
    readFrame limit s = .fault (.headerTooLong maxHeader) := by
  have hlong : 0x0a ∈ s → maxHeader ≤ (s.takeWhile (· != 0x0a)).length := by
    intro hm
    obtain ⟨line, rest, rfl, hline⟩ := (line_cases s).resolve_left (not_not.2 hm)
    rw [takeWhile_line hline]
    by_contra hlt
    have hh := HeaderLine.of_line hline (Nat.lt_of_not_le hlt)
    exact hn (by simpa using hh.mem_take rest)
  unfold readFrame
  dsimp only
  split
  · next hr =>
    rw [if_pos (hlong ?_)]
    by_contra hs
    exact absurd ((dropWhile_unended hs).symm.trans hr) (List.cons_ne_nil _ _).symm
  · rw [if_pos hl]

theorem readFrame_short (hn : 0x0a ∉ s) (hl : s.length < maxHeader) :
    readFrame limit s = .short (if s.isEmpty then .nothing else .header) := by
  have hd := dropWhile_unended hn
  unfold readFrame
  dsimp only
  split
  · next hr => exact absurd (hd.symm.trans hr) (List.cons_ne_nil _ _).symm
  · rw [if_neg (Nat.not_le_of_lt hl)]
    split <;> rfl

/-- A frame is read, whatever follows it. -/
theorem readFrame_carries (hc : Carries limit h b r) (rest : List UInt8) :
    ∃ hlt, readFrame limit (h ++ (b ++ rest)) = .frame r rest hlt := by
  have hlimit : ¬ limit < b.length := Nat.not_lt_of_le hc.bounded
  have hshort : ¬ (b ++ rest).length < b.length := by simp
  obtain ⟨status, body⟩ := r
  have hbody : body = Text.decodeLossy b := hc.body
  have hlt := hc.line.drop_lt b.length (b ++ rest)
  rw [List.drop_left] at hlt
  refine ⟨hlt, ?_⟩
  rw [readFrame_line hc.line, hc.header]
  simp only [hlimit, hshort, if_false, List.take_left, List.drop_left, hbody]

theorem readFrame_bad (hb : Bad limit s fault) : readFrame limit s = .fault fault := by
  cases hb with
  | unended hn hl => exact readFrame_unended hn hl
  | header hs hh hr => rw [hs, readFrame_line hh, hr]
  | body hs hh hr hl =>
    rw [hs, readFrame_line hh, hr]
    exact if_pos hl

theorem readFrame_cut (hc : Cut limit s part) : readFrame limit s = .short part := by
  cases hc with
  | nothing hs =>
    rw [hs]
    rfl
  | header hs hn hl =>
    rw [readFrame_short hn hl, if_neg (by simpa using hs)]
  | body hs hh hr hl hb =>
    rw [hs, readFrame_line hh, hr]
    exact (if_neg (Nat.not_lt_of_le hl)).trans (if_pos hb)

end MobDebug.Wire
