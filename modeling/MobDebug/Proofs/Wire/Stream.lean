import MobDebug.Proofs.Wire.Frames
import MobDebug.Proofs.Wire.Heading
import Mathlib.Data.List.Forall2

/-! A whole stream: its frames, one after the other, and what is left behind them. Nothing of it
depends on the pieces in which the stream arrives. -/
namespace MobDebug.Wire

variable {limit : Nat} {s t h b rest : List UInt8} {r : Response} {rs qs : List Response}
  {fault : ProtocolFault} {part : Unfinished} {stop : Stop}

/-- What is told when a stream goes no further. -/
def Stop.error : Stop → Error
  | .fault fault => .protocol fault
  | .short part _ => part.atEnd

/-- Why there is no frame at the start of a stream. -/
inductive Stops (limit : Nat) (s : List UInt8) : Stop → Prop where
  | fault {fault : ProtocolFault} (hb : Bad limit s fault) : Stops limit s (.fault fault)
  | short {part : Unfinished} (hc : Cut limit s part) : Stops limit s (.short part s)

/-- A stream is the frames of these responses, and stops behind them. -/
inductive Framed (limit : Nat) : List UInt8 → List Response → Stop → Prop where
  | stop {s : List UInt8} {stop : Stop} (hs : Stops limit s stop) : Framed limit s [] stop
  | frame {h b s : List UInt8} {r : Response} {rs : List Response} {stop : Stop}
      (hc : Carries limit h b r) (hf : Framed limit s rs stop) :
      Framed limit (h ++ (b ++ s)) (r :: rs) stop

/-- Every stream is made like this. -/
theorem exists_framed (limit : Nat) (s : List UInt8) : ∃ rs stop, Framed limit s rs stop := by
  induction hn : s.length using Nat.strong_induction_on generalizing s with
  | h n ih =>
    rcases begins limit s with ⟨h, b, rest, r, rfl, hc⟩ | ⟨fault, hb⟩ | ⟨part, hc⟩
    · have hlt := hc.line.drop_lt b.length (b ++ rest)
      rw [List.drop_left, hn] at hlt
      obtain ⟨rs, stop, hf⟩ := ih _ hlt rest rfl
      exact ⟨r :: rs, stop, .frame hc hf⟩
    · exact ⟨[], _, .stop (.fault hb)⟩
    · exact ⟨[], _, .stop (.short hc)⟩

theorem readFrames_framed (hf : Framed limit s rs stop) : readFrames limit s = (rs, stop) := by
  induction hf with
  | stop hs =>
    rw [readFrames]
    cases hs with
    | fault hb => rw [readFrame_bad hb]
    | short hc => rw [readFrame_cut hc]
  | @frame h b s r rs stop hc hf ih =>
    obtain ⟨hlt, he⟩ := readFrame_carries hc s
    rw [readFrames, he]
    simp only [ih]

theorem Bad.append (hb : Bad limit s fault) (t : List UInt8) : Bad limit (s ++ t) fault := by
  cases hb with
  | unended hn hl =>
    refine .unended ?_ ?_
    · rwa [List.take_append_of_le_length hl]
    · rw [List.length_append]
      exact Nat.le_add_right_of_le hl
  | header hs hh hr => exact .header (by rw [hs, List.append_assoc]) hh hr
  | body hs hh hr hl => exact .body (by rw [hs, List.append_assoc]) hh hr hl

/-- More bytes do not mend a fault. -/
theorem Framed.append_fault (hf : Framed limit s rs stop) (hs : stop = .fault fault)
    (t : List UInt8) : Framed limit (s ++ t) rs (.fault fault) := by
  induction hf with
  | stop h =>
    subst hs
    cases h with
    | fault hb => exact .stop (.fault (hb.append t))
  | frame hc _ ih =>
    rw [List.append_assoc, List.append_assoc]
    exact .frame hc (ih hs)

/-- More bytes continue what was left. -/
theorem Framed.append_short (hf : Framed limit s rs stop) (hs : stop = .short part rest)
    {last : Stop} (h : Framed limit (rest ++ t) qs last) :
    Framed limit (s ++ t) (rs ++ qs) last := by
  induction hf with
  | stop hstop =>
    subst hs
    cases hstop
    exact h
  | frame hc _ ih =>
    rw [List.append_assoc, List.append_assoc]
    exact .frame hc (ih hs)

/-- The pieces of a stream give what the stream gives. -/
theorem readStream_framed {pieces : List (List UInt8)} {pending : List UInt8}
    (hf : Framed limit (pending ++ pieces.flatten) rs stop) :
    readStream limit pending pieces = (rs, stop.error) := by
  induction pieces generalizing pending rs with
  | nil =>
    rw [List.flatten_nil, List.append_nil] at hf
    rw [readStream, readFrames_framed hf]
    cases stop <;> rfl
  | cons piece pieces ih =>
    have hwhole := readFrames_framed hf
    rw [List.flatten_cons, ← List.append_assoc] at hwhole
    obtain ⟨qs, first, hfirst⟩ := exists_framed limit (pending ++ piece)
    rw [readStream, readFrames_framed hfirst]
    cases first with
    | fault fault =>
      have hall := readFrames_framed (hfirst.append_fault rfl pieces.flatten)
      cases hwhole.symm.trans hall
      rfl
    | short part rest =>
      obtain ⟨more, last, hmore⟩ := exists_framed limit (rest ++ pieces.flatten)
      have hall := readFrames_framed (hfirst.append_short rfl hmore)
      cases hwhole.symm.trans hall
      simp only [ih hmore]

/-- The frames of a stream, and what is left behind them. -/
theorem Framed.split (hf : Framed limit s rs stop) :
    ∃ (frames : List (List UInt8 × List UInt8)) (rest : List UInt8),
      s = (frames.flatMap fun f => f.1 ++ f.2) ++ rest ∧
      List.Forall₂ (fun f r => Carries limit f.1 f.2 r) frames rs ∧ Stops limit rest stop := by
  induction hf with
  | @stop s _ hs => exact ⟨[], s, rfl, .nil, hs⟩
  | @frame h b s r rs stop hc _ ih =>
    obtain ⟨frames, rest, rfl, hframes, hstops⟩ := ih
    refine ⟨(h, b) :: frames, rest, ?_, .cons hc hframes, hstops⟩
    simp [List.append_assoc]

/-- What is told at the end tells which of the three it was. -/
theorem Stops.told (hs : Stops limit rest stop) :
    (stop.error = .connectionClosed ↔ rest = []) ∧
    (∀ fault, stop.error = .protocol fault ↔ Bad limit rest fault) ∧
    ((stop.error = .stream .endInHeader ∨ ∃ length, stop.error = .stream (.endInBody length)) ↔
      rest ≠ [] ∧ ∀ fault, ¬ Bad limit rest fault) := by
  cases hs with
  | fault hb =>
    have hread := readFrame_bad hb
    refine ⟨iff_of_false nofun ?_, ?_, iff_of_false ?_ fun h => h.2 _ hb⟩
    · intro hnil
      have hcut : Cut limit rest .nothing := .nothing hnil
      exact absurd (hread.symm.trans (readFrame_cut hcut)) nofun
    · intro fault
      constructor
      · intro he
        cases he
        exact hb
      · intro hb'
        cases hread.symm.trans (readFrame_bad hb')
        rfl
    · rintro (he | ⟨length, he⟩) <;> cases he
  | @short part hc =>
    -- what may go on to a good frame is not bad
    have hgood (fault : ProtocolFault) : ¬ Bad limit rest fault := by
      intro hb
      exact absurd ((readFrame_bad hb).symm.trans (readFrame_cut hc)) nofun
    have hfault (fault : ProtocolFault) : part.atEnd ≠ .protocol fault := by
      cases part <;> nofun
    refine ⟨?_, fun fault => iff_of_false (hfault fault) (hgood fault), ?_⟩
    · cases hc with
      | nothing hs => exact iff_of_true rfl hs
      | header hs => exact iff_of_false nofun hs
      | body hs hh => exact iff_of_false nofun (hs ▸ hh.append_ne_nil _)
    · cases hc with
      | nothing hs =>
        refine iff_of_false ?_ fun h => h.1 hs
        rintro (he | ⟨length, he⟩) <;> cases he
      | header hs => exact iff_of_true (.inl rfl) ⟨hs, hgood⟩
      | body hs hh => exact iff_of_true (.inr ⟨_, rfl⟩) ⟨hs ▸ hh.append_ne_nil _, hgood⟩

/-- The frame that a response is written as carries it. -/
theorem Response.carries (r : Response) (hl : limit < UInt64.size)
    (hb : (Text.bytes r.body).length ≤ limit) :
    Carries limit (Text.bytes r.headerLine) (Text.bytes r.body) r := by
  have hsize : (Text.bytes r.body).length < UInt64.size := Nat.lt_of_le_of_lt hb hl
  exact ⟨r.headerLine_header hsize, r.read_headerLine hsize, hb, (Text.decodeLossy_bytes _).symm⟩

/-- A frame that ends too early is less than a frame. -/
theorem cut_of_prefix (hc : Carries limit h b r) (hp : s <+: h ++ b) (hne : s ≠ h ++ b) :
    ∃ part, Cut limit s part := by
  have hbody (k : List UInt8) (hs : s = h ++ k) (hk : k <+: b) : ∃ part, Cut limit s part := by
    refine ⟨_, .body hs hc.line hc.header hc.bounded ?_⟩
    refine Nat.lt_of_le_of_ne hk.length_le fun he => hne ?_
    rw [hs, hk.eq_of_length he]
  obtain ⟨t, ht⟩ := hp
  rcases List.append_eq_append_iff.1 ht with ⟨k, hk, -⟩ | ⟨k, hk, hb⟩
  · obtain ⟨line, hline, hn⟩ := hc.line.ended
    have hbound := hc.line.bounded
    rw [hline, List.length_append, List.length_singleton] at hbound
    have hp : s <+: line ++ [0x0a] := ⟨k, hk.symm.trans hline⟩
    rcases List.prefix_concat_iff.1 hp with he | hp
    · exact hbody [] (by rw [he, ← hline, List.append_nil]) List.nil_prefix
    · by_cases hs : s = []
      · exact ⟨_, .nothing hs⟩
      · exact ⟨_, .header hs (fun hm => hn (hp.subset hm))
          (Nat.lt_of_le_of_lt hp.length_le hbound)⟩
  · exact hbody k hk ⟨t, hb.symm⟩

/-- A stream that ends within a row of frames is those of them that it holds whole. -/
theorem framed_prefix (hl : limit < UInt64.size)
    (hrs : ∀ r ∈ rs, (Text.bytes r.body).length ≤ limit) (hp : s <+: rs.flatMap Response.frame) :
    ∃ n ≤ rs.length, ∃ part rest, Framed limit s (rs.take n) (.short part rest) ∧
      s = (rs.take n).flatMap Response.frame ++ rest ∧
      ∀ m ≤ rs.length, (rs.take m).flatMap Response.frame <+: s → m ≤ n := by
  induction rs generalizing s with
  | nil =>
    rw [List.flatMap_nil, List.prefix_nil] at hp
    refine ⟨0, Nat.le_refl 0, .nothing, s, .stop (.short (.nothing hp)), rfl, ?_⟩
    intro m hm _
    exact hm
  | cons r rs ih =>
    obtain ⟨hr, hrs⟩ := List.forall_mem_cons.1 hrs
    have hc := r.carries hl hr
    rw [List.flatMap_cons] at hp
    -- the first frame is there as a whole, or the stream ends within it
    by_cases hwhole : r.frame <+: s
    · obtain ⟨tail, rfl⟩ := hwhole
      obtain ⟨n, hn, part, rest, hf, hs, hmax⟩ := ih hrs ((List.prefix_append_right_inj _).1 hp)
      refine ⟨n + 1, Nat.succ_le_succ hn, part, rest, ?_, ?_, ?_⟩
      · rw [Response.frame, List.append_assoc]
        exact .frame hc hf
      · rw [List.take_succ_cons, List.flatMap_cons, List.append_assoc, ← hs]
      · intro m hm hpre
        cases m with
        | zero => exact Nat.zero_le _
        | succ m =>
          rw [List.take_succ_cons, List.flatMap_cons, List.prefix_append_right_inj] at hpre
          exact Nat.succ_le_succ (hmax m (Nat.le_of_succ_le_succ hm) hpre)
    · have hshort : s <+: r.frame := by
        rcases List.prefix_or_prefix_of_prefix hp (List.prefix_append r.frame _) with h | h
        · exact h
        · exact absurd h hwhole
      obtain ⟨part, hcut⟩ := cut_of_prefix hc hshort fun he => hwhole (he ▸ List.prefix_rfl)
      refine ⟨0, Nat.zero_le _, part, s, .stop (.short hcut), rfl, ?_⟩
      intro m _ hpre
      cases m with
      | zero => exact Nat.le_refl 0
      | succ m =>
        rw [List.take_succ_cons, List.flatMap_cons] at hpre
        exact absurd ((List.prefix_append _ _).trans hpre) hwhole

/-- A stream is read the same in any pieces: it is the frames of the responses, one after the other,
and a rest that is empty if the connection was closed, that can be no frame if a fault is told, and
that is less than a frame if the stream ended too early. If it begins like a row of frames, it gives
the responses of those that it holds whole. -/
theorem stream_frames (limit : Nat) (pieces : List (List UInt8)) :
    readStream limit [] pieces = readStream limit [] [pieces.flatten] ∧
    (∃ (frames : List (List UInt8 × List UInt8)) (rest : List UInt8),
      pieces.flatten = (frames.flatMap fun f => f.1 ++ f.2) ++ rest ∧
      List.Forall₂ (fun f r => Carries limit f.1 f.2 r) frames (readStream limit [] pieces).1 ∧
      ((readStream limit [] pieces).2 = .connectionClosed ↔ rest = []) ∧
      (∀ fault, (readStream limit [] pieces).2 = .protocol fault ↔ Bad limit rest fault) ∧
      ((readStream limit [] pieces).2 = .stream .endInHeader ∨
          (∃ length, (readStream limit [] pieces).2 = .stream (.endInBody length)) ↔
        rest ≠ [] ∧ ∀ fault, ¬ Bad limit rest fault)) ∧
    (∀ rs : List Response, limit < UInt64.size →
      (∀ r ∈ rs, (Text.bytes r.body).length ≤ limit) →
      pieces.flatten <+: rs.flatMap Response.frame →
      ∃ n ≤ rs.length, (readStream limit [] pieces).1 = rs.take n ∧
        (rs.take n).flatMap Response.frame <+: pieces.flatten ∧
        (∀ m ≤ rs.length, (rs.take m).flatMap Response.frame <+: pieces.flatten → m ≤ n) ∧
        ((readStream limit [] pieces).2 = .connectionClosed ↔
          pieces.flatten = (rs.take n).flatMap Response.frame) ∧
        ∀ fault, (readStream limit [] pieces).2 ≠ .protocol fault) := by
  have hread {rs : List Response} {stop : Stop} (hf : Framed limit pieces.flatten rs stop) :
      readStream limit [] pieces = (rs, stop.error) := readStream_framed hf
  refine ⟨?_, ?_, ?_⟩
  · obtain ⟨rs, stop, hf⟩ := exists_framed limit pieces.flatten
    rw [hread hf]
    refine (readStream_framed ?_).symm
    simpa using hf
  · obtain ⟨rs, stop, hf⟩ := exists_framed limit pieces.flatten
    obtain ⟨frames, rest, hs, hframes, hstops⟩ := hf.split
    rw [hread hf]
    exact ⟨frames, rest, hs, hframes, hstops.told⟩
  · intro rs hl hrs hp
    obtain ⟨n, hn, part, rest, hf, hs, hmax⟩ := framed_prefix hl hrs hp
    obtain ⟨_, _, -, -, hstops⟩ := hf.split
    cases hstops with
    | short hc =>
      rw [hread hf]
      refine ⟨n, hn, rfl, ⟨rest, hs.symm⟩, hmax, ?_, ?_⟩
      · rw [(Stops.short hc).told.1, hs]
        exact List.append_right_eq_self.symm
      · intro fault
        cases part <;> nofun

/-- Two frames, cut off within the second, in pieces that end elsewhere. -/
theorem stream_frames_cut :
    (readStream 16 [] [Text.bytes "200 O", Text.bytes "K 3\n1\n2202 Pau"]).1 = [⟨.ok, "1\n2"⟩] ∧
    (readStream 16 [] [Text.bytes "200 O", Text.bytes "K 3\n1\n2202 Pau"]).2 ≠
      .connectionClosed := by
  obtain ⟨-, -, hprefix⟩ :=
    stream_frames 16 [Text.bytes "200 O", Text.bytes "K 3\n1\n2202 Pau"]
  obtain ⟨n, hn, hread, hpre, hmax, hclosed, -⟩ :=
    hprefix [⟨.ok, "1\n2"⟩, ⟨.paused, "a.lua 1"⟩] (by decide) (by decide) (by decide)
  have hone : 1 ≤ n := hmax 1 (by decide) (by decide)
  obtain rfl : n = 1 := by
    by_contra hne
    obtain rfl : n = 2 := by
      have : n ≤ 2 := hn
      omega
    exact absurd hpre (by decide)
  exact ⟨hread, fun he => absurd (hclosed.1 he) (by decide)⟩

end MobDebug.Wire
