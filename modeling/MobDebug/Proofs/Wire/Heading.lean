import MobDebug.Proofs.Text.Decoding
import MobDebug.Proofs.Text.Words
import MobDebug.Proofs.Wire.Header

/-! Which lines are headers: two words at least, of which the first is for a status and the last for
a length. Every other line has its own fault. -/
namespace MobDebug.Wire
open Text (Blank Denotes Gap Unbroken)

variable {line : List UInt8} {text : String} {h : Header} {first last : List Char}
  {ws : List (List Char)}

theorem Status.ofToken?_eq_some {token : String} {status : Status} :
    ofToken? token = some status ↔ token ∈ status.tokens := by
  constructor
  · intro h
    have hfound := List.find?_some h
    exact List.contains_iff_mem.1 hfound
  · intro h
    have hall : ∀ token ∈ status.tokens, ofToken? token = some status := by
      cases status <;> decide
    exact hall token h

theorem Status.token_unbroken {status : Status} (h : String.ofList first ∈ status.tokens) :
    Unbroken first := by
  have hall : ∀ token ∈ status.tokens, Unbroken token.toList := by
    cases status <;> decide
  have hfirst := hall _ h
  rwa [String.toList_ofList] at hfirst

theorem denotes_unbroken {n : Nat} (h : Denotes last n) : Unbroken last := by
  obtain ⟨ds, hds, hne, hdigits, -⟩ := h
  have hplain : ∀ c ∈ ds, Text.isBlank c = false :=
    fun c hc => (Response.digit_plain (hdigits c hc)).2
  rcases hds with rfl | rfl
  · exact ⟨hne, hplain⟩
  · exact ⟨List.cons_ne_nil _ _, List.forall_mem_cons.2 ⟨by decide, hplain⟩⟩

/-- A text that says a header: blanks, a token of the status, anything that begins and ends with a
blank, the length, and blanks. -/
def Header.Spelled (h : Header) (cs : List Char) : Prop :=
  ∃ before token gap length after, cs = before ++ (token ++ (gap ++ (length ++ after))) ∧
    Blank before ∧ String.ofList token ∈ h.status.tokens ∧ Gap gap ∧ Denotes length h.length ∧
      Blank after

/-- What is wrong with a line that is no header. The first that applies is told: it is no text, it
has no word, it has only one, its first word is for no status, its last one for no length. -/
inductive Header.Malformed (line : List UInt8) : ProtocolFault → Prop where
  | encoding (h : ∀ text, Text.bytes text ≠ line) : Malformed line .headerEncoding
  | empty {text : String} (ht : Text.bytes text = line) (h : Blank text.toList) :
      Malformed line .emptyHeader
  | noLength {text : String} {before word after : List Char} (ht : Text.bytes text = line)
      (h : text.toList = before ++ (word ++ after)) (hb : Blank before) (hw : Unbroken word)
      (ha : Blank after) :
      Malformed line (.noBodyLength (String.ofList (Header.dropLineEnd text.toList)))
  | status {text : String} {before word gap last after : List Char} (ht : Text.bytes text = line)
      (h : text.toList = before ++ (word ++ (gap ++ (last ++ after)))) (hb : Blank before)
      (hw : Unbroken word) (hg : Gap gap) (hl : Unbroken last) (ha : Blank after)
      (hs : ∀ status : Status, String.ofList word ∉ status.tokens) :
      Malformed line (.unknownStatus (String.ofList word))
  | length {text : String} {before token gap last after : List Char} {status : Status}
      (ht : Text.bytes text = line)
      (h : text.toList = before ++ (token ++ (gap ++ (last ++ after)))) (hb : Blank before)
      (hs : String.ofList token ∈ status.tokens) (hg : Gap gap) (hl : Unbroken last)
      (ha : Blank after) (hn : ∀ n, Denotes last n → UInt64.size ≤ n) :
      Malformed line (.bodyLength (String.ofList last))

/-- Line ends are between no words. -/
theorem words_dropLineEnd (cs : List Char) :
    Text.words (Header.dropLineEnd cs) = Text.words cs := by
  have hcs : cs = Header.dropLineEnd cs ++ (cs.reverse.takeWhile isLineEnd).reverse := by
    rw [Header.dropLineEnd, ← List.reverse_append, List.takeWhile_append_dropWhile,
      List.reverse_reverse]
  have hblank : Blank (cs.reverse.takeWhile isLineEnd).reverse := fun c hc =>
    Response.isBlank_of_isLineEnd (List.mem_takeWhile_imp (List.mem_reverse.1 hc))
  rw [← Text.words_append_blank hblank, ← hcs]

theorem read_empty (hw : Text.words text.toList = []) :
    Header.read (Text.bytes text) = .error .emptyHeader := by
  rw [Header.read, Text.decode?_bytes]
  simp only [words_dropLineEnd, hw]

theorem read_single (hw : Text.words text.toList = [first]) : Header.read (Text.bytes text) =
    .error (.noBodyLength (String.ofList (Header.dropLineEnd text.toList))) := by
  rw [Header.read, Text.decode?_bytes]
  simp only [words_dropLineEnd, hw]

/-- How a line of at least two words is read. -/
theorem read_ends (hw : Text.words text.toList = first :: (ws ++ [last])) :
    Header.read (Text.bytes text) =
      match Status.ofToken? (String.ofList first) with
      | none => .error (.unknownStatus (String.ofList first))
      | some status =>
        match Text.readNat? UInt64.size last with
        | none => .error (.bodyLength (String.ofList last))
        | some length => .ok ⟨status, length⟩ := by
  have hlast : (ws ++ [last]).getLastD [] = last := by simp
  cases hrest : ws ++ [last] with
  | nil => exact absurd hrest (by simp)
  | cons second rest =>
    rw [hrest] at hw hlast
    rw [Header.read, Text.decode?_bytes]
    cases hs : Status.ofToken? (String.ofList first) with
    | none => simp only [words_dropLineEnd, hw, hs]
    | some status =>
      cases hn : Text.readNat? UInt64.size last with
      | none | some => simp only [words_dropLineEnd, hw, hlast, hs, hn]

/-- A line is a header, or malformed; and it is told which. -/
theorem read_spec (line : List UInt8) :
    (∃ h text, Header.read line = .ok h ∧ Text.bytes text = line ∧ h.Spelled text.toList ∧
      h.length < UInt64.size) ∨
    ∃ fault, Header.read line = .error fault ∧ Header.Malformed line fault := by
  cases hd : Text.decode? line with
  | none =>
    refine .inr ⟨.headerEncoding, by rw [Header.read, hd], .encoding fun text ht => ?_⟩
    rw [← ht, Text.decode?_bytes] at hd
    cases hd
  | some text =>
    obtain rfl := Text.decode?_eq_some.1 hd
    cases hw : Text.words text.toList with
    | nil => exact .inr ⟨_, read_empty hw, .empty rfl (Text.words_eq_nil.1 hw)⟩
    | cons first ws =>
      rcases List.eq_nil_or_concat' ws with rfl | ⟨ws, last, rfl⟩
      · obtain ⟨before, after, he, hb, hfirst, -, hafter⟩ := Text.of_words_cons hw
        exact .inr ⟨_, read_single hw, .noLength rfl he hb hfirst (Text.words_eq_nil.1 hafter)⟩
      · obtain ⟨before, gap, after, he, hb, hfirst, hgap, hlast, ha⟩ :=
          Text.words_ends.1 ⟨ws, hw⟩
        rw [read_ends hw]
        cases hs : Status.ofToken? (String.ofList first) with
        | none =>
          refine .inr ⟨_, rfl, .status rfl he hb hfirst hgap hlast ha fun status hmem => ?_⟩
          cases hs.symm.trans (Status.ofToken?_eq_some.2 hmem)
        | some status =>
          have htoken := Status.ofToken?_eq_some.1 hs
          cases hn : Text.readNat? UInt64.size last with
          | none =>
            refine .inr ⟨_, rfl, .length rfl he hb htoken hgap hlast ha fun n hden => ?_⟩
            by_contra hlt
            cases hn.symm.trans (Text.readNat?_eq_some.2 ⟨hden, Nat.not_le.1 hlt⟩)
          | some n =>
            obtain ⟨hden, hlt⟩ := Text.readNat?_eq_some.1 hn
            exact .inl ⟨_, text, rfl, rfl, ⟨before, first, gap, last, after, he, hb, htoken, hgap,
              hden, ha⟩, hlt⟩

/-- What spells a header is read as it. -/
theorem read_spelled (hs : h.Spelled text.toList) (hlt : h.length < UInt64.size) :
    Header.read (Text.bytes text) = .ok h := by
  obtain ⟨before, token, gap, length, after, he, hb, htoken, hgap, hden, ha⟩ := hs
  obtain ⟨ws, hw⟩ := Text.words_ends.2 ⟨before, gap, after, he, hb, Status.token_unbroken htoken,
    hgap, denotes_unbroken hden, ha⟩
  rw [read_ends hw, Status.ofToken?_eq_some.2 htoken]
  simp only [Text.readNat?_eq_some.2 ⟨hden, hlt⟩]

/-- What is malformed is told so. -/
theorem read_malformed {fault : ProtocolFault} (hm : Header.Malformed line fault) :
    Header.read line = .error fault := by
  cases hm with
  | encoding hn =>
    cases hd : Text.decode? line with
    | none => rw [Header.read, hd]
    | some text => exact absurd (Text.decode?_eq_some.1 hd) (hn text)
  | empty ht hb => exact ht ▸ read_empty (Text.words_eq_nil.2 hb)
  | @noLength text before word after ht he hb hw ha =>
    have hwords : Text.words text.toList = [word] := by
      rw [he, Text.words_blank_append hb, Text.words_append_blank ha, hw.words]
    exact ht ▸ read_single hwords
  | @status text before word gap last after ht he hb hw hg hl ha hs =>
    obtain ⟨ws, hws⟩ := Text.words_ends.2 ⟨before, gap, after, he, hb, hw, hg, hl, ha⟩
    have hnone : Status.ofToken? (String.ofList word) = none :=
      Option.eq_none_iff_forall_ne_some.2 fun status h => hs status (Status.ofToken?_eq_some.1 h)
    rw [← ht, read_ends hws, hnone]
  | @length text before token gap last after status ht he hb hs hg hl ha hn =>
    obtain ⟨ws, hws⟩ := Text.words_ends.2
      ⟨before, gap, after, he, hb, Status.token_unbroken hs, hg, hl, ha⟩
    have hnone : Text.readNat? UInt64.size last = none := by
      refine Option.eq_none_iff_forall_ne_some.2 fun n h => ?_
      obtain ⟨hden, hlt⟩ := Text.readNat?_eq_some.1 h
      exact absurd hlt (Nat.not_lt.2 (hn n hden))
    rw [← ht, read_ends hws, Status.ofToken?_eq_some.2 hs]
    simp only [hnone]

theorem Response.spelled (r : Response) {ending : List Char} (he : Blank ending) :
    Header.Spelled ⟨r.status, (Text.bytes r.body).length⟩ (r.headerText ++ ending) := by
  obtain ⟨-, -, -, -, hstatus⟩ := status_texts r.status
  refine ⟨[], (toString r.status.code).toList, ' ' :: (r.status.reason.toList ++ [' ']),
    Nat.toDigits 10 (Text.bytes r.body).length, ending, by simp [headerText], List.forall_mem_nil _,
    ?_, ⟨⟨' ', rfl, rfl⟩, ' ', ?_, rfl⟩, ?_, he⟩
  · rw [String.ofList_toList]
    exact Status.ofToken?_eq_some.1 hstatus
  · rw [← List.cons_append, List.getLast?_concat]
    rfl
  · exact ⟨_, .inl rfl, Text.toDigits_ne_nil _, fun _ => Text.isDigit_toDigits,
      Text.ofDigits_toDigits _⟩

/-- The header line of a response is read back. -/
theorem Response.read_headerLine (r : Response) (h : (Text.bytes r.body).length < UInt64.size) :
    Header.read (Text.bytes r.headerLine) = .ok ⟨r.status, (Text.bytes r.body).length⟩ := by
  refine read_spelled (h := ⟨r.status, _⟩) ?_ h
  rw [toList_headerLine]
  exact r.spelled (by decide)

/-- A line is read as a header just if it is a text that spells the header, and its length fits in
64 bits. Every other line is a fault of the protocol, and is told what is wrong with it. The header
line of a response says its status and the length of its body, whatever line end it has or if it has
none. -/
theorem header_grammar :
    (∀ line h, Header.read line = .ok h ↔
      ∃ text, Text.bytes text = line ∧ h.Spelled text.toList ∧ h.length < UInt64.size) ∧
    (∀ line fault, Header.read line = .error fault ↔ Header.Malformed line fault) ∧
    ∀ r : Response, (Text.bytes r.body).length < UInt64.size →
      ∃ head, r.headerLine = head ++ "\n" ∧ ∀ ending ∈ ["", "\n", "\r\n"],
        Header.read (Text.bytes (head ++ ending)) = .ok ⟨r.status, (Text.bytes r.body).length⟩ := by
  refine ⟨fun line h => ⟨fun hr => ?_, ?_⟩, fun line fault => ⟨fun hr => ?_, read_malformed⟩,
    fun r hlt => ⟨String.ofList r.headerText, ?_, fun ending he => ?_⟩⟩
  · rcases read_spec line with ⟨h', text, hok, ht, hs, hlt⟩ | ⟨fault, herror, -⟩
    · cases hok.symm.trans hr
      exact ⟨text, ht, hs, hlt⟩
    · cases herror.symm.trans hr
  · rintro ⟨text, rfl, hs, hlt⟩
    exact read_spelled hs hlt
  · rcases read_spec line with ⟨h, text, hok, -⟩ | ⟨fault', herror, hm⟩
    · cases hok.symm.trans hr
    · cases herror.symm.trans hr
      exact hm
  · rw [← String.toList_inj, r.toList_headerLine, String.toList_append, String.toList_ofList]
    rfl
  · have hblank : ∀ ending ∈ ["", "\n", "\r\n"], Blank ending.toList := by decide
    have hspelled := r.spelled (hblank ending he)
    refine read_spelled (h := ⟨r.status, _⟩) ?_ hlt
    rwa [String.toList_append, String.toList_ofList]

/-- Blanks of several kinds, a number among the words between, and a plus before the length. -/
theorem header_grammar_blanks :
    Header.read (Text.bytes "\u3000401\t12 Bad\u00a0+007\r\n\n") = .ok ⟨.error, 7⟩ ∧
    Header.read (Text.bytes "202 Paused 7\r\n") = .ok ⟨.paused, 7⟩ := by
  obtain ⟨haccepted, -, hwritten⟩ := header_grammar
  constructor
  · refine (haccepted _ _).2 ⟨_, rfl, ⟨['\u3000'], ['4', '0', '1'],
      ['\t', '1', '2', ' ', 'B', 'a', 'd', '\u00a0'], ['+', '0', '0', '7'], ['\r', '\n', '\n'],
      rfl, by decide, by decide, ⟨⟨'\t', rfl, rfl⟩, '\u00a0', rfl, rfl⟩,
      ⟨['0', '0', '7'], .inr rfl, by decide, List.all_eq_true.1 rfl, rfl⟩, by decide⟩,
      by decide⟩
  · obtain ⟨head, hhead, hread⟩ := hwritten ⟨.paused, "a.lua 1"⟩ (by decide)
    have hline : (Response.mk .paused "a.lua 1").headerLine = "202 Paused 7" ++ "\n" := by decide
    rw [hline, String.append_left_inj] at hhead
    rw [← hhead] at hread
    exact hread "\r\n" (by decide)

end MobDebug.Wire
