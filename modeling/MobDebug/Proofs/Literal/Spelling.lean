import MobDebug.Proofs.Literal.Grammar.Reading

/-! The bytes of a quoted string may be spelled in several ways each. All of them are read as the
bytes that they spell, whatever stands before and behind. -/
namespace MobDebug.Literal

variable {quote b : UInt8} {next : Option UInt8} {s t bs source content : List UInt8}

/-- The letters of escapes and the bytes that they name. -/
def escapeLetters : List (UInt8 × UInt8) :=
  [(ascii 'a', 7), (ascii 'b', 8), (ascii 't', 9), (ascii 'n', 10), (ascii 'v', 11),
    (ascii 'f', 12), (ascii 'r', 13), (ascii '\\', ascii '\\'), (ascii '"', ascii '"'),
    (ascii '\'', ascii '\'')]

/-- The line breaks that are one line end behind a backslash. -/
def lineBreaks : List (List UInt8) :=
  [[ascii '\n'], [ascii '\r'], [ascii '\r', ascii '\n'], [ascii '\n', ascii '\r']]

/-- The spellings of a byte between quotes, of the bytes of a character, or of nothing, where the
byte `next` stands behind the spelling. -/
inductive Spelling (quote : UInt8) : List UInt8 → List UInt8 → Option UInt8 → Prop
  | raw {b : UInt8} {next : Option UInt8} (hq : b ≠ quote) (hs : b ≠ ascii '\\')
      (hn : b ≠ ascii '\n') (hr : b ≠ ascii '\r') : Spelling quote [b] [b] next
  | named {letter b : UInt8} {next : Option UInt8} (h : (letter, b) ∈ escapeLetters) :
      Spelling quote [ascii '\\', letter] [b] next
  | hex {b hi lo : UInt8} {next : Option UInt8} (hh : hexDigit? hi = some (b.toNat / 16))
      (hl : hexDigit? lo = some (b.toNat % 16)) :
      Spelling quote [ascii '\\', ascii 'x', hi, lo] [b] next
  | decimal {b : UInt8} {ds : List UInt8} {next : Option UInt8} (hd : ∀ d ∈ ds, isDigit d)
      (hv : Text.ofDigits (ds.map byteChar) = b.toNat)
      (hn : ds.length = 3 ∨ (ds.length = 1 ∨ ds.length = 2) ∧ ∀ d ∈ next, isDigit d = false) :
      Spelling quote (ascii '\\' :: ds) [b] next
  | code {c : Char} {s : List UInt8} {ds : List Nat} {next : Option UInt8} (h : HexRun s ds)
      (hne : s ≠ []) (hv : hexNumber ds = c.toNat) :
      Spelling quote (ascii '\\' :: ascii 'u' :: ascii '\x7b' :: (s ++ [ascii '\x7d']))
        (String.utf8EncodeChar c) next
  | lineEnd {s : List UInt8} {next : Option UInt8} (h : s ∈ lineBreaks) :
      Spelling quote (ascii '\\' :: s) [ascii '\n'] next
  | gap {s : List UInt8} {next : Option UInt8} (hs : ∀ b ∈ s, isSpace b)
      (hn : ∀ b ∈ next, isSpace b = false) : Spelling quote (ascii '\\' :: ascii 'z' :: s) [] next

/-- A source of quoted bytes, spelling by spelling, before the quote. -/
inductive Spelled (quote : UInt8) : List UInt8 → List UInt8 → Prop
  | done : Spelled quote [] []
  | spell {s bs source content : List UInt8}
      (hs : Spelling quote s bs (source ++ [quote]).head?) (h : Spelled quote source content) :
      Spelled quote (s ++ source) (bs ++ content)

/-- No spelling begins with a line break. -/
theorem Spelling.start (h : Spelling quote s bs next) :
    ∃ b t, s = b :: t ∧ isLineEnd b = false := by
  cases h with
  | raw hq hs hn hr =>
    refine ⟨_, _, rfl, ?_⟩
    simp only [isLineEnd, Bool.or_eq_false_iff, beq_eq_false_iff_ne]
    exact ⟨hn, hr⟩
  | named | hex | decimal | code | lineEnd | gap => exact ⟨_, _, rfl, rfl⟩

theorem Spelled.start (h : Spelled quote source content) (hq : isLineEnd quote = false) :
    ∀ b ∈ (source ++ [quote]).head?, isLineEnd b = false := by
  cases h with
  | done =>
    rintro _ ⟨⟩
    exact hq
  | spell hs _ =>
    obtain ⟨b, t, rfl, hb⟩ := hs.start
    rintro _ ⟨⟩
    exact hb

theorem namedEscape?_of_mem {letter : UInt8} (h : (letter, b) ∈ escapeLetters) :
    namedEscape? letter = some b := by
  simp only [escapeLetters, List.mem_cons, Prod.mk.injEq, List.not_mem_nil, or_false] at h
  rcases h with ⟨rfl, rfl⟩ | ⟨rfl, rfl⟩ | ⟨rfl, rfl⟩ | ⟨rfl, rfl⟩ | ⟨rfl, rfl⟩ | ⟨rfl, rfl⟩ |
    ⟨rfl, rfl⟩ | ⟨rfl, rfl⟩ | ⟨rfl, rfl⟩ | ⟨rfl, rfl⟩ <;> rfl

theorem escape_lineBreak (h : s ∈ lineBreaks) (hn : ∀ b ∈ next, isLineEnd b = false) :
    Escape s [ascii '\n'] next := by
  have hone {b : UInt8} (hb : isLineEnd b) : Escape [b] [ascii '\n'] next :=
    .lineEnd hb fun c hc he => absurd (he.symm.trans (hn c hc)) nofun
  simp only [lineBreaks, List.mem_cons, List.not_mem_nil, or_false] at h
  rcases h with rfl | rfl | rfl | rfl
  · exact hone rfl
  · exact hone rfl
  · exact .lineEnds rfl rfl (by decide)
  · exact .lineEnds rfl rfl (by decide)

/-- A spelling is one raw byte, or a backslash and an escape. -/
theorem Spelling.quoted (h : Spelling quote s bs t.head?)
    (hn : ∀ b ∈ t.head?, isLineEnd b = false) (ht : Quoted quote t content) :
    Quoted quote (s ++ t) (bs ++ content) := by
  generalize hnext : t.head? = next at h hn
  subst hnext
  cases h with
  | raw hq hs hl hr =>
    refine .raw hq ?_ hs ht
    simp only [isLineEnd, Bool.or_eq_false_iff, beq_eq_false_iff_ne]
    exact ⟨hl, hr⟩
  | named h => exact .escape (.named (namedEscape?_of_mem h)) ht
  | @hex b hi lo _ hh hl =>
    have he : Escape _ _ t.head? := .hex hh hl
    rw [Nat.div_add_mod', UInt8.ofNat_toNat] at he
    exact .escape he ht
  | @decimal b ds _ hd hv hn =>
    have hne : ds ≠ [] := by
      rintro rfl
      simp at hn
    have he : Escape ds _ t.head? := .decimal hne (by omega) hd (by rw [hv]; exact b.toNat_lt)
      (hn.imp_right fun h => h.2)
    rw [hv, UInt8.ofNat_toNat] at he
    exact .escape he ht
  | @code c s ds _ h hne hv =>
    have hds : ds ≠ [] := by
      rintro rfl
      cases h
      exact hne rfl
    have he : Escape _ _ t.head? := .code h hds (hv ▸ c.valid)
    rw [hv, Char.ofNat_toNat] at he
    exact .escape he ht
  | lineEnd h => exact .escape (escape_lineBreak h hn) ht
  | gap hs hg => exact .escape (.gap hs hg) ht

/-- By induction on the spellings: each is an escape in front of what is behind it. -/
theorem Spelled.quoted (h : Spelled quote source content) (hq : isLineEnd quote = false) :
    Quoted quote (source ++ [quote]) content := by
  induction h with
  | done => exact .close
  | @spell s bs source content hs h ih =>
    rw [List.append_assoc]
    exact hs.quoted (h.start hq) ih

/-- Every byte by an escape with two hexadecimal digits. -/
def hexSpelling (content : List UInt8) : List Char :=
  content.flatMap fun b =>
    ['\\', 'x', Nat.digitChar (b.toNat / 16), Nat.digitChar (b.toNat % 16)]

theorem digitChar_hex {d : Nat} (h : d < 16) : hexDigit? (ascii (Nat.digitChar d)) = some d := by
  revert d
  decide

theorem digitChar_lt {d : Nat} (h : d < 16) : (Nat.digitChar d).toNat < 0x80 := by
  revert d
  decide

theorem highDigit_lt (b : UInt8) : b.toNat / 16 < 16 := by
  have := b.toNat_lt
  omega

theorem lowDigit_lt (b : UInt8) : b.toNat % 16 < 16 := Nat.mod_lt _ (by decide)

theorem hexSpelling_ascii {c : Char} (hc : c ∈ hexSpelling content) : c.toNat < 0x80 := by
  obtain ⟨b, -, hb⟩ := List.mem_flatMap.1 hc
  simp only [List.mem_cons, List.not_mem_nil, or_false] at hb
  rcases hb with rfl | rfl | rfl | rfl
  · decide
  · decide
  · exact digitChar_lt (highDigit_lt b)
  · exact digitChar_lt (lowDigit_lt b)

theorem spelled_hexSpelling (quote : UInt8) (content : List UInt8) :
    Spelled quote ((hexSpelling content).map ascii) content := by
  induction content with
  | nil => exact .done
  | cons b content ih =>
    exact .spell (.hex (digitChar_hex (highDigit_lt b)) (digitChar_hex (lowDigit_lt b))) ih

/-- Between quotes that are ASCII, every content has a spelling that is a text. -/
theorem exists_spelled (quote : Char) (hq : quote.toNat < 0x80) (content : List UInt8) :
    ∃ source text, Spelled (ascii quote) source content ∧
      Text.bytes text = ascii quote :: (source ++ [ascii quote]) := by
  refine ⟨_, String.ofList (quote :: (hexSpelling content ++ [quote])),
    spelled_hexSpelling _ content, ?_⟩
  have hascii : ∀ c ∈ quote :: (hexSpelling content ++ [quote]), c.toNat < 0x80 := by
    simp only [List.mem_cons, List.mem_append, List.not_mem_nil, or_false]
    rintro c (rfl | hc | rfl)
    · exact hq
    · exact hexSpelling_ascii hc
    · exact hq
  rw [bytes_ofList hascii]
  simp

/-- However the bytes of a string are spelled between quotes, one by one, the text is read as the
string that they encode, or as their decoding if they encode none. Every content is spelled by some
text. -/
theorem spelled_exact {quote : Char} (hq : quote = '"' ∨ quote = '\'') (content : List UInt8)
    (limit : Nat) :
    (∃ source text, Spelled (ascii quote) source content ∧
      Text.bytes text = ascii quote :: (source ++ [ascii quote])) ∧
    ∀ source text, Spelled (ascii quote) source content →
      Text.bytes text = ascii quote :: (source ++ [ascii quote]) →
      read limit text = .ok (.str (Text.decodeLossy content)) ∧
      ∀ s, Text.bytes s = content → read limit text = .ok (.str s) := by
  have hascii : quote.toNat < 0x80 := by rcases hq with rfl | rfl <;> decide
  have hend : isLineEnd (ascii quote) = false := by rcases hq with rfl | rfl <;> rfl
  refine ⟨exists_spelled quote hascii content, fun source text h ht => ?_⟩
  have hread : read limit text = .ok (.str (Text.decodeLossy content)) :=
    read_derives ht (Lit.quoted (hq.imp (congrArg ascii) (congrArg ascii)) (h.quoted hend))
  refine ⟨hread, ?_⟩
  rintro s rfl
  rwa [Text.decodeLossy_bytes] at hread

/-- Every kind of spelling, and a character whose bytes are spelled apart. -/
theorem spelled_exact_mixed : ∃ source content, Spelled (ascii '"') source content ∧
    Text.bytes "\"\\\"\\7z\\z \n\\u\x7b00a\x7d\\\r\n\\xe2\\130\\xAC\"" =
      ascii '"' :: (source ++ [ascii '"']) ∧
    Text.bytes "\"\x07z\n\n€" = content ∧
    read 0 "\"\\\"\\7z\\z \n\\u\x7b00a\x7d\\\r\n\\xe2\\130\\xAC\"" =
      .ok (.str "\"\x07z\n\n€") := by
  have hcode : HexRun [ascii '0', ascii '0', ascii 'a'] [0, 0, 10] :=
    .cons rfl (.cons rfl (.cons rfl .nil))
  -- From the last spelling to the first.
  have h : Spelled (ascii '"') [] [] := .done
  have h := Spelled.spell (.hex rfl rfl :
    Spelling _ [ascii '\\', ascii 'x', ascii 'A', ascii 'C'] [0xac] _) h
  have h := Spelled.spell (.decimal (List.all_eq_true.1 rfl) rfl (.inl rfl) :
    Spelling _ [ascii '\\', ascii '1', ascii '3', ascii '0'] [130] _) h
  have h := Spelled.spell (.hex rfl rfl :
    Spelling _ [ascii '\\', ascii 'x', ascii 'e', ascii '2'] [0xe2] _) h
  have h := Spelled.spell (.lineEnd (by decide) :
    Spelling _ [ascii '\\', ascii '\r', ascii '\n'] [ascii '\n'] _) h
  have h := Spelled.spell (.code hcode (by decide) rfl : Spelling _ (ascii '\\' :: ascii 'u' ::
    ascii '\x7b' :: (_ ++ [ascii '\x7d'])) (String.utf8EncodeChar '\n') _) h
  have h := Spelled.spell (.gap (List.all_eq_true.1 rfl) (by rintro _ ⟨⟩; rfl) :
    Spelling _ [ascii '\\', ascii 'z', ascii ' ', ascii '\n'] [] _) h
  have h := Spelled.spell (.raw (by decide) (by decide) (by decide) (by decide) :
    Spelling _ [ascii 'z'] [ascii 'z'] _) h
  have h := Spelled.spell (.decimal (List.all_eq_true.1 rfl) rfl
    (.inr ⟨.inl rfl, by rintro _ ⟨⟩; rfl⟩) : Spelling _ [ascii '\\', ascii '7'] [7] _) h
  have h := Spelled.spell (.named (by decide) :
    Spelling _ [ascii '\\', ascii '"'] [ascii '"'] _) h
  obtain ⟨-, hread⟩ := spelled_exact (.inl rfl) _ 0
  exact ⟨_, _, h, by decide, by decide, (hread _ _ h (by decide)).2 _ (by decide)⟩

end MobDebug.Literal
