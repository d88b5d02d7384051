import MobDebug.Literal.Fault
/-!
What stands between tokens: space and comments. A long bracket `[==[ … ]==]` is a comment after two
dashes and a string elsewhere.
-/
namespace MobDebug.Literal

/-- The six ASCII space bytes. -/
def isSpace (b : UInt8) : Bool :=
  b == 0x20 || (0x9 ≤ b && b ≤ 0xd)

/-- The byte of an ASCII character. -/
def ascii (c : Char) : UInt8 :=
  c.val.toUInt8

/-- The rest after `lead`, where the text starts with it. -/
def strip? (lead : List UInt8) (s : List UInt8) : Option (List UInt8) :=
  if lead.isPrefixOf s then some (s.drop lead.length) else none

theorem length_of_strip? {lead s r : List UInt8} (h : strip? lead s = some r) :
    r.length + lead.length = s.length := by
  unfold strip? at h
  split at h
  · next hp =>
    have := (List.isPrefixOf_iff_prefix.1 hp).length_le
    cases h
    simp
    omega
  · cases h

theorem length_dropWhile_le (p : UInt8 → Bool) (s : List UInt8) :
    (s.dropWhile p).length ≤ s.length :=
  (List.dropWhile_suffix p).length_le

/-- The level of an opening bracket and the text behind it, from the text after its first byte. -/
def opening? (s : List UInt8) : Option (Nat × List UInt8) :=
  match s.dropWhile (· == ascii '=') with
  | b :: r => if b = ascii '[' then some ((s.takeWhile (· == ascii '=')).length, r) else none
  | [] => none

/-- The text after the closing bracket of a level that it starts with. -/
def closing? (level : Nat) (s : List UInt8) : Option (List UInt8) :=
  strip? (ascii ']' :: List.replicate level (ascii '=') ++ [ascii ']']) s

/-- The text before and after the first closing bracket of a level. -/
def splitAtClosing (level : Nat) : List UInt8 → Option (List UInt8 × List UInt8)
  | [] => none
  | b :: r =>
    match closing? level (b :: r) with
    | some rest => some ([], rest)
    | none => (splitAtClosing level r).map fun (content, rest) => (b :: content, rest)

/-- Drops one line break at the start. -/
def dropLineBreak : List UInt8 → List UInt8
  | 0x0d :: 0x0a :: r => r
  | 0x0d :: r => r
  | 0x0a :: r => r
  | r => r

theorem length_dropLineBreak_le (s : List UInt8) : (dropLineBreak s).length ≤ s.length := by
  unfold dropLineBreak
  split
  · exact Nat.le_add_right _ 2
  · exact Nat.le_add_right _ 1
  · exact Nat.le_add_right _ 1
  · exact Nat.le_refl _

theorem length_of_opening? {s r : List UInt8} {level : Nat} (h : opening? s = some (level, r)) :
    r.length < s.length := by
  have hle := length_dropWhile_le (· == ascii '=') s
  unfold opening? at h
  split at h
  · next b t heq =>
    rw [heq, List.length_cons] at hle
    split at h
    · cases h
      omega
    · cases h
  · cases h

theorem length_of_splitAtClosing {level : Nat} {s content rest : List UInt8}
    (h : splitAtClosing level s = some (content, rest)) : rest.length < s.length := by
  induction s generalizing content with
  | nil => cases h
  | cons b r ih =>
    unfold splitAtClosing at h
    split at h
    · next hc =>
      have := length_of_strip? hc
      cases h
      simp only [List.length_cons, List.length_append] at this ⊢
      omega
    · obtain ⟨⟨c, t⟩, ht, he⟩ := Option.map_eq_some_iff.1 h
      cases he
      have := ih ht
      simp only [List.length_cons]
      omega

/-- The content of the long bracket that a text starts with, which begins behind a line break that
directly follows the opening. Nothing, where no bracket opens. -/
def longBracket (s : List UInt8) : Except Failure (Option (Parsed (List UInt8) s)) :=
  match s with
  | [] => .ok none
  | b :: t =>
    if b = ascii '[' then
      match ho : opening? t with
      | none => .ok none
      | some (level, r) =>
        match hc : splitAtClosing level (dropLineBreak r) with
        | none => failAt .unterminatedBracket (b :: t)
        | some (content, rest) =>
          .ok (some ⟨content, rest, by
            have := length_of_splitAtClosing hc
            have := length_dropLineBreak_le r
            have := length_of_opening? ho
            simp
            omega⟩)
    else .ok none

/-- The rest behind space and comments. A comment that opens no long bracket runs to the end of its
line. -/
def skipTrivia (s : List UInt8) : Except Failure (Rest s) :=
  let afterSpace := s.dropWhile isSpace
  have hs : afterSpace.length ≤ s.length := length_dropWhile_le isSpace s
  match ht : strip? [ascii '-', ascii '-'] afterSpace with
  | none => .ok ⟨afterSpace, hs⟩
  | some t =>
    have hl : t.length + 2 = afterSpace.length := length_of_strip? ht
    match longBracket t with
    | .error e => .error e
    | .ok (some bracket) =>
      have := bracket.shorter
      (skipTrivia bracket.rest).map fun r => ⟨r.1, by have := r.2; omega⟩
    | .ok none =>
      have := length_dropWhile_le (· != ascii '\n') t
      (skipTrivia (t.dropWhile (· != ascii '\n'))).map fun r => ⟨r.1, by have := r.2; omega⟩
termination_by s.length

end MobDebug.Literal
