import MobDebug.Proofs.Literal.Grammar.Reading
import MobDebug.Proofs.Text.Trim

/-! Long brackets hold any text that does not close them: as a string the text itself, as a comment
nothing, and behind nil the reference that the text marks. -/
namespace MobDebug.Literal

variable {level limit : Nat} {s text label : String} {v : Value}

/-- The closing bracket of a level. -/
def closing (level : Nat) : String :=
  "]" ++ String.ofList (List.replicate level '=') ++ "]"

/-- A text in the brackets of a level, behind a line break. -/
def enclosed (level : Nat) (s : String) : String :=
  "[" ++ String.ofList (List.replicate level '=') ++ "[\n" ++ s ++ closing level

/-- In the text and the closing bracket behind it, that bracket first occurs behind the text. -/
def Encloses (level : Nat) (s : String) : Prop :=
  ∀ i, Text.bytes (closing level) <+: (Text.bytes (s ++ closing level)).drop i →
    (Text.bytes s).length ≤ i

theorem encloses_iff : Encloses level s ↔ ∀ i < (Text.bytes s).length,
    ¬ Text.bytes (closing level) <+: (Text.bytes (s ++ closing level)).drop i := by
  constructor
  · intro h i hi hp
    exact absurd hi (Nat.not_lt.2 (h i hp))
  · intro h i hp
    exact Nat.not_lt.1 fun hi => h i hi hp

instance (level : Nat) (s : String) : Decidable (Encloses level s) :=
  decidable_of_iff _ encloses_iff.symm

theorem bytes_equalsSigns (level : Nat) :
    Text.bytes (String.ofList (List.replicate level '=')) = List.replicate level (ascii '=') :=
  bytes_replicate (by decide) level

theorem bytes_closing (level : Nat) : Text.bytes (closing level) = closer level := by
  rw [closing, Text.bytes_append, Text.bytes_append, bytes_equalsSigns]
  rfl

theorem bytes_enclosed (level : Nat) (s : String) : Text.bytes (enclosed level s) =
    opener level ++ (ascii '\n' :: Text.bytes s ++ closer level) := by
  have hopen : Text.bytes "[\n" = [ascii '[', ascii '\n'] := rfl
  have hbracket : Text.bytes "[" = [ascii '['] := rfl
  simp only [enclosed, Text.bytes_append, bytes_equalsSigns, bytes_closing, hopen, hbracket, opener,
    List.append_assoc, List.cons_append, List.nil_append]

/-- A closing bracket that the text shares with its own would be a byte before it at least. -/
theorem Encloses.unclosed (h : Encloses level s) :
    ¬ closer level <:+: Text.bytes s ++ closerStem level := by
  rintro ⟨before, after, he⟩
  have hprefix : Text.bytes (closing level) <+:
      (Text.bytes (s ++ closing level)).drop before.length := by
    have hsplit : Text.bytes (s ++ closing level) =
        before ++ (closer level ++ (after ++ [ascii ']'])) := by
      rw [Text.bytes_append, bytes_closing]
      conv_lhs => rw [closer, ← List.append_assoc, ← he]
      simp only [List.append_assoc]
    rw [hsplit, List.drop_left, bytes_closing]
    exact List.prefix_append _ _
  have hle := h before.length hprefix
  have hlength := congrArg List.length he
  simp only [closer, List.length_append, List.length_singleton] at hlength
  omega

theorem Encloses.longBracket (h : Encloses level s) :
    LongBracket (Text.bytes (enclosed level s)) (Text.bytes s) := by
  rw [bytes_enclosed]
  exact .mk rfl h.unclosed

/-- Blanks around a label and its mark mark the label all the same. -/
theorem marks_label (h : Text.Trimmed label.toList) :
    Marks (Text.bytes (" ref " ++ label ++ " ")) label := by
  apply referenceLabel?_eq_some.1
  apply referenceLabel?_of_trim h
  rw [Text.decodeLossy_bytes]
  have hblank : Text.Blank [' '] := List.forall_mem_singleton.2 rfl
  have hblanks : Text.Blank [' ', ' '] := List.forall_mem_cons.2 ⟨rfl, hblank⟩
  by_cases he : label = ""
  · subst he
    have href : Text.Trimmed ['r', 'e', 'f'] := ⟨by rintro _ ⟨⟩; rfl, by rintro _ ⟨⟩; rfl⟩
    exact Text.trim_around hblank href hblanks
  · have hmark : mark label = 'r' :: 'e' :: 'f' :: ' ' :: label.toList := by
      rw [mark, if_neg (by simpa [String.isEmpty_iff] using he)]
    have hsplit : (" ref " ++ label ++ " ").toList = [' '] ++ (mark label ++ [' ']) := by
      rw [hmark]
      simp
    rw [hsplit]
    exact Text.trim_around hblank (trimmed_mark h) hblank

/-- A comment in brackets in front of a text that is read changes nothing. -/
theorem Encloses.read_comment (h : Encloses level s) (hv : read limit text = .ok v) :
    read limit ("--" ++ enclosed level s ++ text) = .ok v := by
  obtain ⟨g, l, g', hs, hg, hl, hg', hm⟩ := read_eq_ok_iff.1 hv
  refine read_eq_ok_iff.2 ⟨dashes ++ (Text.bytes (enclosed level s) ++ g), l, g', ?_,
    .long h.longBracket hg, hl, hg', hm⟩
  have hdashes : Text.bytes "--" = dashes := rfl
  simp only [Text.bytes_append, hdashes, hs, List.append_assoc]

/-- Nil and a comment in brackets that marks a label are a reference. -/
theorem Encloses.read_reference (h : Encloses level (" ref " ++ label ++ " "))
    (hl : Text.Trimmed label.toList) (limit : Nat) :
    read limit ("nil --" ++ enclosed level (" ref " ++ label ++ " ")) =
      .ok (.reference label) := by
  have hspace : ∀ b ∈ [ascii ' '], isSpace b := List.forall_mem_singleton.2 rfl
  have hmark := Mark.mk hspace h.longBracket (marks_label hl)
  refine read_derives ?_ (.reference hmark)
  have hnil : Text.bytes "nil --" = Text.bytes "nil" ++ ([ascii ' '] ++ dashes) := rfl
  simp only [Text.bytes_append, hnil, List.append_assoc]

/-- A text in long brackets that it does not close, behind a line break, is read as the text. Two
dashes before the brackets make a comment, which changes nothing in front of a text that is read,
and behind nil makes a reference to a label that it marks. -/
theorem enclosed_exact (level : Nat) (s : String) (h : Encloses level s) (limit : Nat) :
    read limit (enclosed level s) = .ok (.str s) ∧
    (∀ text v, read limit text = .ok v → read limit ("--" ++ enclosed level s ++ text) = .ok v) ∧
    ∀ label : String, Text.Trimmed label.toList → s = " ref " ++ label ++ " " →
      read limit ("nil --" ++ enclosed level s) = .ok (.reference label) := by
  refine ⟨?_, fun text v hv => h.read_comment hv, ?_⟩
  · have hlit : Derives limit _ _ := .long h.longBracket
    have hread := read_derives rfl hlit
    rwa [Text.decodeLossy_bytes] at hread
  · rintro label hl rfl
    exact h.read_reference hl limit

/-- A string that begins with a line break and ends as its closing bracket begins, and a label that
holds the closing bracket of another level. -/
theorem enclosed_exact_overlapping : Encloses 2 "\n]=]]=" ∧
    read 0 "[==[\n\n]=]]=]==]" = .ok (.str "\n]=]]=") ∧
    read 0 "nil" = .ok .nil ∧ read 0 "--[==[\n\n]=]]=]==]nil" = .ok .nil ∧
    Encloses 1 " ref a]]b " ∧ Text.Trimmed "a]]b".toList ∧
    read 0 "nil --[=[\n ref a]]b ]=]" = .ok (.reference "a]]b") := by
  have hstring : Encloses 2 "\n]=]]=" := by decide
  have hlabel : Encloses 1 " ref a]]b " := by decide
  have hnil : read 0 "nil" = .ok .nil := read_derives rfl .nil
  have htrimmed : Text.Trimmed "a]]b".toList := ⟨by rintro _ ⟨⟩; rfl, by rintro _ ⟨⟩; rfl⟩
  obtain ⟨hread, hcomment, -⟩ := enclosed_exact 2 "\n]=]]=" hstring 0
  obtain ⟨-, -, hreference⟩ := enclosed_exact 1 " ref a]]b " hlabel 0
  exact ⟨hstring, hread, hnil, hcomment "nil" .nil hnil, hlabel, htrimmed,
    hreference "a]]b" htrimmed rfl⟩

end MobDebug.Literal
