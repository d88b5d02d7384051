import MobDebug.Console.Command
import MobDebug.Proofs.Text.Trim
import MobDebug.Proofs.Wire.Header

/-! A file and a line mean the same in a location of the wire and in a command of the console. -/
namespace MobDebug

namespace Wire
open Text (Trimmed isBlank)

variable {s : String} {l : Location} {file numeral : List Char} {n : Nat}

/-- What stands before the last blank of a trimmed text begins with no blank. -/
theorem file_begins {cs : List Char} (hs : Text.splitLast (Text.trim cs) = some (file, numeral)) :
    ∃ c rest, file = c :: rest ∧ isBlank c = false := by
  obtain ⟨c, he, hc, -⟩ := Text.splitLast_eq_some.1 hs
  have hhead := (Text.trimmed_trim cs).1
  rw [he] at hhead
  cases file with
  | nil =>
    rw [hhead c rfl] at hc
    cases hc
  | cons d rest => exact ⟨d, rest, rfl, hhead d rfl⟩

namespace Location

/-- The file of a location is not empty and has no blank at its ends, and its line is below the
bound. -/
theorem of_read (h : read s = .ok l) :
    l.file ≠ "" ∧ Trimmed l.file.toList ∧ l.line < UInt32.size := by
  unfold read at h
  dsimp only at h
  split at h
  · cases h
  next file numeral hs =>
  split at h
  · cases h
  next line hline =>
  cases h
  obtain ⟨c, rest, rfl, hc⟩ := file_begins hs
  rw [← Text.trim_cons hc, String.toList_ofList]
  have hne : Text.trim (c :: rest) ≠ [] := Text.trim_ne_nil List.mem_cons_self hc
  exact ⟨fun he => hne (String.ofList_inj.1 he), Text.trimmed_trim _,
    (Text.readNat?_eq_some.1 hline).2⟩

/-- The text of a location is read as the location. -/
theorem read_text (hf : l.file ≠ "") (ht : Trimmed l.file.toList) (hl : l.line < UInt32.size) :
    read l.text = .ok l := by
  have hblank : ∀ d ∈ Nat.toDigits 10 l.line, isBlank d = false :=
    fun d hd => (Response.digit_plain (Text.isDigit_toDigits hd)).2
  have htext : l.text.toList = l.file.toList ++ ' ' :: Nat.toDigits 10 l.line := by
    simp [text, String.toList_append]
  have htrimmed : Trimmed l.text.toList := by
    have hne := Text.toDigits_ne_nil l.line
    rw [htext]
    refine Text.trimmed_append (fun he => hf (String.toList_eq_nil_iff.1 he)) ht.1
      (List.cons_ne_nil _ _) fun d hd => hblank d ?_
    rw [← List.singleton_append, List.getLast?_append_of_ne_nil _ hne] at hd
    exact List.mem_of_getLast? hd
  have hsplit : Text.splitLast l.text.toList = some (l.file.toList, Nat.toDigits 10 l.line) :=
    Text.splitLast_eq_some.2 ⟨' ', htext, rfl, hblank⟩
  simp only [read, htrimmed.trim_eq, hsplit, Text.readNat?_toDigits hl, Text.trimEnd_eq ht.2,
    String.ofList_toList]

end Location
end Wire

namespace Console
open Wire (Location)

variable {word : List Char}

/-- A file and a line are read as a location is, and what is no location is misuse. -/
theorem fileAndLine_trim (s : String) : fileAndLine (Text.trim s.toList) =
    ((Location.read s).mapError fun _ => Misuse.fileAndLine).map fun l => (l.file, l.line) := by
  unfold fileAndLine Location.read
  dsimp only
  cases hs : Text.splitLast (Text.trim s.toList) with
  | none => rfl
  | some parts =>
    obtain ⟨file, numeral⟩ := parts
    obtain ⟨c, rest, rfl, hc⟩ := Wire.file_begins hs
    dsimp only
    cases Text.readNat? UInt32.size numeral with
    | none => rfl
    | some line =>
      have hne : (Text.trim (c :: rest)).isEmpty = false :=
        List.isEmpty_eq_false_iff.2 (Text.trim_ne_nil List.mem_cons_self hc)
      simp only [hne, ← Text.trim_cons hc]
      rfl

/-- A line is read by its first word and what is left of the rest without the blanks around it. -/
theorem read_word (h : Text.Unbroken word) (s : String) :
    Command.read (String.ofList word ++ " " ++ s) =
      ofWord (String.ofList word) (Text.trim s.toList) := by
  obtain ⟨hne, hw⟩ := h
  have hline : (String.ofList word ++ " " ++ s).toList = word ++ ' ' :: s.toList := by
    simp [String.toList_append]
  have hhead : ∀ c ∈ word.head?, Text.isBlank c = false :=
    fun c hc => hw c (List.mem_of_head? hc)
  obtain ⟨before, after, hs, hb, ha⟩ := Text.exists_trim s.toList
  have htrimmed := Text.trimmed_trim s.toList
  unfold Command.read
  rw [hline]
  generalize Text.trim s.toList = rest at hs htrimmed
  by_cases hrest : rest = []
  · -- the rest of the line is blank, so the word is the whole line
    subst hrest
    have hblank : Text.Blank (' ' :: s.toList) := by
      rw [hs]
      exact List.forall_mem_cons.2 ⟨rfl, List.forall_mem_append.2 ⟨hb, ha⟩⟩
    have htrim : Text.trim (word ++ ' ' :: s.toList) = word :=
      Text.trim_append_blank ⟨hhead, fun c hc => hw c (List.mem_of_getLast? hc)⟩ hblank
    simp only [htrim, Text.splitFirst_eq_none hw]
  · have htrim : Text.trim (word ++ ' ' :: s.toList) = word ++ ' ' :: (before ++ rest) := by
      have hmiddle : Text.Trimmed (word ++ ' ' :: (before ++ rest)) := by
        refine Text.trimmed_append hne hhead (List.cons_ne_nil _ _) ?_
        rw [← List.cons_append, List.getLast?_append_of_ne_nil _ hrest]
        exact htrimmed.2
      have haround := Text.trim_append_blank hmiddle ha
      rw [hs]
      simpa using haround
    have hsplit : Text.splitFirst (word ++ ' ' :: (before ++ rest)) = some (word, before ++ rest) :=
      Text.splitFirst_eq_some.2 ⟨' ', rfl, rfl, hw⟩
    simp only [htrim, hsplit, Text.trim_blank_append hb htrimmed]

/-- The command that is made of a location tells which location it was. -/
theorem eq_ok_iff_command {make : String → Nat → Command} (r : Except ProtocolFault Location)
    (l : Location) (hmake : ∀ k : Location, make k.file k.line = make l.file l.line → k = l) :
    r = .ok l ↔ ((r.mapError fun _ => Misuse.fileAndLine).map fun l => (l.file, l.line)).map
      (fun (file, line) => make file line) = .ok (make l.file l.line) := by
  constructor
  · rintro rfl
    rfl
  · intro h
    cases r with
    | error fault => cases h
    | ok k => rw [hmake k (Except.ok.inj h)]

/-- A text is a location just if the console reads it as the place of a breakpoint to set or to
clear, and both find the same file and line in it; otherwise the line is misuse. The file is not
empty and has no blank at its ends, and the location is read back from its text, like every location
of such a file and of a line with 32 bits. -/
theorem places_agree (s : String) :
    (∀ l, Location.read s = .ok l ↔ Command.read ("break " ++ s) =
      .ok (.setBreakpoint l.file l.line)) ∧
    (∀ l, Location.read s = .ok l ↔ Command.read ("clear " ++ s) =
      .ok (.clearBreakpoint l.file l.line)) ∧
    (∀ fault, Location.read s = .error fault → Command.read ("break " ++ s) = .error .fileAndLine ∧
      Command.read ("clear " ++ s) = .error .fileAndLine) ∧
    (∀ l, Location.read s = .ok l → l.file ≠ "" ∧ Text.Trimmed l.file.toList ∧
      l.line < UInt32.size ∧ Location.read l.text = .ok l) ∧
    ∀ l : Location, l.file ≠ "" → Text.Trimmed l.file.toList → l.line < UInt32.size →
      Location.read l.text = .ok l := by
  have hset : Command.read ("break " ++ s) = (fileAndLine (Text.trim s.toList)).map
      fun (file, line) => .setBreakpoint file line :=
    read_word (show Text.Unbroken "break".toList by decide) s
  have hclear : Command.read ("clear " ++ s) = (fileAndLine (Text.trim s.toList)).map
      fun (file, line) => .clearBreakpoint file line :=
    read_word (show Text.Unbroken "clear".toList by decide) s
  rw [fileAndLine_trim] at hset hclear
  rw [hset, hclear]
  refine ⟨?_, ?_, ?_, fun l hl => ?_, fun l hf ht hl => Location.read_text hf ht hl⟩
  · exact fun l => eq_ok_iff_command _ l fun k hk => by cases k; cases hk; rfl
  · exact fun l => eq_ok_iff_command _ l fun k hk => by cases k; cases hk; rfl
  · intro fault hr
    rw [hr]
    exact ⟨rfl, rfl⟩
  · obtain ⟨hf, ht, hline⟩ := Location.of_read hl
    exact ⟨hf, ht, hline, Location.read_text hf ht hline⟩

/-- A file with blanks in its name, and the greatest line. -/
theorem places_agree_blanks :
    Command.read "clear \t my game/main.lua \u3000+12\n" =
      .ok (.clearBreakpoint "my game/main.lua" 12) ∧
    Location.read "my game/main.lua 12" = .ok ⟨"my game/main.lua", 12⟩ ∧
    Location.read "a  b 4294967295" = .ok ⟨"a  b", 4294967295⟩ := by
  obtain ⟨-, hclear, -, hback, hwritten⟩ := places_agree "\t my game/main.lua \u3000+12\n"
  have hread : Location.read "\t my game/main.lua \u3000+12\n" = .ok ⟨"my game/main.lua", 12⟩ := by
    decide
  obtain ⟨-, -, -, htext⟩ := hback _ hread
  refine ⟨(hclear _).1 hread, htext, hwritten ⟨"a  b", 4294967295⟩ (by decide) ?_ (by decide)⟩
  exact ⟨by rintro _ ⟨⟩; rfl, by rintro _ ⟨⟩; rfl⟩

end Console
end MobDebug
