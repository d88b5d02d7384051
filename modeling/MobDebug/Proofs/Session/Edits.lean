import MobDebug.Proofs.Session.Calls
import MobDebug.Proofs.Text.Digits
import MobDebug.Proofs.Lists

/-! The commands that set and clear breakpoints. Each says which breakpoint it is about. -/
namespace MobDebug
open Channel (Request)

namespace Session
variable {b c : Breakpoint} {on off : Bool} {r : Request} {line : String}

/-- What a command is to do with a breakpoint: set it, clear it, or nothing. -/
def Breakpoint.edit? (b : Breakpoint) (r : Request) : Option Bool :=
  [true, false].find? fun on =>
    r.name = (b.command on).name ∧ (b.command on).line? = some r.line

theorem Breakpoint.edit?_eq_some : b.edit? r = some on ↔
    r.name = (b.command on).name ∧ (b.command on).line? = some r.line := by
  cases on <;> grind [edit?, Breakpoint.command, Wire.Command.setBreakpoint,
    Wire.Command.deleteBreakpoint]

/-- The parts of a text around its last blank. -/
theorem append_blank_inj {xs ys ds es : List Char} (hd : ' ' ∉ ds) (he : ' ' ∉ es)
    (h : xs ++ ' ' :: ds = ys ++ ' ' :: es) : xs = ys ∧ ds = es := by
  have hlast (xs : List Char) {ds : List Char} (hd : ' ' ∉ ds) :
      (xs ++ ' ' :: ds).reverse.takeWhile (· != ' ') = ds.reverse := by
    rw [List.reverse_append, List.reverse_cons, List.append_assoc, List.singleton_append]
    apply Text.takeWhile_run
    · intro c hc
      simpa using ne_of_mem_of_not_mem (List.mem_reverse.1 hc) hd
    · simp
  have hds : ds = es := by
    rw [← List.reverse_inj, ← hlast xs hd, h, hlast ys he]
  subst hds
  exact ⟨List.append_cancel_right h, rfl⟩

theorem toList_text (b : Breakpoint) (on : Bool) :
    (b.command on).text.toList = (b.command on).name.token.toList ++
      ' ' :: (b.file.toList ++ ' ' :: Nat.toDigits 10 b.line) := by
  cases on <;>
    simp [Wire.Command.text, Breakpoint.command, Wire.Command.setBreakpoint,
      Wire.Command.deleteBreakpoint, Wire.Command.allOptions]

theorem line?_eq_some {command : Wire.Command} (h : command.line? = some line) :
    command.text ++ "\n" = line := by
  unfold Wire.Command.line? at h
  split at h
  · cases h
  · exact Option.some.inj h

theorem encode_eq_ok {command : Wire.Command} (h : command.encode = .ok line) :
    command.line? = some line := by
  unfold Wire.Command.encode at h
  split at h
  · next he =>
    cases h
    exact he
  · cases h

/-- No two breakpoints are set, or cleared, by one command. -/
theorem command_inj (hb : (b.command on).line? = some line)
    (hc : (c.command on).line? = some line) : b = c := by
  have htext : (b.command on).text = (c.command on).text :=
    (String.append_left_inj _).1 ((line?_eq_some hb).trans (line?_eq_some hc).symm)
  have hname : (b.command on).name = (c.command on).name := by cases on <;> rfl
  have hlist := congrArg String.toList htext
  rw [toList_text, toList_text, hname] at hlist
  have hdigits (n : Nat) : ' ' ∉ Nat.toDigits 10 n := fun hm =>
    absurd (Text.isDigit_toDigits hm) (by decide)
  obtain ⟨-, htail⟩ := List.cons.inj (List.append_cancel_left hlist)
  obtain ⟨hfile, hline⟩ := append_blank_inj (hdigits b.line) (hdigits c.line) htail
  have hfile : b.file = c.file := String.toList_inj.1 hfile
  have hline : b.line = c.line := by
    rw [← Text.ofDigits_toDigits b.line, hline, Text.ofDigits_toDigits]
  cases b
  cases c
  cases hfile
  cases hline
  rfl

/-- What a call that waits has asked to be done with a breakpoint. -/
def Awaiting.edit? (b : Breakpoint) : Awaiting → Option Bool
  | .setBreakpoint c => if c = b then some true else none
  | .clearBreakpoint c => if c = b then some false else none
  | .attach (some c) _ => if c = b then some true else none
  | _ => none

theorem Awaiting.edit_inj (h : Awaiting.edit b on = .edit c off) : b = c ∧ on = off := by
  cases on <;> cases off <;> cases h <;> exact ⟨rfl, rfl⟩

/-- The call that waits has asked for what the command says. -/
def Awaiting.Asks (awaiting : Awaiting) (r : Request) : Prop :=
  ∀ b : Breakpoint, b.edit? r = awaiting.edit? b

theorem edit?_command {id : Nat} (h : (b.command on).line? = some line) (c : Breakpoint) :
    c.edit? ⟨id, (b.command on).name, line⟩ = if b = c then some on else none := by
  split
  · next he =>
    subst he
    exact Breakpoint.edit?_eq_some.2 ⟨rfl, h⟩
  · next hne =>
    cases he : c.edit? ⟨id, (b.command on).name, line⟩ with
    | none => rfl
    | some off =>
      obtain ⟨hname, hline⟩ := Breakpoint.edit?_eq_some.1 he
      obtain rfl : on = off := by
        cases on <;> cases off <;> first | rfl | cases hname
      exact absurd (command_inj h hline) hne

theorem asks_edit {id : Nat} (h : (b.command on).line? = some line) :
    (Awaiting.edit b on).Asks ⟨id, (b.command on).name, line⟩ := by
  intro c
  rw [edit?_command h]
  cases on <;> rfl

theorem asks_attach {id : Nat} {rest : List Breakpoint} (h : (b.command true).line? = some line) :
    (Awaiting.attach (some b) rest).Asks ⟨id, (b.command true).name, line⟩ := by
  intro c
  rw [edit?_command h]
  rfl

/-- A command of another kind is about no breakpoint. -/
theorem edit?_of_name (hs : r.name ≠ .setBreakpoint) (hd : r.name ≠ .deleteBreakpoint)
    (b : Breakpoint) : b.edit? r = none := by
  cases he : b.edit? r with
  | none => rfl
  | some on =>
    obtain ⟨hname, -⟩ := Breakpoint.edit?_eq_some.1 he
    cases on
    · exact absurd hname hd
    · exact absurd hname hs

theorem asks_other {awaiting : Awaiting} (hs : r.name ≠ .setBreakpoint)
    (hd : r.name ≠ .deleteBreakpoint) (ha : ∀ b, awaiting.edit? b = none) : awaiting.Asks r := by
  intro b
  rw [edit?_of_name hs hd, ha]

end Session
end MobDebug
