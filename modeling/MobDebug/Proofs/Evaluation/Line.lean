import MobDebug.Debuggee.Script
import MobDebug.Evaluation
import MobDebug.Proofs.Text.Blank
import MobDebug.Proofs.Wire.Lines

/-!
The line that asks for an expression, and how a debuggee takes it apart. The options stand in a
comment after the expression, which may have comments like that itself. The last one counts.
-/
namespace MobDebug
open Wire (Command CommandName SingleLine isLineEnd)

variable {c : Char} {cs mark before middle : List Char} {frame maxDepth : Nat}

namespace Debuggee

theorem beforeLast?_eq_none (hc : c ∈ mark) (h : c ∉ cs) : beforeLast? mark cs = none := by
  induction cs with
  | nil => rfl
  | cons d cs ih =>
    have hstart : mark.isPrefixOf (d :: cs) = false := by
      rw [← Bool.not_eq_true, List.isPrefixOf_iff_prefix]
      exact fun hbegins => h (hbegins.subset hc)
    rw [beforeLast?, ih fun hmem => h (List.mem_cons_of_mem d hmem), hstart]
    rfl

/-- What is last in the end of a text is last in the text. -/
theorem beforeLast?_append (h : beforeLast? mark cs = some middle) :
    beforeLast? mark (before ++ cs) = some (before ++ middle) := by
  induction before with
  | nil => exact h
  | cons c before ih => rw [List.cons_append, beforeLast?, ih, List.cons_append]

/-- The code is all that precedes options without a brace, whatever it is. -/
theorem chunk_append (h : '\x7b' ∉ cs) : chunk (before ++ " --\x7b".toList ++ cs) = before := by
  have hnone : beforeLast? [' ', '-', '-', '\x7b'] cs = none := beforeLast?_eq_none (by decide) h
  have hmark : beforeLast? " --\x7b".toList (" --\x7b".toList ++ cs) = some [] := by
    change beforeLast? _ (' ' :: '-' :: '-' :: '\x7b' :: cs) = some []
    simp [beforeLast?, hnone]
  rw [chunk, List.append_assoc, beforeLast?_append hmark, List.append_nil, Option.getD_some]

theorem expression_return (code : List Char) : expression ("return ".toList ++ code) = code := by
  have hstart : "return ".toList.isPrefixOf ("return ".toList ++ code) :=
    List.isPrefixOf_iff_prefix.2 (List.prefix_append ..)
  rw [expression, dropStart, if_pos hstart, List.drop_left]

/-- What a debuggee answers that looks up an expression. -/
def lookUp (d : Debuggee) (expression : String) : Debuggee :=
  match d.script.evaluations.lookup expression with
  | some (.ok body) => d.reply .ok body
  | some (.error message) => d.reply .error message
  | none =>
    d.reply .error ("[string \"return " ++ expression ++ "\"]:1: attempt to call a nil value")

theorem evaluate_of_chunk {args : List Char} {code : String} (d : Debuggee)
    (h : chunk args = ("return " ++ code).toList) : d.evaluate args = d.lookUp code := by
  have hcode : expression (chunk args) = code.toList := by
    rw [h, String.toList_append]
    exact expression_return code.toList
  rw [evaluate, hcode, h, lookUp, String.ofList_toList, String.ofList_toList, String.append_assoc]
  rfl

theorem splitLine_token (name : CommandName) (args : List Char) :
    splitLine (name.token.toList ++ ' ' :: args) = (name.token.toList, args) := by
  have hname : ∀ c ∈ name.token.toList, (c != ' ') = true := by
    cases name <;> simp [CommandName.token]
  have hstop : ∀ c ∈ (' ' :: args).head?, (c != ' ') = false := by simp
  rw [splitLine, Text.takeWhile_run hname hstop, Text.dropWhile_run hname hstop]
  rfl

/-- A line that does not end in a carriage return is taken as it is. -/
theorem take_line {name : CommandName} {args line : String} (d : Debuggee)
    (hline : line = name.token ++ " " ++ args) (hend : ∀ c ∈ line.toList.getLast?, c ≠ '\r') :
    d.take line =
      if d.script.silent.contains name then d.record (.received line)
      else (d.record (.received line)).obey args.toList name := by
  have hkept : (line.toList.reverse.dropWhile (· == '\r')).reverse = line.toList := by
    rw [Text.dropWhile_stop, List.reverse_reverse]
    rw [List.head?_reverse]
    exact fun c hc => beq_eq_false_iff_ne.2 (hend c hc)
  have hsplit : splitLine line.toList = (name.token.toList, args.toList) := by
    rw [hline, String.append_assoc, String.toList_append, String.toList_append]
    exact splitLine_token name args.toList
  simp only [take, hkept, hsplit, String.ofList_toList, CommandName.ofToken?_token]
  rfl

end Debuggee

namespace Evaluation

/-- The command that asks for this code. -/
def asking (frame : Nat) (code : String) (maxDepth : Nat) : Command :=
  { name := .exec, args := "return " ++ code, frame := some frame,
    options := ["maxlevel=" ++ toString maxDepth] }

/-- The options that follow the code. -/
def lineOptions (frame maxDepth : Nat) : String :=
  "stack=" ++ toString frame ++ "; maxlevel=" ++ toString maxDepth

/-- What follows the name of the command. -/
def lineArgs (frame : Nat) (code : String) (maxDepth : Nat) : String :=
  "return " ++ code ++ " --\x7b" ++ lineOptions frame maxDepth ++ "\x7d"

theorem text_asking (frame : Nat) (code : String) (maxDepth : Nat) :
    (asking frame code maxDepth).text = "EXEC " ++ lineArgs frame code maxDepth := by
  rw [← String.toList_inj]
  simp [Command.text, Command.allOptions, asking, CommandName.token, lineArgs, lineOptions]

theorem mem_lineOptions (h : c ∈ (lineOptions frame maxDepth).toList) :
    c ∈ "stack=".toList ∨ c ∈ "; maxlevel=".toList ∨ c.isDigit := by
  rw [lineOptions, String.toList_append, String.toList_append, String.toList_append,
    Nat.toString_eq_repr, Nat.toString_eq_repr, Nat.toList_repr, Nat.toList_repr,
    List.mem_append, List.mem_append, List.mem_append] at h
  rcases h with ((h | h) | h) | h
  · exact .inl h
  · exact .inr (.inr (Text.isDigit_toDigits h))
  · exact .inr (.inl h)
  · exact .inr (.inr (Text.isDigit_toDigits h))

theorem lineOptions_plain (h : c ∈ (lineOptions frame maxDepth).toList) :
    isLineEnd c = false ∧ c ≠ '\x7b' := by
  have hstack : ∀ c ∈ "stack=".toList, isLineEnd c = false ∧ c ≠ '\x7b' := by simp [isLineEnd]
  have hlevel : ∀ c ∈ "; maxlevel=".toList, isLineEnd c = false ∧ c ≠ '\x7b' := by simp [isLineEnd]
  rcases mem_lineOptions h with h | h | h
  · exact hstack c h
  · exact hlevel c h
  · refine ⟨Wire.isLineEnd_digit h, ?_⟩
    rintro rfl
    cases h

theorem asking_single {code : String} (h : SingleLine code) :
    SingleLine (asking frame code maxDepth).text := by
  have hoptions : SingleLine (lineOptions frame maxDepth) := fun c hc => (lineOptions_plain hc).1
  rw [text_asking, lineArgs]
  exact .append (by decide) (.append (.append (.append (.append (by decide) h) (by decide))
    hoptions) (by decide))

theorem chunk_lineArgs (frame : Nat) (code : String) (maxDepth : Nat) :
    Debuggee.chunk (lineArgs frame code maxDepth).toList = ("return " ++ code).toList := by
  have hbrace : '\x7b' ∉ (lineOptions frame maxDepth ++ "\x7d").toList := by
    rw [String.toList_append, List.mem_append]
    rintro (h | h)
    · exact (lineOptions_plain h).2 rfl
    · revert h
      decide
  rw [lineArgs, String.append_assoc, String.toList_append, String.toList_append]
  exact Debuggee.chunk_append hbrace

theorem take_asking (d : Debuggee) (frame : Nat) (code : String) (maxDepth : Nat) :
    let line := (asking frame code maxDepth).text
    d.take line =
      if d.script.silent.contains .exec then d.record (.received line)
      else (d.record (.received line)).lookUp code := by
  intro line
  have hline : line = CommandName.exec.token ++ " " ++ lineArgs frame code maxDepth :=
    text_asking frame code maxDepth
  have hbrace : "\x7d".toList = ['\x7d'] := by decide
  have hend : ∀ c ∈ line.toList.getLast?, c ≠ '\r' := by
    rw [hline, lineArgs, ← String.append_assoc, String.toList_append, hbrace, List.getLast?_concat]
    rintro c ⟨⟩
    decide
  rw [d.take_line hline hend, Debuggee.obey, Debuggee.evaluate_of_chunk _ (chunk_lineArgs ..)]

/-- The code that is asked for is what is left without the blanks at the ends. -/
def codeOf (expression : String) : String :=
  String.ofList (Text.trim expression.toList)

theorem command_eq (frame : Nat) (expression : String) (maxDepth : Nat) :
    command frame expression maxDepth =
      if codeOf expression = "" then .error .emptyExpression
      else if SingleLine (codeOf expression) then
        .ok (asking frame (codeOf expression) maxDepth)
      else .error .multiLineExpression := by
  have hempty : codeOf expression = "" ↔ (Text.trim expression.toList).isEmpty := by
    rw [codeOf, ← String.toList_inj, String.toList_ofList, List.isEmpty_iff]
    rfl
  have hsingle : SingleLine (codeOf expression) ↔
      ¬ (Text.trim expression.toList).any isLineEnd := by
    rw [SingleLine, codeOf, String.toList_ofList, Bool.not_eq_true, List.any_eq_false]
    simp only [Bool.not_eq_true]
  simp only [command, hempty, hsingle, ite_not]
  rfl

/-- The line that asks for an expression has it looked up as it is, without the blanks at its ends,
whatever stands in it. There is such a line just if what is left is not empty and has no line end;
one at an end of the expression is a blank like others. -/
theorem expression_looked_up (frame : Nat) (expression : String) (maxDepth : Nat) :
    let code := codeOf expression
    (code = "" → command frame expression maxDepth = .error .emptyExpression) ∧
    (code ≠ "" → ¬ SingleLine code →
      command frame expression maxDepth = .error .multiLineExpression) ∧
    (code ≠ "" → SingleLine code → ∃ asked line,
      command frame expression maxDepth = .ok asked ∧ asked.encode = .ok (line ++ "\n") ∧
      SingleLine line ∧ ∀ d : Debuggee, d.take line =
        if d.script.silent.contains .exec then d.record (.received line)
        else (d.record (.received line)).lookUp code) := by
  intro code
  refine ⟨fun he => ?_, fun hne hs => ?_, fun hne hs => ?_⟩
  · rw [command_eq, if_pos he]
  · rw [command_eq, if_neg hne, if_neg hs]
  · have hline := @asking_single frame maxDepth code hs
    exact ⟨asking frame code maxDepth, _, by rw [command_eq, if_neg hne, if_pos hs],
      Command.encode_of_single hline, hline, fun d => take_asking d frame code maxDepth⟩

/-- An expression may hold all that its line is made of. -/
theorem expression_looked_up_delimiters : ∃ asked line,
    command 1 "\t return f --\x7bstack=2\x7d; g \n" 8 = .ok asked ∧
    asked.encode = .ok (line ++ "\n") ∧
    line = "EXEC return return f --\x7bstack=2\x7d; g --\x7bstack=1; maxlevel=8\x7d" ∧
    ((Debuggee.ofScript
      { evaluations := [("return f --\x7bstack=2\x7d; g", .ok "\x7b\"1\"\x7d")] }).take line).log =
      [.received line, .replied ⟨.ok, "\x7b\"1\"\x7d"⟩] := by
  obtain ⟨-, -, haccepted⟩ := expression_looked_up 1 "\t return f --\x7bstack=2\x7d; g \n" 8
  obtain ⟨asked, line, hasked, hline, -, htake⟩ := haccepted (by decide) (by decide)
  have hasking : asked = asking 1 "return f --\x7bstack=2\x7d; g" 8 :=
    Except.ok.inj (hasked.symm.trans rfl)
  have hencode : asked.encode =
      .ok ("EXEC return return f --\x7bstack=2\x7d; g --\x7bstack=1; maxlevel=8\x7d" ++ "\n") := by
    rw [hasking]
    rfl
  refine ⟨asked, line, hasked, hline, ?_, ?_⟩
  · exact String.append_left_inj "\n" |>.1 (Except.ok.inj (hline.symm.trans hencode))
  · rw [htake]
    rfl

end Evaluation
end MobDebug
