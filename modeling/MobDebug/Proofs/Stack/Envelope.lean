import MobDebug.Stack
import MobDebug.Proofs.Evaluation.Results

/-!
A stack is read back from the tables that carry it: its frames in a row, in each a row of its info
and its two scopes, and in a scope, by name, the rows of value and display text.
-/
namespace MobDebug.Stack
open Literal (Key Value Table)

variable {d : Nat} {f : Frame} {frames : List Frame} {x : Variable} {xs : List Variable}

/-! ### What carries a stack -/

def pairTable (x : Variable) : Table :=
  Table.row [x.value, .str x.display]

def scopeTable (xs : List Variable) : Table :=
  xs.map fun x => (.str x.name, .table (pairTable x))

/-- A function that has no name has nil in its place. -/
def infoTable (f : Frame) : Table :=
  Table.row [(f.name.map Value.str).getD .nil, .str f.source, .number (.int f.lineDefined),
    .number (.int f.currentLine), .str f.what, .str f.nameWhat, .str f.shortSource]

def frameTable (f : Frame) : Table :=
  Table.row [.table (infoTable f), .table (scopeTable f.locals), .table (scopeTable f.upvalues)]

def stackTable (frames : List Frame) : Table :=
  Table.row (frames.map fun f => .table (frameTable f))

/-- The reply with these frames. -/
def reply (frames : List Frame) : String :=
  (Value.table (stackTable frames)).render

/-- The variables of all frames. -/
def allVariables (frames : List Frame) : List Variable :=
  frames.flatMap fun f => f.locals ++ f.upvalues

/-- In each scope a name stands for one variable, and all values can be written. -/
structure Frame.Writable (f : Frame) : Prop where
  locals : (f.locals.map Variable.name).Nodup
  upvalues : (f.upvalues.map Variable.name).Nodup
  values : ∀ x ∈ f.locals ++ f.upvalues, x.value.Writable

/-- The same variable, with an equal value. -/
structure Variable.Same (x y : Variable) : Prop where
  name : x.name = y.name
  display : x.display = y.display
  value : x.value.equal y.value = true ∧ y.value.equal x.value = true

/-- The same frame, with the same variables in the same order. -/
structure Frame.Same (f g : Frame) : Prop where
  info : f = { g with locals := f.locals, upvalues := f.upvalues }
  locals : List.Forall₂ Variable.Same f.locals g.locals
  upvalues : List.Forall₂ Variable.Same f.upvalues g.upvalues

/-! ### It can be written, four levels deeper than the values -/

theorem writable_pair (h : x.value.Writable) : (Value.table (pairTable x)).Writable := by
  refine Value.writable_row (by simp) ?_
  simp only [List.forall_mem_cons, List.not_mem_nil, false_implies, implies_true, and_true]
  exact ⟨h, .str _⟩

theorem writable_scope (hn : (xs.map Variable.name).Nodup) (hv : ∀ x ∈ xs, x.value.Writable) :
    (Value.table (scopeTable xs)).Writable := by
  refine .table _ ⟨?_, ?_, ?_⟩ ?_
  · rw [scopeTable, List.map_map]
    have hkeys := hn.map (f := Key.str) fun _ _ h => Key.str.inj h
    rwa [List.map_map] at hkeys
  · exact List.forall_mem_map.2 fun _ _ => trivial
  · exact List.forall_mem_map.2 fun _ _ => rfl
  · exact List.forall_mem_map.2 fun x hx => writable_pair (hv x hx)

theorem writable_info (f : Frame) : (Value.table (infoTable f)).Writable := by
  refine Value.writable_row (by simp) ?_
  have hname : ((f.name.map Value.str).getD .nil).Writable := by
    cases f.name with
    | none => exact .nil
    | some name => exact .str name
  simp only [List.forall_mem_cons, List.not_mem_nil, false_implies, implies_true, and_true]
  exact ⟨hname, .str _, .number _ nofun, .number _ nofun, .str _, .str _, .str _⟩

theorem writable_frame (h : f.Writable) : (Value.table (frameTable f)).Writable := by
  refine Value.writable_row (by simp) ?_
  simp only [List.forall_mem_cons, List.not_mem_nil, false_implies, implies_true, and_true]
  refine ⟨writable_info f, writable_scope h.locals fun x hx => ?_,
    writable_scope h.upvalues fun x hx => ?_⟩
  · exact h.values x (List.mem_append_left _ hx)
  · exact h.values x (List.mem_append_right _ hx)

theorem writable_stack (hl : frames.length ≤ 2 ^ 64) (h : ∀ f ∈ frames, f.Writable) :
    (Value.table (stackTable frames)).Writable := by
  refine Value.writable_row (by rwa [List.length_map]) ?_
  exact List.forall_mem_map.2 fun f hf => writable_frame (h f hf)

theorem depth_scope_le_iff : (Value.table (scopeTable xs)).depth ≤ d + 2 ↔
    ∀ x ∈ xs, x.value.depth ≤ d := by
  rw [Value.depth, Nat.add_le_add_iff_right, Literal.depthIn_le_iff, scopeTable,
    List.forall_mem_map]
  refine forall₂_congr fun x _ => ?_
  rw [pairTable, Value.depth_row_le_iff]
  simp [Value.depth]

theorem depth_info_le (f : Frame) : (Value.table (infoTable f)).depth ≤ d + 2 := by
  have hrow : ∀ v ∈ [(f.name.map Value.str).getD .nil, .str f.source,
      .number (.int f.lineDefined), .number (.int f.currentLine), .str f.what, .str f.nameWhat,
      .str f.shortSource], v.depth ≤ d + 1 := by
    cases f.name <;> simp [Value.depth]
  exact Value.depth_row_le_iff.2 hrow

theorem depth_frame_le_iff : (Value.table (frameTable f)).depth ≤ d + 3 ↔
    ∀ x ∈ f.locals ++ f.upvalues, x.value.depth ≤ d := by
  rw [frameTable, Value.depth_row_le_iff, List.forall_mem_append]
  simp only [List.forall_mem_cons, List.not_mem_nil, false_implies, implies_true, and_true,
    depth_scope_le_iff, and_iff_right (depth_info_le f)]

theorem depth_stack_le_iff : (Value.table (stackTable frames)).depth ≤ d + envelopeDepth ↔
    ∀ x ∈ allVariables frames, x.value.depth ≤ d := by
  rw [envelopeDepth, stackTable, Value.depth_row_le_iff, List.forall_mem_map, allVariables,
    List.forall_mem_flatMap]
  exact forall₂_congr fun f _ => depth_frame_le_iff

/-! ### It is read back -/

/-- The variable with the value that the text of its value is read as. -/
def Variable.reread (x : Variable) : Variable :=
  { x with value := x.value.reread }

/-- The frame at this place, with the variables that are read. -/
def Frame.reread (index : Nat) (f : Frame) : Frame :=
  { f with
    index
    locals := f.locals.map Variable.reread
    upvalues := f.upvalues.map Variable.reread }

theorem getD_nil (v : Value) : (if v.isNil then none else some v : Option Value).getD .nil = v := by
  cases v <;> rfl

theorem reread_pair (x : Variable) : (Value.table (pairTable x)).reread =
    .table (Table.row [x.value.reread, .str x.display]) :=
  Value.reread_row _

/-- A nil in the place of a value is the lack of one. -/
theorem readVariable_pair (x : Variable) :
    readVariable (.str x.name, (Value.table (pairTable x)).reread) = .ok x.reread := by
  have hl : [x.value.reread, .str x.display].length ≤ 2 ^ 64 := by simp
  have hvalue : (Table.row [x.value.reread, .str x.display]).find? (.position 1) = _ :=
    Table.find?_row (i := 0) hl rfl
  have hdisplay : (Table.row [x.value.reread, .str x.display]).find? (.position 2) = _ :=
    Table.find?_row (i := 1) hl rfl
  simp only [readVariable, reread_pair, expectTable, bind, Except.bind, hvalue, hdisplay, getD_nil]
  rfl

theorem reread_scope (xs : List Variable) : (Value.table (scopeTable xs)).reread =
    .table (xs.map fun x => (.str x.name, (Value.table (pairTable x)).reread)) := by
  rw [Value.reread, Literal.rereadEntries_eq, scopeTable, List.map_map]
  rfl

theorem readScope_scope (xs : List Variable) :
    readScope (some (Value.table (scopeTable xs)).reread) = .ok (xs.map Variable.reread) := by
  rw [reread_scope]
  change List.mapM readVariable _ = _
  rw [List.mapM_map]
  exact mapM_ok fun x _ => readVariable_pair x

/-- The least integer is read as a float, and that as the integer again. -/
theorem toInt64?_reread (i : Int64) : (Value.number (.int i)).reread.toInt64? = some i := by
  by_cases hi : i = .minValue
  · rw [hi]
    decide
  · rw [Value.reread, Literal.Number.reread, if_neg hi]
    rfl

/-- The info that the text of a frame's info is read as. -/
def infoRow (f : Frame) : Table :=
  Table.row [(f.name.map Value.str).getD .nil, .str f.source,
    (Value.number (.int f.lineDefined)).reread, (Value.number (.int f.currentLine)).reread,
    .str f.what, .str f.nameWhat, .str f.shortSource]

theorem reread_info (f : Frame) : (Value.table (infoTable f)).reread = .table (infoRow f) := by
  rw [infoTable, Value.reread_row]
  cases h : f.name <;> simp only [infoRow, h] <;> rfl

/-- Only a name may be lacking. -/
theorem find?_info (f : Frame) :
    let text (n : Nat) := ((infoRow f).find? (.position n)).bind Value.toStr?
    let line (n : Nat) := ((infoRow f).find? (.position n)).bind Value.toInt64?
    text 1 = f.name ∧ text 2 = some f.source ∧ line 3 = some f.lineDefined ∧
      line 4 = some f.currentLine ∧ text 5 = some f.what ∧ text 6 = some f.nameWhat ∧
      text 7 = some f.shortSource := by
  intro text line
  have hl : [(f.name.map Value.str).getD .nil, .str f.source,
      (Value.number (.int f.lineDefined)).reread, (Value.number (.int f.currentLine)).reread,
      .str f.what, .str f.nameWhat, .str f.shortSource].length ≤ 2 ^ 64 := by simp
  refine ⟨?_, ?_, ?_, ?_, ?_, ?_, ?_⟩
  · refine (Table.find?_row_bind (i := 0) rfl hl rfl).trans ?_
    cases f.name <;> rfl
  · exact Table.find?_row_bind (i := 1) rfl hl rfl
  · exact (Table.find?_row_bind (i := 2) rfl hl rfl).trans (toInt64?_reread _)
  · exact (Table.find?_row_bind (i := 3) rfl hl rfl).trans (toInt64?_reread _)
  · exact Table.find?_row_bind (i := 4) rfl hl rfl
  · exact Table.find?_row_bind (i := 5) rfl hl rfl
  · exact Table.find?_row_bind (i := 6) rfl hl rfl

theorem reread_frame (f : Frame) : (Value.table (frameTable f)).reread =
    .table (Table.row [.table (infoRow f), (Value.table (scopeTable f.locals)).reread,
      (Value.table (scopeTable f.upvalues)).reread]) := by
  rw [frameTable, Value.reread_row, ← reread_info]
  rfl

theorem readFrame_frame (i : Nat) (f : Frame) :
    readFrame i (Table.row [.table (infoRow f), (Value.table (scopeTable f.locals)).reread,
      (Value.table (scopeTable f.upvalues)).reread]) = .ok (f.reread i) := by
  have hl : ([.table (infoRow f), (Value.table (scopeTable f.locals)).reread,
      (Value.table (scopeTable f.upvalues)).reread] : List Value).length ≤ 2 ^ 64 := by simp
  have hinfo : (Table.row [.table (infoRow f), _, _]).find? (.position 1) = _ :=
    Table.find?_row (i := 0) hl rfl
  have hlocals : (Table.row [.table (infoRow f), _, _]).find? (.position 2) = _ :=
    Table.find?_row (i := 1) hl rfl
  have hupvalues : (Table.row [.table (infoRow f), _, _]).find? (.position 3) = _ :=
    Table.find?_row (i := 2) hl rfl
  have hscope (xs : List Variable) : readScope (if (Value.table (scopeTable xs)).reread.isNil then
      none else some (Value.table (scopeTable xs)).reread) = .ok (xs.map Variable.reread) :=
    readScope_scope xs
  obtain ⟨h₁, h₂, h₃, h₄, h₅, h₆, h₇⟩ := find?_info f
  rw [readFrame, hinfo, hlocals, hupvalues, hscope, hscope]
  simp only [Value.isNil, Bool.false_eq_true, if_false, expectTable, bind, Except.bind, h₁, h₂, h₃,
    h₄, h₅, h₆, h₇, Option.getD_some]
  rfl

/-- By induction on the frames, each of which is in its place. -/
theorem readFrames_frames (n : Nat) (frames : List Frame) :
    readFrames n (frames.map fun f => (Value.table (frameTable f)).reread) =
      .ok (frames.mapIdx fun i f => f.reread (n + i)) := by
  induction frames generalizing n with
  | nil => rfl
  | cons f frames ih =>
    rw [List.map_cons, readFrames, reread_frame, List.mapIdx_cons]
    simp only [expectTable, bind, Except.bind, readFrame_frame, ih]
    simp only [Nat.add_zero, Nat.add_assoc, Nat.add_comm 1]

theorem reread_stack (frames : List Frame) : (Value.table (stackTable frames)).reread =
    .table (Table.row (frames.map fun f => (Value.table (frameTable f)).reread)) := by
  rw [stackTable, Value.reread_row, List.map_map]
  rfl

theorem read_reply (hl : frames.length ≤ 2 ^ 64) (h : ∀ f ∈ frames, f.Writable)
    (hd : (Value.table (stackTable frames)).depth ≤ min (d + envelopeDepth) (UInt64.size - 1)) :
    read d (reply frames) = .ok (frames.mapIdx fun i f => f.reread i) := by
  have hframes : ∀ v ∈ frames.map fun f => (Value.table (frameTable f)).reread,
      v.isNil = false := List.forall_mem_map.2 fun _ _ => rfl
  have hread := readFrames_frames 0 frames
  simp only [Nat.zero_add] at hread
  simp only [read, reply, Literal.read_render (writable_stack hl h) hd, Except.mapError, bind,
    Except.bind, reread_stack, expectTable]
  rw [Table.sequence_row (by rwa [List.length_map]) hframes, hread]

theorem read_reply_deep (hl : frames.length ≤ 2 ^ 64) (h : ∀ f ∈ frames, f.Writable)
    (hd : min (d + envelopeDepth) (UInt64.size - 1) < (Value.table (stackTable frames)).depth) :
    ∃ o, read d (reply frames) =
      .error (.literal ⟨.tooDeep (min (d + envelopeDepth) (UInt64.size - 1)), o⟩) := by
  obtain ⟨o, ho⟩ := Literal.read_render_deep (writable_stack hl h) hd
  refine ⟨o, ?_⟩
  rw [read, reply, ho]
  rfl

/-- The levels around the values are added to the limit, and the limit has 64 bits. -/
theorem depth_stack_le_limit_iff :
    (Value.table (stackTable frames)).depth ≤ min (d + envelopeDepth) (UInt64.size - 1) ↔
      ∀ x ∈ allVariables frames, x.value.depth ≤ d ∧
        x.value.depth + envelopeDepth < UInt64.size := by
  have hsize : UInt64.size - 1 = UInt64.size - 1 - envelopeDepth + envelopeDepth := rfl
  rw [Nat.le_min, hsize, depth_stack_le_iff, depth_stack_le_iff, ← forall₂_and]
  refine forall₂_congr fun x _ => and_congr_right fun _ => ?_
  rw [envelopeDepth, UInt64.size]
  omega

theorem same_reread (hv : ∀ x ∈ f.locals ++ f.upvalues, x.value.Writable) (i : Nat) :
    (f.reread i).Same { f with index := i } := by
  have hscope {xs : List Variable} (hxs : ∀ x ∈ xs, x.value.Writable) :
      List.Forall₂ Variable.Same (xs.map Variable.reread) xs := by
    rw [List.forall₂_map_left_iff, List.forall₂_same]
    exact fun x hx => ⟨rfl, rfl, (Literal.equal_reread (hxs x hx)).symm⟩
  obtain ⟨hlocals, hupvalues⟩ := List.forall_mem_append.1 hv
  exact ⟨rfl, hscope hlocals, hscope hupvalues⟩

/-- A stack comes back from the reply that carries it: its frames in order and with their places in
it, and their variables in order, each with an equal value. So it does where every value nests
tables at most as deep as the limit allows, that is where each would come back as the result of an
evaluation; and where one nests deeper, nothing comes back. Nesting is counted in 64 bits. -/
theorem stack_read_back (frames : List Frame) (d : Nat) (hl : frames.length ≤ 2 ^ 64)
    (h : ∀ f ∈ frames, f.Writable) :
    ((∀ x ∈ allVariables frames, x.value.depth ≤ d ∧
        x.value.depth + envelopeDepth < UInt64.size) →
      ∃ gs, read d (reply frames) = .ok gs ∧
        List.Forall₂ Frame.Same gs (frames.mapIdx fun i f => { f with index := i })) ∧
    ((∃ x ∈ allVariables frames, d < x.value.depth) → ∃ o, read d (reply frames) =
      .error (.literal ⟨.tooDeep (min (d + envelopeDepth) (UInt64.size - 1)), o⟩)) ∧
    ((∀ x ∈ allVariables frames, x.value.depth + envelopeDepth < UInt64.size) →
      ((∃ gs, read d (reply frames) = .ok gs) ↔ ∀ x ∈ allVariables frames,
        ∃ vs, Evaluation.results d (Evaluation.reply [x.value]) = .ok vs)) := by
  have hvalues : ∀ x ∈ allVariables frames, x.value.Writable :=
    List.forall_mem_flatMap.2 fun f hf => (h f hf).values
  refine ⟨fun hd => ?_, fun ⟨x, hx, hd⟩ => ?_, fun hsize => ?_⟩
  · refine ⟨_, read_reply hl h (depth_stack_le_limit_iff.2 hd), ?_⟩
    rw [List.forall₂_iff_get]
    refine ⟨by simp, fun i hi _ => ?_⟩
    simp only [List.get_eq_getElem, List.getElem_mapIdx]
    exact same_reread (h _ (List.getElem_mem _)).values i
  · refine read_reply_deep hl h (Nat.lt_of_not_le fun hle => ?_)
    exact Nat.not_le_of_lt hd (depth_stack_le_limit_iff.1 hle x hx).1
  · have haccepted : (∃ gs, read d (reply frames) = .ok gs) ↔
        ∀ x ∈ allVariables frames, x.value.depth ≤ d := by
      constructor
      · rintro ⟨gs, hgs⟩
        by_contra hdeep
        rw [← forall₂_congr fun x hx => and_iff_left (hsize x hx), ← depth_stack_le_limit_iff,
          Nat.not_le] at hdeep
        obtain ⟨o, ho⟩ := read_reply_deep hl h hdeep
        cases hgs.symm.trans ho
      · exact fun hd =>
          ⟨_, read_reply hl h (depth_stack_le_limit_iff.2 fun x hx => ⟨hd x hx, hsize x hx⟩)⟩
    rw [haccepted]
    exact forall₂_congr fun x hx => (Evaluation.results_single_iff (hvalues x hx)).symm

/-- Two frames: one of a function without a name, and one with a variable without a name, one with a
reserved word for it, and one that is nil. The least integer is a line. -/
theorem stack_read_back_two :
    let deep : Value := .table [(.int 2, .str "]]")]
    let locals : List Variable := [⟨"end", deep, "table: 0x1"⟩, ⟨"", .nil, "nil"⟩]
    let frames : List Frame :=
      [⟨7, some "f", "@a.lua", "a.lua", .minValue, 3, "Lua", "method", locals, []⟩,
        ⟨7, none, "=[C]", "[C]", -1, -1, "C", "", [], []⟩]
    frames.length ≤ 2 ^ 64 ∧ (∀ f ∈ frames, f.Writable) ∧
      (∃ gs, read 1 (reply frames) = .ok gs ∧
        List.Forall₂ Frame.Same gs (frames.mapIdx fun i f => { f with index := i })) ∧
      (∃ o, read 0 (reply frames) = .error (.literal ⟨.tooDeep 4, o⟩)) ∧
      ∃ vs, Evaluation.results 1 (Evaluation.reply [deep]) = .ok vs := by
  intro deep locals frames
  have hdeep : deep.Writable := by
    refine .table _ ⟨by decide, ?_, by decide⟩ ?_
    · exact List.forall_mem_singleton.2 trivial
    · exact List.forall_mem_singleton.2 (.str _)
  have hvalues : ∀ x ∈ locals, x.value.Writable := by
    simp only [locals, List.forall_mem_cons, List.not_mem_nil, false_implies, implies_true,
      and_true]
    exact ⟨hdeep, .nil⟩
  have h : ∀ f ∈ frames, f.Writable := by
    simp only [frames, List.forall_mem_cons, List.not_mem_nil, false_implies, implies_true,
      and_true]
    refine ⟨⟨by decide, by decide, ?_⟩, ⟨by decide, by decide, ?_⟩⟩
    · rwa [List.append_nil]
    · exact fun x hx => absurd hx List.not_mem_nil
  have hl : frames.length ≤ 2 ^ 64 := by decide
  have hsize : ∀ x ∈ allVariables frames, x.value.depth + envelopeDepth < UInt64.size := by decide
  obtain ⟨hread, -, haccepted⟩ := stack_read_back frames 1 hl h
  obtain ⟨gs, hgs, hsame⟩ := hread (by decide)
  refine ⟨hl, h, ⟨gs, hgs, hsame⟩, (stack_read_back frames 0 hl h).2.1 (by decide), ?_⟩
  exact (haccepted hsize).1 ⟨gs, hgs⟩ ⟨"end", deep, "table: 0x1"⟩
    (by simp [allVariables, frames, locals])

end MobDebug.Stack
