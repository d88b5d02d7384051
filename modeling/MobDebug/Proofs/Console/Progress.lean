import MobDebug.Proofs.Console.Order

/-! A console that is left alone comes to its next line, past the events that are waiting and the
blank lines before it; and where no line is left it ends. -/
namespace MobDebug.Console
open Wire (SingleLine)

/-- A step of a console in which no line begins and none ends. -/
def Idles (s : Session) (l l' : Loop) : Prop :=
  l.step? s = some (s, l', "") ∧ Loop.Move l s [] [] s l'

variable {json : Bool} {r : Record} {l l' : Loop} {s u : Session} {text tail line : String}
  {more : List UInt8} {taken next : Nat}

/-- To take an event leaves fewer of them. -/
theorem receive_lt {α : Type} {b : Broadcast α} {received : Received α}
    (h : b.receive taken = some (received, next)) : taken < next ∧ next ≤ b.sent.length := by
  simp only [Broadcast.receive] at h
  split at h
  · next hlagged =>
    cases h
    exact ⟨hlagged, Nat.sub_le _ _⟩
  · obtain ⟨a, ha, he⟩ := Option.map_eq_some_iff.1 h
    cases he
    obtain ⟨hlt, -⟩ := List.getElem?_eq_some_iff.1 ha
    exact ⟨Nat.lt_succ_self _, hlt⟩

theorem step_event (hf : l.Free s taken) {received : Received Session.Event}
    (he : s.events.receive taken = some (received, next)) :
    l.step? s = some (s, { l with taken := some next }, "") := by
  simp only [Loop.step?, hf.going, hf.begun, hf.idle, hf.live, he, Bool.false_eq_true, if_false]

theorem step_hear (hf : l.Free s taken) (he : s.events.receive taken = none)
    (ht : l.typed ≠ []) :
    l.step? s = some (s, { l with typed := [], input := l.input ++ l.typed }, "") := by
  have hne : l.typed.isEmpty = false := by simpa using ht
  simp only [Loop.step?, hf.going, hf.begun, hf.idle, hf.live, he, hne, Bool.false_eq_true,
    if_false, Bool.not_false, if_true]

/-- The step of a console that has heard all that was typed and taken all events. -/
theorem step_line (hf : l.Free s taken) (he : s.events.receive taken = none)
    (ht : l.typed = []) {bytes rest : List UInt8}
    (h : takeLine? l.input l.closed = some (bytes, rest)) :
    l.step? s = some (({ l with input := rest } : Loop).runLine s (Text.decodeLossy bytes)) := by
  simp only [Loop.step?, hf.going, hf.begun, hf.idle, hf.live, he, ht, h, List.isEmpty_nil,
    Bool.false_eq_true, if_false, Bool.not_true]

theorem exists_move_line (hf : l.Free s taken) (he : s.events.receive taken = none)
    (ht : l.typed = []) {bytes rest : List UInt8}
    (h : takeLine? l.input l.closed = some (bytes, rest)) :
    ∃ u l' told, l.step? s = some (u, l', String.join told) ∧
      Loop.Move l s (unlessBlank (Text.decodeLossy bytes)) told u l' := by
  have htake : takeLine? l.input (l.closed && l.typed.isEmpty) = some (bytes, rest) := by
    rw [ht, List.isEmpty_nil, Bool.and_true, h]
  obtain ⟨told, hmove, htold⟩ := Loop.move_runLine hf htake rfl
  exact ⟨_, _, told, htold ▸ step_line hf he ht h, hmove⟩

theorem Idles.begin (hl : l.ended = false) (ht : l.taken = none) :
    Idles s l { l with taken := some s.events.sent.length } := by
  refine ⟨?_, .begin hl ht⟩
  simp only [Loop.step?, hl, ht, Bool.false_eq_true, if_false]

theorem Idles.event (hf : l.Free s taken) {received : Received Session.Event}
    (he : s.events.receive taken = some (received, next)) :
    Idles s l { l with taken := some next } :=
  ⟨step_event hf he, .event hf he⟩

theorem Idles.hear (hf : l.Free s taken) (he : s.events.receive taken = none)
    (ht : l.typed ≠ []) : Idles s l { l with typed := [], input := l.input ++ l.typed } :=
  ⟨step_hear hf he ht, .hear hf (List.append_nil _).symm⟩

/-- The console after it has taken all events and heard all that was typed. -/
theorem exists_heard (hf : l.Free s taken) : ∃ m n,
    Relation.ReflTransGen (Idles s) l m ∧ m.Free s n ∧ s.events.receive n = none ∧ m.typed = [] ∧
      m.input = l.input ++ l.typed ∧ m.closed = l.closed := by
  induction hn : s.events.sent.length - taken using Nat.strongRecOn generalizing l taken with
  | ind n ih =>
    cases he : s.events.receive taken with
    | some p =>
      obtain ⟨hlt, hle⟩ := receive_lt he
      obtain ⟨m, k, hrun, hm⟩ :=
        ih (s.events.sent.length - p.2) (by omega) (l := { l with taken := some p.2 })
          ⟨hf.going, rfl, hf.idle, hf.live⟩ rfl
      exact ⟨m, k, .head (.event hf he) hrun, hm⟩
    | none =>
      by_cases ht : l.typed = []
      · exact ⟨l, taken, .refl, hf, he, ht, by rw [ht, List.append_nil], rfl⟩
      · exact ⟨_, taken, .single (.hear hf he ht), ⟨hf.going, hf.begun, hf.idle, hf.live⟩, he, rfl,
          rfl, rfl⟩

/-- A console that is left alone takes this line next; it begins, unless it is blank. -/
def Takes (s : Session) (l : Loop) (line : String) : Prop :=
  ∃ m u l' told, Relation.ReflTransGen (Idles s) l m ∧
    m.step? s = some (u, l', String.join told) ∧ Loop.Move m s (unlessBlank line) told u l'

/-- A line is taken as soon as it is typed to its end, also while more may come. -/
theorem takes (hf : l.Free s taken) {rest : List UInt8} (hline : '\n' ∉ line.toList)
    (ht : l.input ++ l.typed = Text.bytes line ++ 0x0a :: rest) :
    Takes s l (String.ofList (Text.dropCarriageReturn line.toList)) := by
  obtain ⟨m, k, hrun, hm, he, htyped, hinput, -⟩ := exists_heard hf
  have hplain : 0x0a ∉ Text.bytes line := fun hb => hline (Text.mem_of_mem_flatMap (by decide) hb)
  have htake (closed : Bool) : takeLine? m.input closed =
      some (Text.bytes (String.ofList (Text.dropCarriageReturn line.toList)), rest) := by
    rw [hinput, ht, takeLine?_newline hplain, dropReturn_bytes]
  obtain ⟨u, l', told, hstep, hmove⟩ := exists_move_line hm he htyped (htake _)
  rw [Text.decodeLossy_bytes] at hmove
  exact ⟨m, u, l', told, hrun, hstep, hmove⟩

end MobDebug.Console
