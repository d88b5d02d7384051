import MobDebug.Proofs.Console.Telling
import MobDebug.Proofs.Session.Turn

/-! A printer prints the lines of the events that it receives, in their order. An event has one
line, unless it tells the state and place of the latest state line again. -/
namespace MobDebug

/-- The runs of a debugger in which the printer `n` has received these events and missed none, with
what it has printed. -/
inductive Console.Prints (json : Bool) (n : Nat) :
    List Session.Event → String → Debugger → Prop where
  | begin {s : Debugger} {taken : Nat} (h : s.jobs.lookup n = some (.printer json taken none)) :
      Prints json n [] "" s
  | receive {es : List Session.Event} {text printed : String} {s u : Debugger} {taken next : Nat}
      {last : LastShown} {e : Session.Event} (h : Prints json n es text s)
      (hj : s.jobs.lookup n = some (.printer json taken last))
      (he : s.session.events.receive taken = some (.message e, next))
      (hs : s.step? (.job n) = some u) (ho : u.out = s.out ++ printed) :
      Prints json n (es ++ [e]) (text ++ printed) u
  | other {es : List Session.Event} {text : String} {s u : Debugger} (h : Prints json n es text s)
      (hs : Debugger.Step s u) (hj : u.jobs.lookup n = s.jobs.lookup n) : Prints json n es text u

namespace Console
open Session (Event Snapshot)
open Wire (SingleLine)

/-- The events that have a line of their own, after a line for the state and place in `last`. -/
def shown (last : LastShown) : List Event → List Event
  | [] => []
  | .stateChanged s :: es =>
    if last = some (s.state, s.location) then shown last es
    else .stateChanged s :: shown (some (s.state, s.location)) es
  | .output text :: es => .output text :: shown last es
  | .debuggeeError message :: es => .debuggeeError message :: shown last es

/-- What is printed of events, one after the other. -/
def printed (json : Bool) (last : LastShown) : List Event → String
  | [] => ""
  | e :: es => (showEvent json last e).2 ++ printed json (showEvent json last e).1 es

/-- The state and place of the last state line, after these events. -/
def lastAfter (json : Bool) (last : LastShown) (es : List Event) : LastShown :=
  es.foldl (fun last e => (showEvent json last e).1) last

variable {json : Bool} {n taken next fuel : Nat} {last : LastShown} {es : List Event} {e : Event}
  {text : String} {s u : Debugger} {b : Broadcast Event}

theorem printed_concat (json : Bool) (last : LastShown) (es : List Event) (e : Event) :
    printed json last (es ++ [e]) =
      printed json last es ++ (showEvent json (lastAfter json last es) e).2 := by
  induction es generalizing last with
  | nil => simp [printed, lastAfter]
  | cons d es ih =>
    rw [List.cons_append, printed, printed, ih, String.append_assoc]
    rfl

/-- In JSON, an event that is shown has the line of its tree. -/
theorem printed_json (last : LastShown) (es : List Event) : printed true last es =
    String.join ((shown last es).map fun e => (eventTree e).render ++ "\n") := by
  have hcons (e : Event) (es : List Event) :
      String.join ((e :: es).map fun e => (eventTree e).render ++ "\n") =
        (eventTree e).render ++ "\n" ++
          String.join (es.map fun e => (eventTree e).render ++ "\n") := by
    rw [List.map_cons, String.join_cons]
  induction es generalizing last with
  | nil => rfl
  | cons e es ih =>
    rw [printed]
    cases e with
    | stateChanged s =>
      rw [shown, showEvent]
      split
      · rw [ih, String.empty_append]
      · rw [ih, hcons]
        rfl
    | output text =>
      rw [shown, hcons, ← ih]
      rfl
    | debuggeeError message =>
      rw [shown, hcons, ← ih]
      rfl

theorem out_release (s : Debugger) : s.release.out = s.out := by
  unfold Debugger.release
  split <;> rfl

/-- What a printer does with an event that it receives. -/
theorem printer_step (hj : s.jobs.lookup n = some (.printer json taken last))
    (he : s.session.events.receive taken = some (.message e, next))
    (hs : s.step? (.job n) = some u) :
    u.jobs.lookup n = some (.printer json next (showEvent json last e).1) ∧
      u.out = s.out ++ (showEvent json last e).2 := by
  obtain ⟨job, session, job', text, hlookup, hstep, rfl⟩ := Debugger.jobStep_eq_some hs
  cases hj.symm.trans hlookup
  simp only [Debugger.jobStep?, he] at hstep
  cases hstep
  refine ⟨?_, out_release _⟩
  rw [Debugger.jobs_release, Debugger.lookup_setJob (by rw [hj]; rfl), if_pos rfl]

theorem prints_eq (h : Prints json n es text s) : text = printed json none es ∧
    ∃ taken, s.jobs.lookup n = some (.printer json taken (lastAfter json none es)) := by
  induction h with
  | begin hj => exact ⟨rfl, _, hj⟩
  | @receive es text more s u taken next last e _ hj he hs ho ih =>
    obtain ⟨rfl, taken', hj'⟩ := ih
    cases hj.symm.trans hj'
    obtain ⟨hu, hout⟩ := printer_step hj he hs
    have hmore : more = (showEvent json (lastAfter json none es) e).2 := by
      have hlist := congrArg String.toList (ho.symm.trans hout)
      rw [String.toList_append, String.toList_append] at hlist
      exact String.toList_inj.1 (List.append_cancel_left hlist)
    refine ⟨by rw [printed_concat, hmore], next, ?_⟩
    rw [hu, lastAfter, lastAfter, List.foldl_append]
    rfl
  | other _ _ hj ih => exact ⟨ih.1, by rw [hj]; exact ih.2⟩

/-- A step of the debugger leaves a printer alone or gives it the next event, as long as it misses
none and somebody has the session. -/
theorem prints_step (h : Prints json n es text s) (hs : Debugger.Step s u) :
    Prints json n es text u ∨ (∃ e more, Prints json n (es ++ [e]) (text ++ more) u) ∨
      (∃ taken last missed next, s.jobs.lookup n = some (.printer json taken last) ∧
        s.session.events.receive taken = some (.lagged missed, next)) ∨
      (s.gone = true ∧ u.jobs.lookup n = some (.ended .done)) := by
  obtain ⟨-, taken, hj⟩ := prints_eq h
  rcases Debugger.lookup_step hs hj (by simp) with hown | hkept
  · cases he : s.session.events.receive taken with
    | none =>
      obtain ⟨session, job, more, hstep, -, hu⟩ := Debugger.jobStep_own hj hown
      simp only [Debugger.jobStep?, he] at hstep
      split at hstep
      · next hgone =>
        cases hstep
        exact .inr (.inr (.inr ⟨hgone, hu⟩))
      · cases hstep
    | some p =>
      obtain ⟨received, next⟩ := p
      cases received with
      | message e =>
        exact .inr (.inl ⟨e, _, h.receive hj he hown (printer_step hj he hown).2⟩)
      | lagged missed => exact .inr (.inr (.inl ⟨taken, _, missed, next, hj, he⟩))
  · exact .inl (h.other hs (hkept.trans hj.symm))

/-- The events that were sent before a printer began, if it misses none. -/
theorem showEvents_eq (hlag : b.sent.length - b.capacity ≤ next)
    (hf : b.sent.length < fuel + next) :
    showEvents json b fuel next last = printed json last (b.sent.drop next) := by
  induction fuel generalizing next last with
  | zero =>
    rw [List.drop_eq_nil_of_le (by omega)]
    rfl
  | succ fuel ih =>
    have hreceive : b.receive next = b.sent[next]?.map fun e => (.message e, next + 1) := by
      simp only [Broadcast.receive, if_neg (Nat.not_lt.2 hlag)]
    rw [showEvents, hreceive]
    cases he : b.sent[next]? with
    | none =>
      rw [List.drop_eq_nil_of_le (List.getElem?_eq_none_iff.1 he)]
      rfl
    | some e =>
      obtain ⟨hlt, rfl⟩ := List.getElem?_eq_some_iff.1 he
      rw [List.drop_eq_getElem_cons hlt, printed, Option.map_some]
      dsimp only
      rw [ih (by omega) (by omega)]

/-- What a printer prints in JSON are lines, one for each event in turn, but for a state that the
latest state line tells already. A line is read as its event. -/
theorem json_lines (h : Prints true n es text s) :
    (∃ lines : List String, text = String.join (lines.map (· ++ "\n")) ∧
      (∀ line ∈ lines, SingleLine line) ∧
      lines.map Told.read? = (shown none es).map fun e => some (.ofEvent e)) ∧
    (∀ (b : Broadcast Event) (start : Nat), b.sent.length - b.capacity ≤ start →
      start ≤ b.sent.length → b.sent.drop start = es →
        showEvents true b (es.length + 1) start none = text) ∧
    ∀ u, Debugger.Step s u →
      Prints true n es text u ∨ (∃ e more, Prints true n (es ++ [e]) (text ++ more) u) ∨
        (∃ taken last missed next, s.jobs.lookup n = some (.printer true taken last) ∧
          s.session.events.receive taken = some (.lagged missed, next)) ∨
        (s.gone = true ∧ u.jobs.lookup n = some (.ended .done)) := by
  obtain ⟨htext, -⟩ := prints_eq h
  refine ⟨⟨(shown none es).map fun e => (eventTree e).render, ?_, ?_, ?_⟩, ?_,
    fun u hs => prints_step h hs⟩
  · rw [htext, printed_json, List.map_map]
    rfl
  · intro line hline
    obtain ⟨e, -, rfl⟩ := List.mem_map.1 hline
    exact Json.render_single _
  · rw [List.map_map]
    exact List.map_congr_left fun e _ => read?_event e
  · intro b start hlag hle hes
    have hlength := congrArg List.length hes
    rw [List.length_drop] at hlength
    rw [showEvents_eq hlag (by omega), hes, htext]

/-- An output with a quote, a line end and a control character, and a state that is told twice. -/
theorem json_lines_forged : ∃ text s, Prints true 1
      [.output "\"\x7d\n\x01", .stateChanged ⟨.paused, 0, some ⟨"a\r\n.lua", 7⟩, [⟨"b", 1⟩]⟩,
        .stateChanged ⟨.paused, 2, some ⟨"a\r\n.lua", 7⟩, []⟩] text s ∧
    ∃ first second, text = first ++ "\n" ++ (second ++ "\n") ∧
      SingleLine first ∧ SingleLine second ∧ Told.read? first = some (.output "\"\x7d\n\x01") ∧
      Told.read? second = some (.state .paused 0 (some ⟨"a\r\n.lua", 7⟩) ["b:1"]) := by
  let output : Event := .output "\"\x7d\n\x01"
  let paused : Event := .stateChanged ⟨.paused, 0, some ⟨"a\r\n.lua", 7⟩, [⟨"b", 1⟩]⟩
  let again : Event := .stateChanged ⟨.paused, 2, some ⟨"a\r\n.lua", 7⟩, []⟩
  let session : Session := { Session.new {} with events := ⟨4, [output, paused, again]⟩ }
  have h0 : Prints true 1 [] "" { session, jobs := [(1, .printer true 0 none)] } := .begin rfl
  have h1 := h0.receive rfl rfl rfl rfl
  have h2 := h1.receive rfl rfl rfl rfl
  obtain ⟨text, s, h3⟩ : ∃ text s, Prints true 1 [output, paused, again] text s :=
    ⟨_, _, h2.receive rfl rfl rfl rfl⟩
  obtain ⟨⟨lines, htext, hsingle, hread⟩, -⟩ := json_lines h3
  have hshown : shown none [output, paused, again] = [output, paused] := rfl
  rw [hshown] at hread
  obtain ⟨first, later, rfl, hfirst, hread⟩ := List.map_eq_cons_iff.1 hread
  obtain ⟨second, later, rfl, hsecond, hread⟩ := List.map_eq_cons_iff.1 hread
  obtain rfl := List.map_eq_nil_iff.1 hread
  refine ⟨_, _, h3, first, second, ?_, hsingle _ (by simp), hsingle _ (by simp), hfirst, hsecond⟩
  rw [htext]
  simp [String.join]

end Console
end MobDebug
