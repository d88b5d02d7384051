import MobDebug.Proofs.Channel.Wiring

/-! The replies of the debuggee. Commands are answered in the order in which they were accepted, one
at a time, and whatever they are answered with while the channel is open the debuggee has said. -/
namespace MobDebug
open Channel (Request Outcome Entry Act Step Run Ledger acceptedIn answersIn keptIn)

namespace Channel
variable {c d : Channel} {a : Act} {r : Request} {o : Outcome} {j : List Entry} {e : Error}

/-- The commands that were answered, each with its outcome, in order. -/
def repliesIn (j : List Entry) : List (Request × Outcome) :=
  (answersIn j).filterMap fun (id, o) => ((acceptedIn j).find? (·.id = id)).map (·, o)

theorem find?_id {rs : List Request} (h : rs.Pairwise (·.id < ·.id)) (hr : r ∈ rs) :
    rs.find? (·.id = r.id) = some r := by
  induction rs with
  | nil => cases hr
  | cons q rs ih =>
    obtain ⟨hq, hrs⟩ := List.pairwise_cons.1 h
    rcases List.mem_cons.1 hr with rfl | hr
    · simp
    · have hne : q.id ≠ r.id := Nat.ne_of_lt (hq r hr)
      rw [List.find?_cons_of_neg (by simpa using hne)]
      exact ih hrs hr

theorem Ledger.accepted_of_outstanding (h : Ledger c) (hr : r ∈ c.outstanding) :
    r ∈ acceptedIn c.journal := by
  obtain ⟨done, hdone, -⟩ := h.account
  have hk : r ∈ keptIn c.journal := hdone ▸ List.mem_append_right _ hr
  exact (List.mem_filter.1 hk).1

theorem Ledger.outstanding_increasing (h : Ledger c) : c.outstanding.Pairwise (·.id < ·.id) := by
  obtain ⟨done, hdone, -⟩ := h.account
  have hk := h.kept_increasing
  rw [hdone] at hk
  exact (List.pairwise_append.1 hk).2.1

/-- A command that is outstanding has not been answered. -/
theorem Ledger.outcome?_outstanding (h : Ledger c) (hr : r ∈ c.outstanding) :
    c.outcome? r.id = none := by
  obtain ⟨done, hdone, hids⟩ := h.account
  have hk := h.kept_ids
  rw [hdone, List.map_append, hids, List.pairwise_append] at hk
  by_contra hne
  have hm := h.outcome?_isSome.1 (Option.isSome_iff_ne_none.2 hne)
  exact absurd (hk.2.2 _ hm _ (List.mem_map_of_mem hr)) (Nat.lt_irrefl _)

/-- A command that is yet to come has not been answered. -/
theorem Ledger.outcome?_next (h : Ledger c) : c.outcome? c.nextId = none := by
  by_contra hne
  have hm := h.outcome?_isSome.1 (Option.isSome_iff_ne_none.2 hne)
  exact absurd (h.kept_fresh (h.answers_kept hm)) (Nat.lt_irrefl _)

/-- Commands are answered from the front of those that are outstanding. -/
theorem step_replies (hs : Step c a d) (ha : a ≠ .ask) : ∃ replies : List (Request × Outcome),
    answersIn d.journal = answersIn c.journal ++ replies.map (fun p => (p.1.id, p.2)) ∧
      c.outstanding = replies.map (·.1) ++ d.outstanding := by
  cases hs with
  | submit | withdraw => exact absurd rfl ha
  | look => exact ⟨[], by simp, rfl⟩
  | send ho hf hw => exact ⟨[], by simp, by simp [outstanding, hf, hw]⟩
  | @answer r o hf => exact ⟨[(r, o)], by simp, by simp [outstanding, hf]⟩
  | event => exact ⟨[], by simp [record], rfl⟩
  | @fail error =>
    refine ⟨c.outstanding.map (·, .error error), ?_, ?_⟩
    · simp [answersIn_ending, Function.comp_def]
    · simp [outstanding, Function.comp_def]

theorem run_answers (hs : Run (· ≠ .ask) c d) : ∃ replies : List (Request × Outcome),
    answersIn d.journal = answersIn c.journal ++ replies.map (fun p => (p.1.id, p.2)) ∧
      c.outstanding = replies.map (·.1) ++ d.outstanding := by
  induction hs with
  | refl => exact ⟨[], by simp, rfl⟩
  | tail _ hs ih =>
    obtain ⟨a, ha, hs⟩ := hs
    obtain ⟨xs, hxs, hout⟩ := ih
    obtain ⟨ys, hys, hout'⟩ := step_replies hs ha
    exact ⟨xs ++ ys, by simp [hys, hxs], by simp [hout, hout']⟩

theorem run_replies (hs : Run (· ≠ .ask) c d) (h : Ledger c) {replies : List (Request × Outcome)}
    (hanswers : answersIn d.journal =
      answersIn c.journal ++ replies.map fun p => (p.1.id, p.2))
    (hout : c.outstanding = replies.map (·.1) ++ d.outstanding) :
    repliesIn d.journal = repliesIn c.journal ++ replies := by
  have hfind : ∀ p ∈ replies, (acceptedIn c.journal).find? (·.id = p.1.id) = some p.1 := by
    intro p hp
    apply find?_id h.increasing
    apply h.accepted_of_outstanding
    rw [hout]
    exact List.mem_append_left _ (List.mem_map_of_mem hp)
  have hsame : replies.filterMap ((fun p : Nat × Outcome =>
      ((acceptedIn c.journal).find? (·.id = p.1)).map (·, p.2)) ∘ fun p => (p.1.id, p.2)) =
      replies := by
    refine (List.filterMap_congr fun p hp => ?_).trans List.filterMap_some
    rw [Function.comp_apply, hfind p hp]
    rfl
  rw [repliesIn, repliesIn, (run_accepted hs).1, hanswers, List.filterMap_append,
    List.filterMap_map, hsame]

/-- A command has been submitted. -/
structure Submitted (c d : Channel) (r : Request) : Prop where
  id : r.id = c.nextId
  closed : d.closed = c.closed
  answers : answersIn d.journal = answersIn c.journal
  accepted : acceptedIn d.journal = acceptedIn c.journal ++ [r]
  outstanding : d.outstanding = c.outstanding ++ [r]

theorem submitted_of_submit {command : Wire.Command} {id : Nat}
    (h : c.submit command = .ok (id, d)) :
    ∃ line, command.encode = .ok line ∧ Submitted c d ⟨id, command.name, line⟩ := by
  obtain ⟨line, hline, -, rfl, rfl⟩ := submit_eq_ok h
  exact ⟨line, hline, rfl, rfl, by simp, by simp, (List.append_assoc ..).symm⟩

/-- A command that is submitted answers none. -/
theorem Submitted.replies (h : Submitted c d r) (hl : Ledger c) :
    repliesIn d.journal = repliesIn c.journal := by
  rw [repliesIn, repliesIn, h.accepted, h.answers]
  apply List.filterMap_congr
  rintro ⟨id, o⟩ hp
  obtain ⟨q, hq, rfl⟩ := List.mem_map.1 (hl.answers_kept (List.mem_map_of_mem (f := (·.1)) hp))
  have hfind := find?_id hl.increasing (List.mem_filter.1 hq).1
  dsimp only
  rw [List.find?_append, hfind, Option.some_or]

/-- The debuggee has said this. -/
def Said (o : Outcome) : Prop := ∀ e, o = .error e → e.kind = .debuggee

/-- The first command that was outstanding has been answered. -/
structure Replied (c d : Channel) (r : Request) (o : Outcome) : Prop where
  said : Said o
  answers : answersIn d.journal = answersIn c.journal ++ [(r.id, o)]
  accepted : acceptedIn d.journal = acceptedIn c.journal
  outstanding : c.outstanding = r :: d.outstanding
  replies : repliesIn d.journal = repliesIn c.journal ++ [(r, o)]

/-- While the channel stays open, one reply has come at most. -/
def Heard (c d : Channel) : Prop :=
  d.closed = false → answersIn d.journal = answersIn c.journal ∨
    ∃ id o, Said o ∧ answersIn d.journal = answersIn c.journal ++ [(id, o)]

theorem heard_of_answers (h : answersIn d.journal = answersIn c.journal) : Heard c d :=
  fun _ => .inl h

theorem fail_closed (c : Channel) (e : Error) : (c.fail e).closed := by
  unfold fail
  split
  · assumption
  · rfl

theorem heard_fail (c : Channel) (e : Error) : Heard c (c.fail e) :=
  fun ho => absurd (ho.symm.trans (c.fail_closed e)) nofun

theorem heard_answer {accepts : Wire.CommandName → Bool} (ho : Said o)
    (hd : answersIn d.journal = answersIn c.journal) :
    Heard c ((c.answer? accepts o).getD d) := by
  intro _
  cases h : c.answer? accepts o with
  | none => exact .inl hd
  | some d =>
    obtain ⟨r, -, -, rfl⟩ := answer?_eq_some.1 h
    exact .inr ⟨r.id, o, ho, by simp⟩

theorem Heard.of_answers {b : Channel} (h : Heard c d)
    (hb : answersIn c.journal = answersIn b.journal) : Heard b d := by
  intro ho
  rw [← hb]
  exact h ho

theorem heard_dispatch {response : Wire.Response} (h : c.dispatch response = .ok d) :
    Heard c d := by
  have hok (body : String) : Said (.ok body) := nofun
  have herror (code : Nat) (message : String) : Said (.error (.debuggee code message)) := by
    rintro e ⟨⟩
    rfl
  cases dispatched_of_eq h with
  | output => exact heard_of_answers (by simp [record])
  | @paused location told _ _ ht =>
    have htold : answersIn told.journal = answersIn c.journal := by simp [ht, record]
    exact (heard_answer (hok _) rfl).of_answers htold
  | replied => exact heard_answer (hok _) rfl
  | rejected _ _ ht => exact heard_answer (herror _ _) (by simp [ht, record])

/-- What the debuggee does in a step: it gives no reply, or one to the first command that is
outstanding. -/
theorem Heard.cases (h : Heard c d) (hs : Run (· ≠ .ask) c d) (hl : Ledger c)
    (ho : d.closed = false) :
    (answersIn d.journal = answersIn c.journal ∧ d.outstanding = c.outstanding ∧
      repliesIn d.journal = repliesIn c.journal) ∨ ∃ r o, Replied c d r o := by
  obtain ⟨replies, hanswers, hout⟩ := run_answers hs
  have hreplies := run_replies hs hl hanswers hout
  rcases h ho with he | ⟨id, o, hsaid, he⟩
  · rw [hanswers, List.append_right_eq_self] at he
    obtain rfl := List.map_eq_nil_iff.1 he
    exact .inl ⟨by simpa using hanswers, hout.symm, by simpa using hreplies⟩
  · rw [hanswers, List.append_cancel_left_eq] at he
    obtain ⟨⟨r, _⟩, rfl, ⟨⟩⟩ := List.map_eq_singleton_iff.1 he
    exact .inr ⟨r, _, hsaid, hanswers, (run_accepted hs).1, hout, hreplies⟩

end Channel

namespace Link
variable {l m : Link}

theorem heard_writer (h : l.writerStep? = some m) : Channel.Heard l.channel m.channel := by
  have hbegin (l : Link) :
      answersIn l.beginWriting.channel.journal = answersIn l.channel.journal := by
    rcases l.beginWriting_cases with ⟨-, he⟩ | ⟨r, c, hs, he⟩
    · rw [he]
    · obtain ⟨rest, -, -, -, rfl⟩ := Channel.sendNext?_eq_some hs
      rw [he]
      simp
  cases writerTurn_some h with
  | leaves => exact Channel.heard_of_answers rfl
  | looks => exact Channel.heard_of_answers (hbegin l.looked)
  | breaks | expires => exact Channel.heard_fail _ _
  | continues => exact Channel.heard_of_answers rfl
  | finishes => exact Channel.heard_of_answers (hbegin ((l.wrote _).watch _))

theorem heard_step {t : Task} (h : l.step? t = some m) : Channel.Heard l.channel m.channel := by
  cases t with
  | reader =>
    cases readerTurn_some h with
    | leaves | takes => exact Channel.heard_of_answers rfl
    | hands _ _ _ _ hd => exact Channel.heard_dispatch hd
    | misplaced | malformed | ended => exact Channel.heard_fail _ _
  | writer => exact heard_writer h
  | watchdog id =>
    cases watchdogTurn_some h with
    | leaves | dismissed => exact Channel.heard_of_answers rfl
    | expires => exact Channel.heard_fail _ _
  | debuggee =>
    obtain ⟨s, -, rfl⟩ := Option.map_eq_some_iff.1 h
    exact Channel.heard_of_answers rfl

end Link
end MobDebug
