import MobDebug.Channel.Link
import Mathlib.Logic.Relation

/-! The steps of a channel, and what its journal tells. Every operation of a channel, and every task
of its link, is a run of these steps. -/
namespace MobDebug.Channel
open Wire (Command CommandName Response)

variable {c d : Channel} {id : Nat} {r : Request} {o : Outcome} {j k : List Entry}

def Entry.accepted? : Entry → Option Request
  | .submitted r => some r
  | _ => none

def Entry.withdrawn? : Entry → Option Nat
  | .withdrawn id => some id
  | _ => none

def Entry.sent? : Entry → Option Nat
  | .sent id => some id
  | _ => none

def Entry.answer? : Entry → Option (Nat × Outcome)
  | .answered id o => some (id, o)
  | _ => none

def Entry.event? : Entry → Option Event
  | .event e => some e
  | _ => none

attribute [simp] Entry.accepted? Entry.withdrawn? Entry.sent? Entry.answer? Entry.event?

/-- What the entries of a journal tell of one kind, in order. -/
def told {α : Type} (f : Entry → Option α) (j : List Entry) : List α := j.filterMap f

section told
variable {α : Type} {f : Entry → Option α} {e : Entry}

@[simp] theorem told_nil : told f [] = [] := rfl

@[simp] theorem told_cons : told f (e :: j) = (f e).toList ++ told f j := by
  cases h : f e <;> simp [told, h]

@[simp] theorem told_append : told f (j ++ k) = told f j ++ told f k :=
  List.filterMap_append

theorem told_map {β : Type} {g : β → Entry} {bs : List β} :
    told f (bs.map g) = bs.filterMap (f ∘ g) :=
  List.filterMap_map

end told

/-- The commands that were accepted. -/
abbrev acceptedIn (j : List Entry) : List Request := told Entry.accepted? j

/-- The commands that were taken back. -/
abbrev withdrawnIn (j : List Entry) : List Nat := told Entry.withdrawn? j

/-- The commands that were put in flight. -/
abbrev sentIn (j : List Entry) : List Nat := told Entry.sent? j

/-- The outcomes that were handed out, with the command of each. -/
abbrev answersIn (j : List Entry) : List (Nat × Outcome) := told Entry.answer? j

/-- The frames that answered no command, and the end of the channel. -/
abbrev eventsIn (j : List Entry) : List Event := told Entry.event? j

theorem events_eq (c : Channel) : c.events = eventsIn c.journal := by
  unfold events eventsIn told
  congr 1

/-- The end of a channel in its journal: every command that is outstanding ends with the error. -/
def ending (rs : List Request) (error : Error) : List Entry :=
  rs.map (fun r => .answered r.id (.error error)) ++ [.event (.closed error)]

theorem acceptedIn_ending (rs : List Request) (error : Error) :
    acceptedIn (ending rs error) = [] := by
  simp [ending, told_map, Function.comp_def]

theorem withdrawnIn_ending (rs : List Request) (error : Error) :
    withdrawnIn (ending rs error) = [] := by
  simp [ending, told_map, Function.comp_def]

theorem sentIn_ending (rs : List Request) (error : Error) : sentIn (ending rs error) = [] := by
  simp [ending, told_map, Function.comp_def]

theorem answersIn_ending (rs : List Request) (error : Error) :
    answersIn (ending rs error) = rs.map fun r => (r.id, .error error) := by
  simp [ending, told_map, Function.comp_def]

/-- The outstanding commands: the one in flight, then those that wait. -/
def outstanding (c : Channel) : List Request := c.inFlight.toList ++ c.waiting

theorem pending_eq : c.pending = c.outstanding.length := by
  cases hf : c.inFlight <;> simp [pending, outstanding, hf]

/-- Whose step it is: a caller asks, the writer sends, and whatever comes from the debuggee or ends
the channel settles. -/
inductive Act where
  | ask
  | send
  | settle

inductive Step : Channel → Act → Channel → Prop where
  | submit {c : Channel} {command : Command} {line : String}
      (he : command.encode = .ok line) (ho : c.closed = false) :
      Step c .ask
        { c with
          waiting := c.waiting ++ [⟨c.nextId, command.name, line⟩]
          nextId := c.nextId + 1
          signalled := true
          journal := c.journal ++ [.submitted ⟨c.nextId, command.name, line⟩] }
  | withdraw {c : Channel} {id : Nat} (hw : ∃ r ∈ c.waiting, r.id = id) :
      Step c .ask
        { c with
          waiting := c.waiting.filter (·.id != id)
          journal := c.journal ++ [.withdrawn id] }
  | look {c : Channel} : Step c .send { c with signalled := false }
  | send {c : Channel} {r : Request} {rest : List Request}
      (ho : c.closed = false) (hf : c.inFlight = none) (hw : c.waiting = r :: rest) :
      Step c .send
        { c with
          waiting := rest
          inFlight := some r
          lastSent := r.id
          journal := c.journal ++ [.sent r.id] }
  | answer {c : Channel} {r : Request} {o : Outcome} (hf : c.inFlight = some r) :
      Step c .settle
        { c with
          inFlight := none
          signalled := true
          journal := c.journal ++ [.answered r.id o] }
  | event {c : Channel} {e : Event} (hp : ∀ l n, e = .paused l n → n = c.lastSent)
      (hc : ∀ error, e ≠ .closed error) : Step c .settle (c.record (.event e))
  | fail {c : Channel} {error : Error} (ho : c.closed = false) :
      Step c .settle
        { c with
          waiting := []
          inFlight := none
          closed := true
          journal := c.journal ++ ending c.outstanding error }

/-- A run of steps, all of one of the acts `p`. -/
abbrev Run (p : Act → Prop) : Channel → Channel → Prop :=
  Relation.ReflTransGen fun c d => ∃ a, p a ∧ Step c a d

variable {a : Act} {p q : Act → Prop}

theorem Step.run (h : Step c a d) (ha : p a) : Run p c d :=
  .single ⟨a, ha, h⟩

theorem run_mono (hpq : ∀ a, p a → q a) (h : Run p c d) : Run q c d :=
  Relation.ReflTransGen.mono (fun _ _ ⟨a, ha, hs⟩ => ⟨a, hpq a ha, hs⟩) _ _ h

theorem submit_eq_ok {command : Command} (h : c.submit command = .ok (id, d)) :
    ∃ line, command.encode = .ok line ∧ c.closed = false ∧ id = c.nextId ∧
      d = { c with
        waiting := c.waiting ++ [⟨c.nextId, command.name, line⟩]
        nextId := c.nextId + 1
        signalled := true
        journal := c.journal ++ [.submitted ⟨c.nextId, command.name, line⟩] } := by
  unfold submit at h
  split at h
  · cases h
  · next line he =>
    split at h
    · cases h
    · next ho =>
      cases h
      exact ⟨line, he, by simpa using ho, rfl, rfl⟩

theorem submit_step {command : Command} (h : c.submit command = .ok (id, d)) : Step c .ask d := by
  obtain ⟨line, he, ho, -, rfl⟩ := submit_eq_ok h
  exact .submit he ho

theorem withdraw?_eq_some (h : c.withdraw? id = some d) :
    (∃ r ∈ c.waiting, r.id = id) ∧
      d = { c with
        waiting := c.waiting.filter (·.id != id)
        journal := c.journal ++ [.withdrawn id] } := by
  unfold withdraw? at h
  split at h
  · next hw =>
    cases h
    exact ⟨by simpa using hw, rfl⟩
  · cases h

theorem withdraw_step (h : c.withdraw? id = some d) : Step c .ask d := by
  obtain ⟨hw, rfl⟩ := withdraw?_eq_some h
  exact .withdraw hw

theorem sendNext?_eq_some (h : c.sendNext? = some (r, d)) :
    ∃ rest, c.closed = false ∧ c.inFlight = none ∧ c.waiting = r :: rest ∧
      d = { c with
        waiting := rest
        inFlight := some r
        lastSent := r.id
        journal := c.journal ++ [.sent r.id] } := by
  unfold sendNext? at h
  split at h
  · next ho hf hw =>
    cases h
    exact ⟨_, ho, hf, hw, rfl⟩
  · cases h

theorem send_step (h : c.sendNext? = some (r, d)) : Step c .send d := by
  obtain ⟨rest, ho, hf, hw, rfl⟩ := sendNext?_eq_some h
  exact .send ho hf hw

theorem answer?_eq_some {accepts : CommandName → Bool} : c.answer? accepts o = some d ↔
    ∃ q, c.inFlight = some q ∧ accepts q.name ∧ d = { c with
      inFlight := none, signalled := true, journal := c.journal ++ [.answered q.id o] } := by
  unfold answer?
  constructor
  · intro h
    obtain ⟨q, hq, h⟩ := Option.bind_eq_some_iff.1 h
    split at h
    · next ha =>
      cases h
      exact ⟨q, hq, ha, rfl⟩
    · cases h
  · rintro ⟨q, hq, ha, rfl⟩
    simp [hq, ha]

theorem answer_step {accepts : CommandName → Bool} (h : c.answer? accepts o = some d) :
    Step c .settle d := by
  obtain ⟨q, hq, -, rfl⟩ := answer?_eq_some.1 h
  exact .answer hq

theorem answer_getD_run {accepts : CommandName → Bool} :
    Run (· = .settle) c ((c.answer? accepts o).getD c) := by
  cases h : c.answer? accepts o with
  | none => exact .refl
  | some d => exact (answer_step h).run rfl

theorem event_step {e : Event} (hp : ∀ l n, e ≠ .paused l n) (hc : ∀ error, e ≠ .closed error) :
    Step c .settle (c.record (.event e)) :=
  .event (fun l n he => (hp l n he).elim) hc

/-- What becomes of a response. -/
inductive Dispatched (c : Channel) (r : Response) : Except ProtocolFault Channel → Prop where
  | output (hs : r.status = .output) : Dispatched c r (.ok (c.record (.event (.output r.body))))
  | garbled {fault : ProtocolFault} (hs : r.status = .paused)
      (hl : Wire.Location.read r.body = .error fault) : Dispatched c r (.error fault)
  | paused {location : Wire.Location} {told : Channel} (hs : r.status = .paused)
      (hl : Wire.Location.read r.body = .ok location)
      (ht : told = c.record (.event (.paused location c.lastSent))) :
      Dispatched c r (.ok ((told.answer? CommandName.isAnsweredByPause (.ok r.body)).getD told))
  | replied (hs : r.status = .ok ∨ r.status = .running) :
      Dispatched c r (.ok ((c.answer? (fun _ => true) (.ok r.body)).getD c))
  | rejected {message : String} {told : Channel} (hs : r.status = .badRequest ∨ r.status = .error)
      (hm : message = String.ofList (Text.trimEnd r.body.toList))
      (ht : told = c.record (.event (.debuggeeError message))) :
      Dispatched c r
        (.ok ((c.answer? (fun _ => true) (.error (.debuggee r.status.code message))).getD told))

theorem dispatched (c : Channel) (r : Response) : Dispatched c r (c.dispatch r) := by
  unfold dispatch
  split
  · next hs => exact .output hs
  · next hs =>
    split
    · next hl => exact .garbled hs hl
    · next hl => exact .paused hs hl rfl
  · next hs => exact .replied (.inl hs)
  · next hs => exact .replied (.inr hs)
  · next hs => exact .rejected (.inl hs) rfl rfl
  · next hs => exact .rejected (.inr hs) rfl rfl

theorem dispatched_of_eq {r : Response} {o : Except ProtocolFault Channel}
    (h : c.dispatch r = o) : Dispatched c r o :=
  h ▸ dispatched c r

theorem Dispatched.eq {r : Response} {o : Except ProtocolFault Channel} (h : Dispatched c r o) :
    c.dispatch r = o := by
  cases h with
  | output hs => simp [dispatch, hs]
  | garbled hs hl => simp [dispatch, hs, hl]
  | paused hs hl ht =>
    subst ht
    simp [dispatch, hs, hl]
  | replied hs => rcases hs with hs | hs <;> simp [dispatch, hs]
  | rejected hs hm ht =>
    subst hm ht
    rcases hs with hs | hs <;> simp [dispatch, hs]

theorem dispatch_run {response : Response} (h : c.dispatch response = .ok d) :
    Run (· = .settle) c d := by
  cases dispatched_of_eq h with
  | output => exact (event_step (by simp) (by simp)).run rfl
  | paused _ _ ht =>
    subst ht
    refine .head ⟨_, rfl, .event ?_ (by simp)⟩ answer_getD_run
    rintro l n ⟨⟩
    rfl
  | replied => exact answer_getD_run
  | rejected _ _ ht =>
    subst ht
    cases ha : c.answer? _ _ with
    | none => exact (event_step (by simp) (by simp)).run rfl
    | some d => exact (answer_step ha).run rfl

theorem fail_eq (ho : c.closed = false) (error : Error) :
    c.fail error =
      { c with
        waiting := []
        inFlight := none
        closed := true
        journal := c.journal ++ ending c.outstanding error } := by
  simp [fail, ho, ending, outstanding]

theorem fail_run (error : Error) : Run (· = .settle) c (c.fail error) := by
  cases ho : c.closed with
  | true => simpa [fail, ho] using Relation.ReflTransGen.refl
  | false =>
    rw [fail_eq ho]
    exact (Step.fail ho).run rfl

/-- Only callers have commands accepted or taken back. -/
theorem step_accepted (h : Step c a d) (ha : a ≠ .ask) :
    acceptedIn d.journal = acceptedIn c.journal ∧
      withdrawnIn d.journal = withdrawnIn c.journal := by
  cases h with
  | submit | withdraw => exact absurd rfl ha
  | fail => simp [acceptedIn_ending, withdrawnIn_ending]
  | _ => simp [record]

theorem run_accepted (h : Run (· ≠ .ask) c d) :
    acceptedIn d.journal = acceptedIn c.journal ∧
      withdrawnIn d.journal = withdrawnIn c.journal := by
  induction h with
  | refl => exact ⟨rfl, rfl⟩
  | tail _ hs ih =>
    obtain ⟨a, ha, hs⟩ := hs
    obtain ⟨h1, h2⟩ := step_accepted hs ha
    exact ⟨h1.trans ih.1, h2.trans ih.2⟩

/-- Only the writer puts commands in flight. -/
theorem step_sent (h : Step c a d) (ha : a ≠ .send) : sentIn d.journal = sentIn c.journal := by
  cases h with
  | look | send => exact absurd rfl ha
  | fail => simp [sentIn_ending]
  | _ => simp [record]

theorem run_sent (h : Run (· ≠ .send) c d) : sentIn d.journal = sentIn c.journal := by
  induction h with
  | refl => rfl
  | tail _ hs ih =>
    obtain ⟨a, ha, hs⟩ := hs
    exact (step_sent hs ha).trans ih

/-- The journal is never rewritten. -/
theorem step_journal (h : Step c a d) : c.journal <+: d.journal := by
  cases h with
  | look => exact List.prefix_rfl
  | _ => exact List.prefix_append _ _

theorem run_journal (h : Run p c d) : c.journal <+: d.journal := by
  induction h with
  | refl => exact List.prefix_rfl
  | tail _ hs ih =>
    obtain ⟨a, -, hs⟩ := hs
    exact ih.trans (step_journal hs)

theorem step_nextId (h : Step c a d) : c.nextId ≤ d.nextId := by
  cases h with
  | submit => exact Nat.le_succ _
  | _ => exact Nat.le_refl _

theorem run_nextId (h : Run p c d) : c.nextId ≤ d.nextId := by
  induction h with
  | refl => exact Nat.le_refl _
  | tail _ hs ih =>
    obtain ⟨a, -, hs⟩ := hs
    exact Nat.le_trans ih (step_nextId hs)

/-- A closed channel stays closed. -/
theorem closed_run (h : Run p c d) (hc : c.closed) : d.closed := by
  induction h with
  | refl => exact hc
  | tail _ hs ih =>
    obtain ⟨a, -, hs⟩ := hs
    cases hs with
    | fail => rfl
    | _ => exact ih

theorem answersIn_mono {p : Nat × Outcome} (h : j <+: k) (hp : p ∈ answersIn j) :
    p ∈ answersIn k := by
  obtain ⟨i, rfl⟩ := h
  simp only [told_append]
  exact List.mem_append_left _ hp

theorem acceptedIn_mono {r : Request} (h : j <+: k) (hr : r ∈ acceptedIn j) :
    r ∈ acceptedIn k := by
  obtain ⟨i, rfl⟩ := h
  simp only [told_append]
  exact List.mem_append_left _ hr

/-- The outcome of a command is the first that was handed out for it. -/
theorem outcome?_eq_lookup (c : Channel) (id : Nat) :
    c.outcome? id = (answersIn c.journal).lookup id := by
  unfold outcome?
  induction c.journal with
  | nil => rfl
  | cons e j ih =>
    cases e with
    | answered other o =>
      by_cases h : other = id
      · simp [h]
      · have h' : (id == other) = false := by simpa using fun he => h he.symm
        simp [h, List.lookup_cons, h', ih]
    | _ => simp [ih]

end MobDebug.Channel
