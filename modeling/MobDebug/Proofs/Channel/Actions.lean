import MobDebug.Proofs.Channel.Traffic

/-! Runs as lists of what is done: by callers, by a task, on the other side of the stream or by the
clock. What cannot be done when its turn comes changes nothing. -/
namespace MobDebug
open Wire (Command)

/-- The link after a turn of a task, which may have nothing to do. -/
def Link.act (l : Link) (task : Link.Task) : Link := (l.step? task).getD l

namespace Traffic

inductive Action where
  | submit (command : Command)
  | cancel (id : Nat)
  | forget (id : Nat)
  | receive (id : Nat)
  | close
  | task (task : Link.Task)
  | outside (s : Stream)
  | tick (now : Nat)

/-- A handle is let go with its command taken back, if that still waits. -/
def cancel (t : Traffic) (id : Nat) : Traffic :=
  match t.link.channel.withdraw? id with
  | some c =>
    { t with
      link := { t.link with channel := c }
      withdrawn := t.withdrawn ++ [id]
      handles := t.handles.erase id }
  | none => t

/-- A handle is let go for the outcome of its command, if there is one. -/
def receive (t : Traffic) (id : Nat) : Traffic :=
  match t.link.channel.outcome? id with
  | some o => { t with handles := t.handles.erase id, received := t.received ++ [(id, o)] }
  | none => t

def submit (t : Traffic) (command : Command) : Traffic :=
  match t.link.channel.submit command with
  | .ok (id, c) =>
    { t with
      link := { t.link with channel := c }
      submitted := t.submitted ++ [(id, command)]
      handles := t.handles ++ [id] }
  | .error _ => t

def act (t : Traffic) : Action → Traffic
  | .submit command => t.submit command
  | .cancel id => if id ∈ t.handles then t.cancel id else t
  | .forget id => { t with handles := t.handles.erase id }
  | .receive id => if id ∈ t.handles then t.receive id else t
  | .close => { t with link := t.link.fail .channelClosed }
  | .task task => { t with link := t.link.act task }
  | .outside s =>
    if s.written = t.link.stream.written then { t with link := { t.link with stream := s } } else t
  | .tick now => if t.link.now ≤ now then { t with link := { t.link with now } } else t

/-- Where a link comes to by a run. -/
def run (l : Link) (actions : List Action) : Traffic := actions.foldl act { link := l }

variable {t u : Traffic} {l : Link} {actions : List Action}

theorem act_step (t : Traffic) (a : Action) : t.act a = t ∨ Step t (t.act a) := by
  cases a with
  | submit command =>
    simp only [act, submit]
    split
    · next hs => exact .inr (.submit command hs)
    · exact .inl rfl
  | cancel id =>
    simp only [act, cancel]
    split
    · next hh =>
      split
      · next hs => exact .inr (.cancel id hh hs)
      · exact .inl rfl
    · exact .inl rfl
  | forget id => exact .inr (.forget id)
  | receive id =>
    simp only [act, receive]
    split
    · next hh =>
      split
      · next hs => exact .inr (.receive id hh hs)
      · exact .inl rfl
    · exact .inl rfl
  | close => exact .inr .close
  | task task =>
    simp only [act, Link.act]
    cases hs : t.link.step? task with
    | none => exact .inl rfl
    | some l => exact .inr (.task task hs)
  | outside s =>
    simp only [act]
    split
    · next hs => exact .inr (.outside s hs)
    · exact .inl rfl
  | tick now =>
    simp only [act]
    split
    · next hs => exact .inr (.tick now hs)
    · exact .inl rfl

/-- Whatever may happen is an action. -/
theorem step_act (hs : Step t u) : ∃ a, t.act a = u := by
  cases hs with
  | submit command h => exact ⟨.submit command, by simp [act, submit, h]⟩
  | cancel id hh h => exact ⟨.cancel id, by simp [act, cancel, hh, h]⟩
  | forget id => exact ⟨.forget id, rfl⟩
  | receive id hh h => exact ⟨.receive id, by simp [act, receive, hh, h]⟩
  | close => exact ⟨.close, rfl⟩
  | task task h => exact ⟨.task task, by simp [act, Link.act, h]⟩
  | outside s h => exact ⟨.outside s, by simp [act, h]⟩
  | tick now h => exact ⟨.tick now, by simp [act, h]⟩

theorem act_future (t : Traffic) (a : Action) : Future t (t.act a) := by
  rcases act_step t a with h | h
  · rw [h]
  · exact .single h

@[simp] theorem run_snoc (l : Link) (actions : List Action) (a : Action) :
    run l (actions ++ [a]) = (run l actions).act a :=
  List.foldl_concat _ _ _ _

theorem run_future (l : Link) (pre post : List Action) :
    Future (run l pre) (run l (pre ++ post)) := by
  induction post using List.reverseRecOn with
  | nil => simpa using Relation.ReflTransGen.refl
  | append_singleton post a ih =>
    rw [← List.append_assoc, run_snoc]
    exact ih.trans (act_future _ a)

theorem run_reachable (h : l.Opened) (actions : List Action) : Reachable (run l actions) :=
  Reachable.future (.opened h) (run_future l [] actions)

/-- Every state that can be reached is where a run comes to. -/
theorem exists_run (h : Reachable t) : ∃ l actions, l.Opened ∧ run l actions = t := by
  induction h with
  | @opened l h => exact ⟨l, [], h, rfl⟩
  | step _ hs ih =>
    obtain ⟨l, actions, hl, rfl⟩ := ih
    obtain ⟨a, rfl⟩ := step_act hs
    exact ⟨l, actions ++ [a], hl, run_snoc l actions a⟩

end Traffic
end MobDebug
