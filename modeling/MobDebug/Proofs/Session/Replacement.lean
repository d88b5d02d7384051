import MobDebug.Proofs.Lists
import MobDebug.Proofs.Session.Turn

/-! One job in the place of another. Nothing but the job itself notices, except where it was the
last to keep the session. -/
namespace MobDebug.Debugger

variable {s u : Debugger} {n m : Nat} {a b a' b' job : Job} {session : Session} {text : String}
  {f : Console.Loop → Console.Loop}

/-- The entry of a list of jobs, with another job if it is of this id. -/
def placed (n : Nat) (job : Job) (p : Nat × Job) : Nat × Job :=
  if p.1 = n then (n, job) else p

theorem setJob_eq (s : Debugger) (n : Nat) (job : Job) :
    s.setJob n job = { s with jobs := s.jobs.map (placed n job) } := rfl

theorem placed_fst (n : Nat) (job : Job) (p : Nat × Job) : (placed n job p).1 = p.1 := by
  unfold placed
  split
  · next h => exact h.symm
  · rfl

theorem placed_placed (n : Nat) (a b : Job) (p : Nat × Job) :
    placed n b (placed n a p) = placed n b p := by
  unfold placed
  by_cases h : p.1 = n <;> simp [h]

theorem placed_comm (hn : m ≠ n) (a b : Job) (p : Nat × Job) :
    placed m b (placed n a p) = placed n a (placed m b p) := by
  unfold placed
  by_cases hp : p.1 = n
  · simp [hp, hn.symm]
  · by_cases hq : p.1 = m <;> simp [hp, hq, hn]

theorem setJob_setJob (s : Debugger) (n : Nat) (a b : Job) :
    (s.setJob n a).setJob n b = s.setJob n b := by
  simp only [setJob_eq, List.map_map, Function.comp_def, placed_placed]

theorem setJob_comm (s : Debugger) (hn : m ≠ n) (a b : Job) :
    (s.setJob n a).setJob m b = (s.setJob m b).setJob n a := by
  simp only [setJob_eq, List.map_map, Function.comp_def, placed_comm hn]

theorem keys_setJob (s : Debugger) (n : Nat) (job : Job) :
    (s.setJob n job).jobs.map (·.1) = s.jobs.map (·.1) := by
  simp only [setJob_eq, List.map_map, Function.comp_def, placed_fst]

theorem keys_onConsole (s : Debugger) (f : Console.Loop → Console.Loop) :
    (s.onConsole f).jobs.map (·.1) = s.jobs.map (·.1) := by
  have hfirst (jobs : List (Nat × Job)) :
      (onConsole.onFirst f jobs).map (·.1) = jobs.map (·.1) := by
    fun_induction onConsole.onFirst f jobs with
    | case1 => rfl
    | case2 => rfl
    | case3 other rest _ ih => rw [List.map_cons, List.map_cons, ih]
  rw [onConsole, List.map_reverse, hfirst, ← List.map_reverse, List.reverse_reverse]

/-- No two jobs have the same id. -/
theorem distinct_reachable (h : Reachable s) : (s.jobs.map (·.1)).Nodup := by
  induction h with
  | new config => exact List.nodup_nil
  | @step s u _ hs ih =>
    rcases jobs_step hs with ⟨n, h⟩ | he | ⟨id, job, hid, -, he⟩ | ⟨f, -, he⟩
    · obtain ⟨old, session, job', text, -, -, rfl⟩ := jobStep_eq_some h
      rw [jobs_release, keys_setJob]
      exact ih
    · exact he ▸ ih
    · rw [he, List.map_append, List.nodup_append]
      refine ⟨ih, List.nodup_singleton _, ?_⟩
      rintro _ hm _ hn rfl
      obtain ⟨p, hp, rfl⟩ := List.mem_map.1 hm
      obtain rfl : p.1 = id := List.mem_singleton.1 hn
      simpa using List.lookup_eq_none_iff.1 hid p hp
    · rw [he, keys_onConsole]
      exact ih

/-- To set a job to what it is changes nothing. -/
theorem setJob_self (h : Reachable s) (hj : s.jobs.lookup n = some a) : s.setJob n a = s := by
  have hplaced (p : Nat × Job) (hp : p ∈ s.jobs) : placed n a p = id p := by
    unfold placed
    split
    · next hn =>
      have hlookup : s.jobs.lookup n = some p.2 :=
        lookup_of_mem (distinct_reachable h) (hn ▸ hp)
      cases hj.symm.trans hlookup
      rw [← hn]
      rfl
    · rfl
  rw [setJob_eq, List.map_congr_left hplaced, List.map_id]

theorem jobStep_setJob (s : Debugger) (n : Nat) (b job : Job) :
    (s.setJob n b).jobStep? job = s.jobStep? job := by
  cases job <;> rfl

/-- Somebody still has the session, or it is too late. -/
def kept (s : Debugger) : Bool :=
  s.gone || s.held || s.jobs.any (·.2.keepsSession)

theorem release_of_kept (h : s.kept) : s.release = s := if_pos h

theorem release_of_not_kept (h : s.kept = false) :
    s.release = { s with gone := true, session := s.session.close } :=
  if_neg (Bool.not_eq_true _ ▸ h)

theorem release_held (s : Debugger) : s.release.held = s.held := by
  unfold release
  split <;> rfl

theorem kept_setJob (hk : s.held ∨ b.keepsSession = a.keepsSession) :
    (s.setJob n b).kept = (s.setJob n a).kept := by
  have hheld (job : Job) (h : s.held) : (s.setJob n job).kept := by simp [kept, setJob, h]
  rcases hk with hk | hk
  · rw [hheld b hk, hheld a hk]
  have hplaced (p : Nat × Job) :
      (placed n b p).2.keepsSession = (placed n a p).2.keepsSession := by
    unfold placed
    split
    · exact hk
    · rfl
  simp only [kept, setJob_eq, List.any_map, Function.comp_def, hplaced]

theorem release_setJob (hk : s.held ∨ b.keepsSession = a.keepsSession) :
    (s.setJob n a).release.setJob n b = (s.setJob n b).release := by
  cases hkept : (s.setJob n a).kept with
  | true =>
    rw [release_of_kept hkept, release_of_kept ((kept_setJob hk).trans hkept), setJob_setJob]
  | false =>
    rw [release_of_not_kept hkept, release_of_not_kept ((kept_setJob hk).trans hkept)]
    exact congrArg (fun s : Debugger => { s with gone := true, session := s.session.close })
      (setJob_setJob s n a b)

theorem onFirst_cons (ha : ∀ loop, a ≠ .console loop) (rest : List (Nat × Job)) :
    onConsole.onFirst f ((n, a) :: rest) = (n, a) :: onConsole.onFirst f rest := by
  cases a with
  | console loop => exact absurd rfl (ha loop)
  | _ => rfl

theorem onConsole_setJob (ha : ∀ loop, a ≠ .console loop) (hb : ∀ loop, b ≠ .console loop)
    (f : Console.Loop → Console.Loop) :
    ((s.setJob n a).onConsole f).setJob n b = (s.setJob n b).onConsole f := by
  have hfirst (jobs : List (Nat × Job)) :
      (onConsole.onFirst f (jobs.map (placed n a))).map (placed n b) =
        onConsole.onFirst f (jobs.map (placed n b)) := by
    induction jobs with
    | nil => rfl
    | cons p jobs ih =>
      rw [List.map_cons, List.map_cons]
      by_cases hp : p.1 = n
      · have hplaced (c : Job) : placed n c p = (n, c) := if_pos hp
        rw [hplaced, hplaced, onFirst_cons ha, onFirst_cons hb, List.map_cons, ih, placed,
          if_pos rfl]
      · have hplaced (c : Job) : placed n c p = p := if_neg hp
        rw [hplaced, hplaced]
        by_cases hc : ∀ loop, p.2 ≠ .console loop
        · rw [onFirst_cons hc, onFirst_cons hc, List.map_cons, ih, hplaced]
        · obtain ⟨m, job⟩ := p
          obtain ⟨loop, rfl⟩ := not_forall_not.1 hc
          have hchanged : placed n b (m, .console (f loop)) = (m, .console (f loop)) := if_neg hp
          simp only [onConsole.onFirst, List.map_cons, hchanged, List.map_map, Function.comp_def,
            placed_placed]
  have hjobs := hfirst s.jobs.reverse
  rw [List.map_reverse, List.map_reverse] at hjobs
  simp only [setJob_eq, onConsole, List.map_reverse, hjobs]

theorem begin_setJob (s : Debugger) (hn : m ≠ n) (b job : Job) :
    (s.begin m job).setJob n b = (s.setJob n b).begin m job := by
  have hnew : placed n b (m, job) = (m, job) := if_neg hn
  simp only [setJob_eq, begin, List.map_append, List.map_singleton, hnew]

theorem pumpStep_setJob (s : Debugger) (n : Nat) (b : Job) :
    (s.setJob n b).pumpStep? = s.pumpStep?.map (·.setJob n b) := by
  obtain ⟨session, held, gone, pumped, pumping, jobs, out⟩ := s
  cases pumping with
  | false => rfl
  | true =>
    simp only [pumpStep?, setJob]
    cases session.link with
    | none => rfl
    | some l =>
      dsimp only [Option.bind]
      cases l.channel.events[pumped]? with
      | none => rfl
      | some e => cases gone <;> rfl

theorem jobStep_other (hself : s.setJob n a = s) (hj : (s.jobs.lookup n).isSome) (hn : m ≠ n)
    (hk : s.held ∨ b.keepsSession = a.keepsSession) (hs : s.step? (.job m) = some u) :
    (s.setJob n b).step? (.job m) = some (u.setJob n b) := by
  obtain ⟨job, session, job', text, hm, hjob, rfl⟩ := jobStep_eq_some hs
  have hlookup : (s.setJob n b).jobs.lookup m = some job := by
    rw [lookup_setJob hj, if_neg hn, hm]
  rw [step?, hlookup, Option.bind_some, jobStep_setJob, hjob, Option.map_some]
  refine congrArg some ?_
  -- the job is `a` still after the step of the other
  let t : Debugger := { s with session, out := s.out ++ text }
  have hkept : (t.setJob m job').setJob n a = t.setJob m job' := by
    have hafter (s : Debugger) (hs : s.setJob n a = s) (text : String) :
        { s with session, out := s.out ++ text }.setJob n a =
          { s with session, out := s.out ++ text } :=
      congrArg (fun s : Debugger => { s with session, out := s.out ++ text }) hs
    rw [setJob_comm t hn.symm, hafter s hself text]
  have hreleased := @release_setJob (t.setJob m job') n a b hk
  calc ((t.setJob n b).setJob m job').release
    _ = ((t.setJob m job').setJob n b).release := by rw [setJob_comm t hn]
    _ = ((t.setJob m job').setJob n a).release.setJob n b := hreleased.symm
    _ = (t.setJob m job').release.setJob n b := by rw [hkept]

/-- What is no step of a job happens whatever the job is. -/
theorem step_setJob (hs : Step s u) (hself : s.setJob n a = s) (hj : (s.jobs.lookup n).isSome)
    (ha : ∀ loop, a ≠ .console loop) (hb : ∀ loop, b ≠ .console loop)
    (hown : s.step? (.job n) ≠ some u) (hk : u.held ∨ b.keepsSession = a.keepsSession) :
    Step (s.setJob n b) (u.setJob n b) := by
  -- the console is another job, so what is typed reaches it whatever this one is
  have hconsole (f : Console.Loop → Console.Loop) :
      (s.onConsole f).setJob n b = (s.setJob n b).onConsole f := by
    rw [← onConsole_setJob ha hb, hself]
  cases hs with
  | task task h =>
    cases taskTurn h with
    | @link t _ _ hl hm => exact .task (.link t) (by simp [step?, setJob, hl, hm])
    | @refused i t _ _ hl hm => exact .task (.refused i t) (by simp [step?, setJob, hl, hm])
    | stops | brings =>
      refine .task .pump ((pumpStep_setJob s n b).trans ?_)
      rw [show s.pumpStep? = some _ from h, Option.map_some]
    | @job m =>
      -- a step of the job itself is excluded
      have hn : m ≠ n := by
        rintro rfl
        exact hown h
      rw [release_held] at hk
      exact .task (.job m) (jobStep_other hself hj hn hk h)
  | begin m hheld hid hnew =>
    have hn : m ≠ n := by
      rintro rfl
      rw [hid] at hj
      cases hj
    rw [begin_setJob s hn]
    exact .begin m hheld (by rw [lookup_setJob hj, if_neg hn, hid]) hnew
  | type bytes =>
    rw [hconsole]
    exact .type bytes
  | endInput =>
    rw [hconsole]
    exact .endInput
  | drop =>
    -- the session is released with either job, or with neither
    have hdropped : s.drop.setJob n b = (s.setJob n b).drop := by
      have hself : { s with held := false }.setJob n a = { s with held := false } :=
        congrArg (fun s : Debugger => { s with held := false }) hself
      rw [drop, release_held] at hk
      rw [drop, ← hself, release_setJob hk]
      rfl
    rw [hdropped]
    exact .drop
  | outside stream hl h => exact .outside stream hl h
  | outsideRefused i stream hl h => exact .outsideRefused i stream hl h
  | tick now hl h => exact .tick now hl h

/-- A job that does the same to the session takes its step in the place of the other. -/
theorem step_own_setJob (hj : s.jobs.lookup n = some a)
    (ha : s.jobStep? a = some (session, a', text)) (hb : s.jobStep? b = some (session, b', text))
    (hs : s.step? (.job n) = some u) (hk : u.held ∨ b'.keepsSession = a'.keepsSession) :
    (s.setJob n b).step? (.job n) = some (u.setJob n b') := by
  obtain ⟨job, session', job', text', hjob, hstep, rfl⟩ := jobStep_eq_some hs
  cases hj.symm.trans hjob
  cases ha.symm.trans hstep
  have hlookup : (s.setJob n b).jobs.lookup n = some b := by
    rw [lookup_setJob (by rw [hj]; rfl), if_pos rfl]
  rw [step?, hlookup, Option.bind_some, jobStep_setJob, hb, Option.map_some]
  refine congrArg some ?_
  let t : Debugger := { s with session, out := s.out ++ text }
  rw [release_held] at hk
  have hreleased := @release_setJob t n a' b' hk
  calc ((t.setJob n b).setJob n b').release
    _ = (t.setJob n b').release := by rw [setJob_setJob]
    _ = (t.setJob n a').release.setJob n b' := hreleased.symm

end MobDebug.Debugger
