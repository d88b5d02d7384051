import MobDebug.Proofs.Session.Attachment
import MobDebug.Proofs.Session.Orders

/-! The breakpoints of a session that attaches. The call tells them from a list made at the start,
while other calls set and clear breakpoints. In the end the debuggee has those that the session
shows, unless one was cleared before its turn came: it is told all the same. -/
namespace MobDebug
open Channel (Request Outcome acceptedIn answersIn keptIn)
open Session (Awaiting Breakpoint Call Progress Greeted Began Continued Guarded)

/-- Whether the breakpoint is set when each of the commands has been done, in this order. -/
def Session.Breakpoint.replayed (b : Breakpoint) (rs : List Request) : Bool :=
  rs.foldl (fun has r => (b.edit? r).getD has) false

/-- The call takes the session, if that is free. -/
def Session.Call.attaches : Call → Bool
  | .attach _ => true
  | .connect _ => true
  | _ => false

/-- The call tells the breakpoint in its next part. -/
def Session.Awaiting.tells (b : Breakpoint) : Awaiting → Bool
  | .attach _ (c :: _) => c = b
  | _ => false

namespace Session
variable {s t : Session} {a : Nat → Option (Nat × Awaiting)} {b c : Breakpoint} {n id : Nat}
  {on : Bool} {rest : List Breakpoint} {current : Option Breakpoint} {awaiting : Awaiting}
  {o : Outcome} {p : Progress} {rs qs : List Request} {r : Request}

theorem replayed_concat : b.replayed (rs ++ [r]) = (b.edit? r).getD (b.replayed rs) :=
  List.foldl_concat ..

theorem replayed_append (h : ∀ r ∈ qs, b.edit? r = none) :
    b.replayed (rs ++ qs) = b.replayed rs := by
  induction qs using List.reverseRecOn with
  | nil => rw [List.append_nil]
  | append_singleton qs q ih =>
    rw [← List.append_assoc, replayed_concat, h q List.mem_concat_self, Option.getD_none]
    exact ih fun r hr => h r (List.mem_append_left _ hr)

theorem replayed_orders (b : Breakpoint) (s : Session) :
    b.replayed (b.orders s) = b.replayed (acceptedIn s.journal) := by
  rw [Breakpoint.orders, commands_eq]
  induction acceptedIn s.journal using List.reverseRecOn with
  | nil => rfl
  | append_singleton rs r ih =>
    rw [List.filter_append, List.filter_singleton, replayed_concat]
    cases he : b.edit? r with
    | none => exact (congrArg b.replayed (List.append_nil _)).trans ih
    | some on => exact replayed_concat.trans (by rw [he]; rfl)

/-- The session shows the breakpoint just if its commands have set it. -/
structure Agreed (b : Breakpoint) (s : Session) : Prop where
  attached : s.link.isSome
  shown : b ∈ s.core.breakpoints ↔ b.replayed (acceptedIn s.journal)

namespace Agreed

theorem spares (h : s.Agreed b) (hs : Spares b s t) : t.Agreed b := by
  refine ⟨hs.attached, ?_⟩
  rw [hs.shown, ← replayed_orders, hs.orders, replayed_orders]
  exact h.shown

theorem drifts (h : s.Agreed b) (hd : s.Drifts t) : t.Agreed b :=
  h.spares (.of_drifts hd h.attached)

/-- A command sets the breakpoint or clears it. -/
theorem of_order (hl : t.link.isSome) (hb : b ∈ t.core.breakpoints ↔ on = true)
    (hc : t.commands = s.commands ++ [r]) (he : b.edit? r = some on) : t.Agreed b := by
  refine ⟨hl, ?_⟩
  rw [hb, ← replayed_orders, orders_edit hc he, replayed_concat, he, Option.getD_some]

/-- The first part of a call: it edits the breakpoint, or has nothing to do with it. -/
theorem began (h : s.Agreed b) (hsort : s.Sorted) (hb : Began s t p) : t.Agreed b := by
  rcases began_edits hb h.attached hsort b with hspares | ⟨on, r, hedits, -⟩
  · exact h.spares hspares
  · exact .of_order hedits.attached hedits.after hedits.commands hedits.edit

end Agreed

/-- A call tells a breakpoint that the session still has, or another one. -/
theorem agreed_told {operation : Operation} (hs : s.submit operation (c.command true) = .ok (id, t))
    (h : if c = b then b ∈ s.core.breakpoints else s.Agreed b) : t.Agreed b := by
  obtain ⟨-, hl, hcore⟩ := link_of_submit hs
  obtain ⟨r, -, he, hedit⟩ := commands_told hs
  split at h
  · next hc =>
    refine .of_order hl ?_ he ((hedit b).trans (if_pos hc))
    rw [hcore]
    exact iff_of_true h rfl
  · next hc => exact h.spares ⟨hl, by rw [hcore], orders_other he ((hedit b).trans (if_neg hc))⟩

theorem tells_cons : (Awaiting.attach current (c :: rest)).tells b ↔ c = b := decide_eq_true_iff

theorem mem_dropping (hsort : s.Sorted) (hne : current ≠ some b) (message : String) :
    b ∈ (s.dropping current message).core.breakpoints ↔ b ∈ s.core.breakpoints := by
  cases current with
  | none => rfl
  | some c =>
    change b ∈ mark c s.core.breakpoints false ↔ _
    rw [mem_mark hsort, if_neg]
    rintro rfl
    exact hne rfl

theorem spares_dropping (hl : s.link.isSome) (hsort : s.Sorted) (hne : current ≠ some b)
    (message : String) : Spares b s (s.dropping current message) :=
  .of_link rfl hl (mem_dropping hsort hne message)

/-- A command about the breakpoint that has its reply was not about the one told, if the reply is a
rejection. -/
theorem current_ne {code : Nat} {message : String}
    (hok : ((Awaiting.attach current rest).edit? b).isSome →
      (.error (.debuggee code message) : Outcome).isOk) : current ≠ some b := by
  rintro rfl
  cases hok (by simp [Awaiting.edit?])

/-- What a call that tells breakpoints does with its reply. -/
theorem continued_attach (hc : Continued s id (.attach current rest) o t p) :
    (∃ body, o = .ok body ∧ Greeted s rest t p) ∨
    (∃ code message, o = .error (.debuggee code message) ∧
      Greeted (s.dropping current message) rest t p) ∨
    ∃ e, o = .error e ∧ t = s.terminate ∧ p = .finished (.error e) := by
  generalize ha : Awaiting.attach current rest = awaiting at hc
  cases hc with
  | @greeted _ _ body _ _ hg =>
    cases ha
    exact .inl ⟨body, rfl, hg⟩
  | @dropped _ _ code message _ _ hg =>
    cases ha
    exact .inr (.inl ⟨code, message, rfl, hg⟩)
  | @broken _ _ e => exact .inr (.inr ⟨e, rfl, rfl, rfl⟩)
  | confirmed c on | undone c on | failed c on => cases on <;> cases ha
  | asked hask =>
    cases ha
    cases hask
  | _ => cases ha

namespace Agreed

theorem greeted (h : s.Agreed b) (hg : Greeted s rest t p)
    (hnow : (Awaiting.attach current rest).tells b → b ∈ s.core.breakpoints) : t.Agreed b := by
  cases hg with
  | done => exact h
  | @told c rest id _ hs =>
    refine agreed_told hs ?_
    split
    · next hc => exact hnow (tells_cons.2 hc)
    · exact h
  | broken e =>
    obtain ⟨l, hl⟩ := Option.isSome_iff_exists.1 h.attached
    have hg : Greeted s rest s.terminate (.finished (.error e)) := .broken e
    exact h.spares (.uses h.attached (uses_greeted hl (.inl hl) hg) .rfl nofun)

/-- The next part of a call: none takes anything back that is about the breakpoint. -/
theorem continued (h : s.Agreed b) (hsort : s.Sorted) (hc : Continued s id awaiting o t p)
    (hok : (awaiting.edit? b).isSome → o.isOk)
    (hnow : awaiting.tells b → b ∈ s.core.breakpoints) : t.Agreed b := by
  cases ha : awaiting.isAttaching with
  | false =>
    obtain ⟨hspares, -⟩ := continued_spares hc ha h.attached hsort hok
    exact h.spares hspares
  | true =>
    cases awaiting with
    | attach current rest =>
      rcases continued_attach hc with
        ⟨body, rfl, hg⟩ | ⟨code, message, rfl, hg⟩ | ⟨e, rfl, rfl, rfl⟩
      · exact h.greeted hg hnow
      · have hspares := spares_dropping h.attached hsort (current_ne hok) message
        exact (h.spares hspares).greeted hg fun htells => hspares.shown.2 (hnow htells)
      · have hg : Greeted s rest s.terminate (.finished (.error e)) := .broken e
        exact h.greeted hg hnow
    | _ => cases ha

end Agreed

/-- How far a call is that tells breakpoints. Until the breakpoint is told, the session may show it
though no command has set it. -/
inductive Greets (b : Breakpoint) (s : Session) : Progress → Prop where
  | telling {id : Nat} {current : Option Breakpoint} {rest : List Breakpoint}
      (h : b ∉ rest → s.Agreed b) : Greets b s (.waiting id (.attach current rest))
  | done (h : s.Agreed b) : Greets b s (.finished (.ok .unit))
  | broken (e : Error) : Greets b s (.finished (.error e))

theorem Greets.drifts (h : Greets b s p) (hd : s.Drifts t) : Greets b t p := by
  cases h with
  | telling h => exact .telling fun hn => (h hn).drifts hd
  | done h => exact .done (h.drifts hd)
  | broken e => exact .broken e

theorem greets_greeted (hg : Greeted s rest t p) (h : b ∉ rest → s.Agreed b)
    (hnow : (Awaiting.attach current rest).tells b → b ∈ s.core.breakpoints) : Greets b t p := by
  cases hg with
  | done => exact .done (h List.not_mem_nil)
  | @told c rest id _ hs =>
    refine .telling fun hn => agreed_told hs ?_
    split
    · next hc => exact hnow (tells_cons.2 hc)
    · next hc => exact h (List.not_mem_cons_of_ne_of_not_mem (Ne.symm hc) hn)
  | broken e => exact .broken e

/-- The call has a reply, and goes on to the next breakpoint. -/
theorem greets_continued (hc : Continued s id (.attach current rest) o t p)
    (h : b ∉ rest → s.Agreed b) (hsort : s.Sorted)
    (hok : ((Awaiting.attach current rest).edit? b).isSome → o.isOk)
    (hnow : (Awaiting.attach current rest).tells b → b ∈ s.core.breakpoints) : Greets b t p := by
  rcases continued_attach hc with ⟨body, rfl, hg⟩ | ⟨code, message, rfl, hg⟩ | ⟨e, -, -, rfl⟩
  · exact greets_greeted hg h hnow
  · have hne := current_ne hok
    have hagreed (hn : b ∉ rest) :=
      (h hn).spares (spares_dropping (h hn).attached hsort hne message)
    exact greets_greeted hg hagreed fun htells => (mem_dropping hsort hne message).2 (hnow htells)
  · exact .broken e

/-- The base directory is told by a command about no breakpoint. -/
theorem spares_directory {operation : Operation} {dir : String}
    (hs : s.submit operation { name := .baseDir, args := dir } = .ok (id, t)) : Spares b s t := by
  obtain ⟨-, hl, hcore⟩ := link_of_submit hs
  obtain ⟨r, he, hname⟩ := commands_submit hs
  have hnone : b.edit? r = none := edit?_of_name (by simp [hname]) (by simp [hname]) b
  exact ⟨hl, by rw [hcore], orders_other he hnone⟩

/-- The session as it is taken has told nothing. -/
theorem greets_attach (s : Session) (stream : Stream) (b : Breakpoint) :
    Greets b (s.attach stream).1 (s.attach stream).2 := by
  have hinstalled (hn : b ∉ s.core.breakpoints) : (s.installed stream).Agreed b :=
    ⟨rfl, iff_of_false hn nofun⟩
  unfold attach
  dsimp only
  split
  · exact .broken _
  split
  · have hfirst (htells : (Awaiting.attach none s.core.breakpoints).tells b) :
        b ∈ s.core.breakpoints := by
      cases hbs : s.core.breakpoints with
      | nil =>
        rw [hbs] at htells
        cases htells
      | cons c rest =>
        rw [hbs, tells_cons] at htells
        exact htells ▸ List.mem_cons_self
    exact greets_greeted (greet_greeted _ _) hinstalled hfirst
  · split
    · next id t hs =>
      have hspares := spares_directory (b := b) hs
      exact .telling fun hn => (hinstalled (mt hspares.shown.2 hn)).spares hspares
    · exact .broken _

theorem greets_start {call : Call} (hc : call.attaches) (s : Session) (b : Breakpoint) :
    Greets b (s.start call).1 (s.start call).2 := by
  cases call with
  | attach stream => exact greets_attach s stream b
  | connect connection =>
    change Greets b (s.connect connection).1 (s.connect connection).2
    unfold connect
    split
    · exact .broken _
    · split
      · exact .broken _
      · exact greets_attach s _ b
  | _ => cases hc

/-- No command about the breakpoint has ended with an error. -/
def Accepting (b : Breakpoint) (s : Session) : Prop :=
  ∀ r ∈ acceptedIn s.journal, (b.edit? r).isSome →
    ∀ o, (r.id, o) ∈ answersIn s.journal → o.isOk

theorem Accepting.before (h : t.Accepting b) (hc : s.Carries t) : s.Accepting b :=
  fun r hr he o ho => h r (Channel.acceptedIn_mono hc.journal hr) he o
    (Channel.answersIn_mono hc.journal ho)

theorem Accepting.reply (h : s.Accepting b) (hatt : s.Attended a) (hg : Guarded s)
    (hn : a n = some (id, awaiting)) (ho : s.outcome? id = some o) :
    (awaiting.edit? b).isSome → o.isOk := by
  obtain ⟨l, hl, -⟩ := Option.bind_eq_some_iff.1 ho
  obtain ⟨r, hr, rfl, hasks⟩ := (hatt l (.inl hl)).known n _ hn
  intro he
  rw [← hasks b] at he
  exact h r (by rwa [journal_of_link hl]) he o (answer_of_outcome hg ho)

/-- What was accepted and is not on the wire says nothing of the breakpoint, once no command about
it is outstanding. -/
theorem replayed_onWire {l : Link} (hg : Guarded s) (hl : s.link = some l) (hok : s.Accepting b)
    (hidle : Channel.edits b l.channel = []) :
    b.replayed (acceptedIn s.journal) = b.replayed l.channel.onWire := by
  have ht := hg l hl
  rw [journal_of_link hl]
  have hkept : keptIn l.channel.journal = acceptedIn l.channel.journal :=
    Channel.keptIn_of_untaken ht.untaken
  obtain ⟨later, hlater⟩ := Channel.onWire_prefix_kept (c := l.channel)
  rw [← hkept, ← hlater]
  apply replayed_append
  intro r hr
  by_contra hedit
  have hsome : (b.edit? r).isSome := Option.isSome_iff_ne_none.2 hedit
  have hmem : r ∈ keptIn l.channel.journal := hlater ▸ List.mem_append_right _ hr
  obtain ⟨done, hdone, hids⟩ := ht.ledger.account
  rw [hdone, List.mem_append] at hmem
  rcases hmem with hmem | hmem
  · -- it has its reply, so it was on the wire
    have hid : r.id ∈ (answersIn l.channel.journal).map (·.1) := hids ▸ List.mem_map_of_mem hmem
    obtain ⟨⟨_, o⟩, hanswer, rfl⟩ := List.mem_map.1 hid
    have hacc : r ∈ acceptedIn l.channel.journal := by
      rw [← hkept, hdone]
      exact List.mem_append_left _ hmem
    have hisOk := hok r (by rwa [journal_of_link hl]) hsome o (by rwa [journal_of_link hl])
    cases o with
    | error => cases hisOk
    | ok body =>
      have hsent := ht.reports.sent_of_ok hanswer
      rw [← ht.ledger.onWire_ids] at hsent
      have hinc := ht.ledger.kept_ids
      rw [← hlater, List.map_append, List.pairwise_append] at hinc
      exact Nat.lt_irrefl _ (hinc.2.2 _ hsent _ (List.mem_map_of_mem hr))
  · have hnone : b.edit? r = none := by
      rw [Channel.edits, List.filterMap_eq_nil_iff] at hidle
      exact hidle r hmem
    exact hedit hnone

end Session

namespace Debugger
variable {s u : Debugger} {b : Breakpoint} {n : Nat} {m : Link} {call : Call} {keeps : Bool}

/-- A call is to tell the breakpoint next, and the session has it no longer. -/
def Outdated (b : Breakpoint) (s : Debugger) (n : Nat) : Prop :=
  (∃ w ∈ s.awaits n, w.2.tells b) ∧ b ∉ s.session.core.breakpoints

/-- A step in which no call tells the breakpoint after it was cleared. -/
def TimelyStep (b : Breakpoint) (s u : Debugger) : Prop :=
  Step s u ∧ ∀ n, s.step? (.job n) = some u → ¬ Outdated b s n

abbrev Timely (b : Breakpoint) : Debugger → Debugger → Prop :=
  Relation.ReflTransGen (TimelyStep b)

theorem agreed_step (hs : TimelyStep b s u) (hr : Reachable s) (hok : s.session.Accepting b)
    (h : s.session.Agreed b) : u.session.Agreed b := by
  have hsort := sorted_reachable hr
  obtain ⟨hs, htimely⟩ := hs
  rcases step_cases hs with ⟨n, hstep, ht⟩ | ht
  · cases ht with
    | idle _ hd => exact h.drifts hd
    | begin _ hb hd => exact (h.began hsort hb).drifts hd
    | resume hn ho hc hd =>
      have hreply := hok.reply (attended_reachable hr) (guarded_reachable hr) hn ho
      refine (h.continued hsort hc hreply ?_).drifts hd
      intro htells
      by_contra hcleared
      exact htimely n hstep ⟨⟨_, hn, htells⟩, hcleared⟩
  · cases ht with
    | drift _ hd => exact h.drifts hd
    | receive _ _ _ hu =>
      rw [hu]
      exact h.spares (.receive h.attached _)

/-- How far the call is that attaches. -/
inductive Handshake (b : Breakpoint) (n : Nat) (s : Debugger) : Prop where
  | called {call : Call} {keeps : Bool} (hj : s.jobs.lookup n = some (.call call keeps))
      (hc : call.attaches) : Handshake b n s
  | begun {p : Progress} {keeps : Bool} (hj : s.jobs.lookup n = some (callJob keeps p))
      (hg : s.session.Greets b p) : Handshake b n s

theorem handshake_step (hs : TimelyStep b s u) (hr : Reachable s) (hok : s.session.Accepting b)
    (h : Handshake b n s) : Handshake b n u := by
  cases h with
  | called hj hc =>
    rcases lookup_step hs.1 hj (by simp) with hstep | hkept
    · obtain ⟨hd, hu⟩ := step_call hj hstep
      exact .begun hu ((Session.greets_start hc s.session b).drifts hd)
    · exact .called hkept hc
  | @begun p keeps hj hg =>
    cases hg with
    | @telling id current rest hagreed =>
      have hj : s.jobs.lookup n = some (.waiting id (.attach current rest) keeps) := hj
      rcases lookup_step hs.1 hj (by simp) with hstep | hkept
      · obtain ⟨o, ho, hd, hu⟩ := step_waiting hj hstep
        have hn : s.awaits n = some (id, .attach current rest) := by
          rw [awaits, hj]
          rfl
        have hreply := hok.reply (attended_reachable hr) (guarded_reachable hr) hn ho
        -- the step is timely: what is told is still set
        have hnow (htells : (Awaiting.attach current rest).tells b) :
            b ∈ s.session.core.breakpoints := by
          by_contra hcleared
          exact hs.2 n hstep ⟨⟨_, hn, htells⟩, hcleared⟩
        have hcont := Session.continueWith_continued s.session id (.attach current rest) o
        have hgreets :=
          Session.greets_continued hcont hagreed (sorted_reachable hr) hreply hnow
        exact .begun hu (hgreets.drifts hd)
      · have hu : u.jobs.lookup n = some (callJob keeps (.waiting id (.attach current rest))) :=
          hkept
        exact .begun hu (.telling fun hn => agreed_step hs hr hok (hagreed hn))
    | done hagreed =>
      have hu : u.jobs.lookup n = some (callJob keeps (.finished (.ok .unit))) :=
        lookup_ended hs.1 hj
      exact .begun hu (.done (agreed_step hs hr hok hagreed))
    | broken e =>
      have hu : u.jobs.lookup n = some (callJob keeps (.finished (.error e))) :=
        lookup_ended hs.1 hj
      exact .begun hu (.broken e)

theorem timely_future (h : Timely b s u) : Future s u :=
  Relation.ReflTransGen.mono (fun _ _ hs => hs.1) _ _ h

theorem handshake_future (hr : Reachable s) (h : Handshake b n s) (hf : Timely b s u)
    (hok : u.session.Accepting b) : Handshake b n u := by
  induction hf with
  | refl => exact h
  | tail hf hs ih =>
    have hbefore := hok.before (carries_turn (step_turn hs.1))
    exact handshake_step hs (hr.future (timely_future hf)) hbefore (ih hbefore)

/-- Take any run from where a call attaches, with other calls at any point in it, in which no
command about a breakpoint ends with an error and no call tells it after it was cleared. Once the
call that attaches has ended well and no command about the breakpoint is outstanding, the session
shows it exactly if the commands have set it, replayed in the order in which they were put on the
wire. -/
theorem handshake_agreed (hr : Reachable s) (hj : s.jobs.lookup n = some (.call call keeps))
    (hc : call.attaches) (hf : Timely b s u)
    (hend : u.jobs.lookup n = some (.ended (.answer (.ok .unit))))
    (hm : u.session.link = some m) (hok : u.session.Accepting b)
    (hidle : Channel.edits b m.channel = []) :
    b ∈ u.session.core.breakpoints ↔ b.replayed m.channel.onWire := by
  have hg := guarded_reachable (hr.future (timely_future hf))
  rw [← Session.replayed_onWire hg hm hok hidle]
  cases handshake_future hr (.called hj hc) hf hok with
  | called hj' => cases hend.symm.trans hj'
  | begun hj' hg =>
    have hjob := Option.some.inj (hend.symm.trans hj')
    cases hg with
    | telling => cases hjob
    | done hagreed => exact hagreed.shown
    | broken => cases hjob

theorem Timely.next {v : Debugger} (hf : Timely b s u) (hs : Step u v)
    (h : b ∈ u.session.core.breakpoints ∨
      u.jobs.all fun j => j.2.awaiting?.all fun w => !w.2.tells b) : Timely b s v := by
  refine hf.tail ⟨hs, ?_⟩
  rintro n - ⟨⟨w, hw, htells⟩, hcleared⟩
  obtain ⟨job, hj, hw⟩ := Option.bind_eq_some_iff.1 hw
  have hnone := List.all_eq_true.1 (h.resolve_left hcleared) _ (mem_of_lookup hj)
  rw [hw, Option.all_some, htells] at hnone
  cases hnone

/-- Two breakpoints are recorded, and the first is told and cleared before the second is told. -/
theorem handshake_agreed_cleared : ∃ s u m, Reachable s ∧ Future s u ∧
    s.session.core.breakpoints = [⟨"a.lua", 1⟩, ⟨"b.lua", 2⟩] ∧
    s.jobs.lookup 2 = some (.call (.attach {}) true) ∧
    u.jobs.lookup 2 = some (.ended (.answer (.ok .unit))) ∧ u.session.link = some m ∧
    m.channel.onWire.map (·.line) = ["SETB a.lua 1\n", "DELB a.lua 1\n", "SETB b.lua 2\n"] ∧
    ⟨"a.lua", 1⟩ ∉ u.session.core.breakpoints := by
  obtain ⟨s, u, m, h, hf, hrecorded, hj, hend, hm, hlines, hedits, hnone, hreplayed⟩ :
      ∃ s u m, Reachable s ∧ Timely ⟨"a.lua", 1⟩ s u ∧
        s.session.core.breakpoints = [⟨"a.lua", 1⟩, ⟨"b.lua", 2⟩] ∧
        s.jobs.lookup 2 = some (.call (.attach {}) true) ∧
        u.jobs.lookup 2 = some (.ended (.answer (.ok .unit))) ∧ u.session.link = some m ∧
        m.channel.onWire.map (·.line) =
          ["SETB a.lua 1\n", "DELB a.lua 1\n", "SETB b.lua 2\n"] ∧
        (∀ p ∈ answersIn u.session.journal, p.2.isOk) ∧
        Channel.edits ⟨"a.lua", 1⟩ m.channel = [] ∧
        Breakpoint.replayed ⟨"a.lua", 1⟩ m.channel.onWire = false := by
    have h : Reachable (.new {}) := .new {}
    have h := h.step (.begin 0 rfl rfl (.call (.setBreakpoint ⟨"a.lua", 1⟩) true))
    have h := h.step (.task (.job 0) rfl)
    have h := h.step (.begin 1 rfl rfl (.call (.setBreakpoint ⟨"b.lua", 2⟩) true))
    have h := h.step (.task (.job 1) rfl)
    have h := h.step (.begin 2 rfl rfl (.call (.attach {}) true))
    have hstay {s : Debugger} (_ : Reachable s) : Timely ⟨"a.lua", 1⟩ s s := .refl
    have hf := (hstay h).next (.task (.job 2) rfl) (by decide)
    have hf := hf.next (.begin 3 rfl rfl (.call (.clearBreakpoint ⟨"a.lua", 1⟩) true)) (by decide)
    have hf := hf.next (.task (.job 3) rfl) (by decide)
    have hf := hf.next (.task (.link .writer) rfl) (by decide)
    have hf := hf.next (.task (.link .writer) rfl) (by decide)
    have hf := hf.next (.outside
      { arriving := Text.bytes "200 OK 0\n", written := Text.bytes "SETB a.lua 1\n" } rfl
      (by decide)) (by decide)
    have hf := hf.next (.task (.link .reader) rfl) (by decide)
    have hf := hf.next (.task (.link .reader) rfl) (by decide)
    have hf := hf.next (.task (.job 2) rfl) (by decide)
    have hf := hf.next (.task (.link .writer) rfl) (by decide)
    have hf := hf.next (.task (.link .writer) rfl) (by decide)
    have hf := hf.next (.outside
      { arriving := Text.bytes "200 OK 0\n",
        written := Text.bytes "SETB a.lua 1\nDELB a.lua 1\n" } rfl (by decide)) (by decide)
    have hf := hf.next (.task (.link .reader) rfl) (by decide)
    have hf := hf.next (.task (.link .reader) rfl) (by decide)
    have hf := hf.next (.task (.job 3) rfl) (by decide)
    have hf := hf.next (.task (.link .writer) rfl) (by decide)
    have hf := hf.next (.task (.link .writer) rfl) (by decide)
    have hf := hf.next (.outside
      { arriving := Text.bytes "200 OK 0\n",
        written := Text.bytes "SETB a.lua 1\nDELB a.lua 1\nSETB b.lua 2\n" } rfl (by decide))
      (by decide)
    have hf := hf.next (.task (.link .reader) rfl) (by decide)
    have hf := hf.next (.task (.link .reader) rfl) (by decide)
    have hf := hf.next (.task (.job 2) rfl) (by decide)
    exact ⟨_, _, _, h, hf, rfl, rfl, rfl, rfl, by decide, by decide, by decide, by decide⟩
  have hagreed := handshake_agreed h hj rfl hf hend hm (fun _ _ _ _ hp => hedits _ hp) hnone
  refine ⟨s, u, m, h, timely_future hf, hrecorded, hj, hend, hm, hlines, ?_⟩
  rw [hagreed, hreplayed]
  exact Bool.false_ne_true

/-- The second of two breakpoints is cleared before it is told. The command that clears it goes out
first, and the debuggee accepts all: it has a breakpoint that the session does not show. -/
theorem handshake_disagreed : ∃ s u m, Reachable s ∧ Future s u ∧
    s.session.core.breakpoints = [⟨"a.lua", 1⟩, ⟨"b.lua", 2⟩] ∧
    s.jobs.lookup 2 = some (.call (.attach {}) true) ∧
    u.jobs.lookup 2 = some (.ended (.answer (.ok .unit))) ∧ u.session.link = some m ∧
    (∀ p ∈ answersIn m.channel.journal, p.2.isOk) ∧ m.channel.outstanding = [] ∧
    m.channel.onWire.map (·.line) = ["SETB a.lua 1\n", "DELB b.lua 2\n", "SETB b.lua 2\n"] ∧
    ⟨"b.lua", 2⟩ ∉ u.session.core.breakpoints ∧
    Breakpoint.replayed ⟨"b.lua", 2⟩ m.channel.onWire := by
  have h : Reachable (.new {}) := .new {}
  have h := h.step (.begin 0 rfl rfl (.call (.setBreakpoint ⟨"a.lua", 1⟩) true))
  have h := h.step (.task (.job 0) rfl)
  have h := h.step (.begin 1 rfl rfl (.call (.setBreakpoint ⟨"b.lua", 2⟩) true))
  have h := h.step (.task (.job 1) rfl)
  have h := h.step (.begin 2 rfl rfl (.call (.attach {}) true))
  have hstay {s : Debugger} (_ : Reachable s) : Future s s := .refl
  have hf := (hstay h).tail (.task (.job 2) rfl)
  have hf := hf.tail (.begin 3 rfl rfl (.call (.clearBreakpoint ⟨"b.lua", 2⟩) true))
  have hf := hf.tail (.task (.job 3) rfl)
  have hf := hf.tail (.task (.link .writer) rfl)
  have hf := hf.tail (.task (.link .writer) rfl)
  have hf := hf.tail (.outside
    { arriving := Text.bytes "200 OK 0\n", written := Text.bytes "SETB a.lua 1\n" } rfl
    (by decide))
  have hf := hf.tail (.task (.link .reader) rfl)
  have hf := hf.tail (.task (.link .reader) rfl)
  have hf := hf.tail (.task (.job 2) rfl)
  have hf := hf.tail (.task (.link .writer) rfl)
  have hf := hf.tail (.task (.link .writer) rfl)
  have hf := hf.tail (.outside
    { arriving := Text.bytes "200 OK 0\n",
      written := Text.bytes "SETB a.lua 1\nDELB b.lua 2\n" } rfl (by decide))
  have hf := hf.tail (.task (.link .reader) rfl)
  have hf := hf.tail (.task (.link .reader) rfl)
  have hf := hf.tail (.task (.job 3) rfl)
  have hf := hf.tail (.task (.link .writer) rfl)
  have hf := hf.tail (.task (.link .writer) rfl)
  have hf := hf.tail (.outside
    { arriving := Text.bytes "200 OK 0\n",
      written := Text.bytes "SETB a.lua 1\nDELB b.lua 2\nSETB b.lua 2\n" } rfl (by decide))
  have hf := hf.tail (.task (.link .reader) rfl)
  have hf := hf.tail (.task (.link .reader) rfl)
  have hf := hf.tail (.task (.job 2) rfl)
  exact ⟨_, _, _, h, hf, rfl, rfl, rfl, rfl, by decide, by decide, by decide, by decide,
    by decide⟩

end Debugger
end MobDebug
