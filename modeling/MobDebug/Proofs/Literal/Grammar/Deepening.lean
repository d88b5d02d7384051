import MobDebug.Proofs.Literal.Grammar.Shallow
import MobDebug.Proofs.Literal.Grammar.Reading

/-! Two limits of the depth make no difference up to the first table that is too deep for the lower
one. -/
namespace MobDebug.Literal

variable {α β : Type} {limit limit' d d' m n : Nat} {s t : List UInt8} {text : String}
  {x y : Except Failure (Parsed α s)} {table table' item item' : Parser Value}

/-- At most `m` bytes are left of the text behind what is read, or where a table is too deep. -/
structure Past (limit m : Nat) (x : Except Failure (Parsed α s)) : Prop where
  rest : ∀ p, x = .ok p → p.rest.length ≤ m
  deep : ∀ n, x = .error ⟨.tooDeep limit, n⟩ → n ≤ m

/-- Two readings of at most `n` bytes under a limit and a higher one. They are the same, or the
first finds a table too deep, and the second comes at least as far. -/
inductive Deepens {α : Type} {s : List UInt8} (limit limit' n : Nat) :
    Except Failure (Parsed α s) → Except Failure (Parsed α s) → Prop
  | same {x : Except Failure (Parsed α s)} (h : Shallow x)
      (hn : ∀ p, x = .ok p → p.rest.length ≤ n) : Deepens limit limit' n x x
  | deep {m : Nat} {y : Except Failure (Parsed α s)} (hm : m ≤ n) (h : Past limit' m y) :
      Deepens limit limit' n (.error ⟨.tooDeep limit, m⟩) y

theorem Past.mono (h : Past limit m x) (hm : m ≤ n) : Past limit n x :=
  ⟨fun p hp => Nat.le_trans (h.rest p hp) hm, fun l hl => Nat.le_trans (h.deep l hl) hm⟩

theorem Deepens.past (h : Deepens limit limit' n x y) : Past limit' n y := by
  cases h with
  | same h hn => exact ⟨hn, fun l hl => absurd rfl (h _ hl limit')⟩
  | deep hm h => exact h.mono hm

theorem Deepens.mono (h : Deepens limit limit' m x y) (hm : m ≤ n) :
    Deepens limit limit' n x y := by
  cases h with
  | same h hn => exact .same h fun p hp => Nat.le_trans (hn p hp) hm
  | deep hl h => exact .deep (Nat.le_trans hl hm) h

theorem Shallow.deepens (h : Shallow x) : Deepens limit limit' s.length x x :=
  .same h fun p _ => Nat.le_of_lt p.shorter

/-- What goes on behind two readings, and hands their failures on. -/
theorem Deepens.andThen {f g : Except Failure (Parsed α s) → Except Failure (Parsed β t)}
    (h : Deepens limit limit' n x y) (hf : ∀ e, f (.error e) = .error e)
    (hg : ∀ e, g (.error e) = .error e)
    (hok : ∀ p, Deepens limit limit' p.rest.length (f (.ok p)) (g (.ok p))) :
    Deepens limit limit' n (f x) (g y) := by
  cases h with
  | same h hn =>
    cases x with
    | error e =>
      rw [hf, hg]
      exact .same (h.error rfl) nofun
    | ok p => exact (hok p).mono (hn p rfl)
  | @deep m _ hm h =>
    rw [hf]
    refine .deep hm ?_
    cases y with
    | error e =>
      rw [hg]
      refine ⟨nofun, ?_⟩
      rintro l ⟨⟩
      exact h.deep l rfl
    | ok p => exact (hok p).past.mono (h.rest p rfl)

theorem deepens_ok {p : Parsed α s} (hp : p.rest.length ≤ n) :
    Deepens limit limit' n (.ok p) (.ok p) := by
  refine .same (shallow_ok p) ?_
  rintro _ ⟨⟩
  exact hp

theorem deepens_error {e : Failure} (h : Shallow (.error e : Except Failure (Parsed α s))) :
    Deepens limit limit' n (.error e : Except Failure (Parsed α s)) (.error e) := by
  refine .same h ?_
  rintro _ ⟨⟩

theorem deepens_failAt {fault : Fault} (h : ∀ limit, fault ≠ .tooDeep limit) :
    Deepens limit limit' n (failAt fault t : Except Failure (Parsed α s)) (failAt fault t) :=
  deepens_error (shallow_failAt.2 h)

theorem Deepens.map {f : Parsed α s → Parsed β t} (h : Deepens limit limit' m x y) (hm : m ≤ n)
    (hf : ∀ p, (f p).rest = p.rest) : Deepens limit limit' n (x.map f) (y.map f) :=
  (h.mono hm).andThen (f := Except.map f) (g := Except.map f) (fun _ => rfl) (fun _ => rfl)
    fun p => deepens_ok (Nat.le_of_eq (congrArg List.length (hf p)))

theorem Deepens.bind {f g : Parsed α s → Except Failure (Parsed β t)}
    (h : Deepens limit limit' n x y)
    (hok : ∀ p, Deepens limit limit' p.rest.length (f p) (g p)) :
    Deepens limit limit' n (x >>= f) (y >>= g) :=
  h.andThen (f := (· >>= f)) (g := (· >>= g)) (fun _ => rfl) (fun _ => rfl) hok

/-! ### Readers -/

/-- Two readers of the same, under a limit and a higher one. -/
def Deeper (limit limit' : Nat) (P P' : Parser α) : Prop :=
  ∀ s, Deepens limit limit' s.length (P s) (P' s)

/-- A literal other than a table is read without a reader of tables. -/
theorem literal_other (table table' : Parser Value) {b : UInt8} (hb : b ≠ ascii '\x7b')
    (r : List UInt8) : literal table b r = literal table' b r := by
  unfold literal
  rw [if_neg hb, if_neg hb]

theorem deepens_literal (h : Deeper limit limit' table table') (b : UInt8) (r : List UInt8) :
    Deepens limit limit' (b :: r).length (literal table b r) (literal table' b r) := by
  by_cases hb : b = ascii '\x7b'
  · unfold literal
    rw [if_pos hb, if_pos hb]
    exact h (b :: r)
  · rw [literal_other table table' hb]
    exact (shallow_literal table' hb r).deepens

theorem deeper_literalAfterTrivia (h : Deeper limit limit' table table') :
    Deeper limit limit' (literalAfterTrivia table) (literalAfterTrivia table') := by
  intro s
  unfold literalAfterTrivia
  split
  · next he => exact deepens_error ((shallow_skipTrivia s).error he)
  · exact deepens_failAt (by rintro _ ⟨⟩)
  · next b r hr _ => exact (deepens_literal h b r).map hr fun _ => rfl

theorem deepens_bracketEntry (h : Deeper limit limit' item item') (s : List UInt8) :
    Deepens limit limit' s.length (bracketEntry item s) (bracketEntry item' s) := by
  unfold bracketEntry
  refine (h s).bind fun key => ?_
  refine (shallow_expect _ _).deepens.bind fun closed => ?_
  refine (shallow_expect _ _).deepens.bind fun equals => ?_
  refine (h equals.rest).bind fun value => ?_
  split
  · exact deepens_ok (Nat.le_refl _)
  · exact deepens_failAt (by rintro _ ⟨⟩)

theorem deepens_positionalEntry (h : Deeper limit limit' item item') (s : List UInt8) :
    Deepens limit limit' s.length (positionalEntry item s) (positionalEntry item' s) :=
  (h s).map (Nat.le_refl _) fun _ => rfl

theorem deeper_entry (h : Deeper limit limit' item item') :
    Deeper limit limit' (entry item) (entry item') := by
  rintro (- | ⟨b, r⟩)
  · exact deepens_positionalEntry h []
  rw [entry, entry]
  split
  · exact (deepens_bracketEntry h r).map (Nat.le_succ _) fun _ => rfl
  split
  · exact deepens_positionalEntry h _
  next name _ =>
  split
  · next he => exact deepens_error ((shallow_equalsSign? _).error he)
  · exact deepens_positionalEntry h _
  next equals _ =>
  split
  · exact deepens_failAt (by rintro _ ⟨⟩)
  · refine (h equals.rest).map ?_ fun _ => rfl
    exact Nat.le_of_lt (Nat.lt_trans equals.shorter name.shorter)

/-- By induction on what is left to read. -/
theorem deepens_entries (h : Deeper limit limit' item item') (before : Table) (n : Nat)
    (s : List UInt8) :
    Deepens limit limit' s.length (entries item before n s) (entries item' before n s) := by
  induction hn : s.length using Nat.strong_induction_on generalizing s before n with
  | _ m ih =>
  subst hn
  rw [entries, entries]
  split
  · next he => exact deepens_error ((shallow_skipTrivia s).error he)
  next u hu _ =>
  dsimp only
  split
  · exact (shallow_ok _).deepens
  refine Deepens.mono ?_ hu
  have hentry := deeper_entry h u
  generalize entry item u = x at hentry ⊢
  generalize entry item' u = y at hentry ⊢
  apply hentry.andThen
  · exact fun _ => rfl
  · exact fun _ => rfl
  intro p
  obtain ⟨⟨key, value⟩, after, hafter⟩ := p
  dsimp only
  split
  · next he => exact deepens_error ((shallow_skipTrivia _).error he)
  · exact deepens_failAt (by rintro _ ⟨⟩)
  next b r hr _ =>
  have hlt : r.length < after.length := hr
  split
  · exact (ih _ (by omega) _ _ r rfl).map (Nat.le_of_lt hlt) fun _ => rfl
  split
  · exact deepens_ok (Nat.le_of_lt hlt)
  · exact deepens_failAt (by rintro _ ⟨⟩)

theorem deeper_tableOf (h : Deeper limit limit' item item') :
    Deeper limit limit' (tableOf item) (tableOf item') := by
  rintro (- | ⟨b, r⟩)
  · exact Shallow.deepens (by simp [tableOf])
  · exact (deepens_entries h [] 1 r).map (Nat.le_succ _) fun _ => rfl

theorem deeper_self (limit d : Nat) :
    Deeper limit limit (tableReader limit d) (tableReader limit d) := by
  induction d with
  | zero =>
    refine fun s => .deep (Nat.le_refl _) ⟨nofun, ?_⟩
    rintro n ⟨⟩
    exact Nat.le_refl _
  | succ d ih => exact deeper_tableOf (deeper_literalAfterTrivia ih)

/-- By induction on the levels: at the last one under the lower limit, the reader under the higher
one has yet to read. -/
theorem deeper_tableReader (h : d ≤ d') :
    Deeper limit limit' (tableReader limit d) (tableReader limit' d') := by
  induction d generalizing d' with
  | zero => exact fun s => .deep (Nat.le_refl _) (deeper_self limit' d' s).past
  | succ d ih =>
    obtain ⟨d', rfl⟩ := Nat.exists_eq_succ_of_ne_zero (n := d') (by omega)
    exact deeper_tableOf (deeper_literalAfterTrivia (ih (Nat.le_of_succ_le_succ h)))

/-! ### Texts -/

theorem deepens_value (h : d ≤ d') (s : List UInt8) :
    Deepens d d' s.length (value d d s) (value d' d' s) := by
  rw [value_eq, value_eq]
  exact deeper_literalAfterTrivia (deeper_tableReader h) s

theorem mapError_eq_error {γ δ : Type} {f : γ → δ} {x : Except γ α} {e : δ} :
    x.mapError f = .error e ↔ ∃ a, x = .error a ∧ f a = e := by
  cases x <;> simp [Except.mapError]

theorem map_eq_error {f : α → β} {x : Except Failure α} {e : Failure} :
    x.map f = .error e ↔ x = .error e := by
  cases x <;> simp [Except.map]

theorem bind_eq_error {f : α → Except Failure β} {x : Except Failure α} {e : Failure} :
    x >>= f = .error e ↔ x = .error e ∨ ∃ a, x = .ok a ∧ f a = .error e := by
  cases x <;> simp [Bind.bind, Except.bind]

/-- Behind the literal nothing can be too deep. -/
theorem read_deep_iff {l o : Nat} : read limit text = .error ⟨.tooDeep l, o⟩ ↔
    ∃ m, value limit limit (Text.bytes text) = .error ⟨.tooDeep l, m⟩ ∧
      o = (Text.bytes text).length - m := by
  simp only [read, mapError_eq_error, bind_eq_error]
  constructor
  · rintro ⟨⟨fault, m⟩, h | ⟨p, -, hend⟩, he⟩
    · cases he
      exact ⟨m, h, rfl⟩
    · have hs : Shallow (skipTrivia p.rest >>= fun rest =>
          if rest.1.isEmpty then .ok p.value else failAt .trailingInput rest.1) :=
        (shallow_skipTrivia p.rest).bind fun rest => shallow_ite (shallow_ok _) (by simp)
      cases he
      exact absurd rfl (hs _ (bind_eq_error.2 hend) l)
  · rintro ⟨m, h, rfl⟩
    exact ⟨_, .inl h, rfl⟩

/-- Under a higher limit a text is read just the same, and no table is too deep; or there is one for
the lower limit, and none before it for the higher. -/
theorem read_deepens (h : d ≤ d') (text : String) :
    (read d text = read d' text ∧ ∀ l o, read d text ≠ .error ⟨.tooDeep l, o⟩) ∨
    ∃ o, read d text = .error ⟨.tooDeep d, o⟩ ∧
      ∀ o', read d' text = .error ⟨.tooDeep d', o'⟩ → o ≤ o' := by
  have hv := deepens_value h (Text.bytes text)
  generalize hx : value d d (Text.bytes text) = x at hv
  generalize hy : value d' d' (Text.bytes text) = y at hv
  cases hv with
  | same hs =>
    refine .inl ⟨by simp only [read, hx, hy], fun l o hd => ?_⟩
    obtain ⟨m, hm, -⟩ := read_deep_iff.1 hd
    exact hs _ (hx.symm.trans hm) l rfl
  | @deep m _ hm hpast =>
    refine .inr ⟨_, read_deep_iff.2 ⟨m, hx, rfl⟩, fun o' hd => ?_⟩
    obtain ⟨m', hm', rfl⟩ := read_deep_iff.1 hd
    exact Nat.sub_le_sub_left (hpast.deep m' (hy.symm.trans hm')) _

end MobDebug.Literal
