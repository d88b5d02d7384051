import MobDebug.Proofs.Literal.Grammar.Regularity

/-! What has been read is written in a text that is read again, as the same value: only the least
integer changes, into the float that it equals, and with it the text. -/
namespace MobDebug.Literal

variable {d n : Nat} {label : String} {v w : Value} {entries : Table}
  {e : Key × Value}

/-- The integer whose text is read as a float. -/
def Value.least : Value := .number (.int .minValue)

/-- Tables are made of smaller values. -/
@[elab_as_elim]
theorem Value.induct {motive : Value → Prop}
    (atom : ∀ v, (∀ entries, v ≠ .table entries) → motive v)
    (table : ∀ entries, (∀ e ∈ entries, motive e.2) → motive (.table entries)) (v : Value) :
    motive v := by
  generalize hd : v.depth = d
  induction d using Nat.strong_induction_on generalizing v with
  | h d ih =>
    cases v with
    | table entries =>
      refine table entries fun e he => ih e.2.depth ?_ e.2 rfl
      rw [← hd, Value.depth, Nat.lt_succ_iff]
      exact depthIn_le_iff.1 (Nat.le_refl _) e he
    | _ => exact atom _ (by rintro _ ⟨⟩)

theorem Value.reread_atom (hv : ∀ entries, v ≠ .table entries) (hl : v ≠ .least) :
    v.reread = v := by
  cases v with
  | number n =>
    cases n with
    | int i =>
      have hi : i ≠ .minValue := by
        rintro rfl
        exact hl rfl
      rw [reread, Number.reread, if_neg hi]
    | float x => rfl
  | table entries => exact absurd rfl (hv entries)
  | _ => rfl

/-- Without the least integer, a value is read as it was. -/
theorem Value.reread_eq (h : ¬ v.Holds .least) : v.reread = v := by
  induction v using Value.induct with
  | atom v hv => exact reread_atom hv fun he => h (he ▸ .self v)
  | table entries ih =>
    rw [reread, rereadEntries_eq]
    refine congrArg Value.table ((List.map_congr_left fun e he => ?_).trans (List.map_id _))
    exact Prod.ext rfl (ih e he fun hl => h (.entry he hl))

/-- What the text of a value is read as is without the least integer, so another reading changes
nothing. -/
theorem Value.reread_holds_least (v : Value) : ¬ v.reread.Holds .least := by
  induction v using Value.induct with
  | atom v hv =>
    by_cases hl : v = .least
    · rw [hl]
      rintro ⟨⟩
    · rw [reread_atom hv hl]
      exact fun h => hl (h.of_atom hv).symm
  | table entries ih =>
    rw [reread, rereadEntries_eq]
    rintro (_ | ⟨he, h⟩)
    obtain ⟨e, hm, rfl⟩ := List.mem_map.1 he
    exact ih e hm h

theorem isEmpty_rereadEntries (entries : Table) :
    (Value.rereadEntries entries).isEmpty = entries.isEmpty := by
  rw [rereadEntries_eq, List.isEmpty_map]

/-! ### The text of the least integer -/

/-- What the text of a value is read as has no shorter text, and a longer one where the least
integer is in the value. -/
structure Value.Lengthens (v : Value) : Prop where
  le : v.render.length ≤ v.reread.render.length
  lt : v.Holds .least → v.render.length < v.reread.render.length

theorem Value.lengthens_least : least.Lengthens := by
  have hlt : least.render.length < least.reread.render.length := by decide +kernel
  exact ⟨Nat.le_of_lt hlt, fun _ => hlt⟩

theorem renderEntries_le (hv : ∀ e ∈ entries, e.2.Lengthens) (n : Nat) :
    (Value.renderEntries n entries).length ≤
      (Value.renderEntries n (Value.rereadEntries entries)).length := by
  induction entries generalizing n with
  | nil => exact Nat.le_refl _
  | cons e entries ih =>
    obtain ⟨k, v⟩ := e
    obtain ⟨hv, hentries⟩ := List.forall_mem_cons.1 hv
    have hle : v.render.length ≤ v.reread.render.length := hv.le
    have hrest := ih hentries (if k == .position n then n + 1 else n)
    simp only [Value.rereadEntries, Value.renderEntries, String.length_append,
      isEmpty_rereadEntries]
    omega

theorem renderEntries_lt (hv : ∀ e ∈ entries, e.2.Lengthens) (he : e ∈ entries)
    (hl : e.2.Holds .least) (n : Nat) : (Value.renderEntries n entries).length <
      (Value.renderEntries n (Value.rereadEntries entries)).length := by
  induction entries generalizing n with
  | nil => cases he
  | cons f entries ih =>
    obtain ⟨k, v⟩ := f
    obtain ⟨hv, hentries⟩ := List.forall_mem_cons.1 hv
    simp only [Value.rereadEntries, Value.renderEntries, String.length_append,
      isEmpty_rereadEntries]
    rcases List.mem_cons.1 he with rfl | he
    · have hlt : v.render.length < v.reread.render.length := hv.lt hl
      have hrest := renderEntries_le hentries (if k == .position n then n + 1 else n)
      omega
    · have hle : v.render.length ≤ v.reread.render.length := hv.le
      have hrest := ih hentries he (if k == .position n then n + 1 else n)
      omega

theorem Value.lengthens (v : Value) : v.Lengthens := by
  induction v using Value.induct with
  | atom v hv =>
    by_cases hl : v = .least
    · exact hl ▸ lengthens_least
    · have hr := reread_atom hv hl
      exact ⟨by rw [hr], fun h => absurd (h.of_atom hv).symm hl⟩
  | table entries ih =>
    constructor
    · simp only [reread, render, String.length_append]
      have := renderEntries_le ih 1
      omega
    · rintro (_ | ⟨he, hl⟩)
      simp only [reread, render, String.length_append]
      have := renderEntries_lt ih he hl 1
      omega

/-! ### Reading what was displayed -/

theorem Value.Within.labels (h : v.Within d)
    (hl : ∀ label, v.Holds (.reference label) → ']' ∉ label.toList) : v.Regular IsLabel where
  tables := h.regular.tables
  labels label hm := by
    have hfree := hl label hm
    refine ⟨(h.regular.labels label hm).trim_eq, ?_, ?_⟩
    · exact fun hi => hfree (hi.subset List.mem_cons_self)
    · exact fun he => hfree (List.mem_of_getLast? he)

/-- The text of a value that was read is read too, where no label has a bracket in it. It is read as
the same value, with every number of the same kind, and so has the same text, just if the least
integer is not in it. What is read from such a text is without it, so the next text is stable. -/
theorem render_stable (d : Nat) (text : String) (v : Value) (h : read d text = .ok v)
    (hl : ∀ label, v.Holds (.reference label) → ']' ∉ label.toList) :
    ∃ w, read d v.render = .ok w ∧ (w = v ↔ ¬ v.Holds .least) ∧
      (w.render = v.render ↔ ¬ v.Holds .least) ∧ ¬ w.Holds .least := by
  have hw := within_of_read h
  refine ⟨v.reread, read_of_regular (hw.labels hl) hw.depth, ⟨?_, Value.reread_eq⟩, ⟨?_, ?_⟩,
    v.reread_holds_least⟩
  · intro he
    rw [← he]
    exact v.reread_holds_least
  · intro he hm
    have := v.lengthens.lt hm
    rw [he] at this
    exact Nat.lt_irrefl _ this
  · exact fun hm => congrArg Value.render (Value.reread_eq hm)

/-- A list of the float that the least integer is read as and of a reference. -/
def leastReread : Value :=
  .table [(.int 1, Value.least.reread), (.int 2, .reference "a")]

/-- The least integer is read as a float the first time, and as that float from then on. -/
theorem render_stable_later :
    read 1 "\x7b-9223372036854775808, nil --[[ref a]]\x7d" = .ok leastReread ∧
      ∃ w, read 1 leastReread.render = .ok w ∧ w = leastReread ∧
        w.render = "\x7b-9.223372036854776e18, nil --[[ref a]]\x7d" := by
  have hlabel : IsLabel "a" := ⟨rfl, by decide, by decide⟩
  have hstorable : Storable [(.int 1, .least), (.int 2, .reference "a")] :=
    ⟨by decide, by simp [Key.Normal], by decide⟩
  have hregular : (Value.table [(.int 1, .least), (.int 2, .reference "a")]).Regular IsLabel := by
    refine .table hstorable ?_
    simp only [List.forall_mem_cons, List.not_mem_nil, false_implies, implies_true, and_true]
    exact ⟨regular_number _, regular_reference hlabel⟩
  have hread := read_of_regular (d := 1) hregular (by decide)
  have hlabels : ∀ label, leastReread.Holds (.reference label) → ']' ∉ label.toList := by
    rintro label (_ | ⟨he, h⟩)
    rcases List.mem_cons.1 he with rfl | he
    · cases h
    · cases List.mem_singleton.1 he
      cases h
      decide
  obtain ⟨w, hw, heq, -⟩ := render_stable 1 _ _ hread hlabels
  have hw' : w = leastReread := heq.2 (Value.reread_holds_least _)
  refine ⟨hread, w, hw, hw', ?_⟩
  rw [hw']
  decide +kernel

/-- An integer of 64 bits may be written with hexadecimal digits, the least one too. -/
theorem render_unstable : read defaultLimit "0x8000000000000000" = .ok .least ∧
    (∀ label, ¬ Value.least.Holds (.reference label)) ∧
    ∃ w, read defaultLimit Value.least.render = .ok w ∧ w.render ≠ Value.least.render := by
  have hdigits : HexMantissa (Text.bytes "8000000000000000")
      [8, 0, 0, 0, 0, 0, 0, 0, 0, 0, 0, 0, 0, 0, 0, 0] none :=
    .whole (by decide) nofun
  have hlit : Derives defaultLimit (Text.bytes "0x8000000000000000") .least :=
    .number (.numeral (.hex (.inl rfl) hdigits))
  have hfree : ∀ label, ¬ Value.least.Holds (.reference label) := by
    rintro _ ⟨⟩
  refine ⟨read_eq_ok_iff.2 ⟨[], _, [], rfl, .none, hlit, .closed .none, nofun⟩, hfree, ?_⟩
  refine ⟨_, read_of_regular (regular_number _) (Nat.zero_le _), ?_⟩
  decide +kernel

end MobDebug.Literal
